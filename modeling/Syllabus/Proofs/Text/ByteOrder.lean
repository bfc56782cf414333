import Mathlib.Data.List.Basic
import Mathlib.Tactic.SplitIfs

/-!
# Syllabus: texts in the order of their bytes

Texts are compared character by character, and written as the bytes of their characters. A character
before another one has bytes before those of the other, even if it takes fewer or more of them, so
texts are in the order of their bytes.

* **`encode_lt`**: the bytes of two characters, with anything behind them.
* **`bytes_lt`**: the bytes of two texts.
-/

namespace Syllabus.Text

/-- The bytes that a text is written as. -/
def bytes (text : String) : List UInt8 := text.toUTF8.data.toList

theorem bytes_eq (text : String) : bytes text = text.toList.flatMap String.utf8EncodeChar := by
  have hencode : text.toUTF8 = text.toList.utf8Encode := String.utf8Encode_toList.symm
  rw [bytes, hencode, List.utf8Encode, List.data_toByteArray]

/-- **Characters.** Their bytes are told apart by the first that differ. -/
theorem encode_lt {c d : Char} (h : c < d) (behind behind' : List UInt8) :
    String.utf8EncodeChar c ++ behind < String.utf8EncodeChar d ++ behind' := by
  have hless : c.val.toNat < d.val.toNat := h
  have hvalid : d.val.toNat < 1114112 := by
    rcases d.valid with hsmall | hlarge
    · have : d.val.toNat < 55296 := hsmall
      omega
    · exact hlarge.2
  unfold String.utf8EncodeChar
  dsimp only
  generalize c.val.toNat = m at hless
  generalize d.val.toNat = n at hless hvalid
  -- The digits to the base of 64, the last of which comes first.
  have hdigits (k : Nat) : k / 4096 = k / 64 / 64 ∧ k / 262144 = k / 64 / 64 / 64 := by omega
  have hbyte (k : Nat) : (k % 64 + 128) % 2 ^ 8 = k % 64 + 128 := by omega
  simp only [hdigits]
  -- On how many bytes each of the two takes.
  split_ifs <;>
    simp only [List.cons_append, List.nil_append, List.cons_lt_cons_iff, UInt8.lt_iff_toNat_lt,
      ← UInt8.toNat_inj, UInt8.toNat_ofNat', hbyte] <;> omega

theorem flatMap_encode_lt {first second : List Char} (h : first < second) :
    first.flatMap String.utf8EncodeChar < second.flatMap String.utf8EncodeChar := by
  induction h with
  | @nil c rest =>
    rw [List.flatMap_nil, List.flatMap_cons]
    cases hbytes : String.utf8EncodeChar c with
    | nil => exact absurd hbytes String.utf8EncodeChar_ne_nil
    | cons byte behind => exact List.nil_lt_cons _ _
  | cons _ ih =>
    rw [List.flatMap_cons, List.flatMap_cons]
    exact List.append_left_lt ih
  | rel hfirst =>
    rw [List.flatMap_cons, List.flatMap_cons]
    exact encode_lt hfirst _ _

/-- **Texts.** They are in the order of their bytes. -/
theorem bytes_lt {first second : String} (h : first < second) : bytes first < bytes second := by
  rw [bytes_eq, bytes_eq]
  exact flatMap_encode_lt h

end Syllabus.Text
