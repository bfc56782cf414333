import Syllabus.Json.Printer
import Syllabus.Json.Raw

/-!
# Syllabus: strings in JSON texts

A string that is written with its quotes is read up to just its closing quote, since every quote
and backslash inside is escaped, and what is read stands for the string again.

* **`readBody_quote`**: the reader takes a written string and nothing more.
* **`decodeString_body`**: the body of a written string stands for the string.
-/

namespace Syllabus.Json

/-- A string as it is written between its quotes. -/
def body (s : String) : List Char := s.toList.flatMap escapeChar

/-- A quoted string is its body between quotes. -/
theorem quote_toList (s : String) : (quote s).toList = '"' :: (body s ++ ['"']) := by
  rw [quote, String.toList_ofList]
  rfl

/-! ## One character -/

theorem isHex_hexDigit {n : Nat} (h : n < 16) : isHex (hexDigit n) = true := by
  revert n
  decide

/-- A hexadecimal digit has the value it was made for. -/
theorem hexValue_hexDigit {n : Nat} (h : n < 16) : hexValue (hexDigit n) = n := by
  revert n
  decide

/-- What a character is written as: an escape of a letter or sign, one of four digits, or the
character itself. -/
theorem escapeChar_cases (c : Char) :
    (∃ letter, escapeChar c = ['\\', letter] ∧ letter ≠ 'u'
        ∧ "\"\\/bfnrt".toList.contains letter = true ∧ escaped letter = c)
      ∨ (c.toNat < 0x20 ∧ escapeChar c
        = ['\\', 'u', '0', '0', hexDigit (c.toNat / 16), hexDigit (c.toNat % 16)])
      ∨ (c ≠ '"' ∧ c ≠ '\\' ∧ ¬ c.toNat < 0x20 ∧ escapeChar c = [c]) := by
  unfold escapeChar
  split
  · exact .inl ⟨'"', rfl, by decide, by decide, by decide⟩
  · exact .inl ⟨'\\', rfl, by decide, by decide, by decide⟩
  · exact .inl ⟨'b', rfl, by decide, by decide, by decide⟩
  · exact .inl ⟨'f', rfl, by decide, by decide, by decide⟩
  · exact .inl ⟨'n', rfl, by decide, by decide, by decide⟩
  · exact .inl ⟨'r', rfl, by decide, by decide, by decide⟩
  · exact .inl ⟨'t', rfl, by decide, by decide, by decide⟩
  · next hquote hbackslash _ _ _ _ _ =>
    -- All others are written as they are, except for control characters.
    split
    · next hcontrol => exact .inr (.inl ⟨hcontrol, rfl⟩)
    · next hcontrol => exact .inr (.inr ⟨hquote, hbackslash, hcontrol, rfl⟩)

/-- A backslash and a letter are read as two characters of the body. -/
theorem readBody_letter {letter : Char} (hletter : letter ≠ 'u')
    (hknown : "\"\\/bfnrt".toList.contains letter = true) (rest : List Char) :
    readBody ('\\' :: letter :: rest)
      = (readBody rest).map fun (body, behind) => ('\\' :: letter :: body, behind) := by
  rw [readBody, if_pos hknown]
  rintro a b c d behind rfl
  exact absurd rfl hletter

/-- A code is read with its four digits. -/
theorem readBody_digits {a b c d : Char} (hdigits : [a, b, c, d].all isHex = true)
    (rest : List Char) :
    readBody ('\\' :: 'u' :: a :: b :: c :: d :: rest)
      = (readBody rest).map fun (body, behind) =>
        ('\\' :: 'u' :: a :: b :: c :: d :: body, behind) := by
  rw [readBody, if_pos hdigits]

/-- Any other character is read as one. -/
theorem readBody_plain {c : Char} (hquote : c ≠ '"') (hbackslash : c ≠ '\\')
    (hplain : ¬ c.toNat < 0x20) (rest : List Char) :
    readBody (c :: rest) = (readBody rest).map fun (body, behind) => (c :: body, behind) := by
  rw [readBody.eq_def]
  -- The other cases of a body start with a quote or a backslash.
  split
  · next hempty => cases hempty
  · next hcons =>
    cases hcons
    exact absurd rfl hquote
  · next hcons =>
    cases hcons
    exact absurd rfl hbackslash
  · next hcons =>
    cases hcons
    exact absurd rfl hbackslash
  · next hcons =>
    cases hcons
    rw [if_neg (by simp [hbackslash, Nat.not_lt.mp hplain])]

/-- What is written for a character is read as a part of the body. -/
theorem readBody_escapeChar (c : Char) (rest : List Char) :
    readBody (escapeChar c ++ rest)
      = (readBody rest).map fun (body, behind) => (escapeChar c ++ body, behind) := by
  rcases escapeChar_cases c with ⟨letter, hwritten, hu, hletter, _⟩ | ⟨hcontrol, hwritten⟩
    | ⟨hquote, hbackslash, hplain, hwritten⟩
  · rw [hwritten]
    exact readBody_letter hu hletter rest
  · -- A control character has a code of two hexadecimal digits.
    have hdigits :
        ['0', '0', hexDigit (c.toNat / 16), hexDigit (c.toNat % 16)].all isHex = true := by
      have hhigh : isHex (hexDigit (c.toNat / 16)) = true := isHex_hexDigit (by omega)
      have hlow : isHex (hexDigit (c.toNat % 16)) = true := isHex_hexDigit (by omega)
      simp only [List.all_cons, hhigh, hlow]
      decide
    rw [hwritten]
    exact readBody_digits hdigits rest
  · rw [hwritten]
    exact readBody_plain hquote hbackslash hplain rest

/-- A backslash and a letter stand for one character. -/
theorem decode_letter {letter : Char} (hletter : letter ≠ 'u') (rest : List Char) :
    decode ('\\' :: letter :: rest) = (decode rest).map (escaped letter :: ·) := by
  rw [decode]
  rintro a b c d behind rfl
  exact absurd rfl hletter

/-- Four digits that name no half of a pair stand for the character of that number. -/
theorem decode_digits {a b c d : Char} (hcode : hexCode a b c d < 0xd800) (rest : List Char) :
    decode ('\\' :: 'u' :: a :: b :: c :: d :: rest)
      = (decode rest).map (Char.ofNat (hexCode a b c d) :: ·) := by
  have hlow : ¬ 0xdc00 ≤ hexCode a b c d := by omega
  have hhigh : ¬ 0xd800 ≤ hexCode a b c d := by omega
  rw [decode.eq_def]
  simp [hlow, hhigh]

/-- A plain character stands for itself. -/
theorem decode_plain {c : Char} (hbackslash : c ≠ '\\') (rest : List Char) :
    decode (c :: rest) = (decode rest).map (c :: ·) := by
  rw [decode.eq_def]
  split <;> simp_all

/-- What is written for a character stands for it. -/
theorem decode_escapeChar (c : Char) (rest : List Char) :
    decode (escapeChar c ++ rest) = (decode rest).map (c :: ·) := by
  -- A letter, a code or the character itself.
  rcases escapeChar_cases c with
    ⟨letter, hwritten, hu, _, hmeaning⟩ | ⟨hcontrol, hwritten⟩ | ⟨_, hbackslash, _, hwritten⟩
  · rw [hwritten]
    change decode ('\\' :: letter :: rest) = _
    rw [decode_letter hu, hmeaning]
  · have hcode : hexCode '0' '0' (hexDigit (c.toNat / 16)) (hexDigit (c.toNat % 16)) = c.toNat := by
      have hzero : hexValue '0' = 0 := by decide
      rw [hexCode, hzero, hexValue_hexDigit (by omega), hexValue_hexDigit (by omega)]
      omega
    rw [hwritten]
    change decode ('\\' :: 'u' :: '0' :: '0' :: _ :: _ :: rest) = _
    rw [decode_digits (by omega), hcode, Char.ofNat_toNat]
  · rw [hwritten]
    exact decode_plain hbackslash rest

/-! ## Whole strings -/

/-- The body of a string is read up to the quote behind it. -/
theorem readBody_append (s : List Char) (rest : List Char) :
    readBody (s.flatMap escapeChar ++ '"' :: rest) = some (s.flatMap escapeChar, rest) := by
  induction s with
  | nil => rfl
  | cons c s ih =>
    rw [List.flatMap_cons, List.append_assoc, readBody_escapeChar, ih]
    rfl

/-- **Reading a written string.** The closing quote is the first that is not escaped. -/
theorem readBody_quote (s : String) (rest : List Char) :
    readBody (body s ++ '"' :: rest) = some (body s, rest) :=
  readBody_append s.toList rest

/-- **What a written string stands for.** It is the string. -/
theorem decodeString_body (s : String) : decodeString (body s) = some s := by
  -- Character by character, on any rest of the string.
  have hdecode (cs : List Char) : decode (cs.flatMap escapeChar) = some cs := by
    induction cs with
    | nil => rfl
    | cons c cs ih =>
      rw [List.flatMap_cons, decode_escapeChar, ih]
      rfl
  rw [decodeString, body, hdecode, Option.map_some, String.ofList_toList]

end Syllabus.Json
