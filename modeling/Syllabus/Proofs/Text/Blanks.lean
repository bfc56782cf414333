import Mathlib.Data.List.TakeWhile
import Syllabus.Text.Blank
import Syllabus.Text.Word

/-!
# Syllabus: blanks around a text

No blank is a word character. A text is trimmed to what stands between the blanks at its ends: any
blanks there, and nothing else, are cut off.

* **`isWord_of_isBlank`**: blanks are no word characters.
* **`trim_append`**, **`exists_blanks`**: what is cut off at the ends, and that nothing else is.
-/

namespace Syllabus.Text

/-! ## Blanks and words -/

/-- The code points of all blanks. -/
def blankCodes : List Nat :=
  [0x9, 0xa, 0xb, 0xc, 0xd, 0x20, 0x85, 0xa0, 0x1680, 0x2000, 0x2001, 0x2002, 0x2003, 0x2004,
    0x2005, 0x2006, 0x2007, 0x2008, 0x2009, 0x200a, 0x2028, 0x2029, 0x202f, 0x205f, 0x3000]

theorem mem_blankCodes {c : Char} (h : isBlank c = true) : c.toNat ∈ blankCodes := by
  simp only [isBlank, Bool.or_eq_true, Bool.and_eq_true, decide_eq_true_eq, beq_iff_eq] at h
  simp only [blankCodes, List.mem_cons, List.not_mem_nil, or_false]
  omega

/-- No blank is a word character: each of them is tried. -/
theorem isWord_of_isBlank {c : Char} (h : isBlank c = true) : isWord c = false := by
  have hall : ∀ code ∈ blankCodes, isWord (Char.ofNat code) = false := by decide +kernel
  have hcode := hall c.toNat (mem_blankCodes h)
  rwa [Char.ofNat_toNat] at hcode

theorem isBlank_of_isWord {c : Char} (h : isWord c = true) : isBlank c = false := by
  by_contra hblank
  rw [isWord_of_isBlank (by simpa using hblank)] at h
  cases h

/-! ## Blanks at the ends -/

variable {cs before behind : List Char}

/-- Whether there are blanks only. -/
def AllBlank (cs : List Char) : Prop := ∀ c ∈ cs, isBlank c = true

/-- In the empty text there is nothing but blanks. -/
theorem allBlank_nil : AllBlank [] := fun _ hc => absurd hc List.not_mem_nil

theorem AllBlank.append (hbefore : AllBlank before) (hbehind : AllBlank behind) :
    AllBlank (before ++ behind) :=
  List.forall_mem_append.mpr ⟨hbefore, hbehind⟩

theorem trimStart_append (hbefore : AllBlank before) (cs : List Char) :
    trimStart (before ++ cs) = trimStart cs :=
  List.dropWhile_append_of_pos hbefore

theorem trimStart_of_allBlank (h : AllBlank cs) : trimStart cs = [] := by
  have htrim := trimStart_append h []
  rwa [List.append_nil] at htrim

/-- A text that starts with no blank is kept. -/
theorem trimStart_eq_self (h : cs.head?.any isBlank = false) : trimStart cs = cs := by
  cases cs with
  | nil => rfl
  | cons c rest => exact List.dropWhile_cons_of_neg (by simpa using h)

/-- **What is cut off in front.** -/
theorem exists_blanks_before (cs : List Char) :
    ∃ before, AllBlank before ∧ cs = before ++ trimStart cs :=
  ⟨cs.takeWhile isBlank, fun _ => List.mem_takeWhile_imp, List.takeWhile_append_dropWhile.symm⟩

/-- And so are those behind, down to the last character that is none. -/
theorem trimEnd_append (hbehind : AllBlank behind) (h : cs.getLast?.any isBlank = false) :
    trimEnd (cs ++ behind) = cs := by
  -- Read backwards, the end of the text is its start.
  have hreverse : AllBlank behind.reverse := fun c hc => hbehind c (List.mem_reverse.mp hc)
  have hhead : cs.reverse.head?.any isBlank = false := by rwa [List.head?_reverse]
  rw [trimEnd, List.reverse_append]
  show (trimStart (behind.reverse ++ cs.reverse)).reverse = cs
  rw [trimStart_append hreverse, trimStart_eq_self hhead, List.reverse_reverse]

/-- **Blanks at the ends are cut off.** -/
theorem trim_append (hbefore : AllBlank before) (hbehind : AllBlank behind)
    (hhead : cs.head?.any isBlank = false) (hlast : cs.getLast?.any isBlank = false) :
    trim (before ++ (cs ++ behind)) = cs := by
  rw [trim, trimStart_append hbefore]
  -- If nothing stands between the blanks, all of them are cut off in front.
  cases cs with
  | nil =>
    rw [List.nil_append, trimStart_of_allBlank hbehind]
    rfl
  | cons c rest =>
    rw [trimStart_eq_self (by simpa using hhead), trimEnd_append hbehind hlast]

/-- **Only blanks are cut off.** -/
theorem exists_blanks (cs : List Char) :
    ∃ before behind, AllBlank before ∧ AllBlank behind ∧ cs = before ++ (trim cs ++ behind) := by
  obtain ⟨before, hbefore, hcs⟩ := exists_blanks_before cs
  obtain ⟨behind, hbehind, hrest⟩ := exists_blanks_before (trimStart cs).reverse
  refine ⟨before, behind.reverse, hbefore, fun c hc => hbehind c (List.mem_reverse.mp hc), ?_⟩
  -- What is left behind the blanks in front is cut at its other end.
  have hkept : trimStart cs = trim cs ++ behind.reverse := by
    rw [trim, trimEnd, ← List.reverse_append]
    exact (List.reverse_eq_iff.mp hrest)
  rw [← hkept]
  exact hcs

end Syllabus.Text
