import Mathlib.Algebra.Group.Nat.Defs
import Mathlib.Data.Option.Basic
import Syllabus.Date
import Syllabus.Proofs.Text.Blanks

/-!
# Syllabus: dates as texts

A number that is written with leading zeros is read back, and so is a date: its year, month and day
stand between signs that are no digits.

* **`Text.readDigits_padded`**: numbers.
* **`Date.ofString?_text`**: dates.
-/

namespace Syllabus

/-! ## Numbers -/

namespace Text

variable {least most n : Nat} {rest : List Char}

theorem isDigit_of_mem_padded {c : Char} (h : c ∈ padded least n) : c.isDigit = true := by
  rcases List.mem_append.mp h with hzero | hdigit
  · rw [List.eq_of_mem_replicate hzero]
    decide
  · exact Nat.isDigit_of_mem_toDigits (by decide) (by decide) hdigit

theorem padded_ne_nil (least n : Nat) : padded least n ≠ [] := by
  rw [padded, Ne, List.append_eq_nil_iff, not_and]
  exact fun _ => Nat.toDigits_ne_nil

/-- Zeros in front do not count. -/
theorem digitsValue_padded (least n : Nat) : digitsValue (padded least n) = n := by
  have hvalue : digitsValue (padded least n) = Nat.ofDigitChars 10 (padded least n) 0 :=
    Nat.ofDigitChars_eq_foldl.symm
  rw [hvalue, padded, Nat.ofDigitChars_append, Nat.ofDigitChars_replicate_zero, Nat.mul_zero,
    Nat.ofDigitChars_ten_toDigits]

theorem length_padded_le (hleast : least ≤ most) (hpositive : 0 < most) (hn : n < 10 ^ most) :
    (padded least n).length ≤ most := by
  have hdigits := (Nat.length_toDigits_le_iff (by decide) hpositive).mpr hn
  rw [padded, List.length_append, List.length_replicate]
  omega

/-- **Numbers.** What was written is read, up to what is no digit. -/
theorem readDigits_padded (hlength : (padded least n).length ≤ most)
    (hrest : ∀ c ∈ rest.head?, c.isDigit = false) :
    readDigits most (padded least n ++ rest) = some (n, rest) := by
  have hbehind (count : Nat) : (rest.take count).takeWhile Char.isDigit = [] := by
    cases rest with
    | nil => simp
    | cons c rest =>
      cases count with
      | zero => rfl
      | succ count => simp [hrest c rfl]
  -- The digits end where the number does, since no digit follows.
  have hdigits : ((padded least n ++ rest).take most).takeWhile Char.isDigit = padded least n := by
    rw [List.take_append, List.take_of_length_le hlength,
      List.takeWhile_append_of_pos fun _ => isDigit_of_mem_padded, hbehind, List.append_nil]
  rw [readDigits, hdigits]
  simp only [List.isEmpty_iff, padded_ne_nil, if_false, digitsValue_padded, List.drop_left]

theorem isBlank_of_isDigit {c : Char} (h : c.isDigit = true) : isBlank c = false := by
  have hrange : 48 ≤ c.toNat ∧ c.toNat ≤ 57 := by
    simpa [Char.isDigit, UInt32.le_iff_toNat_le] using h
  simp only [isBlank, Bool.or_eq_false_iff, Bool.and_eq_false_iff, decide_eq_false_iff_not,
    beq_eq_false_iff_ne]
  omega

/-- No blank stands before a number that has been written. -/
theorem trimStart_padded (least n : Nat) (rest : List Char) :
    trimStart (padded least n ++ rest) = padded least n ++ rest := by
  obtain ⟨c, digits, hdigits⟩ := List.exists_cons_of_ne_nil (padded_ne_nil least n)
  have hc : c ∈ padded least n := hdigits ▸ List.mem_cons_self
  rw [hdigits, List.cons_append]
  exact trimStart_eq_self (isBlank_of_isDigit (isDigit_of_mem_padded hc))

end Text

/-! ## Dates -/

namespace Date

open Text

theorem daysInMonth_le (year : Int) (month : Nat) :
    daysInMonth year month ≤ 31 ∧ (0 < daysInMonth year month → month ≤ 12) := by
  unfold daysInMonth
  -- One case for each month with days, and the last one for what is no month.
  split
  all_goals try split
  all_goals omega

/-- Months and days have two digits at most. -/
theorem lt_of_exists {year : Int} {month day : Nat} (h : Date.Exists year month day) :
    month < 100 ∧ day < 100 := by
  obtain ⟨_, _, hday, hmonth⟩ := h
  have hdays := daysInMonth_le year month
  omega

theorem readYear_yearChars (year : Int) (rest : List Char) :
    readYear (yearChars year ++ '-' :: rest) = some (year, '-' :: rest)
      ∧ trimStart (yearChars year ++ '-' :: rest) = yearChars year ++ '-' :: rest := by
  have hhyphen : ∀ c ∈ ('-' :: rest).head?, c.isDigit = false := by simp
  unfold yearChars
  split
  · next hnegative =>
    refine ⟨?_, trimStart_eq_self (by rfl)⟩
    rw [List.cons_append, readYear, readDigits_padded (by simp) hhyphen, Option.map_some]
    simp only [Option.some.injEq, Prod.mk.injEq, and_true]
    omega
  · next hpositive =>
    -- A year after the first ones is written without a sign, or with one if it is long.
    have hyear : (year.natAbs : Int) = year := by omega
    split
    · next hshort =>
      refine ⟨?_, trimStart_padded _ _ _⟩
      -- A number starts with a digit, so no sign is read.
      obtain ⟨c, digits, hdigits⟩ := List.exists_cons_of_ne_nil (padded_ne_nil 4 year.natAbs)
      have hc : c.isDigit = true := isDigit_of_mem_padded (hdigits ▸ List.mem_cons_self)
      have hlength : (padded 4 year.natAbs).length ≤ 4 :=
        length_padded_le (Nat.le_refl 4) (by decide) (by omega)
      have hread := readDigits_padded hlength hhyphen
      rw [hdigits, List.cons_append] at hread ⊢
      unfold readYear
      split
      · next hsign =>
        cases hsign
        cases hc
      · next hsign =>
        cases hsign
        cases hc
      · rw [hread]
        exact congrArg (fun found => some (found, '-' :: rest)) hyear
    · refine ⟨?_, trimStart_eq_self (by rfl)⟩
      rw [List.cons_append, readYear, readDigits_padded (by simp) hhyphen]
      exact congrArg (fun found => some (found, '-' :: rest)) hyear

theorem readHyphen_cons (rest : List Char) : readHyphen ('-' :: rest) = some rest := rfl

/-- **Dates.** Every date is read back from its text. -/
theorem ofString?_text (date : Date) : Date.ofString? date.text = some date := by
  obtain ⟨hmonth, hday⟩ := lt_of_exists date.exists_
  obtain ⟨hyear, htrim⟩ := readYear_yearChars date.year
    (padded 2 date.month ++ '-' :: padded 2 date.day)
  have hhyphen : ∀ c ∈ ('-' :: padded 2 date.day).head?, c.isDigit = false := by simp
  have hmonth' := readDigits_padded
    (length_padded_le (Nat.le_refl 2) (by decide) hmonth) hhyphen
  have hday' : readDigits 2 (padded 2 date.day) = some (date.day, []) := by
    have hend : ∀ c ∈ ([] : List Char).head?, c.isDigit = false := by simp
    simpa using readDigits_padded (length_padded_le (Nat.le_refl 2) (by decide) hday) hend
  have htrimDay : trimStart (padded 2 date.day) = padded 2 date.day := by
    simpa using trimStart_padded 2 date.day []
  have hdate : of? date.year date.month date.day = some date := dif_pos date.exists_
  -- Year, hyphen, month, hyphen and day, each up to where the next one starts.
  rw [ofString?, text, String.toList_ofList, chars, read?, List.append_assoc, List.cons_append,
    htrim, hyear]
  simp only [Option.bind_eq_bind, Option.bind_some, readHyphen_cons, trimStart_padded, hmonth',
    htrimDay, hday', hdate]
  rfl

end Date

end Syllabus
