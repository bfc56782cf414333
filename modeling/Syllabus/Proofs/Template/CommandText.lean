import Syllabus.Proofs.Template.CommandSteps

/-!
# Syllabus: the characters of commands

Commands are written with word characters, blanks and six signs. Any other character stops the
reader: whatever a step consumes, such a character is still among what is left to read, and a
command is accepted only when nothing is left.

* **`isCommandCharacter_of_ofCommand?`**: accepted commands have only characters of commands.
-/

namespace Syllabus.Directive

/-- Whether a command can have the character. -/
def isCommandCharacter (c : Char) : Bool :=
  Text.isWord c || Text.isBlank c || ['#', '.', '(', ')', '\x7b', '\x7d'].contains c

section Foreign

variable {c : Char} {cs rest : List Char}

/-! ## Runs of characters -/

/-- A character that the test refuses is not dropped. -/
theorem mem_dropWhile {test : Char → Bool} (htest : test c = false) (h : c ∈ cs) :
    c ∈ cs.dropWhile test := by
  rw [← List.takeWhile_append_dropWhile (p := test) (l := cs)] at h
  -- Whatever has been skipped meets the test.
  rcases List.mem_append.mp h with hskipped | hkept
  · rw [List.mem_takeWhile_imp hskipped] at htest
    cases htest
  · exact hkept

theorem mem_of_run? {test : Char → Bool} {written : List Char} (htest : test c = false)
    (h : run? test cs = some (written, rest)) (hmem : c ∈ cs) : c ∈ rest := by
  obtain ⟨⟨rfl, _, hwritten⟩, _⟩ := run?_eq_some_iff.mp h
  rcases List.mem_append.mp hmem with hread | hleft
  · rw [hwritten c hread] at htest
    cases htest
  · exact hleft

/-! ## Characters of no command -/

variable (hforeign : isCommandCharacter c = false)

include hforeign

theorem isWord_eq_false : Text.isWord c = false := by
  simp only [isCommandCharacter, Bool.or_eq_false_iff] at hforeign
  exact hforeign.1.1

theorem isBlank_eq_false : Text.isBlank c = false := by
  simp only [isCommandCharacter, Bool.or_eq_false_iff] at hforeign
  exact hforeign.1.2

theorem not_mem_of_all {text : List Char} (htext : text.all isCommandCharacter = true) :
    c ∉ text := by
  intro hmem
  rw [List.all_eq_true.mp htext c hmem] at hforeign
  cases hforeign

/-! ## Steps of the reader -/

theorem mem_trimStart (h : c ∈ cs) : c ∈ Text.trimStart cs :=
  mem_dropWhile (isBlank_eq_false hforeign) h

theorem mem_trim (h : c ∈ cs) : c ∈ Text.trim cs := by
  unfold Text.trim Text.trimEnd
  -- The blanks at the end are cut off the text read backwards.
  rw [List.mem_reverse]
  exact mem_trimStart hforeign (List.mem_reverse.mpr (mem_trimStart hforeign h))

/-- A foreign character is still there when a fixed text has been taken away. -/
theorem mem_of_afterText? {text : String} (htext : text.toList.all isCommandCharacter = true)
    (h : afterText? text cs = some rest) (hmem : c ∈ cs) : c ∈ rest := by
  rw [afterText?_eq_some_iff.mp h] at hmem
  rcases List.mem_append.mp hmem with hskipped | hkept
  · exact absurd hskipped (not_mem_of_all hforeign htext)
  · exact hkept

theorem mem_of_afterKeyword? {word : String} (hword : word.toList.all isCommandCharacter = true)
    (h : afterKeyword? word cs = some rest) (hmem : c ∈ cs) : c ∈ rest :=
  mem_of_afterText? hforeign hword (afterText?_eq_some_iff.mpr (afterKeyword?_eq_some_iff.mp h).1)
    hmem

theorem mem_of_afterBlanks? (h : afterBlanks? cs = some rest) (hmem : c ∈ cs) : c ∈ rest := by
  unfold afterBlanks? at h
  split at h
  · cases h
    exact mem_trimStart hforeign hmem
  · cases h

theorem isReferenceCharacter_eq_false : Reference.isCharacter c = false := by
  -- The dot is one of the signs in commands.
  have hdot : (c == '.') = false := by
    simp only [isCommandCharacter, Bool.or_eq_false_iff, List.contains_cons] at hforeign
    exact hforeign.2.2.1
  rw [Reference.isCharacter, isWord_eq_false hforeign, hdot]
  rfl

theorem not_mem_of_isNamed {reference : Reference} (h : reference.IsNamed) :
    c ∉ reference.text.toList := by
  intro hmem
  have hcharacter := isReferenceCharacter_eq_false hforeign
  rw [Reference.isCharacter_of_mem h hmem] at hcharacter
  cases hcharacter

theorem mem_of_reference? {reference : Reference}
    (h : reference? cs = some (reference, rest)) (hmem : c ∈ cs) : c ∈ rest := by
  obtain ⟨⟨hnamed, rfl⟩, _⟩ := reference?_eq_some_iff.mp h
  rcases List.mem_append.mp hmem with hread | hleft
  · exact absurd hread (not_mem_of_isNamed hforeign hnamed)
  · exact hleft

/-! ## Whole commands

Each shape of a command ends with nothing left to read. -/

theorem not_mem_of_trimStart_isEmpty (h : (Text.trimStart cs).isEmpty = true) : c ∉ cs := by
  intro hmem
  have hleft := mem_trimStart hforeign hmem
  rw [List.isEmpty_iff.mp h] at hleft
  cases hleft

theorem not_mem_of_blockStart? (h : blockStart? cs = some ()) : c ∉ cs := by
  obtain ⟨afterClose, hclose, h⟩ := Option.bind_eq_some_iff.mp h
  obtain ⟨afterOpen, hopen, h⟩ := Option.bind_eq_some_iff.mp h
  have hempty : (Text.trimStart afterOpen).isEmpty = true := by
    change (if (Text.trimStart afterOpen).isEmpty then some () else none) = some () at h
    by_contra hleft
    rw [if_neg hleft] at h
    cases h
  -- It would still be there behind both signs, where nothing is left.
  intro hmem
  have hbehind := mem_of_afterText? hforeign (by decide) hclose (mem_trimStart hforeign hmem)
  exact not_mem_of_trimStart_isEmpty hforeign hempty
    (mem_of_afterText? hforeign (by decide) hopen (mem_trimStart hforeign hbehind))

/-- A foreign character is in no loop. -/
theorem not_mem_of_loop? {directive : Directive} (h : loop? cs = some directive) : c ∉ cs := by
  obtain ⟨afterOpen, hopen, h⟩ := Option.bind_eq_some_iff.mp h
  obtain ⟨afterVar, hvar, h⟩ := Option.bind_eq_some_iff.mp h
  obtain ⟨beforeItem, hbeforeItem, h⟩ := Option.bind_eq_some_iff.mp h
  obtain ⟨⟨item, afterItem⟩, hitem, h⟩ := Option.bind_eq_some_iff.mp h
  obtain ⟨beforeIn, hbeforeIn, h⟩ := Option.bind_eq_some_iff.mp h
  obtain ⟨afterIn, hin, h⟩ := Option.bind_eq_some_iff.mp h
  obtain ⟨beforeSource, hbeforeSource, h⟩ := Option.bind_eq_some_iff.mp h
  obtain ⟨⟨source, afterSource⟩, hsource, h⟩ := Option.bind_eq_some_iff.mp h
  obtain ⟨_, hstart, _⟩ := Option.bind_eq_some_iff.mp h
  intro hmem
  -- The steps of the reader, from the last to the first.
  refine not_mem_of_blockStart? hforeign hstart ?_
  apply mem_of_reference? hforeign hsource
  apply mem_of_afterBlanks? hforeign hbeforeSource
  apply mem_of_afterKeyword? hforeign (by decide) hin
  apply mem_of_afterBlanks? hforeign hbeforeIn
  apply mem_of_run? (isWord_eq_false hforeign) hitem
  apply mem_of_afterBlanks? hforeign hbeforeItem
  apply mem_of_afterKeyword? hforeign (by decide) hvar
  apply mem_trimStart hforeign
  apply mem_of_afterText? hforeign (by decide) hopen
  exact mem_trimStart hforeign hmem

/-- A foreign character is in no conditional. -/
theorem not_mem_of_conditional? {directive : Directive} (h : conditional? cs = some directive) :
    c ∉ cs := by
  obtain ⟨afterOpen, hopen, h⟩ := Option.bind_eq_some_iff.mp h
  obtain ⟨⟨flag, afterFlag⟩, hflag, h⟩ := Option.bind_eq_some_iff.mp h
  obtain ⟨_, hstart, _⟩ := Option.bind_eq_some_iff.mp h
  intro hmem
  -- As for a loop, from the last step to the first.
  refine not_mem_of_blockStart? hforeign hstart ?_
  apply mem_of_reference? hforeign hflag
  apply mem_trimStart hforeign
  apply mem_of_afterText? hforeign (by decide) hopen
  exact mem_trimStart hforeign hmem

/-- A foreign character is in no alternative. -/
theorem not_mem_of_alternative? {directive : Directive} (h : alternative? cs = some directive) :
    c ∉ cs := by
  obtain ⟨afterElse, helse, h⟩ := Option.bind_eq_some_iff.mp h
  obtain ⟨afterOpen, hopen, h⟩ := Option.bind_eq_some_iff.mp h
  -- Behind the brace nothing may be left.
  have hempty : afterOpen = [] := by
    cases afterOpen with
    | nil => rfl
    | cons _ _ => cases h
  subst hempty
  intro hmem
  refine List.not_mem_nil (a := c) ?_
  apply mem_of_afterText? hforeign (by decide) hopen
  apply mem_trimStart hforeign
  apply mem_of_afterKeyword? hforeign (by decide) helse
  exact mem_trimStart hforeign hmem

/-- A foreign character is in no reference that is read. -/
theorem not_mem_of_read? {reference : Reference} (h : Reference.read? cs = some reference) :
    c ∉ cs := by
  obtain ⟨hnamed, rfl⟩ := Reference.read?_eq_some_iff.mp h
  exact not_mem_of_isNamed hforeign hnamed

/-- A command is made of its own characters: a foreign one is in none. -/
theorem not_mem_of_ofTrimmed? {directive : Directive} (h : ofTrimmed? cs = some directive) :
    c ∉ cs := by
  unfold ofTrimmed? at h
  -- The command is an interpolation, the end of a block, or starts with a keyword.
  split at h
  · next written =>
    obtain ⟨reference, hread, _⟩ := Option.map_eq_some_iff.mp h
    rintro (_ | ⟨_, hmem⟩)
    · -- The mark in front is a character of commands.
      exact absurd hforeign (by decide)
    · exact not_mem_of_read? hforeign hread (mem_trim hforeign hmem)
  · exact not_mem_of_all hforeign (by decide)
  · split at h
    · next hforeach =>
      intro hmem
      exact not_mem_of_loop? hforeign h (mem_of_afterKeyword? hforeign (by decide) hforeach hmem)
    · split at h
      · next hif =>
        intro hmem
        exact not_mem_of_conditional? hforeign h
          (mem_of_afterKeyword? hforeign (by decide) hif hmem)
      · obtain ⟨afterClose, hclose, h⟩ := Option.bind_eq_some_iff.mp h
        intro hmem
        exact not_mem_of_alternative? hforeign h
          (mem_of_afterText? hforeign (by decide) hclose hmem)

end Foreign

/-- **The characters of accepted commands.** -/
theorem isCommandCharacter_of_ofCommand? {command : List Char} {directive : Directive}
    (h : ofCommand? command = some directive) {c : Char} (hmem : c ∈ command) :
    isCommandCharacter c = true := by
  by_contra hforeign
  rw [Bool.not_eq_true] at hforeign
  exact not_mem_of_ofTrimmed? hforeign h (mem_trim hforeign hmem)

end Syllabus.Directive
