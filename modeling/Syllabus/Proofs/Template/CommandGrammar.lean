import Mathlib.Computability.Language
import Syllabus.Proofs.Template.CommandSteps

/-!
# Syllabus: the grammar of commands

The commands that spell a directive are a language: the parts of the directive in order, with blanks
between them. Most blanks may be left out; those that keep two words apart may not.

The reader takes one part after another, each as far as it goes. That finds the parts again, because
what may follow a part never starts with a character that the part could go on with.

* **`Directive.spellings`**: the commands that spell a directive.
* **`mem_text_cons`** to **`mem_reference_cons`**: a step of the reader takes the first part of what
  is spelled, and what it leaves is spelled by the other parts.
-/

namespace Syllabus.Directive

/-! ## The parts of a command -/

/-- The texts of blanks only. -/
def blanks : Language Char := {cs | Text.AllBlank cs}

/-- Blanks that must not be left out. -/
def someBlanks : Language Char := {cs | Text.AllBlank cs ∧ cs ≠ []}

/-- One text and no other. -/
def exactly (s : String) : Language Char := {s.toList}

/-- The parts of a command between its first and its last character. -/
def layout : Directive → List (Language Char)
  | interpolation value => [exactly "#", blanks, exactly value.text]
  | loop item source =>
    [exactly "foreach", blanks, exactly "(", blanks, exactly "var", someBlanks, exactly item,
      someBlanks, exactly "in", someBlanks, exactly source.text, blanks, exactly ")", blanks,
      exactly "\x7b"]
  | conditional flag =>
    [exactly "if", blanks, exactly "(", blanks, exactly flag.text, blanks, exactly ")", blanks,
      exactly "\x7b"]
  | close => [exactly "\x7d"]
  | alternative => [exactly "\x7d", blanks, exactly "else", blanks, exactly "\x7b"]

/-- The commands that spell a directive. -/
def spellings (directive : Directive) : Language Char :=
  (blanks :: (directive.layout ++ [blanks])).prod

/-- Whether what stands for names in a directive are names. The flag of a conditional is a field. -/
def IsNamed : Directive → Prop
  | interpolation value => value.IsNamed
  | loop item source => Reference.isName item.toList = true ∧ source.IsNamed
  | conditional flag => flag.IsNamed ∧ flag.path ≠ []
  | close | alternative => True

/-- The command as it is usually written. -/
def canonical : Directive → String
  | interpolation value => "#" ++ value.text
  | loop item source => "foreach (var " ++ item ++ " in " ++ source.text ++ ") \x7b"
  | conditional flag => "if (" ++ flag.text ++ ") \x7b"
  | close => "\x7d"
  | alternative => "\x7d else \x7b"

section Parts

variable {s : String} {test : Char → Bool} {cs : List Char} {parts : List (Language Char)}

/-- The first part takes some of the text, and the others spell the rest. -/
theorem mem_prod_cons {part : Language Char} :
    cs ∈ (part :: parts).prod ↔ ∃ taken ∈ part, ∃ rest ∈ parts.prod, cs = taken ++ rest := by
  rw [List.prod_cons, Language.mem_mul]
  simp only [eq_comm]

/-- A fixed text comes first, and the others spell the rest. -/
theorem mem_exactly_cons :
    cs ∈ (exactly s :: parts).prod ↔ ∃ rest ∈ parts.prod, cs = s.toList ++ rest := by
  rw [mem_prod_cons]
  exact exists_eq_left

/-- Parts one behind the other split the text in two. -/
theorem mem_prod_append {behind : List (Language Char)} :
    cs ∈ (parts ++ behind).prod ↔
      ∃ taken ∈ parts.prod, ∃ rest ∈ behind.prod, cs = taken ++ rest := by
  rw [List.prod_append, Language.mem_mul]
  simp only [eq_comm]

/-- Blanks are spelled by blanks alone. -/
theorem mem_blanks : cs ∈ [blanks].prod ↔ Text.AllBlank cs := by
  rw [List.prod_singleton]
  exact Iff.rfl

/-- Blanks at the end are spelled by what is left of the text. -/
theorem mem_append_blanks :
    cs ∈ (parts ++ [blanks]).prod ↔
      ∃ taken ∈ parts.prod, ∃ behind, Text.AllBlank behind ∧ cs = taken ++ behind := by
  simp only [mem_prod_append, mem_blanks]

theorem mem_append_no_blanks (h : cs ∈ parts.prod) :
    cs ∈ (parts ++ [blanks]).prod :=
  mem_append_blanks.mpr ⟨cs, h, [], Text.allBlank_nil, (List.append_nil cs).symm⟩

/-! ## What can follow

A part ends where the next character is none of its own. -/

/-- Whether no text of the language starts with a character that meets the test. -/
def StartsOutside (test : Char → Bool) (language : Language Char) : Prop :=
  ∀ ⦃cs⦄, cs ∈ language → cs.head?.any test = false

/-- Without parts there is no first character. -/
theorem startsOutside_nil : StartsOutside test ([] : List (Language Char)).prod := by
  rintro cs rfl
  rfl

/-- A fixed text starts outside if its first character does. -/
theorem startsOutside_exactly (hs : s.toList ≠ []) (htest : s.toList.head?.any test = false) :
    StartsOutside test (exactly s :: parts).prod := by
  intro cs hcs
  obtain ⟨rest, _, rfl⟩ := mem_exactly_cons.mp hcs
  -- The first character is that of the fixed text, which is not empty.
  rwa [List.head?_append_of_ne_nil _ hs]

/-- At least one blank starts outside what no blank is in. -/
theorem startsOutside_someBlanks (htest : ∀ c, Text.isBlank c = true → test c = false) :
    StartsOutside test (someBlanks :: parts).prod := by
  intro cs hcs
  obtain ⟨taken, ⟨hblank, hsome⟩, rest, _, rfl⟩ := mem_prod_cons.mp hcs
  obtain ⟨c, taken, rfl⟩ := List.exists_cons_of_ne_nil hsome
  exact htest c (hblank c List.mem_cons_self)

/-- With no blank the parts behind decide. -/
theorem startsOutside_blanks (htest : ∀ c, Text.isBlank c = true → test c = false)
    (hparts : StartsOutside test parts.prod) : StartsOutside test (blanks :: parts).prod := by
  intro cs hcs
  obtain ⟨taken, hblank, rest, hrest, rfl⟩ := mem_prod_cons.mp hcs
  -- Without a blank the text starts as the parts behind do.
  cases taken with
  | nil => exact hparts hrest
  | cons c taken => exact htest c (hblank c List.mem_cons_self)

/-- A name does not start with a blank. -/
theorem startsOutside_name {item : String} (hitem : Reference.isName item.toList = true) :
    StartsOutside Text.isBlank (exactly item :: parts).prod := by
  refine startsOutside_exactly (Reference.ne_nil_of_isName hitem) ?_
  rw [Option.any_eq_false]
  exact fun c hc => Text.isBlank_of_isWord (Reference.isWord_of_isName hitem (List.mem_of_head? hc))

theorem startsOutside_reference {reference : Reference} (h : reference.IsNamed) :
    StartsOutside Text.isBlank (exactly reference.text :: parts).prod := by
  refine startsOutside_exactly (Reference.text_ne_nil h) ?_
  -- The first character of a reference is that of a name.
  rw [Option.any_eq_false]
  exact fun c hc => Reference.isBlank_of_mem h (List.mem_of_head? hc)

/-- A word ends where blanks follow. -/
theorem startsOutside_word : StartsOutside Text.isWord (someBlanks :: parts).prod :=
  startsOutside_someBlanks fun _ => Text.isWord_of_isBlank

/-- A parenthesis, blanks before it or not, ends a word. -/
theorem startsOutside_parenthesis :
    StartsOutside Text.isWord (blanks :: exactly "(" :: parts).prod :=
  startsOutside_blanks (fun _ => Text.isWord_of_isBlank)
    (startsOutside_exactly (by decide) (by decide))

/-- A reference ends where the parentheses do. -/
theorem startsOutside_blockStart :
    StartsOutside Reference.isCharacter
      [blanks, exactly ")", blanks, exactly "\x7b", blanks].prod :=
  startsOutside_blanks (fun _ => Reference.isCharacter_of_isBlank)
    (startsOutside_exactly (by decide) (by decide))

/-! ## Steps of the reader

Each step takes one part, and what it leaves is spelled by the parts behind. -/

/-- A fixed text is read where it is spelled. -/
theorem mem_text_cons :
    cs ∈ (exactly s :: parts).prod ↔ ∃ rest, afterText? s cs = some rest ∧ rest ∈ parts.prod := by
  simp only [mem_exactly_cons, afterText?_eq_some_iff, and_comm]

theorem mem_keyword_cons (hparts : StartsOutside Text.isWord parts.prod) :
    cs ∈ (exactly s :: parts).prod ↔
      ∃ rest, afterKeyword? s cs = some rest ∧ rest ∈ parts.prod := by
  simp only [mem_exactly_cons, afterKeyword?_eq_some_iff]
  constructor
  · rintro ⟨rest, hrest, hcs⟩
    -- What follows does not go on with a word, since no text of the parts behind starts so.
    exact ⟨rest, ⟨hcs, hparts hrest⟩, hrest⟩
  · rintro ⟨rest, ⟨hcs, _⟩, hrest⟩
    exact ⟨rest, hrest, hcs⟩

/-- Blanks are read up to the first character that is none. -/
theorem mem_blanks_cons (hparts : StartsOutside Text.isBlank parts.prod) :
    cs ∈ (blanks :: parts).prod ↔ Text.trimStart cs ∈ parts.prod := by
  rw [mem_prod_cons]
  constructor
  · rintro ⟨before, hbefore, rest, hrest, rfl⟩
    -- All blanks are taken, because the rest does not start with one.
    rwa [Text.trimStart_append hbefore, Text.trimStart_eq_self (hparts hrest)]
  · intro hrest
    obtain ⟨before, hbefore, hcs⟩ := Text.exists_blanks_before cs
    exact ⟨before, hbefore, _, hrest, hcs⟩

theorem mem_someBlanks_cons (hparts : StartsOutside Text.isBlank parts.prod) :
    cs ∈ (someBlanks :: parts).prod ↔
      ∃ rest, afterBlanks? cs = some rest ∧ rest ∈ parts.prod := by
  unfold afterBlanks?
  constructor
  · intro hcs
    have hfirst : cs.head?.any Text.isBlank = true := by
      obtain ⟨before, ⟨hbefore, hsome⟩, rest, _, rfl⟩ := mem_prod_cons.mp hcs
      obtain ⟨c, before, rfl⟩ := List.exists_cons_of_ne_nil hsome
      exact hbefore c List.mem_cons_self
    obtain ⟨before, ⟨hbefore, _⟩, hrest⟩ := mem_prod_cons.mp hcs
    refine ⟨Text.trimStart cs, if_pos hfirst, (mem_blanks_cons hparts).mp ?_⟩
    exact mem_prod_cons.mpr ⟨before, hbefore, hrest⟩
  · rintro ⟨rest, h, hrest⟩
    -- Blanks are cut off only if the text starts with one.
    split at h
    · next hfirst =>
      cases h
      obtain ⟨before, hbefore, hcs⟩ := Text.exists_blanks_before cs
      refine mem_prod_cons.mpr ⟨before, ⟨hbefore, ?_⟩, _, hrest, hcs⟩
      -- With nothing cut off, the text would start with a blank and also with none.
      rintro rfl
      rw [hcs, List.nil_append, hparts hrest] at hfirst
      cases hfirst
    · cases h

/-- A name is read as far as it goes. -/
theorem mem_name_cons {item : String} (hparts : StartsOutside Text.isWord parts.prod) :
    (Reference.isName item.toList = true ∧ cs ∈ (exactly item :: parts).prod) ↔
      ∃ rest, run? Text.isWord cs = some (item.toList, rest) ∧ rest ∈ parts.prod := by
  simp only [mem_exactly_cons, run?_eq_some_iff]
  constructor
  · rintro ⟨hname, rest, hrest, hcs⟩
    -- All characters of a name go into the run.
    have hword := fun c (hc : c ∈ item.toList) => Reference.isWord_of_isName hname hc
    exact ⟨rest, ⟨⟨hcs, Reference.ne_nil_of_isName hname, hword⟩, hparts hrest⟩, hrest⟩
  · rintro ⟨rest, ⟨⟨hcs, hsome, hword⟩, _⟩, hrest⟩
    refine ⟨?_, rest, hrest, hcs⟩
    rw [Reference.isName, Bool.and_eq_true]
    exact ⟨by simpa using hsome, List.all_eq_true.mpr hword⟩

theorem mem_reference_cons {reference : Reference}
    (hparts : StartsOutside Reference.isCharacter parts.prod) :
    (reference.IsNamed ∧ cs ∈ (exactly reference.text :: parts).prod) ↔
      ∃ rest, reference? cs = some (reference, rest) ∧ rest ∈ parts.prod := by
  simp only [mem_exactly_cons, reference?_eq_some_iff]
  constructor
  · rintro ⟨hnamed, rest, hrest, hcs⟩
    exact ⟨rest, ⟨⟨hnamed, hcs⟩, hparts hrest⟩, hrest⟩
  · rintro ⟨rest, ⟨⟨hnamed, hcs⟩, _⟩, hrest⟩
    exact ⟨hnamed, rest, hrest, hcs⟩

end Parts

end Syllabus.Directive
