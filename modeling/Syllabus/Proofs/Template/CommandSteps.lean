import Mathlib.Data.List.TakeWhile
import Syllabus.Proofs.Text.Blanks
import Syllabus.Template.Directive

/-!
# Syllabus: steps of the command reader

Commands are read in steps. Each takes a text, a keyword, a name or a reference from the front, as
far as it goes, and leaves the rest. Here it says of each step when it succeeds, and with what.

* **`Reference.read?_eq_some_iff`**: references are read exactly as they are written.
* **`run?_eq_some_iff`**, **`reference?_eq_some_iff`**: a step ends where the next character is none
  of its own.
-/

namespace Syllabus

namespace Reference

/-- Whether the name and the fields are names. -/
def IsNamed (reference : Reference) : Prop :=
  ∀ part ∈ reference.name :: reference.path, isName part.toList = true

instance (reference : Reference) : Decidable reference.IsNamed :=
  inferInstanceAs (Decidable (∀ _ ∈ _, _))

variable {reference : Reference} {cs : List Char}

/-- The text of a reference is its names with dots between them. -/
theorem toList_text (reference : Reference) :
    reference.text.toList
      = ['.'].intercalate ((reference.name :: reference.path).map String.toList) :=
  String.toList_intercalate

/-- The text of a reference without a path is the name alone. -/
theorem text_eq (reference : Reference) :
    reference.text = if reference.path = [] then reference.name
      else reference.name ++ "." ++ reference.pathText := by
  rw [Reference.text, Reference.pathText]
  -- A dot is put in only where there is a field.
  cases reference.path with
  | nil => simp
  | cons field path => simp [String.intercalate_cons_cons]

/-- What is in no part, and is not the separator, is not in the joined text. -/
theorem not_mem_intercalate {separator : Char} {parts : List (List Char)} {c : Char}
    (hc : c ≠ separator)
    (hparts : ∀ part ∈ parts, c ∉ part) : c ∉ [separator].intercalate parts := by
  -- On the parts; the separator was ruled out on its own.
  induction parts with
  | nil => exact List.not_mem_nil
  | cons part parts ih =>
    have hpart := hparts part List.mem_cons_self
    have hrest := ih fun other hother => hparts other (.tail _ hother)
    -- A separator is put in only before a further part.
    cases parts with
    | nil => simpa using hpart
    | cons next parts =>
      rw [List.intercalate_cons_cons]
      simp [hpart, hc, hrest]

/-- A name has only characters of words. -/
theorem isWord_of_isName (h : isName cs = true) {c : Char} (hc : c ∈ cs) :
    Text.isWord c = true := by
  rw [isName, Bool.and_eq_true] at h
  exact List.all_eq_true.mp h.2 c hc

theorem ne_nil_of_isName (h : isName cs = true) : cs ≠ [] := by
  rintro rfl
  cases h

theorem not_mem_of_isName (h : isName cs = true) {c : Char} (hc : Text.isWord c = false) :
    c ∉ cs := by
  intro hmem
  rw [isWord_of_isName h hmem] at hc
  cases hc

/-- The parts of a written reference stand between its dots. -/
theorem splitOn_text (h : reference.IsNamed) :
    reference.text.toList.splitOn '.' = (reference.name :: reference.path).map String.toList := by
  rw [toList_text]
  refine List.splitOn_intercalate '.' (List.forall_mem_map.mpr fun part hpart => ?_) (by simp)
  exact not_mem_of_isName (h part hpart) (by decide)

/-- A reference of names is read back from its text. -/
theorem read?_text (h : reference.IsNamed) : read? reference.text.toList = some reference := by
  have hnames : ((reference.name :: reference.path).map String.toList).all isName = true :=
    List.all_eq_true.mpr (List.forall_mem_map.mpr h)
  unfold read?
  rw [splitOn_text h]
  show (if ((reference.name :: reference.path).map String.toList).all isName then _ else none) = _
  rw [if_pos hnames, List.map_map]
  simp [Function.comp_def]

/-- What is read is made of names, and has this text. -/
theorem isNamed_of_read? (h : read? cs = some reference) :
    reference.IsNamed ∧ cs = reference.text.toList := by
  -- Nothing is lost by splitting: the dots put the parts together again.
  have hjoin : ['.'].intercalate (cs.splitOn '.') = cs := List.intercalate_splitOn '.'
  unfold read? at h
  split at h
  · cases h
  · next name path hsplit =>
    split at h
    · next hnames =>
      cases h
      have hnamed : ∀ part ∈ (name :: path).map String.ofList, isName part.toList = true := by
        intro part hpart
        obtain ⟨written, hwritten, rfl⟩ := List.mem_map.mp hpart
        rw [String.toList_ofList]
        exact List.all_eq_true.mp hnames written hwritten
      have hparts : ((name :: path).map String.ofList).map String.toList = name :: path := by
        simp [Function.comp_def]
      refine ⟨hnamed, ?_⟩
      rw [toList_text]
      show cs = ['.'].intercalate (((name :: path).map String.ofList).map String.toList)
      rw [hparts, ← hsplit, hjoin]
    · cases h

/-- **References are read exactly as they are written.** -/
theorem read?_eq_some_iff :
    read? cs = some reference ↔ reference.IsNamed ∧ cs = reference.text.toList := by
  refine ⟨isNamed_of_read?, ?_⟩
  rintro ⟨hnamed, rfl⟩
  exact read?_text hnamed

/-- Whether a reference can have the character. -/
def isCharacter (c : Char) : Bool := Text.isWord c || c == '.'

/-- The characters of a reference are those that may be in one. -/
theorem isCharacter_of_mem (h : reference.IsNamed) {c : Char} (hc : c ∈ reference.text.toList) :
    isCharacter c = true := by
  -- A foreign character is in no part, and is no dot either.
  by_contra hforeign
  rw [Bool.not_eq_true, isCharacter, Bool.or_eq_false_iff, beq_eq_false_iff_ne] at hforeign
  rw [toList_text] at hc
  exact not_mem_intercalate hforeign.2
    (List.forall_mem_map.mpr fun part hpart => not_mem_of_isName (h part hpart) hforeign.1) hc

theorem isCharacter_of_isBlank {c : Char} (h : Text.isBlank c = true) : isCharacter c = false := by
  rw [isCharacter, Text.isWord_of_isBlank h, Bool.false_or, beq_eq_false_iff_ne]
  rintro rfl
  cases h

theorem isBlank_of_mem (h : reference.IsNamed) {c : Char} (hc : c ∈ reference.text.toList) :
    Text.isBlank c = false := by
  by_contra hblank
  rw [Bool.not_eq_false] at hblank
  have hcharacter := isCharacter_of_mem h hc
  rw [isCharacter_of_isBlank hblank] at hcharacter
  cases hcharacter

/-- Trimming takes the blanks in front of a reference and no more. -/
theorem trim_text (h : reference.IsNamed) {before : List Char} (hbefore : Text.AllBlank before) :
    Text.trim (before ++ (reference.text.toList ++ [])) = reference.text.toList := by
  -- Neither end of the written reference is blank.
  refine Text.trim_append hbefore Text.allBlank_nil ((Option.any_eq_false _ _).mpr fun c hc => ?_)
    ((Option.any_eq_false _ _).mpr fun c hc => ?_)
  · exact isBlank_of_mem h (List.mem_of_head? hc)
  · exact isBlank_of_mem h (List.mem_of_getLast? hc)

theorem text_ne_nil (h : reference.IsNamed) : reference.text.toList ≠ [] := by
  have hname := ne_nil_of_isName (h reference.name List.mem_cons_self)
  rw [toList_text]
  -- The name alone makes the text more than empty.
  cases hpath : reference.path with
  | nil => simpa using hname
  | cons field path => simp [hname]

end Reference

namespace Directive

variable {s : String} {test : Char → Bool} {cs rest written : List Char}

/-- A fixed text is taken where it stands in front. -/
theorem afterText?_eq_some_iff : afterText? s cs = some rest ↔ cs = s.toList ++ rest := by
  unfold afterText?
  constructor
  · intro h
    split at h
    · next hstarts =>
      cases h
      exact List.prefix_iff_eq_append.mp (List.isPrefixOf_iff_prefix.mp hstarts) |>.symm
    · cases h
  · rintro rfl
    simp [List.isPrefixOf_iff_prefix]

/-- A keyword is taken where it stands in front, if no word goes on behind it. -/
theorem afterKeyword?_eq_some_iff :
    afterKeyword? s cs = some rest ↔
      cs = s.toList ++ rest ∧ rest.head?.any Text.isWord = false := by
  unfold afterKeyword?
  simp only [Option.bind_eq_bind, Option.bind_eq_some_iff, afterText?_eq_some_iff]
  constructor
  · rintro ⟨read, rfl, h⟩
    split at h
    · cases h
    · next hends =>
      cases h
      exact ⟨rfl, by simpa using hends⟩
  · rintro ⟨rfl, hends⟩
    exact ⟨rest, rfl, if_neg (by simp [hends])⟩

/-- A run is taken as long as it can be, and is not empty. -/
theorem run?_eq_some_iff :
    run? test cs = some (written, rest) ↔
      (cs = written ++ rest ∧ written ≠ [] ∧ (∀ c ∈ written, test c = true)) ∧
        rest.head?.any test = false := by
  unfold run?
  constructor
  · intro h
    split at h
    · next hfirst =>
      cases h
      refine ⟨⟨List.takeWhile_append_dropWhile.symm, ?_, fun _ => List.mem_takeWhile_imp⟩, ?_⟩
      · cases cs with
        | nil => cases hfirst
        | cons c cs => rw [List.takeWhile_cons_of_pos (by simpa using hfirst)]; simp
      · -- What is left starts with a character that ended the run.
        have hends := List.head?_dropWhile_not test cs
        cases hrest : (cs.dropWhile test).head? with
        | none => rfl
        | some c => simpa [hrest] using hends
    · cases h
  · rintro ⟨⟨rfl, hsome, htest⟩, hends⟩
    -- The rest does not start with such a character, so the run ends before it.
    have hkept : rest.takeWhile test = [] ∧ rest.dropWhile test = rest := by
      cases rest with
      | nil => exact ⟨rfl, rfl⟩
      | cons c rest =>
        have hc : ¬ test c = true := by simpa using hends
        exact ⟨List.takeWhile_cons_of_neg hc, List.dropWhile_cons_of_neg hc⟩
    rw [List.takeWhile_append_of_pos htest, List.dropWhile_append_of_pos htest, hkept.1, hkept.2,
      List.append_nil, if_pos]
    obtain ⟨c, written, rfl⟩ := List.exists_cons_of_ne_nil hsome
    exact htest c List.mem_cons_self

/-- A reference is taken as long as it can be. -/
theorem reference?_eq_some_iff {reference : Reference} :
    reference? cs = some (reference, rest) ↔
      (reference.IsNamed ∧ cs = reference.text.toList ++ rest) ∧
        rest.head?.any Reference.isCharacter = false := by
  constructor
  · intro h
    obtain ⟨⟨written, behind⟩, hrun, h⟩ := Option.bind_eq_some_iff.mp h
    obtain ⟨found, hread, h⟩ := Option.bind_eq_some_iff.mp h
    cases h
    obtain ⟨hnamed, rfl⟩ := Reference.read?_eq_some_iff.mp hread
    obtain ⟨⟨hcs, _⟩, hends⟩ := run?_eq_some_iff.mp hrun
    exact ⟨⟨hnamed, hcs⟩, hends⟩
  · rintro ⟨⟨hnamed, hcs⟩, hends⟩
    -- The text of a reference is a run of its characters, which ends where they do.
    have hrun : run? Reference.isCharacter cs = some (reference.text.toList, rest) :=
      run?_eq_some_iff.mpr ⟨⟨hcs, Reference.text_ne_nil hnamed,
        fun _ => Reference.isCharacter_of_mem hnamed⟩, hends⟩
    refine Option.bind_eq_some_iff.mpr ⟨_, hrun, ?_⟩
    exact Option.bind_eq_some_iff.mpr ⟨_, Reference.read?_text hnamed, rfl⟩

end Directive

end Syllabus
