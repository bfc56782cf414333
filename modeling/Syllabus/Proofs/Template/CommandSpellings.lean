import Syllabus.Proofs.Template.CommandGrammar
import Syllabus.Template.Basic

/-!
# Syllabus: spellings of directives

A command is read as a directive exactly if it spells the directive, and the names in it are names.
What is read off a shape behind its keyword is what the layout of the directive spells there; the
blanks around a command are cut off before.

* **`ofCommand?_eq_some_iff`**: the reader accepts the spellings of directives with proper names.
* **`ofCommand?_decides_spellings`**: it refuses all other commands, whichever blanks are put in or
  left out makes no difference, and directives are read back from their canonical commands.
-/

namespace Syllabus.Directive

variable {directive : Directive} {cs command : List Char} {parts : List (Language Char)}

/-! ## Shapes of directives

What is read behind the keyword of a directive. -/

/-- The end of a block's head is read where it is spelled. -/
theorem mem_blockStart :
    cs ∈ [blanks, exactly ")", blanks, exactly "\x7b", blanks].prod ↔ blockStart? cs = some () := by
  have hclosing : StartsOutside Text.isBlank
      [exactly ")", blanks, exactly "\x7b", blanks].prod :=
    startsOutside_exactly (by decide) (by decide)
  have hopening : StartsOutside Text.isBlank [exactly "\x7b", blanks].prod :=
    startsOutside_exactly (by decide) (by decide)
  rw [mem_blanks_cons hclosing, mem_text_cons]
  constructor
  · rintro ⟨afterClose, hclose, h⟩
    obtain ⟨afterOpen, hopen, h⟩ := mem_text_cons.mp ((mem_blanks_cons hopening).mp h)
    have hend : Text.trimStart afterOpen = [] := (mem_blanks_cons startsOutside_nil).mp h
    simp [blockStart?, hclose, hopen, hend]
  · intro h
    obtain ⟨afterClose, hclose, h⟩ := Option.bind_eq_some_iff.mp h
    obtain ⟨afterOpen, hopen, h⟩ := Option.bind_eq_some_iff.mp h
    have hend : Text.trimStart afterOpen = [] := by
      by_contra hleft
      simp [hleft] at h
    refine ⟨afterClose, hclose, (mem_blanks_cons hopening).mpr ?_⟩
    exact mem_text_cons.mpr ⟨afterOpen, hopen, (mem_blanks_cons startsOutside_nil).mpr hend⟩

/-- What is read as a loop is spelled as one. -/
theorem mem_of_loop? (h : loop? cs = some directive) :
    ∃ item source, directive = loop item source ∧ directive.IsNamed ∧
      cs ∈ (directive.layout.tail ++ [blanks]).prod := by
  obtain ⟨afterOpen, hopen, h⟩ := Option.bind_eq_some_iff.mp h
  obtain ⟨afterVar, hvar, h⟩ := Option.bind_eq_some_iff.mp h
  obtain ⟨beforeItem, hbeforeItem, h⟩ := Option.bind_eq_some_iff.mp h
  obtain ⟨⟨item, afterItem⟩, hitem, h⟩ := Option.bind_eq_some_iff.mp h
  obtain ⟨beforeIn, hbeforeIn, h⟩ := Option.bind_eq_some_iff.mp h
  obtain ⟨afterIn, hin, h⟩ := Option.bind_eq_some_iff.mp h
  obtain ⟨beforeSource, hbeforeSource, h⟩ := Option.bind_eq_some_iff.mp h
  obtain ⟨⟨source, afterSource⟩, hsource, h⟩ := Option.bind_eq_some_iff.mp h
  obtain ⟨_, hstart, h⟩ := Option.bind_eq_some_iff.mp h
  cases h
  -- The parts from the last to the first.
  have hparts := mem_blockStart.mpr hstart
  obtain ⟨hsource, hparts⟩ :=
    (mem_reference_cons startsOutside_blockStart).mpr ⟨_, hsource, hparts⟩
  have hparts := (mem_someBlanks_cons (startsOutside_reference hsource)).mpr
    ⟨_, hbeforeSource, hparts⟩
  have hparts := (mem_keyword_cons startsOutside_word).mpr ⟨_, hin, hparts⟩
  have hparts := (mem_someBlanks_cons (startsOutside_exactly (by decide) (by decide))).mpr
    ⟨_, hbeforeIn, hparts⟩
  rw [← String.toList_ofList (l := item)] at hitem
  obtain ⟨hitem, hparts⟩ := (mem_name_cons startsOutside_word).mpr ⟨_, hitem, hparts⟩
  have hparts := (mem_someBlanks_cons (startsOutside_name hitem)).mpr ⟨_, hbeforeItem, hparts⟩
  have hparts := (mem_keyword_cons startsOutside_word).mpr ⟨_, hvar, hparts⟩
  have hparts := (mem_blanks_cons (startsOutside_exactly (by decide) (by decide))).mpr hparts
  have hparts := mem_text_cons.mpr ⟨_, hopen, hparts⟩
  have hparts := (mem_blanks_cons (startsOutside_exactly (by decide) (by decide))).mpr hparts
  exact ⟨_, source, rfl, ⟨hitem, hsource⟩, hparts⟩

theorem loop?_of_mem {item : String} {source : Reference} (hnamed : (loop item source).IsNamed)
    (h : cs ∈ ((loop item source).layout.tail ++ [blanks]).prod) :
    loop? cs = some (loop item source) := by
  obtain ⟨hitem, hsource⟩ := hnamed
  -- The parts from the first to the last.
  have h := (mem_blanks_cons (startsOutside_exactly (by decide) (by decide))).mp h
  obtain ⟨afterOpen, hopen, h⟩ := mem_text_cons.mp h
  have h := (mem_blanks_cons (startsOutside_exactly (by decide) (by decide))).mp h
  obtain ⟨afterVar, hvar, h⟩ := (mem_keyword_cons startsOutside_word).mp h
  obtain ⟨beforeItem, hbeforeItem, h⟩ := (mem_someBlanks_cons (startsOutside_name hitem)).mp h
  obtain ⟨afterItem, hread, h⟩ := (mem_name_cons startsOutside_word).mp ⟨hitem, h⟩
  obtain ⟨beforeIn, hbeforeIn, h⟩ :=
    (mem_someBlanks_cons (startsOutside_exactly (by decide) (by decide))).mp h
  obtain ⟨afterIn, hin, h⟩ := (mem_keyword_cons startsOutside_word).mp h
  obtain ⟨beforeSource, hbeforeSource, h⟩ :=
    (mem_someBlanks_cons (startsOutside_reference hsource)).mp h
  obtain ⟨afterSource, hreference, h⟩ :=
    (mem_reference_cons startsOutside_blockStart).mp ⟨hsource, h⟩
  have hstart := mem_blockStart.mp h
  simp [loop?, hopen, hvar, hbeforeItem, hread, hbeforeIn, hin, hbeforeSource, hreference, hstart]

/-- What is read as a conditional is spelled as one. -/
theorem mem_of_conditional? (h : conditional? cs = some directive) :
    ∃ flag, directive = conditional flag ∧ directive.IsNamed ∧
      cs ∈ (directive.layout.tail ++ [blanks]).prod := by
  obtain ⟨afterOpen, hopen, h⟩ := Option.bind_eq_some_iff.mp h
  obtain ⟨⟨flag, afterFlag⟩, hflag, h⟩ := Option.bind_eq_some_iff.mp h
  obtain ⟨_, hstart, h⟩ := Option.bind_eq_some_iff.mp h
  split at h
  · cases h
  · next hpath =>
    cases h
    have hparts := mem_blockStart.mpr hstart
    obtain ⟨hflag, hparts⟩ := (mem_reference_cons startsOutside_blockStart).mpr ⟨_, hflag, hparts⟩
    have hparts := (mem_blanks_cons (startsOutside_reference hflag)).mpr hparts
    have hparts := mem_text_cons.mpr ⟨_, hopen, hparts⟩
    have hparts := (mem_blanks_cons (startsOutside_exactly (by decide) (by decide))).mpr hparts
    exact ⟨flag, rfl, ⟨hflag, by simpa using hpath⟩, hparts⟩

theorem conditional?_of_mem {flag : Reference} (hnamed : (conditional flag).IsNamed)
    (h : cs ∈ ((conditional flag).layout.tail ++ [blanks]).prod) :
    conditional? cs = some (conditional flag) := by
  obtain ⟨hflag, hpath⟩ := hnamed
  have h := (mem_blanks_cons (startsOutside_exactly (by decide) (by decide))).mp h
  obtain ⟨afterOpen, hopen, h⟩ := mem_text_cons.mp h
  have h := (mem_blanks_cons (startsOutside_reference hflag)).mp h
  obtain ⟨afterFlag, hread, h⟩ := (mem_reference_cons startsOutside_blockStart).mp ⟨hflag, h⟩
  have hstart := mem_blockStart.mp h
  simp [conditional?, hopen, hread, hstart, hpath]

/-- The brace of an alternative is the last character of its command. -/
theorem alternative?_iff :
    alternative? cs = some directive ↔
      directive = alternative ∧ cs ∈ alternative.layout.tail.prod := by
  have hopening : StartsOutside Text.isBlank [exactly "\x7b"].prod :=
    startsOutside_exactly (by decide) (by decide)
  have hword : StartsOutside Text.isWord [blanks, exactly "\x7b"].prod :=
    startsOutside_blanks (fun _ => Text.isWord_of_isBlank)
      (startsOutside_exactly (by decide) (by decide))
  change _ ↔ _ ∧ cs ∈ [blanks, exactly "else", blanks, exactly "\x7b"].prod
  rw [mem_blanks_cons (startsOutside_exactly (by decide) (by decide)), mem_keyword_cons hword]
  constructor
  · intro h
    -- The reader's steps, each of which has taken its part.
    obtain ⟨afterElse, helse, h⟩ := Option.bind_eq_some_iff.mp h
    obtain ⟨afterOpen, hopen, h⟩ := Option.bind_eq_some_iff.mp h
    obtain ⟨_, hend, h⟩ := Option.bind_eq_some_iff.mp h
    cases h
    have hend : afterOpen = [] := by
      by_contra hleft
      simp [hleft] at hend
    exact ⟨rfl, afterElse, helse, (mem_blanks_cons hopening).mpr
      (mem_text_cons.mpr ⟨afterOpen, hopen, hend⟩)⟩
  · rintro ⟨rfl, afterElse, helse, h⟩
    obtain ⟨afterOpen, hopen, rfl⟩ := mem_text_cons.mp ((mem_blanks_cons hopening).mp h)
    simp [alternative?, helse, hopen]

/-! ## Whole commands -/

/-- A trimmed command that is read spells the directive, apart from blanks at its end. -/
theorem mem_of_ofTrimmed? (h : ofTrimmed? cs = some directive) :
    directive.IsNamed ∧ cs ∈ (directive.layout ++ [blanks]).prod := by
  unfold ofTrimmed? at h
  -- The command is an interpolation, the end of a block, or starts with a keyword.
  split at h
  · next written =>
    obtain ⟨value, hread, rfl⟩ := Option.map_eq_some_iff.mp h
    obtain ⟨hnamed, htrim⟩ := Reference.read?_eq_some_iff.mp hread
    obtain ⟨before, behind, hbefore, hbehind, hwritten⟩ := Text.exists_blanks written
    have hvalue : value.text.toList ++ behind ∈ [exactly value.text, blanks].prod :=
      mem_exactly_cons.mpr ⟨behind, mem_blanks.mpr hbehind, rfl⟩
    rw [htrim] at hwritten
    exact ⟨hnamed, mem_exactly_cons.mpr
      ⟨written, mem_prod_cons.mpr ⟨before, hbefore, _, hvalue, hwritten⟩, rfl⟩⟩
  · cases h
    exact ⟨trivial, mem_append_no_blanks (mem_exactly_cons.mpr ⟨[], rfl, rfl⟩)⟩
  · split at h
    · next hforeach =>
      obtain ⟨item, source, rfl, hnamed, hparts⟩ := mem_of_loop? h
      have hcs := (afterKeyword?_eq_some_iff.mp hforeach).1
      exact ⟨hnamed, mem_exactly_cons.mpr ⟨_, hparts, hcs⟩⟩
    · split at h
      · next hif =>
        obtain ⟨flag, rfl, hnamed, hparts⟩ := mem_of_conditional? h
        have hcs := (afterKeyword?_eq_some_iff.mp hif).1
        exact ⟨hnamed, mem_exactly_cons.mpr ⟨_, hparts, hcs⟩⟩
      · obtain ⟨afterClose, hclose, h⟩ := Option.bind_eq_some_iff.mp h
        obtain ⟨rfl, hparts⟩ := alternative?_iff.mp h
        have hcs := afterText?_eq_some_iff.mp hclose
        exact ⟨trivial, mem_append_no_blanks (mem_exactly_cons.mpr ⟨_, hparts, hcs⟩)⟩

/-! A keyword decides which shape is read. -/

/-- Behind a hash the command is a reference. -/
theorem ofTrimmed?_hash (rest : List Char) :
    ofTrimmed? ("#".toList ++ rest) = (Reference.read? (Text.trim rest)).map interpolation := rfl

/-- Behind `foreach` a command is a loop or nothing. -/
theorem ofTrimmed?_foreach {rest : List Char} (h : afterKeyword? "foreach" cs = some rest) :
    ofTrimmed? cs = loop? rest := by
  have hcs := (afterKeyword?_eq_some_iff.mp h).1
  unfold ofTrimmed?
  split
  · simp at hcs
  · simp at hcs
  · rw [h]

/-- Behind `if` a command is a conditional or nothing. -/
theorem ofTrimmed?_if {rest : List Char} (h : afterKeyword? "if" cs = some rest) :
    ofTrimmed? cs = conditional? rest := by
  have hcs := (afterKeyword?_eq_some_iff.mp h).1
  have hforeach : afterKeyword? "foreach" cs = none := by
    rw [hcs]
    rfl
  unfold ofTrimmed?
  split
  · simp at hcs
  · simp at hcs
  · rw [hforeach, h]

/-- What reads as an alternative behind a brace is one. -/
theorem ofTrimmed?_brace {rest : List Char} (h : alternative? rest = some directive) :
    ofTrimmed? ("\x7d".toList ++ rest) = some directive := by
  cases rest with
  | nil => cases h
  | cons c rest => exact h

/-- What a directive spells without blanks around it is read as this directive. -/
theorem ofTrimmed?_of_mem (hnamed : directive.IsNamed) (h : cs ∈ directive.layout.prod) :
    ofTrimmed? cs = some directive := by
  -- One case for each directive, by the keyword it starts with.
  cases directive with
  | interpolation value =>
    obtain ⟨rest, hrest, rfl⟩ := mem_exactly_cons.mp h
    obtain ⟨before, hbefore, written, hwritten, rfl⟩ := mem_prod_cons.mp hrest
    obtain ⟨_, rfl, rfl⟩ := mem_exactly_cons.mp hwritten
    rw [ofTrimmed?_hash, Reference.trim_text hnamed hbefore, Reference.read?_text hnamed]
    rfl
  | loop item source =>
    obtain ⟨rest, hkeyword, hparts⟩ :=
      (mem_keyword_cons startsOutside_parenthesis).mp (mem_append_no_blanks h)
    rw [ofTrimmed?_foreach hkeyword]
    exact loop?_of_mem hnamed hparts
  | conditional flag =>
    obtain ⟨rest, hkeyword, hparts⟩ :=
      (mem_keyword_cons startsOutside_parenthesis).mp (mem_append_no_blanks h)
    rw [ofTrimmed?_if hkeyword]
    exact conditional?_of_mem hnamed hparts
  | close =>
    obtain ⟨_, rfl, rfl⟩ := mem_exactly_cons.mp h
    rfl
  | alternative =>
    obtain ⟨rest, hrest, rfl⟩ := mem_exactly_cons.mp h
    exact ofTrimmed?_brace (alternative?_iff.mpr ⟨rfl, hrest⟩)

/-! Neither end of a layout is blank, so that trimming takes the blanks around it and no more. -/

theorem startsOutside_layout : StartsOutside Text.isBlank directive.layout.prod := by
  cases directive <;> exact startsOutside_exactly (by decide) (by decide)

/-- What ends in a fixed text ends in its last character. -/
theorem getLast?_of_mem {s : String} (hs : s.toList ≠ [])
    (hlast : parts.getLast? = some (exactly s)) (h : cs ∈ parts.prod) :
    cs.getLast? = s.toList.getLast? := by
  obtain ⟨front, rfl⟩ := List.getLast?_eq_some_iff.mp hlast
  obtain ⟨taken, _, rest, hrest, rfl⟩ := mem_prod_append.mp h
  obtain ⟨_, rfl, rfl⟩ := mem_exactly_cons.mp hrest
  rw [List.append_nil, List.getLast?_append_of_ne_nil _ hs]

/-- No layout ends in a blank. -/
theorem getLast?_layout (hnamed : directive.IsNamed) (h : cs ∈ directive.layout.prod) :
    cs.getLast?.any Text.isBlank = false := by
  cases directive with
  | interpolation value =>
    rw [getLast?_of_mem (Reference.text_ne_nil hnamed) rfl h, Option.any_eq_false]
    exact fun c hc => Reference.isBlank_of_mem hnamed (List.mem_of_getLast? hc)
  | loop item source =>
    rw [getLast?_of_mem (s := "\x7b") (by decide) rfl h]
    rfl
  | conditional flag =>
    rw [getLast?_of_mem (s := "\x7b") (by decide) rfl h]
    rfl
  | close =>
    rw [getLast?_of_mem (s := "\x7d") (by decide) rfl h]
    rfl
  | alternative =>
    rw [getLast?_of_mem (s := "\x7b") (by decide) rfl h]
    rfl

/-- A spelling is a layout with blanks around it. -/
theorem mem_spellings :
    command ∈ directive.spellings ↔ ∃ before, Text.AllBlank before ∧
      ∃ cs ∈ directive.layout.prod, ∃ behind, Text.AllBlank behind ∧
        command = before ++ (cs ++ behind) := by
  constructor
  · intro h
    obtain ⟨before, hbefore, rest, hrest, rfl⟩ := mem_prod_cons.mp h
    obtain ⟨cs, hcs, behind, hbehind, rfl⟩ := mem_append_blanks.mp hrest
    exact ⟨before, hbefore, cs, hcs, behind, hbehind, rfl⟩
  · rintro ⟨before, hbefore, cs, hcs, behind, hbehind, rfl⟩
    exact mem_prod_cons.mpr ⟨before, hbefore, _,
      mem_append_blanks.mpr ⟨cs, hcs, behind, hbehind, rfl⟩, rfl⟩

/-- **The reader accepts the spellings of directives with proper names.** -/
theorem ofCommand?_eq_some_iff :
    ofCommand? command = some directive ↔ directive.IsNamed ∧ command ∈ directive.spellings := by
  rw [ofCommand?, mem_spellings]
  constructor
  · intro h
    obtain ⟨hnamed, hlayout⟩ := mem_of_ofTrimmed? h
    obtain ⟨cs, hcs, inner, hinner, htrim⟩ := mem_append_blanks.mp hlayout
    obtain ⟨before, behind, hbefore, hbehind, hcommand⟩ := Text.exists_blanks command
    refine ⟨hnamed, before, hbefore, cs, hcs, inner ++ behind, hinner.append hbehind, ?_⟩
    rw [hcommand, htrim, List.append_assoc]
  · rintro ⟨hnamed, before, hbefore, cs, hcs, behind, hbehind, rfl⟩
    rw [Text.trim_append hbefore hbehind (startsOutside_layout hcs) (getLast?_layout hnamed hcs)]
    exact ofTrimmed?_of_mem hnamed hcs

/-! ## Canonical commands -/

/-- One text is spelled by a fixed part. -/
theorem mem_exactly {s : String} : cs ∈ exactly s ↔ cs = s.toList := Iff.rfl

theorem nil_mem_blanks : [] ∈ blanks := Text.allBlank_nil

theorem space_mem_blanks : [' '] ∈ blanks := by
  intro c hc
  rw [List.mem_singleton.mp hc]
  decide

theorem space_mem_someBlanks : [' '] ∈ someBlanks := ⟨space_mem_blanks, List.cons_ne_nil _ _⟩

/-- Pieces that spell the parts one by one spell all of them. -/
theorem flatten_mem_prod {pieces : List (List Char)} (h : List.Forall₂ (· ∈ ·) pieces parts) :
    pieces.flatten ∈ parts.prod := by
  induction h with
  | nil => rfl
  | @cons piece part pieces parts hpiece _ ih =>
    exact mem_prod_cons.mpr ⟨piece, hpiece, pieces.flatten, ih, List.flatten_cons⟩

/-- What stands for the parts of a directive in its canonical command. -/
def canonicalPieces : Directive → List (List Char)
  | interpolation value => ["#".toList, [], value.text.toList]
  | loop item source =>
    ["foreach".toList, [' '], "(".toList, [], "var".toList, [' '], item.toList, [' '], "in".toList,
      [' '], source.text.toList, [], ")".toList, [' '], "\x7b".toList]
  | conditional flag =>
    ["if".toList, [' '], "(".toList, [], flag.text.toList, [], ")".toList, [' '], "\x7b".toList]
  | close => ["\x7d".toList]
  | alternative => ["\x7d".toList, [' '], "else".toList, [' '], "\x7b".toList]

/-- The canonical pieces spell the parts of the layout. -/
theorem canonicalPieces_mem : List.Forall₂ (· ∈ ·) directive.canonicalPieces directive.layout := by
  cases directive <;>
    simp only [canonicalPieces, layout, List.forall₂_cons, List.Forall₂.nil, mem_exactly,
      nil_mem_blanks, space_mem_blanks, space_mem_someBlanks, and_self]

/-- The canonical pieces together are the canonical text. -/
theorem flatten_canonicalPieces :
    directive.canonicalPieces.flatten = directive.canonical.toList := by
  unfold canonicalPieces canonical
  cases directive <;>
    simp only [String.toList_append, List.flatten_cons, List.flatten_nil, List.append_nil,
      List.append_assoc] <;>
    rfl

theorem canonical_mem_spellings : directive.canonical.toList ∈ directive.spellings := by
  refine mem_spellings.mpr
    ⟨[], Text.allBlank_nil, _, ?_, [], Text.allBlank_nil, (List.append_nil _).symm⟩
  rw [← flatten_canonicalPieces]
  exact flatten_mem_prod canonicalPieces_mem

/-! ## Main statement -/

/-- What is no spelling of any directive is no command. -/
theorem ofCommand?_eq_none_iff :
    ofCommand? command = none ↔
      ∀ directive : Directive, directive.IsNamed → command ∉ directive.spellings := by
  simp only [Option.eq_none_iff_forall_ne_some, ne_eq, ofCommand?_eq_some_iff, not_and]

/-- A piece is refused as unsupported just if its command is none. -/
theorem readSegment_eq_unsupported_iff {line : Nat} {piece literal : List Char}
    (hpiece : Text.cutAt Template.closeMarker piece = some (command, literal)) :
    Template.readSegment line piece = .error (.unsupportedDirective, Text.trim command) ↔
      ofCommand? command = none := by
  unfold Template.readSegment
  rw [hpiece]
  cases hcommand : ofCommand? command with
  | none => simp only [hcommand]
  | some directive => simp only [hcommand, reduceCtorEq]

/-- **Directives are told apart by their spellings.** A command is read as the one directive with
proper names that it spells; with none it is refused. So it makes no difference which blanks are put
in or left out, and a directive is read back from its canonical command. In a reference, the name is
the first part and the path what the dots join behind it. -/
theorem ofCommand?_decides_spellings :
    (∀ (command : List Char) (directive : Directive),
      ofCommand? command = some directive ↔
        directive.IsNamed ∧ command ∈ directive.spellings) ∧
    (∀ command : List Char, ofCommand? command = none ↔
      ∀ directive : Directive, directive.IsNamed → command ∉ directive.spellings) ∧
    (∀ (line : Nat) (piece command literal : List Char),
      Text.cutAt Template.closeMarker piece = some (command, literal) →
      (Template.readSegment line piece = .error (.unsupportedDirective, Text.trim command) ↔
        ∀ directive : Directive, directive.IsNamed → command ∉ directive.spellings)) ∧
    (∀ directive : Directive, directive.IsNamed →
      ∀ command ∈ directive.spellings, ∀ other ∈ directive.spellings,
        ofCommand? other = ofCommand? command) ∧
    (∀ directive : Directive,
      ofCommand? directive.canonical.toList = some directive ↔ directive.IsNamed) ∧
    (∀ reference : Reference, reference.text = if reference.path = [] then reference.name
      else reference.name ++ "." ++ reference.pathText) := by
  refine ⟨fun _ _ => ofCommand?_eq_some_iff, fun _ => ofCommand?_eq_none_iff, ?_, ?_, ?_,
    Reference.text_eq⟩
  · intro line piece command literal hpiece
    rw [readSegment_eq_unsupported_iff hpiece, ofCommand?_eq_none_iff]
  · intro directive hnamed command hcommand other hother
    rw [ofCommand?_eq_some_iff.mpr ⟨hnamed, hcommand⟩, ofCommand?_eq_some_iff.mpr ⟨hnamed, hother⟩]
  · intro directive
    rw [ofCommand?_eq_some_iff]
    exact and_iff_left canonical_mem_spellings

/-- The words of the grammar are names, too, and any blanks will do. -/
theorem ofCommand?_words :
    let command := "\u3000foreach(\u00a0var\u2003in\u0085in\tvar.if )\n\x7b".toList
    let directive := loop "in" ⟨"var", ["if"]⟩
    let piece := "foreach (var c inside items) \x7b%>".toList
    directive.IsNamed ∧ command ∈ directive.spellings ∧
      ofCommand? command = ofCommand? "foreach (var in in var.if) \x7b".toList ∧
      ofCommand? command = some directive ∧
      Template.readSegment 1 piece
        = .error (.unsupportedDirective, "foreach (var c inside items) \x7b".toList) := by
  intro command directive piece
  obtain ⟨haccepts, hnone, hrefuses, hblanks, hcanonical, _⟩ := ofCommand?_decides_spellings
  have hread : ofCommand? command = some directive := by decide +kernel
  obtain ⟨hnamed, hspelled⟩ := (haccepts command directive).mp hread
  have hcanon := ((haccepts _ directive).mp ((hcanonical directive).mpr hnamed)).2
  refine ⟨hnamed, hspelled, hblanks directive hnamed _ hcanon _ hspelled, hread, ?_⟩
  -- The other command has the blank missing behind its loop variable's keyword.
  have hcut : Text.cutAt Template.closeMarker piece
      = some ("foreach (var c inside items) \x7b".toList, []) := by decide +kernel
  have hnot : ofCommand? "foreach (var c inside items) \x7b".toList = none := by decide +kernel
  exact (hrefuses 1 piece _ _ hcut).mpr ((hnone _).mp hnot)

end Syllabus.Directive
