import Syllabus.Proofs.Template.CommandText
import Syllabus.Proofs.Text.Markers
import Syllabus.Template.Basic

/-!
# Syllabus: reading a template and its source text

A template is read by two cuts, at opening markers and then in each piece at the first closing
marker. The markers share a character, but no accepted command has any character of either, so
nothing that is put together from commands and literals can be cut anywhere else.

* **`readSegments_eq_ok_iff`**: what the pieces are read as, and on which lines.
* **`parse_eq_ok_iff`**: what a text is read as, so that another way to cut it is not needed.
* **`readSegments_eq_error`**: the first piece that cannot be read is the error.
* **`parse_inverts_source`**: reading and putting together are inverse to each other.
-/

namespace Syllabus.Template

/-! ## Source text -/

/-- A command and a literal as they stand behind an opening marker. -/
def pieceOf (pair : String × String) : List Char :=
  pair.1.toList ++ closeMarker ++ pair.2.toList

/-- What stands behind the opening marker of a segment, up to the next. -/
def Segment.written (segment : Segment) : List Char := pieceOf (segment.command, segment.literal)

/-- The text of leading text and commands in their markers, each with the literal behind it. -/
def assemble (leading : String) (written : List (String × String)) : String :=
  written.foldl (fun text pair => text ++ "<%" ++ pair.1 ++ "%>" ++ pair.2) leading

/-- The source of a template is put together from its commands and literals. -/
theorem source_eq_assemble (template : Template) :
    template.source = assemble template.leading
      (template.segments.map fun segment => (segment.command, segment.literal)) := by
  rw [source, assemble, List.foldl_map]

/-- What is put together has the open marker in front of each piece. -/
theorem assemble_toList (leading : String) (written : List (String × String)) :
    (assemble leading written).toList
      = leading.toList ++ (written.map pieceOf).flatMap (openMarker ++ ·) := by
  -- The text so far is the leading text of what is still to be written.
  induction written generalizing leading with
  | nil => simp [assemble]
  | cons first rest ih =>
    rw [assemble, List.foldl_cons]
    change (assemble _ rest).toList = _
    rw [ih]
    simp [pieceOf, openMarker, closeMarker]

theorem source_toList (template : Template) :
    template.source.toList = template.leading.toList
      ++ (template.segments.map Segment.written).flatMap (openMarker ++ ·) := by
  rw [source_eq_assemble, assemble_toList, List.map_map]
  rfl

/-- The text in front of a segment comes before its opening marker in the source text. -/
theorem source_before {template : Template} {before after : List Segment} {segment : Segment}
    (h : template.segments = before ++ segment :: after) :
    (source { template with segments := before } ++ "<%").toList <+: template.source.toList := by
  rw [String.toList_append, source_toList, source_toList, h, List.map_append, List.flatMap_append,
    List.map_cons, List.flatMap_cons, ← List.append_assoc, ← List.append_assoc, ← List.append_assoc]
  exact ((List.prefix_append _ _).trans (List.prefix_append _ _))

/-- Markers end no lines. -/
theorem lineBreaks_flatMap_cons (piece : List Char) (rest : List (List Char)) :
    Text.lineBreaks ((piece :: rest).flatMap (openMarker ++ ·))
      = Text.lineBreaks piece + Text.lineBreaks (rest.flatMap (openMarker ++ ·)) := by
  simp [Text.lineBreaks, openMarker, List.count_append]

/-! ## One piece -/

theorem openMarker_ne_nil : openMarker ≠ [] := List.cons_ne_nil _ _

theorem closeMarker_ne_nil : closeMarker ≠ [] := List.cons_ne_nil _ _

/-- What is wrong with a piece behind an opening marker, and the text that is shown for it. -/
inductive Unreadable (piece : List Char) : Defect → List Char → Prop where
  | unterminated (hopen : ¬ closeMarker <:+: piece) :
      Unreadable piece .unterminatedDirective (glimpse piece)
  | unsupported {command literal : List Char} (hpiece : piece = command ++ closeMarker ++ literal)
      (hfirst : ¬ closeMarker <:+: command) (hcommand : Directive.ofCommand? command = none) :
      Unreadable piece .unsupportedDirective (Text.trim command)

/-- Accepted commands have no character of a marker. -/
theorem not_infix_closeMarker {command : List Char} {directive : Directive}
    (h : Directive.ofCommand? command = some directive) : ¬ closeMarker <:+: command := by
  intro hinside
  have hmem : '%' ∈ command := hinside.subset (by decide)
  exact absurd (Directive.isCommandCharacter_of_ofCommand? h hmem) (by decide)

/-- A piece is read as a segment just if the segment is written so. -/
theorem readSegment_eq_ok_iff {line : Nat} {piece : List Char} {segment : Segment} :
    readSegment line piece = .ok segment
      ↔ piece = segment.written ∧ segment.line = line
        ∧ Directive.ofCommand? segment.command.toList = some segment.directive := by
  constructor
  · intro h
    unfold readSegment at h
    split at h
    · cases h
    · next command literal hcut =>
      split at h
      · cases h
      · next directive hdirective =>
        cases h
        refine ⟨?_, rfl, by simpa using hdirective⟩
        simpa [Segment.written, pieceOf] using Text.eq_of_cutAt hcut
  · rintro ⟨rfl, rfl, hdirective⟩
    -- No command has the close marker in it, so the piece is cut at the first one.
    have hcut := Text.cutAt_append (by decide : '%' ∉ ['>']) segment.literal.toList
      (not_infix_closeMarker hdirective)
    rw [readSegment, Segment.written, pieceOf, closeMarker, hcut]
    simp [hdirective]

theorem readSegment_eq_error_iff {line : Nat} {piece shown : List Char} {defect : Defect} :
    readSegment line piece = .error (defect, shown) ↔ Unreadable piece defect shown := by
  constructor
  · intro h
    unfold readSegment at h
    -- There is no close marker, or there is no such command.
    split at h
    · next hcut =>
      cases h
      exact .unterminated ((Text.cutAt_eq_none_iff closeMarker_ne_nil).mp hcut)
    · next command literal hcut =>
      split at h
      · next hcommand =>
        cases h
        exact .unsupported (Text.eq_of_cutAt hcut)
          (Text.not_infix_of_cutAt closeMarker_ne_nil hcut) hcommand
      · cases h
  · intro h
    cases h with
    | unterminated hopen =>
      rw [readSegment, (Text.cutAt_eq_none_iff closeMarker_ne_nil).mpr hopen]
    | unsupported hpiece hfirst hcommand =>
      have hcut := (Text.cutAt_eq_some_iff (by decide : '%' ∉ ['>'])).mpr ⟨hpiece, hfirst⟩
      rw [readSegment, closeMarker, hcut]
      simp [hcommand]

/-- What has been read is not unreadable. -/
theorem not_unreadable_written {segment : Segment} {defect : Defect} {shown : List Char}
    (h : Directive.ofCommand? segment.command.toList = some segment.directive) :
    ¬ Unreadable segment.written defect shown := by
  intro hunreadable
  have hok : readSegment segment.line segment.written = .ok segment :=
    readSegment_eq_ok_iff.mpr ⟨rfl, rfl, h⟩
  rw [readSegment_eq_error_iff.mpr hunreadable] at hok
  cases hok

/-! ## All pieces -/

/-- Whether each segment has the line of its marker, when the first marker stands on the given
line. -/
def Placed (line : Nat) (segments : List Segment) : Prop :=
  ∀ before segment after, segments = before ++ segment :: after →
    segment.line
      = line + Text.lineBreaks ((before.map Segment.written).flatMap (openMarker ++ ·))

theorem placed_nil (line : Nat) : Placed line [] := by
  intro before segment after h
  simp at h

/-- The first segment is on its line, and the others follow on theirs. -/
theorem placed_cons_iff {line : Nat} {first : Segment} {rest : List Segment} :
    Placed line (first :: rest)
      ↔ first.line = line ∧ Placed (line + Text.lineBreaks first.written) rest := by
  constructor
  · intro h
    refine ⟨h [] first rest rfl, ?_⟩
    rintro before segment after rfl
    rw [h (first :: before) segment after rfl, List.map_cons, lineBreaks_flatMap_cons,
      Nat.add_assoc]
  · rintro ⟨hfirst, hrest⟩ before segment after h
    cases before with
    | nil =>
      cases h
      exact hfirst
    | cons _ before =>
      cases h
      rw [hrest before segment after rfl, List.map_cons, lineBreaks_flatMap_cons, Nat.add_assoc]

/-- **What pieces are read as.** They are the segments as they are written, each with the directive
that its command spells and the line of its marker. -/
theorem readSegments_eq_ok_iff {name : String} {line number : Nat} {pieces : List (List Char)}
    {segments : List Segment} :
    readSegments name line number pieces = .ok segments
      ↔ pieces = segments.map Segment.written ∧ Placed line segments
        ∧ ∀ segment ∈ segments,
          Directive.ofCommand? segment.command.toList = some segment.directive := by
  constructor
  · intro h
    -- On the pieces: the line of a piece is where the ones before it end.
    induction pieces generalizing line number segments with
    | nil =>
      cases h
      exact ⟨rfl, placed_nil line, fun _ hmem => absurd hmem List.not_mem_nil⟩
    | cons piece rest ih =>
      rw [readSegments] at h
      split at h
      · cases h
      · next first hfirst =>
        obtain ⟨rfl, hline, hdirective⟩ := readSegment_eq_ok_iff.mp hfirst
        split at h
        · cases h
        · next others hothers =>
          cases h
          obtain ⟨rfl, hplaced, hdirectives⟩ := ih hothers
          exact ⟨rfl, placed_cons_iff.mpr ⟨hline, hplaced⟩,
            List.forall_mem_cons.mpr ⟨hdirective, hdirectives⟩⟩
  · rintro ⟨rfl, hplaced, hdirectives⟩
    induction segments generalizing line number with
    | nil => rfl
    | cons first rest ih =>
      obtain ⟨hline, hplaced⟩ := placed_cons_iff.mp hplaced
      obtain ⟨hdirective, hdirectives⟩ := List.forall_mem_cons.mp hdirectives
      rw [List.map_cons, readSegments, readSegment_eq_ok_iff.mpr ⟨rfl, hline, hdirective⟩]
      simp only [ih hplaced hdirectives]

/-- **Which piece is the error.** The first that cannot be read. -/
theorem readSegments_eq_error {name : String} {line number : Nat} {before after : List (List Char)}
    {piece shown : List Char} {defect : Defect}
    (hbefore : ∀ earlier ∈ before, ∀ defect shown, ¬ Unreadable earlier defect shown)
    (hpiece : Unreadable piece defect shown) :
    readSegments name line number (before ++ piece :: after)
      = .error (.malformed
        ⟨name, line + Text.lineBreaks (before.flatMap (openMarker ++ ·)), number + before.length⟩
        defect (.ofList shown)) := by
  -- On the pieces in front, which can be read.
  induction before generalizing line number with
  | nil =>
    rw [List.nil_append, readSegments, readSegment_eq_error_iff.mpr hpiece]
    rfl
  | cons first before ih =>
    rw [List.cons_append, readSegments]
    split
    · next hread =>
      exact absurd (readSegment_eq_error_iff.mp hread) (hbefore first List.mem_cons_self _ _)
    · -- The rest is read first, so its error comes back whatever the first segment is.
      rw [ih fun earlier hearlier => hbefore earlier (.tail _ hearlier)]
      rw [lineBreaks_flatMap_cons, List.length_cons]
      simp only [Except.error.injEq, Error.malformed.injEq, Location.mk.injEq, true_and, and_true]
      omega

/-- Pieces that can all be read are read. -/
theorem exists_readSegments {name : String} {line number : Nat} {pieces : List (List Char)}
    (h : ∀ piece ∈ pieces, ∀ defect shown, ¬ Unreadable piece defect shown) :
    ∃ segments, readSegments name line number pieces = .ok segments := by
  induction pieces generalizing line number with
  | nil => exact ⟨[], rfl⟩
  | cons piece rest ih =>
    rw [readSegments]
    split
    · next hread =>
      exact absurd (readSegment_eq_error_iff.mp hread) (h piece List.mem_cons_self _ _)
    · next segment _ =>
      obtain ⟨segments, hsegments⟩ := ih fun other hother => h other (.tail _ hother)
      rw [hsegments]
      exact ⟨segment :: segments, rfl⟩

/-! ## Whole texts -/

/-- The text between the markers of a text: what stands before the first, and the pieces each
behind one. -/
structure Pieces (text leading : List Char) (rest : List (List Char)) : Prop where
  text_eq : text = leading ++ rest.flatMap (openMarker ++ ·)
  free : ∀ piece ∈ leading :: rest, ¬ openMarker <:+: piece

/-- A text falls into these pieces just if it is cut into them. -/
theorem pieces_iff {text leading : List Char} {rest : List (List Char)} :
    Pieces text leading rest ↔ Text.pieces openMarker text = leading :: rest := by
  rw [openMarker, Text.pieces_eq_cons_iff (by decide)]
  exact ⟨fun h => ⟨h.text_eq, h.free⟩, fun h => ⟨h.1, h.2⟩⟩

theorem Pieces.parse_eq {name text : String} {leading : List Char} {rest : List (List Char)}
    (h : Pieces text.toList leading rest) :
    parse name text = match readSegments name (1 + Text.lineBreaks leading) 1 rest with
      | .error e => .error e
      | .ok segments => .ok ⟨name, .ofList leading, segments⟩ := by
  rewrite [parse, pieces_iff.mp h]
  rfl

/-- A text without markers is a template without directives. -/
theorem parse_of_free {name text : String} (h : ¬ openMarker <:+: text.toList) :
    parse name text = .ok ⟨name, text, []⟩ := by
  have hpieces : Pieces text.toList text.toList [] :=
    ⟨by simp, fun piece hpiece => by rwa [List.mem_singleton.mp hpiece]⟩
  rw [hpieces.parse_eq, String.ofList_toList]
  rfl

/-- An accepted command and a literal without opening markers make up a piece without any. -/
theorem not_infix_pieceOf {pair : String × String} {directive : Directive}
    (hdirective : Directive.ofCommand? pair.1.toList = some directive)
    (hliteral : ¬ openMarker <:+: pair.2.toList) : ¬ openMarker <:+: pieceOf pair := by
  intro hinside
  refine hliteral (Text.infix_of_infix_append ?_ hinside)
  -- The first character of the marker is neither in the command nor in a closing marker.
  rw [List.mem_append, not_or]
  refine ⟨fun hmem => ?_, by decide⟩
  exact absurd (Directive.isCommandCharacter_of_ofCommand? hdirective hmem) (by decide)

/-- There is no open marker in a literal of such a piece. -/
theorem not_infix_literal {pair : String × String} (h : ¬ openMarker <:+: pieceOf pair) :
    ¬ openMarker <:+: pair.2.toList :=
  fun hinside => h (hinside.trans (List.suffix_append _ _).isInfix)

/-- **What a text is read as.** The pieces of the text are the segments as they are written, each
directive with the line of its marker. -/
theorem parse_eq_ok_iff {name text : String} {template : Template} :
    parse name text = .ok template
      ↔ template.name = name
        ∧ Pieces text.toList template.leading.toList (template.segments.map Segment.written)
        ∧ Placed (1 + Text.lineBreaks template.leading.toList) template.segments
        ∧ ∀ segment ∈ template.segments,
          Directive.ofCommand? segment.command.toList = some segment.directive := by
  constructor
  · intro h
    obtain ⟨leading, rest, hpieces, _⟩ := Text.exists_pieces openMarker_ne_nil text.toList
    have hcut := pieces_iff.mpr hpieces
    rw [hcut.parse_eq] at h
    split at h
    · cases h
    · next segments hread =>
      cases h
      obtain ⟨rfl, hplaced, hdirectives⟩ := readSegments_eq_ok_iff.mp hread
      rw [String.toList_ofList]
      exact ⟨rfl, hcut, hplaced, hdirectives⟩
  · rintro ⟨rfl, hpieces, hplaced, hdirectives⟩
    -- The other way the pieces are given, and each is read as its segment.
    rw [hpieces.parse_eq, readSegments_eq_ok_iff.mpr ⟨rfl, hplaced, hdirectives⟩,
      String.ofList_toList]

/-- Accepted commands with literals are read as just these. -/
theorem exists_readSegments_written {name : String} {line number : Nat}
    {written : List (String × String)}
    (h : ∀ pair ∈ written, (Directive.ofCommand? pair.1.toList).isSome = true) :
    ∃ segments, readSegments name line number (written.map pieceOf) = .ok segments
      ∧ segments.map (fun segment => (segment.command, segment.literal)) = written := by
  -- On what is written, each on the line where the ones before it end.
  induction written generalizing line number with
  | nil => exact ⟨[], rfl, rfl⟩
  | cons pair rest ih =>
    obtain ⟨hpair, hrest⟩ := List.forall_mem_cons.mp h
    obtain ⟨directive, hdirective⟩ := Option.isSome_iff_exists.mp hpair
    have hfirst : readSegment line (pieceOf pair) = .ok ⟨directive, pair.1, pair.2, line⟩ :=
      readSegment_eq_ok_iff.mpr ⟨rfl, rfl, hdirective⟩
    obtain ⟨segments, hread, hpairs⟩ :=
      @ih (line + Text.lineBreaks (pieceOf pair)) (number + 1) hrest
    refine ⟨⟨directive, pair.1, pair.2, line⟩ :: segments, ?_, ?_⟩
    · rw [List.map_cons, readSegments, hfirst]
      simp only [hread]
    · rw [List.map_cons, hpairs]

/-- What is put together from accepted commands, without opening markers in the other texts, is
read as just that. -/
theorem exists_parse_assemble (name : String) {leading : String} {written : List (String × String)}
    (hleading : ¬ openMarker <:+: leading.toList)
    (hcommands : ∀ pair ∈ written, (Directive.ofCommand? pair.1.toList).isSome = true)
    (hliterals : ∀ pair ∈ written, ¬ openMarker <:+: pair.2.toList) :
    ∃ template, parse name (assemble leading written) = .ok template
      ∧ template.leading = leading
      ∧ template.segments.map (fun segment => (segment.command, segment.literal)) = written := by
  have hpieces : Pieces (assemble leading written).toList leading.toList
      (written.map pieceOf) := by
    refine ⟨assemble_toList leading written, List.forall_mem_cons.mpr ⟨hleading, ?_⟩⟩
    intro piece hpiece
    obtain ⟨pair, hpair, rfl⟩ := List.mem_map.mp hpiece
    obtain ⟨directive, hdirective⟩ := Option.isSome_iff_exists.mp (hcommands pair hpair)
    exact not_infix_pieceOf hdirective (hliterals pair hpair)
  obtain ⟨segments, hread, hpairs⟩ := exists_readSegments_written hcommands
  refine ⟨⟨name, leading, segments⟩, ?_, rfl, hpairs⟩
  rw [hpieces.parse_eq, hread, String.ofList_toList]

/-- A template that is read puts together the text that it was read from. -/
theorem source_of_parse {name text : String} {template : Template}
    (h : parse name text = .ok template) :
    template.name = name ∧ template.source = text
      ∧ ¬ openMarker <:+: template.leading.toList
      ∧ (∀ segment ∈ template.segments, ¬ openMarker <:+: segment.literal.toList
        ∧ Directive.ofCommand? segment.command.toList = some segment.directive)
      ∧ ∀ before segment after, template.segments = before ++ segment :: after →
        (source { template with segments := before } ++ "<%").toList <+: text.toList
        ∧ segment.line
          = 1 + Text.lineBreaks (source { template with segments := before }).toList := by
  obtain ⟨hname, hpieces, hplaced, hdirectives⟩ := parse_eq_ok_iff.mp h
  have hsource : template.source = text := by
    rw [← String.toList_inj, source_toList, hpieces.text_eq]
  refine ⟨hname, hsource, hpieces.free _ List.mem_cons_self, ?_, ?_⟩
  · intro segment hsegment
    have hwritten := hpieces.free _ (.tail _ (List.mem_map_of_mem hsegment))
    exact ⟨not_infix_literal hwritten, hdirectives segment hsegment⟩
  · intro before segment after hsegments
    refine ⟨hsource ▸ source_before hsegments, ?_⟩
    rw [hplaced before segment after hsegments, source_toList, Text.lineBreaks, Text.lineBreaks,
      Text.lineBreaks, List.count_append, Nat.add_assoc]

/-- A text is refused exactly when one of its pieces cannot be read. -/
theorem Pieces.exists_error_iff {name text : String} {leading : List Char}
    {pieces : List (List Char)} (h : Pieces text.toList leading pieces) :
    (∃ e, parse name text = .error e)
      ↔ ∃ piece ∈ pieces, ∃ defect shown, Unreadable piece defect shown := by
  rw [h.parse_eq]
  constructor
  · rintro ⟨e, he⟩
    by_contra hreadable
    push Not at hreadable
    obtain ⟨segments, hread⟩ := exists_readSegments hreadable
    rw [hread] at he
    cases he
  · rintro ⟨piece, hpiece, defect, shown, hunreadable⟩
    cases hread : readSegments name (1 + Text.lineBreaks leading) 1 pieces with
    | error e => exact ⟨e, rfl⟩
    | ok segments =>
      -- Then every piece is a segment as it is written, and can be read.
      obtain ⟨rfl, _, hdirectives⟩ := readSegments_eq_ok_iff.mp hread
      obtain ⟨segment, hsegment, rfl⟩ := List.mem_map.mp hpiece
      exact absurd hunreadable (not_unreadable_written (hdirectives segment hsegment))

/-- The first piece that cannot be read is the error, by the line of its marker and its number. -/
theorem Pieces.parse_eq_error {name text : String} {leading piece shown : List Char}
    {before after : List (List Char)} {defect : Defect}
    (h : Pieces text.toList leading (before ++ piece :: after))
    (hbefore : ∀ earlier ∈ before, ∀ defect shown, ¬ Unreadable earlier defect shown)
    (hunreadable : Unreadable piece defect shown) :
    parse name text = .error (.malformed
      ⟨name, 1 + Text.lineBreaks (leading ++ before.flatMap (openMarker ++ ·)),
        before.length + 1⟩ defect (.ofList shown)) := by
  rw [h.parse_eq, readSegments_eq_error hbefore hunreadable]
  simp only [Text.lineBreaks, List.count_append, Nat.add_assoc, Nat.add_comm 1]

/-- **Reading and putting together are inverse.** A template that is read puts together the text
that it was read from: the literals have no opening markers, the commands spell the directives, and
each line is that of the marker. Accepted commands put together with literals are read as just
these. What a text falls into between opening markers is read if every piece can be; the first
that cannot is the error, by the line of its marker and its number. -/
theorem parse_inverts_source (name : String) :
    (∀ text template, parse name text = .ok template →
      template.name = name ∧ template.source = text
        ∧ ¬ openMarker <:+: template.leading.toList
        ∧ (∀ segment ∈ template.segments, ¬ openMarker <:+: segment.literal.toList
          ∧ Directive.ofCommand? segment.command.toList = some segment.directive)
        ∧ ∀ before segment after, template.segments = before ++ segment :: after →
          (source { template with segments := before } ++ "<%").toList <+: text.toList
          ∧ segment.line
            = 1 + Text.lineBreaks (source { template with segments := before }).toList)
    ∧ (∀ leading written, ¬ openMarker <:+: leading.toList →
      (∀ pair ∈ written, (Directive.ofCommand? pair.1.toList).isSome = true) →
      (∀ pair ∈ written, ¬ openMarker <:+: pair.2.toList) →
      ∃ template, parse name (assemble leading written) = .ok template
        ∧ template.leading = leading
        ∧ template.segments.map (fun segment => (segment.command, segment.literal)) = written
        ∧ ∀ segment ∈ template.segments,
          Directive.ofCommand? segment.command.toList = some segment.directive)
    ∧ ∀ text, ∃ leading pieces, Pieces text.toList leading pieces
      ∧ (∀ other others, Pieces text.toList other others → other = leading ∧ others = pieces)
      ∧ ((∃ e, parse name text = .error e)
        ↔ ∃ piece ∈ pieces, ∃ defect shown, Unreadable piece defect shown)
      ∧ ∀ before piece after defect shown, pieces = before ++ piece :: after →
        (∀ earlier ∈ before, ∀ defect shown, ¬ Unreadable earlier defect shown) →
        Unreadable piece defect shown →
        parse name text = .error (.malformed
          ⟨name, 1 + Text.lineBreaks (leading ++ before.flatMap (openMarker ++ ·)),
            before.length + 1⟩ defect (.ofList shown)) := by
  refine ⟨fun _ _ => source_of_parse, ?_, ?_⟩
  · intro leading written hleading hcommands hliterals
    obtain ⟨template, hparse, hsame⟩ := exists_parse_assemble name hleading hcommands hliterals
    obtain ⟨_, _, _, hdirectives⟩ := parse_eq_ok_iff.mp hparse
    exact ⟨template, hparse, hsame.1, hsame.2, hdirectives⟩
  · intro text
    obtain ⟨leading, pieces, hcut, _⟩ := Text.exists_pieces openMarker_ne_nil text.toList
    have hpieces := pieces_iff.mpr hcut
    refine ⟨leading, pieces, hpieces, ?_, hpieces.exists_error_iff, ?_⟩
    · intro other others hothers
      -- The cut is a function, so whatever falls into pieces falls into these.
      exact List.cons.inj ((pieces_iff.mp hothers).symm.trans hcut)
    · rintro before piece after defect shown rfl hbefore hunreadable
      exact hpieces.parse_eq_error hbefore hunreadable

end Syllabus.Template
