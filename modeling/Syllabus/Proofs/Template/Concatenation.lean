import Mathlib.Data.List.ModifyLast
import Syllabus.Proofs.Template.SourceText

/-!
# Syllabus: a template behind another

Two texts behind each other make up one text. If both can be read, so can the whole, unless an
opening marker arises at the seam: the text in front of the first directive of the second goes to
the end of the first, and the directives of the second stand as many lines further down as the
first has.

* **`append`**: the template that two make up.
* **`parse_append`**: the text of both is read as that.
-/

namespace Syllabus.Template

/-! ## Putting templates together -/

/-- A template with more text at its end, which is behind the last directive if there is one. -/
def extend (template : Template) (text : String) : Template where
  name := template.name
  leading := if template.segments.isEmpty then template.leading ++ text else template.leading
  segments := template.segments.modifyLast fun segment =>
    { segment with literal := segment.literal ++ text }

/-- How many lines end in the text of a template. -/
def lineBreaks (template : Template) : Nat := Text.lineBreaks template.source.toList

/-- A segment that many lines further down. -/
def Segment.lowered (lines : Nat) (segment : Segment) : Segment :=
  { segment with line := segment.line + lines }

@[simp] theorem Segment.lowered_directive (lines : Nat) (segment : Segment) :
    (segment.lowered lines).directive = segment.directive := rfl

@[simp] theorem Segment.lowered_literal (lines : Nat) (segment : Segment) :
    (segment.lowered lines).literal = segment.literal := rfl

/-- The first template with the second behind it. -/
def append (first second : Template) : Template :=
  let extended := first.extend second.leading
  { extended with
    segments := extended.segments ++ second.segments.map (Segment.lowered first.lineBreaks) }

theorem extend_of_nil {template : Template} (h : template.segments = []) (text : String) :
    template.extend text = ⟨template.name, template.leading ++ text, []⟩ := by
  rw [extend, h]
  rfl

theorem extend_of_concat {template : Template} {front : List Segment} {last : Segment}
    (h : template.segments = front ++ [last]) (text : String) :
    template.extend text = ⟨template.name, template.leading,
      front ++ [{ last with literal := last.literal ++ text }]⟩ := by
  rw [extend, h, List.modifyLast_concat]
  simp

/-! ## Lines -/

/-- What stands behind some segments is placed from where these end. -/
theorem placed_append_iff {line : Nat} {front back : List Segment} :
    Placed line (front ++ back)
      ↔ Placed line front
        ∧ Placed (line + Text.lineBreaks ((front.map Segment.written).flatMap (openMarker ++ ·)))
          back := by
  -- On the segments in front, with the line that they have led to.
  induction front generalizing line with
  | nil => simp [placed_nil, Text.lineBreaks]
  | cons first front ih =>
    rw [List.cons_append, placed_cons_iff, placed_cons_iff, ih, List.map_cons,
      lineBreaks_flatMap_cons, Nat.add_assoc, and_assoc]

theorem Placed.lowered {line : Nat} {segments : List Segment} (h : Placed line segments)
    (lines : Nat) : Placed (line + lines) (segments.map (Segment.lowered lines)) := by
  induction segments generalizing line with
  | nil => exact placed_nil _
  | cons first rest ih =>
    obtain ⟨rfl, hrest⟩ := placed_cons_iff.mp h
    have hbehind := ih hrest
    -- The lines of a segment are counted on from a start that lies further down.
    rw [Nat.add_right_comm] at hbehind
    exact placed_cons_iff.mpr ⟨rfl, hbehind⟩

/-! ## Reading -/

/-- More text goes to the last piece, unless a marker arises where they meet. -/
theorem Pieces.grow {text more leading last : List Char} {front : List (List Char)}
    (h : Pieces text leading (front ++ [last])) (hmore : ¬ openMarker <:+: more)
    (hseam : ¬ (['<'] <:+ text ∧ ['%'] <+: more)) :
    Pieces (text ++ more) leading (front ++ [last ++ more]) where
  text_eq := by
    rw [h.text_eq]
    simp
  free := by
    -- What the last piece ends in the text ends in.
    have hlast : last <:+ text := by
      rw [h.text_eq]
      simp only [List.flatMap_append, List.flatMap_singleton, ← List.append_assoc]
      exact List.suffix_append _ _
    intro piece hpiece
    rw [← List.cons_append] at hpiece
    rcases List.mem_append.mp hpiece with hfront | hgrown
    · refine h.free piece ?_
      rw [← List.cons_append]
      exact List.mem_append_left _ hfront
    · rw [List.mem_singleton.mp hgrown]
      refine Text.not_infix_append (h.free last ?_) hmore fun hmeet => ?_
      · exact .tail _ (List.mem_append_right _ (List.mem_singleton_self last))
      · exact hseam ⟨hmeet.1.trans hlast, hmeet.2⟩

section Behind

variable {name text : String} {template : Template}

/-- More text without markers goes to the end of a template. -/
theorem parse_extend {more : String} (h : parse name text = .ok template)
    (hmore : ¬ openMarker <:+: more.toList)
    (hseam : ¬ (['<'] <:+ text.toList ∧ ['%'] <+: more.toList)) :
    parse name (text ++ more) = .ok (template.extend more) := by
  obtain ⟨rfl, hpieces, hplaced, hdirectives⟩ := parse_eq_ok_iff.mp h
  -- The text goes to the leading text, or to the literal of the last segment.
  rcases List.eq_nil_or_concat' template.segments with hnil | ⟨front, last, hconcat⟩
  · have htext : text = template.leading := by
      rw [← String.toList_inj, hpieces.text_eq, hnil]
      simp
    have hfree : ¬ openMarker <:+: text.toList := htext ▸ hpieces.free _ List.mem_cons_self
    rw [extend_of_nil hnil, ← htext]
    refine parse_of_free ?_
    rw [String.toList_append]
    exact Text.not_infix_append hfree hmore hseam
  · rw [hconcat] at hpieces hplaced hdirectives
    rw [extend_of_concat hconcat]
    have hwritten : Segment.written { last with literal := last.literal ++ more }
        = last.written ++ more.toList := by
      simp [Segment.written, pieceOf]
    refine parse_eq_ok_iff.mpr ⟨rfl, ?_, ?_, ?_⟩
    · rw [List.map_append, List.map_singleton] at hpieces
      rw [String.toList_append, List.map_append, List.map_singleton, hwritten]
      exact hpieces.grow hmore hseam
    · -- The line of a segment does not depend on its own literal.
      obtain ⟨hfront, hlast⟩ := placed_append_iff.mp hplaced
      have hline := (placed_cons_iff.mp hlast).1
      exact placed_append_iff.mpr ⟨hfront, placed_cons_iff.mpr ⟨hline, placed_nil _⟩⟩
    · obtain ⟨hfront, hlast⟩ := List.forall_mem_append.mp hdirectives
      have hdirective := List.forall_mem_singleton.mp hlast
      exact List.forall_mem_append.mpr ⟨hfront, List.forall_mem_singleton.mpr hdirective⟩

/-- Segments that are placed where a text ends are read behind it. -/
theorem parse_append_segments {whole : String} {segments : List Segment}
    (h : parse name text = .ok template)
    (hwhole : whole.toList
      = text.toList ++ (segments.map Segment.written).flatMap (openMarker ++ ·))
    (hfree : ∀ segment ∈ segments, ¬ openMarker <:+: segment.written)
    (hplaced : Placed (1 + Text.lineBreaks text.toList) segments)
    (hdirectives : ∀ segment ∈ segments,
      Directive.ofCommand? segment.command.toList = some segment.directive) :
    parse name whole = .ok { template with segments := template.segments ++ segments } := by
  obtain ⟨rfl, hpieces, hplacedFirst, hdirectivesFirst⟩ := parse_eq_ok_iff.mp h
  refine parse_eq_ok_iff.mpr ⟨rfl, ⟨?_, ?_⟩, ?_, ?_⟩
  · rw [hwhole, hpieces.text_eq, List.map_append, List.flatMap_append, List.append_assoc]
  · rw [List.map_append, ← List.cons_append]
    -- No marker arises inside a piece, be it one of the first or of the second text.
    exact List.forall_mem_append.mpr ⟨hpieces.free, List.forall_mem_map.mpr hfree⟩
  · refine placed_append_iff.mpr ⟨hplacedFirst, ?_⟩
    rw [hpieces.text_eq, Text.lineBreaks, List.count_append] at hplaced
    rwa [Text.lineBreaks, Text.lineBreaks, Nat.add_assoc]
  · exact List.forall_mem_append.mpr ⟨hdirectivesFirst, hdirectives⟩

end Behind

/-- **Two texts behind each other.** They are read as the second template behind the first, unless
an opening marker arises where they meet. -/
theorem parse_append {name first second : String} {A B : Template}
    (hfirst : parse name first = .ok A) (hsecond : parse name second = .ok B)
    (hseam : ¬ (['<'] <:+ first.toList ∧ ['%'] <+: second.toList)) :
    parse name (first ++ second) = .ok (A.append B) := by
  obtain ⟨_, hpieces, hplaced, hdirectives⟩ := parse_eq_ok_iff.mp hsecond
  have hsource : A.source = first := (source_of_parse hfirst).2.1
  have hleading : B.leading.toList <+: second.toList :=
    hpieces.text_eq ▸ List.prefix_append _ _
  -- First the leading text of the second template, then its segments.
  have hextended := parse_extend hfirst (hpieces.free _ List.mem_cons_self)
    fun hmeet => hseam ⟨hmeet.1, hmeet.2.trans hleading⟩
  refine parse_append_segments hextended ?_ ?_ ?_ ?_
  · rw [String.toList_append, String.toList_append, hpieces.text_eq, List.map_map,
      List.append_assoc]
    rfl
  · refine List.forall_mem_map.mpr fun segment hsegment => ?_
    exact hpieces.free segment.written (.tail _ (List.mem_map_of_mem hsegment))
  · -- The lines of the first text are added to those of the second.
    have hline : 1 + Text.lineBreaks B.leading.toList + A.lineBreaks
        = 1 + Text.lineBreaks (first ++ B.leading).toList := by
      rw [lineBreaks, hsource, String.toList_append, Text.lineBreaks, Text.lineBreaks,
        Text.lineBreaks, List.count_append]
      omega
    exact hline ▸ hplaced.lowered A.lineBreaks
  · exact List.forall_mem_map.mpr fun segment hsegment => hdirectives segment hsegment

end Syllabus.Template
