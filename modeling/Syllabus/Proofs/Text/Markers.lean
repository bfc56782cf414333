import Mathlib.Data.List.Infix
import Syllabus.Text.Split

/-!
# Syllabus: the pieces between markers

A marker whose first character does not come again in it cannot overlap itself, so a text falls into
pieces between its markers in one way only: at every seam the pieces on both sides are free of the
marker, and putting them together with markers between them makes no other.

* **`cutAt_eq_some_iff`**: a cut is where the text before the marker has none.
* **`pieces_eq_cons_iff`**: the pieces of a text are those that make it up and have no marker.
* **`not_infix_append`**: where two texts meet, a marker of two characters arises only from both.
-/

namespace Syllabus.Text

/-- No marker is found exactly where none stands. -/
theorem cutAt_eq_none_iff {marker text : List Char} (hnonempty : marker ≠ []) :
    cutAt marker text = none ↔ ¬ marker <:+: text := by
  induction text with
  | nil => simp [cutAt, hnonempty]
  | cons c rest ih =>
    rw [cutAt, List.infix_cons_iff]
    split
    · next found =>
      have hstarts : marker <+: c :: rest := List.isPrefixOf_iff_prefix.mp found
      simp [hstarts]
    · next missing =>
      have hstarts : ¬ marker <+: c :: rest := fun h => missing (List.isPrefixOf_iff_prefix.mpr h)
      rw [Option.map_eq_none_iff, ih]
      simp [hstarts]

/-- The text before the first marker has no marker. -/
theorem not_infix_of_cutAt {marker text before behind : List Char} (hnonempty : marker ≠ [])
    (h : cutAt marker text = some (before, behind)) : ¬ marker <:+: before := by
  induction text generalizing before with
  | nil => simp [cutAt, hnonempty] at h
  | cons c rest ih =>
    rw [cutAt] at h
    split at h
    · cases h
      simpa using hnonempty
    · next missing =>
      obtain ⟨⟨earlier, _⟩, hcut, hpair⟩ := Option.map_eq_some_iff.mp h
      cases hpair
      rw [List.infix_cons_iff, not_or]
      -- A marker at the start of the earlier text would have been one of the whole text.
      refine ⟨fun hstart => missing (List.isPrefixOf_iff_prefix.mpr ?_), ih hcut⟩
      rw [eq_of_cutAt hcut, List.append_assoc, ← List.cons_append]
      exact hstart.trans (List.prefix_append _ _)

/-- A text without markers is its own only piece. -/
theorem pieces_of_free {marker text : List Char} (hnonempty : marker ≠ [])
    (h : ¬ marker <:+: text) : pieces marker text = [text] := by
  rw [pieces, dif_neg hnonempty]
  split
  · rfl
  · next hcut => simp [(cutAt_eq_none_iff hnonempty).mpr h] at hcut

/-- Every text is made up of its pieces. -/
theorem exists_pieces {marker : List Char} (hnonempty : marker ≠ []) (text : List Char) :
    ∃ leading rest, pieces marker text = leading :: rest
      ∧ text = leading ++ rest.flatMap (marker ++ ·)
      ∧ ∀ piece ∈ leading :: rest, ¬ marker <:+: piece := by
  -- Along the cuts: the text is its own piece, or is cut at its first marker.
  induction text using pieces.induct marker with
  | case1 text hempty => exact absurd hempty hnonempty
  | case2 text _ hcut =>
    have hfree := (cutAt_eq_none_iff hnonempty).mp hcut
    refine ⟨text, [], pieces_of_free hnonempty hfree, by simp, ?_⟩
    simpa using hfree
  | case3 text _ before behind hcut ih =>
    obtain ⟨leading, rest, hpieces, hbehind, hfree⟩ := ih
    refine ⟨before, leading :: rest, ?_, ?_, ?_⟩
    · rw [← hpieces, pieces, dif_neg hnonempty]
      split
      · next hnone => cases hcut.symm.trans hnone
      · next hsome =>
        cases hcut.symm.trans hsome
        rfl
    · rw [eq_of_cutAt hcut, hbehind, List.flatMap_cons]
      simp only [List.append_assoc]
    · rintro piece (_ | ⟨_, hpiece⟩)
      · exact not_infix_of_cutAt hnonempty hcut
      · exact hfree piece hpiece

/-- A marker does not start among characters that are not its first. -/
theorem infix_of_infix_append {first : Char} {marker before behind : List Char}
    (hbefore : first ∉ before) (h : first :: marker <:+: before ++ behind) :
    first :: marker <:+: behind := by
  induction before with
  | nil => exact h
  | cons c before ih =>
    rw [List.mem_cons, not_or] at hbefore
    rw [List.cons_append, List.infix_cons_iff, List.cons_prefix_cons] at h
    rcases h with ⟨hfirst, _⟩ | hinside
    · exact absurd hfirst hbefore.1
    · exact ih hbefore.2 hinside

/-- Two texts without markers make up a text without any, unless one arises where they meet. -/
theorem not_infix_append {first second : Char} {before behind : List Char}
    (hbefore : ¬ [first, second] <:+: before) (hbehind : ¬ [first, second] <:+: behind)
    (hseam : ¬ ([first] <:+ before ∧ [second] <+: behind)) :
    ¬ [first, second] <:+: before ++ behind := by
  induction before with
  | nil => exact hbehind
  | cons c before ih =>
    rw [List.infix_cons_iff, not_or] at hbefore
    rw [List.cons_append, List.infix_cons_iff, not_or]
    refine ⟨fun hstart => ?_, ih hbefore.2 fun h => hseam ⟨h.1.trans (List.suffix_cons _ _), h.2⟩⟩
    -- The marker starts at the last character before the seam, or lies before it.
    cases before with
    | nil =>
      obtain ⟨rfl, hsecond⟩ := List.cons_prefix_cons.mp hstart
      exact hseam ⟨List.suffix_refl _, hsecond⟩
    | cons d before =>
      apply hbefore.1
      simpa [List.cons_prefix_cons] using hstart

section FirstCharacter

variable {first : Char} {others : List Char} (hfirst : first ∉ others)

include hfirst

/-- A marker behind a text without markers is the first. At the seam the marker cannot start
earlier, since its first character is none of its others. -/
theorem cutAt_append {before : List Char} (behind : List Char)
    (hfree : ¬ first :: others <:+: before) :
    cutAt (first :: others) (before ++ first :: others ++ behind) = some (before, behind) := by
  induction before with
  | nil => simp [cutAt]
  | cons c before ih =>
    have hinside := hfree
    rw [List.infix_cons_iff, not_or] at hinside
    have hstarts : ¬ first :: others <+: c :: (before ++ first :: others ++ behind) := by
      intro h
      have hbefore : c :: before <+: c :: (before ++ first :: others ++ behind) := by
        rw [List.append_assoc]
        exact List.cons_prefix_cons.mpr ⟨rfl, List.prefix_append _ _⟩
      -- The marker lies inside the text before the seam, or reaches over the seam.
      rcases List.prefix_or_prefix_of_prefix h hbefore with hshort | ⟨beyond, hbeyond⟩
      · exact hfree hshort.isInfix
      · cases beyond with
        | nil => exact hfree (by rw [← hbeyond, List.append_nil])
        | cons d beyond =>
          rw [← hbeyond, List.append_assoc, List.append_assoc, List.cons_append,
            List.cons_prefix_cons, List.prefix_append_right_inj, List.cons_append,
            List.cons_prefix_cons] at h
          obtain ⟨_, rfl, _⟩ := h
          obtain ⟨rfl, rfl⟩ := List.cons.inj hbeyond
          exact hfirst (by simp)
    rw [List.cons_append, List.cons_append, cutAt,
      if_neg fun h => hstarts (List.isPrefixOf_iff_prefix.mp h), ih hinside.2]
    rfl

/-- **Where a text is cut.** At the marker that no other marker stands before. -/
theorem cutAt_eq_some_iff {text before behind : List Char} :
    cutAt (first :: others) text = some (before, behind)
      ↔ text = before ++ first :: others ++ behind ∧ ¬ first :: others <:+: before := by
  constructor
  · intro h
    exact ⟨eq_of_cutAt h, not_infix_of_cutAt (List.cons_ne_nil _ _) h⟩
  · rintro ⟨rfl, hfree⟩
    exact cutAt_append hfirst behind hfree

theorem pieces_append {before : List Char} (behind : List Char)
    (hfree : ¬ first :: others <:+: before) :
    pieces (first :: others) (before ++ first :: others ++ behind)
      = before :: pieces (first :: others) behind := by
  rw [pieces, dif_neg (List.cons_ne_nil _ _)]
  split
  · next hcut => cases (cutAt_append hfirst behind hfree).symm.trans hcut
  · next hcut =>
    cases (cutAt_append hfirst behind hfree).symm.trans hcut
    rfl

/-- **The pieces of a text.** They make up the text with a marker in front of each but the first,
and have no marker inside. -/
theorem pieces_eq_cons_iff {text leading : List Char} {rest : List (List Char)} :
    pieces (first :: others) text = leading :: rest
      ↔ text = leading ++ rest.flatMap (first :: others ++ ·)
        ∧ ∀ piece ∈ leading :: rest, ¬ first :: others <:+: piece := by
  constructor
  · intro h
    obtain ⟨_, _, hpieces, htext, hfree⟩ := exists_pieces (List.cons_ne_nil _ _) text
    cases h.symm.trans hpieces
    exact ⟨htext, hfree⟩
  · rintro ⟨rfl, hfree⟩
    -- On the pieces, for every leading text: the next piece leads what stands behind its marker.
    induction rest generalizing leading with
    | nil =>
      rw [List.flatMap_nil, List.append_nil]
      exact pieces_of_free (List.cons_ne_nil _ _) (hfree leading List.mem_cons_self)
    | cons piece rest ih =>
      have hleading := hfree leading List.mem_cons_self
      rw [List.flatMap_cons, List.append_assoc, ← List.append_assoc,
        pieces_append hfirst _ hleading, ih fun other hother => hfree other (.tail _ hother)]

end FirstCharacter

end Syllabus.Text
