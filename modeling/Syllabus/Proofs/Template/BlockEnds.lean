import Syllabus.Template.Render
import Syllabus.Proofs.Template.BlockTree

/-!
# Syllabus: where blocks end

Rendering finds the end of a block by counting openings and closings from where it starts. In a
template that spells out a tree this count passes over the whole body: every block of the body
closes what it opens, and an alternative of the body belongs to one of its own conditionals.

* **`scanClose_tree`**: the scan passes over a tree.
* **`Spells`**: what a template has from an index on. From it follow the segment at the index and
  the end of the block that it opens.
-/

namespace Syllabus.Template

/-! ## Counting over a tree -/

/-- An end that lies behind a number of directives lies that much further. -/
theorem scanClose_map_add (found : Option Nat) (first second : Nat) :
    (found.map (· + first)).map (· + second) = found.map (· + (first + second)) := by
  rw [Option.map_map]
  congr 1
  funext offset
  exact Nat.add_assoc _ _ _

/-- An opener is a block more to be closed. -/
theorem scanClose_opener {parts : Bool} {depth : Nat} {opener : Directive}
    {rest : List Directive} (hopens : opener.opensBlock = true) :
    scanClose parts depth (opener :: rest) = (scanClose parts (depth + 1) rest).map (· + 1) := by
  cases opener with
  | loop item source => rfl
  | conditional flag => rfl
  | interpolation _ | close | alternative => cases hopens

/-- **The scan passes over a tree.** At every depth it goes on behind the tree as if it had started
there; inside a deeper block it looks neither at the closing directive nor at the alternative. -/
theorem scanClose_tree (parts : Bool) (depth : Nat) (tree : Tree) (rest : List Directive) :
    scanClose parts depth (tree.spelling.map Prod.fst ++ rest)
      = (scanClose parts depth rest).map (· + tree.size) := by
  -- The depth is arbitrary, since a body is scanned one deeper than the tree it is part of, and so
  -- is what follows, since behind a body comes its end.
  induction tree generalizing depth rest with
  | nil => simp [Tree.spelling]
  | interpolation value literal after ih =>
    have hskip : scanClose parts depth
        (.interpolation value :: (after.spelling.map Prod.fst ++ rest))
          = (scanClose parts depth (after.spelling.map Prod.fst ++ rest)).map (· + 1) := by
      cases depth <;> rfl
    rw [Tree.spelling, List.map_cons, List.cons_append, hskip, ih, scanClose_map_add]
    rfl
  | loop item source literal body closing after ihbody ih =>
    simp only [Tree.spelling, List.map_cons, List.map_append, List.cons_append, List.append_assoc]
    rw [scanClose_opener rfl, ihbody, scanClose, ih]
    simp only [scanClose_map_add, Tree.size_loop]
    congr 2
    funext offset
    omega
  | conditional flag literal body closing after ihbody ih =>
    simp only [Tree.spelling, List.map_cons, List.map_append, List.cons_append, List.append_assoc]
    rw [scanClose_opener rfl, ihbody, scanClose, ih]
    simp only [scanClose_map_add, Tree.size_conditional]
    congr 2
    funext offset
    omega
  | parted flag literal body middle other closing after ihbody ihother ih =>
    -- Inside the block the scan is at a positive depth, where an alternative does not count.
    have halternative (rest : List Directive) :
        scanClose parts (depth + 1) (.alternative :: rest)
          = (scanClose parts (depth + 1) rest).map (· + 1) := rfl
    simp only [Tree.spelling, List.map_cons, List.map_append, List.cons_append, List.append_assoc]
    rw [scanClose_opener rfl, ihbody, halternative, ihother, scanClose, ih]
    simp only [scanClose_map_add, Tree.size_parted]
    congr 2
    funext offset
    omega

/-! ## What stands at an index -/

/-- The directives of a template, each with the literal behind it. -/
def spelling (template : Template) : List (Directive × String) :=
  template.segments.map fun segment => (segment.directive, segment.literal)

/-- Whether a template has these directives and literals from an index on. -/
def Spells (template : Template) (index : Nat) (pairs : List (Directive × String)) : Prop :=
  template.spelling.drop index = pairs

namespace Spells

variable {template : Template} {index : Nat}

/-- Behind a tree stands the rest. -/
theorem behind {tree : Tree} {rest : List (Directive × String)}
    (h : Spells template index (tree.spelling ++ rest)) :
    Spells template (index + tree.size) rest := by
  unfold Spells at h ⊢
  rw [Tree.size, ← List.drop_drop, h, List.drop_left]

/-- Behind the first directive the others are spelled. -/
theorem tail {pair : Directive × String} {rest : List (Directive × String)}
    (h : Spells template index (pair :: rest)) : Spells template (index + 1) rest := by
  unfold Spells at h ⊢
  rw [← List.drop_drop, h]
  rfl

/-- At the index is a segment with this directive and this literal. -/
theorem exists_segment {directive : Directive} {literal : String}
    {rest : List (Directive × String)} (h : Spells template index ((directive, literal) :: rest)) :
    ∃ segment, template.segments[index]? = some segment ∧ segment.directive = directive
      ∧ segment.literal = literal := by
  have hfirst : template.spelling[index]? = some (directive, literal) := by
    rw [← List.head?_drop, h, List.head?_cons]
  rw [spelling, List.getElem?_map, Option.map_eq_some_iff] at hfirst
  obtain ⟨segment, hsegment, hpair⟩ := hfirst
  cases hpair
  exact ⟨segment, hsegment, rfl, rfl⟩

theorem literalAt_eq {directive : Directive} {literal : String}
    {rest : List (Directive × String)} (h : Spells template index ((directive, literal) :: rest)) :
    template.literalAt index = literal := by
  obtain ⟨segment, hsegment, _, rfl⟩ := h.exists_segment
  rw [literalAt, hsegment]
  rfl

/-- The directives from there on are those that are spelled. -/
theorem drop_directives {pairs : List (Directive × String)} (h : Spells template index pairs) :
    template.directives.drop index = pairs.map Prod.fst := by
  rw [← h, spelling, List.map_drop, List.map_map]
  rfl

theorem directives_getElem? {directive : Directive} {literal : String}
    {rest : List (Directive × String)} (h : Spells template index ((directive, literal) :: rest)) :
    template.directives[index]? = some directive := by
  rw [← List.head?_drop, h.drop_directives]
  rfl

/-! ## The end behind a body -/

/-- A body that is closed ends at its closing directive, whether it could be parted or not. -/
theorem closeFrom?_close {body : Tree} {closing : String} {rest : List (Directive × String)}
    (h : Spells template index (body.spelling ++ (.close, closing) :: rest)) (parts : Bool) :
    template.closeFrom? index parts = some (index + body.size) := by
  rw [closeFrom?, h.drop_directives, List.map_append, List.map_cons, scanClose_tree]
  simp [scanClose]

/-- A part ends at the alternative behind its body. -/
theorem closeFrom?_alternative {body : Tree} {middle : String} {rest : List (Directive × String)}
    (h : Spells template index (body.spelling ++ (.alternative, middle) :: rest)) :
    template.closeFrom? index true = some (index + body.size) := by
  rw [closeFrom?, h.drop_directives, List.map_append, List.map_cons, scanClose_tree]
  simp [scanClose]

/-- A conditional of one part ends once. -/
theorem conditionalEnds?_close {opener : Directive × String} {body : Tree} {closing : String}
    {rest : List (Directive × String)}
    (h : Spells template index (opener :: (body.spelling ++ (.close, closing) :: rest))) :
    template.conditionalEnds? index
      = some (index + 1 + body.size, index + 1 + body.size) := by
  have hclose : template.directives[index + 1 + body.size]? = some .close :=
    h.tail.behind.directives_getElem?
  rw [conditionalEnds?, h.tail.closeFrom?_close, Option.bind_eq_bind, Option.bind_some, hclose,
    if_neg (by simp)]

/-- A conditional of two parts ends behind each of its bodies. -/
theorem conditionalEnds?_parted {opener : Directive × String} {body other : Tree}
    {middle closing : String} {rest : List (Directive × String)}
    (h : Spells template index (opener :: (body.spelling ++ (.alternative, middle) ::
      (other.spelling ++ (.close, closing) :: rest)))) :
    template.conditionalEnds? index
      = some (index + 1 + body.size, index + 1 + body.size + 1 + other.size) := by
  have hmiddle : template.directives[index + 1 + body.size]? = some .alternative :=
    h.tail.behind.directives_getElem?
  have hother := h.tail.behind.tail.closeFrom?_close false
  rw [conditionalEnds?, h.tail.closeFrom?_alternative, Option.bind_eq_bind, Option.bind_some,
    hmiddle, if_pos rfl, hother]
  rfl

end Spells

end Syllabus.Template
