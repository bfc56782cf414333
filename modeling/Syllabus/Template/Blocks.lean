import Syllabus.Template.Basic

/-!
# Syllabus: blocks

Loops and conditionals open blocks that a closing directive ends. `Template.checkNesting` walks
over a template with the stack of open blocks and refuses the first directive that fits no block
structure. `Template.blockEnd` finds the end of a single block by counting openings and closings
from where it starts.
-/

namespace Syllabus.Template

/-! ## Checking a whole template -/

/-- A block that has been opened and not yet closed. -/
structure OpenBlock where
  /-- The index of the directive that opened it. -/
  opener : Nat
  /-- Whether an alternative may still come: it may once, in a conditional. -/
  takesAlternative : Bool
deriving DecidableEq

/-- The stack of open blocks after one more directive, or what is wrong with it. -/
def stepNesting (stack : List OpenBlock) (index : Nat) :
    Directive → Except Defect (List OpenBlock)
  | .interpolation _ => .ok stack
  | .loop .. =>
    if stack.length = maxOpenBlocks then .error .nestingTooDeep else .ok (⟨index, false⟩ :: stack)
  | .conditional _ =>
    if stack.length = maxOpenBlocks then .error .nestingTooDeep else .ok (⟨index, true⟩ :: stack)
  | .close =>
    match stack with
    | [] => .error .unexpectedClose
    | _ :: outer => .ok outer
  | .alternative =>
    match stack with
    -- The second part takes no alternative of its own.
    | ⟨opener, true⟩ :: outer => .ok (⟨opener, false⟩ :: outer)
    | _ => .error .unexpectedAlternative

/-- Walks over directives from the given index on. The error is the index of the directive at
fault: the first that fits no block structure, or else the innermost opener left open. -/
def walkNesting (stack : List OpenBlock) (index : Nat) : List Directive → Except (Nat × Defect) Unit
  | [] =>
    match stack with
    | [] => .ok ()
    | ⟨opener, _⟩ :: _ => .error (opener, .unmatchedOpenBlock)
  | directive :: rest =>
    match stepNesting stack index directive with
    | .error defect => .error (index, defect)
    | .ok stack => walkNesting stack (index + 1) rest

/-- The directives in order. -/
def directives (template : Template) : List Directive := template.segments.map Segment.directive

/-- Checks that every block is closed, that nothing else is, and that alternatives stand in
conditionals. -/
def checkNesting (template : Template) : Except Error Unit :=
  match walkNesting [] 0 template.directives with
  | .ok () => .ok ()
  | .error (index, defect) => .error (template.malformedAt index defect)

/-! ## The end of one block -/

/-- How far from the start of the list the directive stands that ends the block around it, where
`depth` more blocks are open inside. With `parts`, an alternative of the block itself is an end,
too. -/
def scanClose (parts : Bool) (depth : Nat) : List Directive → Option Nat
  | [] => none
  | directive :: rest =>
    match directive, depth with
    | .close, 0 => some 0
    | .close, depth + 1 => (scanClose parts depth rest).map (· + 1)
    | .alternative, 0 =>
      -- Any other alternative belongs to the body and is judged when it is rendered.
      if parts then some 0 else (scanClose parts 0 rest).map (· + 1)
    | directive, depth =>
      (scanClose parts (if directive.opensBlock then depth + 1 else depth) rest).map (· + 1)

/-- The index of the directive that ends a block, looked for from `start` on. -/
def closeFrom? (template : Template) (start : Nat) (parts : Bool) : Option Nat :=
  (scanClose parts 0 (template.directives.drop start)).map (start + ·)

/-- The index of the directive that ends the block of `opener`. -/
def blockEnd (template : Template) (opener start : Nat) (parts : Bool) : Except Error Nat :=
  match template.closeFrom? start parts with
  | some index => .ok index
  | none => .error (template.malformedAt opener .unmatchedOpenBlock)

/-- Where the conditional at `index` is parted, if it is, and where it is closed. One that is not
parted has its closing directive for both. -/
def conditionalEnds? (template : Template) (index : Nat) : Option (Nat × Nat) := do
  let middle ← template.closeFrom? (index + 1) true
  if template.directives[middle]? = some .alternative then
    let close ← template.closeFrom? (middle + 1) false
    some (middle, close)
  else some (middle, middle)

theorem le_of_closeFrom? {template : Template} {start index : Nat} {parts : Bool}
    (h : template.closeFrom? start parts = some index) : start ≤ index := by
  obtain ⟨offset, _, rfl⟩ := Option.map_eq_some_iff.mp h
  omega

theorem lt_of_conditionalEnds? {template : Template} {index middle close : Nat}
    (h : template.conditionalEnds? index = some (middle, close)) :
    index < middle ∧ middle ≤ close := by
  unfold conditionalEnds? at h
  obtain ⟨found, hfound, h⟩ := Option.bind_eq_some_iff.mp h
  have := le_of_closeFrom? hfound
  split at h
  · obtain ⟨last, hlast, h⟩ := Option.bind_eq_some_iff.mp h
    have := le_of_closeFrom? hlast
    obtain ⟨rfl, rfl⟩ := by simpa using h
    omega
  · obtain ⟨rfl, rfl⟩ := by simpa using h
    omega

end Syllabus.Template
