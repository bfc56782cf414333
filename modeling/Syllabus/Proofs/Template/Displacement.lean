import Syllabus.Proofs.Template.Concatenation
import Syllabus.Proofs.Template.TreeRendering

/-!
# Syllabus: rendering a template that stands behind another

Rendering looks at a template from an index on and never in front of it. So the segments at the end
of a template render as they do on their own, nested well or not; only the errors are moved, to the
lines and numbers that the directives have there.

* **`Displaced.renderFrom`**: the segments of a displaced template render as on their own.
-/

namespace Syllabus.Template

/-! ## Moved errors -/

/-- A location behind that many lines and directives. -/
def Location.moved (lines directives : Nat) (location : Location) : Location :=
  { location with
    line := location.line + lines
    directive := location.directive + directives }

/-- An error at a directive behind that many lines and directives. -/
def Error.moved (lines directives : Nat) : Error → Error
  | malformed location defect text => malformed (location.moved lines directives) defect text
  | unboundName location name => unboundName (location.moved lines directives) name
  | unknownField location field kind => unknownField (location.moved lines directives) field kind
  | wrongKind location reference found need =>
    wrongKind (location.moved lines directives) reference found need
  | outputFull => outputFull

namespace Render

section AdaptExcept

variable {α β : Type} (change : Error → Error)

@[simp] theorem adaptExcept_pure (value : α) :
    EStateM.adaptExcept change (pure value : Render α) = pure value := rfl

@[simp] theorem adaptExcept_get :
    EStateM.adaptExcept change (get : Render Progress) = get := rfl

/-- A moved error is thrown where the error was. -/
@[simp] theorem adaptExcept_throw (e : Error) :
    EStateM.adaptExcept change (throw e : Render α) = throw (change e) := rfl

@[simp] theorem adaptExcept_bindName (name : String) (value : Value) :
    EStateM.adaptExcept change (bind name value) = bind name value := rfl

@[simp] theorem adaptExcept_ofExcept (result : Except Error α) :
    EStateM.adaptExcept change (ofExcept result) = ofExcept (result.mapError change) := by
  cases result <;> rfl

/-- Errors are moved in each of two actions one after the other. -/
@[simp] theorem adaptExcept_bind (action : Render α) (next : α → Render β) :
    EStateM.adaptExcept change (action >>= next)
      = EStateM.adaptExcept change action >>= fun value =>
        EStateM.adaptExcept change (next value) := by
  funext progress
  show EStateM.adaptExcept change (EStateM.bind action next) progress
    = EStateM.bind (EStateM.adaptExcept change action) _ progress
  unfold EStateM.adaptExcept EStateM.bind
  dsimp only
  -- An error of the first action is changed in both, and a success goes on.
  cases action progress <;> rfl

@[simp] theorem adaptExcept_forM (items : List α) (action : α → Render Unit) :
    EStateM.adaptExcept change (forM items action)
      = forM items fun item => EStateM.adaptExcept change (action item) := by
  induction items with
  | nil => rfl
  | cons item items ih => rw [List.forM_cons, List.forM_cons, adaptExcept_bind, ih]

/-- A full destination is no directive's. -/
@[simp] theorem adaptExcept_write (lines directives : Nat) (s : String) :
    EStateM.adaptExcept (Error.moved lines directives) (write s) = write s := by
  funext progress
  unfold EStateM.adaptExcept write
  cases progress.destination.takes s <;> rfl

/-- Writing a value fails for the destination only, which no segment moves. -/
@[simp] theorem adaptExcept_writeValue (lines directives : Nat) (value : Value) :
    EStateM.adaptExcept (Error.moved lines directives) (writeValue value) = writeValue value := by
  show EStateM.adaptExcept _ (forM value.portions write) = forM value.portions write
  simp only [adaptExcept_forM, adaptExcept_write]

end AdaptExcept

end Render

/-! ## A template at the end of another -/

/-- Whether a template stands at the end of another, behind that many lines and directives. -/
structure Displaced (part whole : Template) (lines offset : Nat) : Prop where
  name_eq : whole.name = part.name
  segments_eq : whole.segments.drop offset = part.segments.map (Segment.lowered lines)

namespace Displaced

variable {part whole : Template} {lines offset index : Nat} {segment : Segment}

section Lookup

variable (h : Displaced part whole lines offset)

include h

/-- Each segment of the part is in the whole, further down. -/
theorem segments_getElem? (index : Nat) :
    whole.segments[offset + index]? = part.segments[index]?.map (Segment.lowered lines) := by
  rw [← List.getElem?_drop, h.segments_eq, List.getElem?_map]

theorem literalAt (index : Nat) : whole.literalAt (offset + index) = part.literalAt index := by
  rw [Template.literalAt, Template.literalAt, h.segments_getElem?, Option.map_map]
  rfl

/-- From a segment of the part on, the directives are the same. -/
theorem directives_drop (start : Nat) :
    whole.directives.drop (offset + start) = part.directives.drop start := by
  -- Only the lines of the segments differ.
  rw [directives, directives, ← List.drop_drop, ← List.map_drop, h.segments_eq, List.map_map]
  rfl

theorem directives_getElem? (index : Nat) :
    whole.directives[offset + index]? = part.directives[index]? := by
  rw [← List.head?_drop, h.directives_drop, List.head?_drop]

/-- A block of the part ends in the whole where it ends in the part, moved. -/
theorem closeFrom? (start : Nat) (parts : Bool) :
    whole.closeFrom? (offset + start) parts
      = (part.closeFrom? start parts).map (offset + ·) := by
  -- The end is told by the directives alone.
  rw [Template.closeFrom?, Template.closeFrom?, h.directives_drop, Option.map_map]
  congr 1
  funext distance
  exact Nat.add_assoc _ _ _

theorem conditionalEnds? (index : Nat) :
    whole.conditionalEnds? (offset + index)
      = (part.conditionalEnds? index).map fun ends => (offset + ends.1, offset + ends.2) := by
  simp only [Template.conditionalEnds?, Nat.add_assoc, h.closeFrom?, Option.bind_eq_bind]
  -- Both ends are looked for as single ends are.
  cases part.closeFrom? (index + 1) true with
  | none => rfl
  | some middle =>
    simp only [Option.map_some, Option.bind_some, h.directives_getElem?, Nat.add_assoc,
      h.closeFrom?]
    split
    · cases part.closeFrom? (middle + 1) false <;> rfl
    · rfl

/-- A place in the part is moved in the whole. -/
theorem location (hsegment : part.segments[index]? = some segment) :
    whole.location (offset + index) = (part.location index).moved lines offset := by
  rw [Template.location, Template.location, h.segments_getElem?, hsegment, h.name_eq]
  -- Lines are added to lines, and directives to directives.
  simp only [Location.moved, Location.mk.injEq, Option.map_some, Option.getD_some,
    Segment.lowered, true_and]
  omega

theorem malformedAt (hsegment : part.segments[index]? = some segment) (defect : Defect) :
    whole.malformedAt (offset + index) defect
      = (part.malformedAt index defect).moved lines offset := by
  have htext : whole.commandText (offset + index) = part.commandText index := by
    rw [commandText, commandText, h.segments_getElem?, Option.map_map]
    rfl
  rw [Template.malformedAt, Template.malformedAt, h.location hsegment, htext]
  rfl

/-- A reference has the same value or the moved error. -/
theorem evaluate (hsegment : part.segments[index]? = some segment) (bindings : Bindings)
    (reference : Reference) :
    whole.evaluate bindings (offset + index) reference
      = (part.evaluate bindings index reference).mapError (Error.moved lines offset) := by
  rw [Template.evaluate, Template.evaluate, h.location hsegment]
  -- Values do not depend on where the reference stands; errors name the place.
  split
  · rfl
  · split <;> rfl

theorem elements (hsegment : part.segments[index]? = some segment) (bindings : Bindings)
    (source : Reference) :
    whole.elements bindings (offset + index) source
      = (part.elements bindings index source).mapError (Error.moved lines offset) := by
  rw [Template.elements, Template.elements, h.location hsegment, h.evaluate hsegment]
  split
  · rfl
  · cases part.evaluate bindings index source with
    | error e => rfl
    | ok value =>
      simp only [Except.mapError]
      split <;> rfl

theorem flag (hsegment : part.segments[index]? = some segment) (bindings : Bindings)
    (reference : Reference) :
    whole.flag bindings (offset + index) reference
      = (part.flag bindings index reference).mapError (Error.moved lines offset) := by
  rw [Template.flag, Template.flag, h.location hsegment, h.evaluate hsegment]
  cases part.evaluate bindings index reference with
  | error e => rfl
  | ok value => cases value <;> rfl

/-- A body renders as on its own if its segments do. -/
theorem renderBody (hsegment : part.segments[index]? = some segment) {depth start close : Nat}
    (hbody : whole.renderFrom (depth + 1) (offset + start) (offset + close)
      = EStateM.adaptExcept (Error.moved lines offset)
        (part.renderFrom (depth + 1) start close)) :
    whole.renderBody depth (offset + index) (offset + start) (offset + close)
      = EStateM.adaptExcept (Error.moved lines offset)
        (part.renderBody depth index start close) := by
  rw [Template.renderBody, Template.renderBody]
  split
  · exact hbody
  · rw [h.malformedAt hsegment, Render.adaptExcept_throw]

end Lookup

/-- **A displaced template renders as on its own.** -/
theorem renderFrom (h : Displaced part whole lines offset) (depth index stop : Nat) :
    whole.renderFrom depth (offset + index) (offset + stop)
      = EStateM.adaptExcept (Error.moved lines offset) (part.renderFrom depth index stop) := by
  -- On what is left of the part: bodies and what is behind a block start further on.
  induction hleft : part.segments.length - index using Nat.strong_induction_on
    generalizing depth index stop with
  | _ left ih =>
  subst hleft
  -- Both stop at the same point, so both are inside or both are done.
  by_cases hinside : index < stop
  · have hstop : offset + index < offset + stop := by omega
    cases hsegment : part.segments[index]? with
    | none =>
      have hbehind : whole.segments[offset + index]? = none := by
        rw [h.segments_getElem?, hsegment, Option.map_none]
      rw [renderFrom_behind _ _ hbehind, renderFrom_behind _ _ hsegment]
      rfl
    | some segment =>
      have hmoved : whole.segments[offset + index]? = some (segment.lowered lines) := by
        rw [h.segments_getElem?, hsegment, Option.map_some]
      have hlength := (List.getElem?_eq_some_iff.mp hsegment).1
      have hlater {later : Nat} (hlater : index < later) (depth stop : Nat) :=
        ih (part.segments.length - later) (by omega) depth later stop rfl
      have hbody {start : Nat} (hstart : index < start) (close : Nat) :=
        h.renderBody hsegment (hlater hstart (depth + 1) close)
      rw [renderFrom_at hmoved hstop, renderFrom_at hsegment hinside, Segment.lowered_directive]
      cases segment.directive with
      | interpolation reference =>
        simp [h.evaluate hsegment, Nat.add_assoc, hlater (Nat.lt_succ_self index)]
      -- The body goes on at the next segment, and the rest behind the end of the block.
      | loop item source =>
        simp only [Nat.add_assoc, h.closeFrom?]
        cases hclose : part.closeFrom? (index + 1) false with
        | none => simp [h.elements hsegment, h.malformedAt hsegment]
        | some close =>
          have := le_of_closeFrom? hclose
          simp [h.elements hsegment, h.literalAt, Nat.add_assoc, hbody (Nat.lt_succ_self index),
            hlater (show index < close + 1 by omega)]
      | conditional reference =>
        simp only [h.conditionalEnds?]
        cases hends : part.conditionalEnds? index with
        | none => simp [h.flag hsegment, h.malformedAt hsegment]
        | some ends =>
          obtain ⟨middle, close⟩ := ends
          have := lt_of_conditionalEnds? hends
          simp only [Option.map_some, Render.adaptExcept_bind, Render.adaptExcept_get,
            Render.adaptExcept_ofExcept, h.flag hsegment, h.literalAt, Nat.add_assoc,
            hbody (Nat.lt_succ_self index), hbody (show index < middle + 1 by omega),
            hlater (show index < close + 1 by omega), Nat.add_lt_add_iff_left]
          -- The flag selects the part; all three places go on further down.
          refine bind_congr fun progress => bind_congr fun set => ?_
          cases set with
          | true => simp
          | false =>
            simp only [Bool.false_eq_true, if_false]
            split <;> simp
      | close | alternative => simp [h.malformedAt hsegment]
  · rw [renderFrom_outside whole _ (by omega), renderFrom_outside part _ (by omega)]
    rfl

end Displaced

end Syllabus.Template
