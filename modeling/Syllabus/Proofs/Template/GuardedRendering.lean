import Syllabus.Proofs.Template.CountedEnds
import Syllabus.Proofs.Template.TreeRendering

/-!
# Syllabus: guarded rendering

A rendering relies on more than it looks at: there is a segment wherever it goes, the count for the
end of a block does not fall below zero, a block ends within the segments that are being rendered,
and the bodies it is inside of are those of the blocks around. A guarded rendering does the same and
checks all this on the way. No check ever fails, be the template well nested or not.

* **`Position`**: where a rendering can stand. What it does next leads to such positions again.
* **`guardedFrom_eq`**: the guards of segments change nothing, by induction on the turns.
* **`renderGuarded_ends`**: a guarded rendering ends, without a breach, as the rendering does.
-/

namespace Syllabus.Template

/-- How a rendering could break what it relies on. -/
inductive Breach where
  /-- It takes more turns than it is given. -/
  | outOfTurns
  /-- It asks for a segment that is not there. -/
  | noSegment (index : Nat)
  /-- It counts fewer than no open blocks. -/
  | negativeCount (index : Nat)
  /-- It comes to an index outside the segments to be rendered. -/
  | outsideRange (index stop : Nat)
  /-- It is inside too many bodies, or not inside those of the blocks around the directive. -/
  | wrongBodies (openers : List Nat) (index : Nat)
deriving DecidableEq

/-- A rendering that stops at a breach. -/
abbrev Guarded := ExceptT Breach Render

namespace Guarded

def fail {α : Type} (breach : Breach) : Guarded α := throwThe Breach breach

/-- Goes on if the condition holds. -/
def check (condition : Prop) [Decidable condition] (breach : Breach) : Guarded Unit :=
  if condition then pure () else fail breach

end Guarded

/-- The segment with that index, which there must be. -/
def segmentAt (template : Template) (index : Nat) : Guarded Segment :=
  match template.segments[index]? with
  | some segment => pure segment
  | none => .fail (.noSegment index)

/-- The error of a defect at the directive with that index, which there must be. -/
def raiseAt {α : Type} (template : Template) (index : Nat) (defect : Defect) : Guarded α := do
  let segment ← template.segmentAt index
  .lift (throw (.malformed (template.location index) defect (Text.trimmed segment.command)))

/-- The index of the directive that ends a block. The count of open blocks is a number that could
be negative, and must not be. -/
def countEnd (parts : Bool) (count : Int) (index : Nat) (directives : List Directive) :
    Except Breach (Option Nat) :=
  if count < 0 then .error (.negativeCount index)
  else
    match directives with
    | [] => .ok none
    | .close :: rest =>
      if count = 0 then .ok (some index) else countEnd parts (count - 1) (index + 1) rest
    | .alternative :: rest =>
      if count = 0 ∧ parts then .ok (some index) else countEnd parts count (index + 1) rest
    | .loop .. :: rest | .conditional .. :: rest => countEnd parts (count + 1) (index + 1) rest
    | .interpolation _ :: rest => countEnd parts count (index + 1) rest

/-- Where the block of an opener ends, counted from `start` on. It must be behind the opener and in
front of `stop`. -/
def endOf (template : Template) (opener start stop : Nat) (parts : Bool) : Guarded Nat :=
  match countEnd parts 0 start (template.directives.drop start) with
  | .error breach => .fail breach
  | .ok none => template.raiseAt opener .unmatchedOpenBlock
  | .ok (some index) => do
    .check (opener < index ∧ index < stop) (.outsideRange index stop)
    pure index

/-- Where the first part of a conditional ends and where its block does. -/
def endsOf (template : Template) (opener stop : Nat) : Guarded (Nat × Nat) := do
  let middle ← template.endOf opener (opener + 1) stop true
  let parting ← template.segmentAt middle
  if parting.directive = .alternative then
    let close ← template.endOf opener (middle + 1) stop false
    pure (middle, close)
  else pure (middle, middle)

/-- Renders a body of the opener if there is room for one more. -/
def insideBody (template : Template) (openers : List Nat) (opener : Nat) (body : Guarded Unit) :
    Guarded Unit :=
  if openers.length < maxOpenBlocks then body else template.raiseAt opener .nestingTooDeep

/-- Renders the segments from `index` up to `stop` as `renderFrom` does, with checks. It is inside
a body of each of the openers, the innermost first, and has a number of turns left. -/
def guardedFrom (template : Template) : Nat → List Nat → Nat → Nat → Guarded Unit
  | 0, _, _, _ => .fail .outOfTurns
  | turns + 1, openers, index, stop => do
    -- What is behind a block may be nothing, but never beyond the segments to be rendered.
    .check (index ≤ stop) (.outsideRange index stop)
    if index < stop then
      let segment ← template.segmentAt index
      .check (openers.length ≤ maxOpenBlocks ∧ openers = template.enclosing index)
        (.wrongBodies openers index)
      match segment.directive with
      | .interpolation reference =>
        let progress ← .lift get
        let value ← .lift (.ofExcept (template.evaluate progress.bindings index reference))
        .lift (.writeValue value)
        .lift (.write segment.literal)
        template.guardedFrom turns openers (index + 1) stop
      | .loop item source =>
        let progress ← .lift get
        let items ← .lift (.ofExcept (template.elements progress.bindings index source))
        let close ← template.endOf index (index + 1) stop false
        items.forM fun element => do
          .lift (.write segment.literal)
          .lift (.bind item element)
          template.insideBody openers index
            (template.guardedFrom turns (index :: openers) (index + 1) close)
        let closing ← template.segmentAt close
        .lift (.write closing.literal)
        template.guardedFrom turns openers (close + 1) stop
      | .conditional reference =>
        let progress ← .lift get
        let set ← .lift (.ofExcept (template.flag progress.bindings index reference))
        let (middle, close) ← template.endsOf index stop
        if set then
          .lift (.write segment.literal)
          template.insideBody openers index
            (template.guardedFrom turns (index :: openers) (index + 1) middle)
        else if middle < close then
          let parting ← template.segmentAt middle
          .lift (.write parting.literal)
          template.insideBody openers index
            (template.guardedFrom turns (index :: openers) (middle + 1) close)
        let closing ← template.segmentAt close
        .lift (.write closing.literal)
        template.guardedFrom turns openers (close + 1) stop
      | .close => template.raiseAt index .unexpectedClose
      | .alternative => template.raiseAt index .unexpectedAlternative

/-! ## Where a rendering stands -/

/-- Whether segments up to `stop` are rendered from `index` on inside the bodies of the openers: the
blocks around are those, and `stop` is the end of the template or the end of a block counted from
here. -/
structure Position (template : Template) (openers : List Nat) (index stop : Nat) : Prop where
  room : openers.length ≤ maxOpenBlocks
  inside : index ≤ stop
  ends : stop = template.segments.length ∨ ∃ parts, template.closeFrom? index parts = some stop
  around : openers = template.enclosing index

namespace Position

variable {template : Template} {openers : List Nat} {index stop close : Nat}
  {directive : Directive}

/-- Before the first directive no block is open. -/
theorem start (template : Template) : Position template [] 0 template.segments.length where
  room := Nat.zero_le _
  inside := Nat.zero_le _
  ends := .inl rfl
  around := rfl

/-- A rendering does not go beyond the template. -/
theorem stop_le (h : Position template openers index stop) : stop ≤ template.segments.length := by
  rcases h.ends with rfl | ⟨parts, hstop⟩
  · exact Nat.le_refl _
  · exact Nat.le_of_lt (lt_length_of_closeFrom? hstop)

/-- Behind an interpolation. -/
theorem next {value : Reference} (h : Position template openers index stop) (hindex : index < stop)
    (hdirective : template.directives[index]? = some (.interpolation value)) :
    Position template openers (index + 1) stop where
  room := h.room
  inside := hindex
  ends := h.ends.imp_right fun ⟨parts, hstop⟩ => ⟨parts, closeFrom?_interpolation hdirective ▸ hstop⟩
  around := by
    rw [enclosing_succ hdirective, ← h.around]
    rfl

section Block

variable (h : Position template openers index stop)
  (hdirective : template.directives[index]? = some directive) (hopens : directive.opensBlock = true)

include h hdirective hopens

/-- Behind an opener the block it opens is the innermost open one. -/
theorem enclosing_behind_opener : template.enclosing (index + 1) = index :: openers := by
  rw [enclosing_opener hdirective hopens, ← h.around]

/-- **The ends of a block lie within the segments to be rendered.** -/
theorem end_lt {parts : Bool} (hend : template.closeFrom? (index + 1) parts = some close) :
    close < stop := by
  rcases h.ends with rfl | ⟨outer, hstop⟩
  · exact lt_length_of_closeFrom? hend
  · rw [closeFrom?_opener hdirective hopens] at hstop
    obtain ⟨whole, hwhole, hstop⟩ := Option.bind_eq_some_iff.mp hstop
    have hbehind := le_of_closeFrom? hstop
    have hpart := le_of_closeFrom?_false hend hwhole
    omega

/-- Behind a block. -/
theorem behind (hclose : template.closeFrom? (index + 1) false = some close) :
    Position template openers (close + 1) stop where
  room := h.room
  inside := h.end_lt hdirective hopens hclose
  ends := by
    refine h.ends.imp_right fun ⟨parts, hstop⟩ => ⟨parts, ?_⟩
    rwa [closeFrom?_opener hdirective hopens, hclose] at hstop
  around := by rw [enclosing_behind_block hdirective hopens hclose, h.around]

/-- In the body of a block, or in the first part of it. -/
theorem body {parts : Bool} (hroom : openers.length < maxOpenBlocks)
    (hclose : template.closeFrom? (index + 1) parts = some close) :
    Position template (index :: openers) (index + 1) close where
  room := hroom
  inside := le_of_closeFrom? hclose
  ends := .inr ⟨parts, hclose⟩
  around := (h.enclosing_behind_opener hdirective hopens).symm

/-- In the second part of a block. -/
theorem otherBody {middle : Nat} (hroom : openers.length < maxOpenBlocks)
    (hmiddle : template.closeFrom? (index + 1) true = some middle)
    (halternative : template.directives[middle]? = some .alternative)
    (hclose : template.closeFrom? (middle + 1) false = some close) :
    Position template (index :: openers) (middle + 1) close where
  room := hroom
  inside := le_of_closeFrom? hclose
  ends := .inr ⟨false, hclose⟩
  around := by
    rw [enclosing_succ halternative, enclosing_of_closeFrom? hmiddle,
      h.enclosing_behind_opener hdirective hopens]
    rfl

end Block

end Position

/-! ## Checks that pass -/

/-- The count of open blocks finds the end that the scan finds, and is never negative. -/
theorem countEnd_eq (parts : Bool) (depth index : Nat) (directives : List Directive) :
    countEnd parts depth index directives
      = .ok ((scanClose parts depth directives).map (index + ·)) := by
  have hlater (found : Option Nat) (index : Nat) :
      found.map (index + 1 + ·) = (found.map (· + 1)).map (index + ·) := by
    rw [Option.map_map]
    congr 1
    funext offset
    exact Nat.add_right_comm index 1 offset
  -- On the directives: an opener adds one to the count, and an end takes one away.
  induction directives generalizing depth index with
  | nil =>
    rw [countEnd, if_neg (by omega)]
    rfl
  | cons directive rest ih =>
    unfold countEnd
    rw [if_neg (by omega)]
    cases directive with
    | interpolation value =>
      show countEnd parts depth (index + 1) rest = _
      rw [ih, scanClose_interpolation, hlater]
    | loop item source =>
      show countEnd parts ((depth + 1 : Nat) : Int) (index + 1) rest = _
      rw [ih, scanClose_opener rfl, hlater]
    | conditional flag =>
      show countEnd parts ((depth + 1 : Nat) : Int) (index + 1) rest = _
      rw [ih, scanClose_opener rfl, hlater]
    | close =>
      cases depth with
      | zero => rfl
      | succ depth =>
        show (if ((depth + 1 : Nat) : Int) = 0 then _ else _) = _
        rw [if_neg (by omega), show ((depth + 1 : Nat) : Int) - 1 = depth by omega, ih, hlater]
        rfl
    | alternative =>
      show (if (depth : Int) = 0 ∧ parts = true then _ else countEnd parts depth (index + 1) rest) = _
      rw [ih, hlater]
      cases depth with
      | zero =>
        cases parts with
        | true => rfl
        | false => rfl
      | succ depth =>
        rw [if_neg (by omega)]
        rfl

section Passed

variable {template : Template} {openers : List Nat} {index start : Nat} {segment : Segment}
  {defect : Defect}

theorem Guarded.check_eq {condition : Prop} [Decidable condition] {breach : Breach}
    (h : condition) : Guarded.check condition breach = pure () := if_pos h

/-- There is a segment at each index below the length. -/
theorem exists_segment (h : index < template.segments.length) :
    ∃ segment, template.segments[index]? = some segment
      ∧ template.directives[index]? = some segment.directive := by
  refine ⟨template.segments[index], List.getElem?_eq_getElem h, ?_⟩
  rw [directives, List.getElem?_map, List.getElem?_eq_getElem h]
  rfl

theorem segmentAt_eq (h : template.segments[index]? = some segment) :
    template.segmentAt index = pure segment := by
  rw [segmentAt, h]

theorem literalAt_eq (h : template.segments[index]? = some segment) :
    template.literalAt index = segment.literal := by
  rw [literalAt, h]
  rfl

theorem raiseAt_eq {α : Type} (h : template.segments[index]? = some segment) :
    (template.raiseAt index defect : Guarded α)
      = ExceptT.lift (throw (template.malformedAt index defect)) := by
  rw [raiseAt, segmentAt_eq h, pure_bind, malformedAt, commandText, h]
  rfl

/-- If ends lie in front of where the rendering stops, the checked end of a block is the end of the
block. -/
theorem endOf_eq {stop : Nat} {parts : Bool} (h : template.segments[index]? = some segment)
    (hinside : ∀ close, template.closeFrom? start parts = some close →
      index < close ∧ close < stop) :
    template.endOf index start stop parts =
      match template.closeFrom? start parts with
      | none => ExceptT.lift (throw (template.malformedAt index .unmatchedOpenBlock))
      | some close => pure close := by
  rw [endOf, show (0 : Int) = (0 : Nat) from rfl, countEnd_eq]
  unfold closeFrom? at hinside ⊢
  cases hscan : scanClose parts 0 (template.directives.drop start) with
  | none => exact raiseAt_eq h
  | some offset =>
    have hends := hinside (start + offset) (by rw [hscan]; rfl)
    show (Guarded.check _ _ >>= fun _ => pure _) = _
    rw [Guarded.check_eq hends]
    rfl

theorem endsOf_eq {stop : Nat} (h : template.segments[index]? = some segment)
    (hinside : ∀ parts close, template.closeFrom? (index + 1) parts = some close → close < stop) :
    template.endsOf index stop =
      match template.conditionalEnds? index with
      | none => ExceptT.lift (throw (template.malformedAt index .unmatchedOpenBlock))
      | some ends => pure ends := by
  have hmiddles (close : Nat) (hclose : template.closeFrom? (index + 1) true = some close) :=
    And.intro (le_of_closeFrom? hclose) (hinside true close hclose)
  rw [endsOf, conditionalEnds?, endOf_eq h hmiddles]
  cases hmiddle : template.closeFrom? (index + 1) true with
  | none => rfl
  | some middle =>
    obtain ⟨parting, hparting, hdirective⟩ := exists_segment (lt_length_of_closeFrom? hmiddle)
    rw [pure_bind, segmentAt_eq hparting, pure_bind, Option.bind_eq_bind, Option.bind_some,
      hdirective]
    -- With an alternative the first part ends there, and the end of the other is looked for.
    by_cases halternative : parting.directive = .alternative
    · have hcloses (close : Nat) (hclose : template.closeFrom? (middle + 1) false = some close) :
          index < close ∧ close < stop := by
        have hwhole := closeFrom?_parted hmiddle
        rw [hdirective, if_pos (congrArg some halternative), hclose] at hwhole
        exact ⟨le_of_closeFrom? hwhole, hinside false close hwhole⟩
      rw [if_pos halternative, if_pos (congrArg some halternative), endOf_eq h hcloses]
      cases template.closeFrom? (middle + 1) false with
      | none => rfl
      | some close => rfl
    · rw [if_neg halternative, if_neg (by simpa using halternative)]

/-- The body of a block is rendered if it is not nested too deep. -/
theorem insideBody_eq {body : Guarded Unit} {stop : Nat}
    (h : template.segments[index]? = some segment)
    (hbody : openers.length < maxOpenBlocks →
      body = ExceptT.lift (template.renderFrom (openers.length + 1) start stop)) :
    template.insideBody openers index body
      = ExceptT.lift (template.renderBody openers.length index start stop) := by
  unfold insideBody renderBody
  split
  · next hroom => exact hbody hroom
  · exact raiseAt_eq h

end Passed

/-! ## Renderings without guards -/

section Lift

variable {α β : Type}

/-- One step behind the other is lifted at once. -/
theorem lift_bind (action : Render α) (next : α → Render β) :
    (ExceptT.lift (action >>= next) : Guarded β)
      = ExceptT.lift action >>= fun value => ExceptT.lift (next value) :=
  (monadLift_bind action next : (monadLift (action >>= next) : Guarded β) = _)

theorem lift_throw_bind (e : Error) (next : α → Guarded β) :
    (ExceptT.lift (throw e : Render α) : Guarded α) >>= next = ExceptT.lift (throw e) := rfl

theorem run_lift (action : Render α) (progress : Progress) :
    (ExceptT.lift action : Guarded α).run progress =
      match action progress with
      | .ok value final => .ok (.ok value) final
      | .error e final => .error e final := by
  show EStateM.map Except.ok action progress = _
  unfold EStateM.map
  cases action progress <;> rfl

/-- The turns of a loop are lifted at once. -/
theorem forM_lift (items : List α) (action : α → Render Unit) :
    (items.forM fun item => (ExceptT.lift (action item) : Guarded Unit))
      = ExceptT.lift (items.forM action) := by
  induction items with
  | nil => rfl
  | cons item items ih =>
    show (ExceptT.lift (action item) >>= fun _ => items.forM _)
      = ExceptT.lift (action item >>= fun _ => items.forM action)
    rw [lift_bind]
    exact bind_congr fun _ => ih

end Lift

/-- **Guards change nothing.** From a position that a rendering can be in, with a turn for every
segment that is left, no check fails. -/
theorem guardedFrom_eq {template : Template} {turns : Nat} {openers : List Nat} {index stop : Nat}
    (h : template.Position openers index stop) (hturns : template.segments.length - index < turns) :
    template.guardedFrom turns openers index stop
      = ExceptT.lift (template.renderFrom openers.length index stop) := by
  -- On the turns: wherever the rendering goes next is a position again, with fewer segments left.
  induction turns generalizing openers index stop with
  | zero => omega
  | succ turns ih =>
    rw [guardedFrom, Guarded.check_eq h.inside, pure_bind]
    by_cases hindex : index < stop
    · obtain ⟨segment, hsegment, hdirective⟩ :=
        exists_segment (Nat.lt_of_lt_of_le hindex h.stop_le)
      have hleft := (List.getElem?_eq_some_iff.mp hsegment).1
      rw [if_pos hindex, segmentAt_eq hsegment, pure_bind, Guarded.check_eq ⟨h.room, h.around⟩,
        pure_bind, renderFrom_at hsegment hindex]
      -- The next position depends on the directive.
      cases hshape : segment.directive with
      | interpolation reference =>
        rw [hshape] at hdirective
        have hnext := ih (h.next hindex hdirective) (by omega)
        simp only [hnext, ← lift_bind]
      | loop item source =>
        rw [hshape] at hdirective
        have hinside close (hclose : template.closeFrom? (index + 1) false = some close) :=
          And.intro (le_of_closeFrom? hclose) (h.end_lt hdirective rfl hclose)
        cases hclose : template.closeFrom? (index + 1) false with
        | none => simp only [endOf_eq hsegment hinside, hclose, lift_throw_bind, ← lift_bind]
        | some close =>
          have hafter := le_of_closeFrom? hclose
          have hbody := insideBody_eq hsegment fun hroom =>
            ih (h.body hdirective rfl hroom hclose) (by omega)
          have hbehind := ih (h.behind hdirective rfl hclose) (by omega)
          obtain ⟨closing, hclosing, _⟩ := exists_segment (lt_length_of_closeFrom? hclose)
          simp only [endOf_eq hsegment hinside, hclose, pure_bind, hbody, hbehind,
            segmentAt_eq hclosing, literalAt_eq hclosing, forM_lift, ← lift_bind]
      | conditional reference =>
        rw [hshape] at hdirective
        have hinside parts close (hclose : template.closeFrom? (index + 1) parts = some close) :=
          h.end_lt hdirective rfl hclose
        cases hends : template.conditionalEnds? index with
        | none => simp only [endsOf_eq hsegment hinside, hends, lift_throw_bind, ← lift_bind]
        | some ends =>
          obtain ⟨middle, close⟩ := ends
          have horder := lt_of_conditionalEnds? hends
          obtain ⟨hmiddle, hclose⟩ := closeFrom?_of_conditionalEnds? hends
          have hbody := insideBody_eq hsegment fun hroom =>
            ih (h.body hdirective rfl hroom hmiddle) (by omega)
          have hbehind := ih (h.behind hdirective rfl hclose) (by omega)
          obtain ⟨closing, hclosing, _⟩ := exists_segment (lt_length_of_closeFrom? hclose)
          obtain ⟨parting, hparting, _⟩ := exists_segment (lt_length_of_closeFrom? hmiddle)
          simp only [endsOf_eq hsegment hinside, hends, pure_bind, hbody, hbehind,
            segmentAt_eq hclosing, literalAt_eq hclosing, segmentAt_eq hparting,
            literalAt_eq hparting, lift_bind]
          refine bind_congr fun progress => bind_congr fun set => ?_
          -- Which part is rendered depends on the flag; what is behind the block does not.
          cases set with
          | true => simp only [if_true, lift_bind]
          | false =>
            by_cases hparted : middle < close
            · obtain ⟨halternative, hother⟩ := closeFrom?_of_parted hends hparted
              have hbody := insideBody_eq hsegment fun hroom =>
                ih (h.otherBody hdirective rfl hroom hmiddle halternative hother) (by omega)
              simp only [Bool.false_eq_true, if_false, if_pos hparted, hbody, lift_bind]
            · simp only [Bool.false_eq_true, if_false, if_neg hparted, lift_bind]
      | close => exact raiseAt_eq hsegment
      | alternative => exact raiseAt_eq hsegment
    · rw [if_neg hindex, renderFrom_outside template _ (by omega)]
      rfl

/-- Renders a whole template with checks, in a turn for each segment and one more. -/
def renderGuarded (template : Template) : Guarded Unit := do
  .lift (.write template.leading)
  template.guardedFrom (template.segments.length + 1) [] 0 template.segments.length

theorem renderGuarded_eq (template : Template) :
    template.renderGuarded = ExceptT.lift template.render := by
  rw [renderGuarded, render, lift_bind]
  refine bind_congr fun _ => ?_
  exact guardedFrom_eq (.start template) (by omega)

/-- **Rendering is safe and ends.** Whatever the template, the bindings and the destination are, no
check fails: there is a segment at every index, no count falls below zero, the ends of a block lie
behind its opener and within the segments to be rendered, the bodies are at most `maxOpenBlocks` and
those of the blocks around, and there are turns enough. The rendering comes to a text or to an
error, and leaves the same as without guards. -/
theorem renderGuarded_ends (template : Template) (bindings : Bindings)
    (destination : Destination) :
    (∃ final, template.renderGuarded.run { bindings, destination } = .ok (.ok ()) final
      ∧ template.render { bindings, destination } = .ok () final)
    ∨ ∃ e final, template.renderGuarded.run { bindings, destination } = .error e final
      ∧ template.render { bindings, destination } = .error e final := by
  rw [renderGuarded_eq, run_lift]
  cases template.render { bindings, destination } with
  | ok value final => exact .inl ⟨final, rfl, rfl⟩
  | error e final => exact .inr ⟨e, final, rfl, rfl⟩

-- A body that stops in front of the end of a block is none that a rendering could be in.
example :
    let loop : Segment := ⟨.loop "x" ⟨"xs", []⟩, "", "", 1⟩
    let template : Template := ⟨"", "", [loop, ⟨.close, "", "", 1⟩]⟩
    let progress : Progress := { bindings := { sequences := [("xs", [])] } }
    (template.guardedFrom 3 [] 0 1).run progress
      = .ok (.error (.outsideRange 1 1)) progress := by
  rfl

end Syllabus.Template
