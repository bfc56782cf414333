import Syllabus.Proofs.Template.AnyRendering

/-!
# Syllabus: what the destination of a rendering decides

A rendering writes one portion after the other and never reads them back. So it delivers the same
text and comes to the same end wherever it writes to, as long as there is room. The first portion
that is too much ends it, in front of everything that would have come behind.

* **`Render.Delivers`**: what an action writes and comes to, in any destination.
* **`composesFor_delivers`**: every action that a rendering is put together from delivers something.
* **`outcome_of_destination`**: the outcome in any destination, told by that in an empty one.
-/

namespace Syllabus.Template

/-! ## Room in a destination -/

namespace Destination

variable {destination : Destination} {s : String}

/-- A destination with a text behind what it holds. -/
def append (destination : Destination) (s : String) : Destination :=
  { destination with text := destination.text ++ s }

/-- Nothing is appended by an empty text. -/
theorem append_empty (destination : Destination) : destination.append "" = destination := by
  rw [append, String.append_empty]

theorem append_append (destination : Destination) (s t : String) :
    (destination.append s).append t = destination.append (s ++ t) := by
  rw [append, append, append, String.append_assoc]

/-- What is taken at once is taken in two portions. -/
theorem takes_append (destination : Destination) (s t : String) :
    destination.takes (s ++ t) = (destination.takes s && (destination.append s).takes t) := by
  obtain ⟨text, _ | limit⟩ := destination
  · rfl
  · simp only [Destination.takes, append, Option.all_some, String.utf8ByteSize_append]
    rw [Bool.eq_iff_iff]
    simp only [Bool.and_eq_true, decide_eq_true_eq]
    omega

/-- Where a text has been taken there is room for nothing more at least. -/
theorem takes_nothing_of_takes (h : destination.takes s = true) :
    (destination.append s).takes "" = true := by
  have hboth := destination.takes_append s ""
  rw [String.append_empty, h, Bool.true_and] at hboth
  exact hboth.symm

/-- Only a destination with a limit refuses a text. -/
theorem exists_limit_of_takes (h : destination.takes s = false) :
    ∃ limit, destination.limit = some limit := by
  obtain ⟨text, _ | limit⟩ := destination
  · cases h
  · exact ⟨limit, rfl⟩

end Destination

namespace Render

theorem write_of_takes {s : String} {progress : Progress}
    (h : progress.destination.takes s = true) :
    write s progress = .ok () { progress with destination := progress.destination.append s } :=
  if_pos h

/-- A text that is not taken is an error, and nothing of it is written. -/
theorem write_of_not_takes {s : String} {progress : Progress}
    (h : progress.destination.takes s = false) :
    write s progress = .error .outputFull progress :=
  if_neg (Bool.eq_false_iff.mp h)

/-! ## What an action delivers -/

/-- The end of an action with that result. -/
def ended {α : Type} (result : Except Error α) (final : Progress) :
    EStateM.Result Error Progress α :=
  match result with
  | .ok value => .ok value final
  | .error e => .error e final

/-- Whether an action writes a text, comes to a result and leaves bindings, in every destination
with room for the text. In any other it fails for want of room, with a part of the text written. -/
structure Delivers {α : Type} (action : Render α) (bindings : Bindings) (written : String)
    (result : Except Error α) (left : Bindings) : Prop where
  ended : ∀ ⦃destination : Destination⦄, destination.takes "" = true →
    destination.takes written = true →
    action ⟨bindings, destination⟩ = ended result ⟨left, destination.append written⟩
  stopped : ∀ ⦃destination : Destination⦄, destination.takes "" = true →
    destination.takes written = false →
    ∃ part rest stopped, written = part ++ rest ∧ destination.takes part = true
      ∧ action ⟨bindings, destination⟩ = .error .outputFull ⟨stopped, destination.append part⟩

namespace Delivers

variable {α β : Type} {action : Render α} {next : α → Render β} {bindings between left : Bindings}
  {s t : String}

/-- An action that writes nothing is never stopped. -/
theorem nothing {result : Except Error α}
    (h : ∀ destination, action ⟨bindings, destination⟩ = Render.ended result ⟨left, destination⟩) :
    Delivers action bindings "" result left where
  ended destination _ _ := by rw [h, destination.append_empty]
  stopped destination hroom hfull := by
    rw [hroom] at hfull
    cases hfull

theorem write (s : String) (bindings : Bindings) :
    Delivers (write s) bindings s (.ok ()) bindings where
  ended _ _ htakes := write_of_takes htakes
  stopped destination hroom hfull := by
    -- A portion is written as a whole or not at all.
    refine ⟨"", s, bindings, String.empty_append.symm, hroom, ?_⟩
    rw [destination.append_empty]
    exact write_of_not_takes hfull

/-- What fails is delivered up to the failure. -/
theorem bind_error {e : Error} (h : Delivers action bindings s (.error e) left) :
    Delivers (action >>= next) bindings s (.error e) left where
  ended destination hroom htakes := Action.bind_error (h.ended hroom htakes)
  stopped destination hroom hfull := by
    obtain ⟨part, rest, stopped, hwritten, htakes, hended⟩ := h.stopped hroom hfull
    exact ⟨part, rest, stopped, hwritten, htakes, Action.bind_error hended⟩

/-- What succeeds is delivered in front of what comes behind. -/
theorem bind_ok {value : α} {result : Except Error β}
    (hfirst : Delivers action bindings s (.ok value) between)
    (hsecond : Delivers (next value) between t result left) :
    Delivers (action >>= next) bindings (s ++ t) result left where
  ended destination hroom htakes := by
    rw [destination.takes_append, Bool.and_eq_true] at htakes
    have hbehind := Destination.takes_nothing_of_takes htakes.1
    rw [Action.bind_ok (hfirst.ended hroom htakes.1), hsecond.ended hbehind htakes.2,
      destination.append_append]
  stopped destination hroom hfull := by
    cases htakes : destination.takes s with
    | true =>
      -- The first action has room, so what is too much is a portion of the second.
      rw [destination.takes_append, htakes, Bool.true_and] at hfull
      have hbehind := Destination.takes_nothing_of_takes htakes
      obtain ⟨part, rest, stopped, rfl, hpart, hended⟩ := hsecond.stopped hbehind hfull
      refine ⟨s ++ part, rest, stopped, (String.append_assoc ..).symm, ?_, ?_⟩
      · rw [destination.takes_append, htakes, hpart]
        rfl
      · rw [Action.bind_ok (hfirst.ended hroom htakes), hended, destination.append_append]
    | false =>
      obtain ⟨part, rest, stopped, rfl, hpart, hended⟩ := hfirst.stopped hroom htakes
      exact ⟨part, rest ++ t, stopped, String.append_assoc .., hpart, Action.bind_error hended⟩

end Delivers

end Render

/-- **Every action of a rendering delivers something**, and of itself it never fails for want of
room. -/
theorem composesFor_delivers (template : Template) :
    Render.ComposesFor template fun action => ∀ bindings : Bindings, ∃ written result left,
      Render.Delivers action bindings written result left ∧ result ≠ .error .outputFull where
  pure value := fun bindings => ⟨"", .ok value, bindings, .nothing fun _ => rfl, nofun⟩
  bind {α β action next} haction hnext := by
    intro bindings
    obtain ⟨s, result, between, hfirst, hroom⟩ := haction bindings
    cases result with
    | ok value =>
      obtain ⟨t, result, left, hsecond, hroom⟩ := hnext value between
      exact ⟨s ++ t, result, left, hfirst.bind_ok hsecond, hroom⟩
    | error e =>
      refine ⟨s, .error e, between, hfirst.bind_error, ?_⟩
      rintro ⟨⟩
      exact hroom rfl
  write s := fun bindings => ⟨s, .ok (), bindings, .write s bindings, nofun⟩
  malformed {index defect} _ := fun bindings =>
    ⟨"", .error (template.malformedAt index defect), bindings, .nothing fun _ => rfl, nofun⟩
  bindName {name} _ value := fun bindings =>
    ⟨"", .ok (), bindings.bind name value, .nothing fun _ => rfl, nofun⟩
  -- Looking something up writes nothing, so all is up to what is done with it.
  consult {α β found next} hfound hnext := by
    intro bindings
    cases hvalue : found bindings with
    | ok value =>
      obtain ⟨written, result, left, hdelivers, hroom⟩ := hnext value bindings
      refine ⟨written, result, left, ⟨fun destination => ?_, fun destination => ?_⟩, hroom⟩
      · rw [Render.consult_ok hvalue]
        exact @hdelivers.ended destination
      · rw [Render.consult_ok hvalue]
        exact @hdelivers.stopped destination
    | error e =>
      refine ⟨"", .error e, bindings, .nothing fun _ => Render.consult_error hvalue, ?_⟩
      rintro ⟨⟩
      cases hfound.concernsValue hvalue

/-! ## Whole templates -/

/-- **The destination decides only where a rendering stops.** A rendering comes to some end and
writes some text in an empty destination without a limit. It comes to the same end, with the text
behind what the destination held before, in any destination without a limit and in any that has room
for the text. In one that has not it fails for that reason, whatever it would have come to, with as
much of the text written as fitted portion by portion. -/
theorem outcome_of_destination (template : Template) (bindings : Bindings) :
    ∃ (ended : Except Error Unit) (written : String),
      template.outcome bindings {} = (ended, { text := written })
      ∧ template.renderText bindings = ended.map (fun _ => written)
      ∧ ended ≠ .error .outputFull
      ∧ (∀ before : String,
        template.outcome bindings { text := before } = (ended, { text := before ++ written }))
      ∧ ∀ (before : String) (limit : Nat), before.utf8ByteSize ≤ limit →
        (before.utf8ByteSize + written.utf8ByteSize ≤ limit →
          template.outcome bindings ⟨before, limit⟩ = (ended, ⟨before ++ written, limit⟩))
        ∧ (limit < before.utf8ByteSize + written.utf8ByteSize →
          ∃ part rest : String, written = part ++ rest
            ∧ before.utf8ByteSize + part.utf8ByteSize ≤ limit
            ∧ template.outcome bindings ⟨before, limit⟩
              = (.error .outputFull, ⟨before ++ part, limit⟩)) := by
  obtain ⟨written, result, left, hdelivers, hroom⟩ :=
    (composesFor_delivers template).render bindings
  -- With room for the whole text the destination makes no difference.
  have hended {destination : Destination} (hempty : destination.takes "" = true)
      (htakes : destination.takes written = true) :
      template.outcome bindings destination = (result, destination.append written) := by
    rw [outcome, hdelivers.ended hempty htakes]
    cases result <;> rfl
  have hfree (before : String) :
      template.outcome bindings { text := before } = (result, { text := before ++ written }) :=
    hended rfl rfl
  have hstart : template.outcome bindings {} = (result, { text := written }) := by
    rw [hfree "", String.empty_append]
  refine ⟨result, written, hstart, by rw [renderText_eq, hstart], hroom, hfree, ?_⟩
  intro before limit hbefore
  have hempty : Destination.takes ⟨before, limit⟩ "" = true := by
    simpa [Destination.takes] using hbefore
  constructor
  · intro hfits
    exact hended hempty (by simpa [Destination.takes] using hfits)
  · intro hfull
    -- Otherwise the portions in front of the first one that is too long are all that is kept.
    obtain ⟨part, rest, stopped, hwritten, hpart, hstopped⟩ :=
      hdelivers.stopped hempty (by simpa [Destination.takes] using hfull)
    refine ⟨part, rest, hwritten, by simpa [Destination.takes] using hpart, ?_⟩
    rw [outcome, hstopped]
    rfl

/-- A list in brackets, and then a name: `[<%#xs%>]<%#y%>`. -/
def listAndName : Template where
  name := "page"
  leading := "["
  segments :=
    [⟨.interpolation ⟨"xs", []⟩, "#xs", "]", 1⟩, ⟨.interpolation ⟨"y", []⟩, "#y", "", 1⟩]

/-- Bindings under which the name is not bound. -/
def onlyList : Bindings where
  values := [("xs", .list [.int 1, .int 2])]

/-- A destination with room for the list, and one without. -/
theorem outcome_listAndName :
    "P".utf8ByteSize ≤ 7 ∧ "P".utf8ByteSize + "[1, 2]".utf8ByteSize ≤ 7
      ∧ listAndName.outcome onlyList ⟨"P", some 7⟩
        = (.error (.unboundName ⟨"page", 1, 2⟩ "y"), ⟨"P[1, 2]", some 7⟩)
      ∧ "P".utf8ByteSize ≤ 5 ∧ 5 < "P".utf8ByteSize + "[1, 2]".utf8ByteSize
      ∧ ∃ part rest : String, "[1, 2]" = part ++ rest ∧ "P".utf8ByteSize + part.utf8ByteSize ≤ 5
        ∧ listAndName.outcome onlyList ⟨"P", some 5⟩
          = (.error .outputFull, ⟨"P" ++ part, some 5⟩) := by
  have hfree : listAndName.outcome onlyList {}
      = (.error (.unboundName ⟨"page", 1, 2⟩ "y"), { text := "[1, 2]" }) := by
    decide +kernel
  obtain ⟨ended, written, hstart, _, _, _, hlimit⟩ := outcome_of_destination listAndName onlyList
  cases hfree.symm.trans hstart
  have hroom : "P".utf8ByteSize ≤ 7 := by decide
  have hfits : "P".utf8ByteSize + "[1, 2]".utf8ByteSize ≤ 7 := by decide
  have hnarrow : "P".utf8ByteSize ≤ 5 := by decide
  have hfull : 5 < "P".utf8ByteSize + "[1, 2]".utf8ByteSize := by decide
  exact ⟨hroom, hfits, (hlimit "P" 7 hroom).1 hfits, hnarrow, hfull,
    (hlimit "P" 5 hnarrow).2 hfull⟩

/-- The first item and the comma fit, the second item does not. -/
example : listAndName.outcome onlyList ⟨"P", some 5⟩
    = (.error .outputFull, ⟨"P[1, ", some 5⟩) := by
  decide +kernel

end Syllabus.Template
