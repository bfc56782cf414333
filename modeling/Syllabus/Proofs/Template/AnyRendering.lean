import Syllabus.Proofs.Table
import Syllabus.Proofs.Template.OpenBlocks
import Syllabus.Proofs.Template.TreeRendering

/-!
# Syllabus: what holds of every rendering

Any template can be rendered, nested well or not. Whatever its directives are, its rendering is put
together from writing, binding the items of its loops, looking up the names that it mentions, and
finding a directive malformed. What holds of these actions, and of two of them one after the other,
holds of the whole. Of the openers only the outermost that is left open is ever found unmatched.

* **`Agree`**: bindings that a template cannot tell apart.
* **`Render.ComposesFor.renderFrom`**: what holds of all actions that a rendering is put together
  from holds of the rendering, by induction on the segments that are left.
* **`outcome`**: how a rendering ends and what the destination holds then.
-/

namespace Syllabus.Template

/-! ## The names of a template -/

/-- Whether a name is the variable of an interpolation or conditional or the source of a loop. -/
def LooksUp (template : Template) (name : String) : Prop :=
  ∃ reference : Reference, reference.name = name
    ∧ (.interpolation reference ∈ template.directives ∨ .conditional reference ∈ template.directives
      ∨ ∃ item, .loop item reference ∈ template.directives)

/-- Whether a name without fields is the source of a loop, which may be a sequence. -/
def RunsOver (template : Template) (name : String) : Prop :=
  ∃ item, .loop item ⟨name, []⟩ ∈ template.directives

/-- Whether a loop binds the name. -/
def Binds (template : Template) (name : String) : Prop :=
  ∃ source, .loop name source ∈ template.directives

/-- Whether bindings agree on the names that a template mentions. -/
structure Agree (template : Template) (first second : Bindings) : Prop where
  values : ∀ ⦃name⦄, template.LooksUp name →
    first.values.find? name = second.values.find? name
  sequences : ∀ ⦃name⦄, template.RunsOver name →
    first.sequences.find? name = second.sequences.find? name

theorem Agree.bind {template : Template} {first second : Bindings}
    (h : template.Agree first second) (name : String) (value : Value) :
    template.Agree (first.bind name value) (second.bind name value) where
  values other hother := by
    rw [Bindings.bind, Bindings.bind, Table.find?_insert, Table.find?_insert, h.values hother]
  sequences := h.sequences

/-! ## Looking names up -/

/-- Whether a template can look this up: it depends on nothing but the names that the template
mentions, and it fails only because of what they stand for. -/
structure Consults (template : Template) {α : Type} (found : Bindings → Except Error α) :
    Prop where
  congr : ∀ ⦃first second⦄, template.Agree first second → found first = found second
  concernsValue : ∀ ⦃bindings e⦄, found bindings = .error e → e.concernsValue = true

section Consults

variable {template : Template} {reference : Reference}

theorem evaluate_of_agree {first second : Bindings} (h : template.Agree first second)
    (hname : template.LooksUp reference.name) (index : Nat) :
    template.evaluate first index reference = template.evaluate second index reference := by
  rw [evaluate, evaluate, h.values hname]

theorem consults_evaluate (h : .interpolation reference ∈ template.directives) (index : Nat) :
    template.Consults (template.evaluate · index reference) where
  congr _ _ hagree := evaluate_of_agree hagree ⟨reference, rfl, .inl h⟩ index
  concernsValue _ _ := concernsValue_of_evaluate

theorem consults_elements {item : String} (h : .loop item reference ∈ template.directives)
    (index : Nat) : template.Consults (template.elements · index reference) where
  congr first second hagree := by
    have hvalue : template.evaluate first index reference
        = template.evaluate second index reference :=
      evaluate_of_agree hagree ⟨reference, rfl, .inr (.inr ⟨item, h⟩)⟩ index
    obtain ⟨name, path⟩ := reference
    -- A bare name may be that of a sequence, which is looked up first.
    cases path with
    | nil =>
      have hsequence : first.sequences.find? name = second.sequences.find? name :=
        hagree.sequences ⟨item, h⟩
      simp only [elements, List.isEmpty_nil, if_true, hsequence, hvalue]
    | cons field path =>
      simp only [elements, List.isEmpty_cons, Bool.false_eq_true, if_false, hvalue]
  concernsValue _ _ := concernsValue_of_elements

theorem consults_flag (h : .conditional reference ∈ template.directives) (index : Nat) :
    template.Consults (template.flag · index reference) where
  congr first second hagree := by
    have hvalue : template.evaluate first index reference
        = template.evaluate second index reference :=
      evaluate_of_agree hagree ⟨reference, rfl, .inr (.inl h)⟩ index
    simp only [flag, hvalue]
  concernsValue _ _ := concernsValue_of_flag

end Consults

/-! ## What a rendering is put together from -/

/-- Whether a rendering may find that defect of a directive. An opener that it finds unmatched is the
outermost that is left open. -/
def MayReport (template : Template) (index : Nat) (defect : Defect) : Prop :=
  defect = .unmatchedOpenBlock → OutermostOpen template.directives index

theorem mayReport_of_ne {template : Template} {index : Nat} {defect : Defect}
    (h : defect ≠ .unmatchedOpenBlock) : template.MayReport index defect :=
  fun hunmatched => absurd hunmatched h

/-- A property that all actions have which the rendering of a template is put together from. -/
structure Render.ComposesFor (template : Template) (P : ∀ {α : Type}, Render α → Prop) : Prop
    extends Render.Sequences @P where
  malformed : ∀ {index : Nat} {defect : Defect}, template.MayReport index defect →
    P (throw (template.malformedAt index defect) : Render Unit)
  bindName : ∀ {name : String}, template.Binds name → ∀ value : Value, P (Render.bind name value)
  consult : ∀ {α β : Type} {found : Bindings → Except Error α} {next : α → Render β},
    template.Consults found → (∀ value, P (next value)) →
    P (do
      let value ← Render.ofExcept (found (← get).bindings)
      next value)

namespace Render.ComposesFor

variable {template : Template} {P : ∀ {α : Type}, Render α → Prop}

/-- **The rendering of any segments is put together in this way**, outside of all blocks or in a
body that ends. -/
theorem renderFrom (h : ComposesFor template P) (depth : Nat) {index stop : Nat}
    (hstanding : template.Standing index stop) : P (template.renderFrom depth index stop) := by
  -- On the segments that are left: bodies and what is behind a block start further on. A body is
  -- gone into only if its block has an end.
  induction hleft : template.segments.length - index using Nat.strongRecOn
    generalizing depth index stop with
  | ind left ih =>
  subst hleft
  by_cases hinside : index < stop
  · cases hsegment : template.segments[index]? with
    | none =>
      rw [renderFrom_behind depth stop hsegment]
      exact h.pure ()
    | some segment =>
      have hlength := (List.getElem?_eq_some_iff.mp hsegment).1
      have hdirective : template.directives[index]? = some segment.directive := by
        rw [directives, List.getElem?_map, hsegment]
        rfl
      have hmem : segment.directive ∈ template.directives := List.mem_of_getElem? hdirective
      have hlater {later : Nat} (hlater : index < later) (depth : Nat) {stop : Nat}
          (hstanding : template.Standing later stop) : P (template.renderFrom depth later stop) :=
        ih (template.segments.length - later) (by omega) depth hstanding rfl
      -- A body has its end, and is malformed only if it is nested too deep.
      have hbody {start close : Nat} {parts : Bool} (hstart : index < start)
          (hclose : template.closeFrom? start parts = some close) :
          P (template.renderBody depth index start close) := by
        unfold renderBody
        split
        · exact hlater hstart (depth + 1) (.inside hclose)
        · exact h.malformed (mayReport_of_ne (by decide))
      rw [renderFrom_at hsegment hinside]
      cases hshape : segment.directive with
      | interpolation reference =>
        rw [hshape] at hdirective hmem
        refine h.consult (consults_evaluate hmem index) fun value => ?_
        refine h.bind (h.writeValue value) fun _ => h.bind (h.write _) fun _ => ?_
        exact hlater (Nat.lt_succ_self index) depth (hstanding.next hdirective)
      | loop item source =>
        rw [hshape] at hdirective hmem
        refine h.consult (consults_elements hmem index) fun items => ?_
        cases hclose : template.closeFrom? (index + 1) false with
        | none => exact h.malformed fun _ => hstanding.outermostOpen hdirective rfl hclose
        | some close =>
          have := le_of_closeFrom? hclose
          refine h.bind (h.forM fun element => ?_) fun _ => h.bind (h.write _) fun _ => ?_
          · refine h.bind (h.write _) fun _ => h.bind (h.bindName ⟨source, hmem⟩ element) fun _ => ?_
            exact hbody (Nat.lt_succ_self index) hclose
          · exact hlater (show index < close + 1 by omega) depth
              (hstanding.behind hdirective rfl hclose)
      | conditional reference =>
        rw [hshape] at hdirective hmem
        refine h.consult (consults_flag hmem index) fun set => ?_
        cases hends : template.conditionalEnds? index with
        | none =>
          have hend := closeFrom?_of_conditionalEnds?_eq_none hends
          exact h.malformed fun _ => hstanding.outermostOpen hdirective rfl hend
        | some ends =>
          obtain ⟨middle, close⟩ := ends
          have := lt_of_conditionalEnds? hends
          obtain ⟨hmiddle, hclose⟩ := closeFrom?_of_conditionalEnds? hends
          have hbehind : P (do
              Render.write (template.literalAt close)
              template.renderFrom depth (close + 1) stop) :=
            h.bind (h.write _) fun _ => hlater (show index < close + 1 by omega) depth
              (hstanding.behind hdirective rfl hclose)
          cases set with
          | true =>
            refine h.bind (h.write _) fun _ => h.bind ?_ fun _ => hbehind
            exact hbody (Nat.lt_succ_self index) hmiddle
          | false =>
            by_cases hparted : middle < close
            · simp only [Bool.false_eq_true, if_false, if_pos hparted]
              refine h.bind (h.write _) fun _ => h.bind ?_ fun _ => hbehind
              exact hbody (show index < middle + 1 by omega) (closeFrom?_of_parted hends hparted).2
            · simp only [Bool.false_eq_true, if_false, if_neg hparted]
              exact hbehind
      | close => exact h.malformed (mayReport_of_ne (by decide))
      | alternative => exact h.malformed (mayReport_of_ne (by decide))
  · rw [renderFrom_outside template depth (by omega)]
    exact h.pure ()

/-- **The rendering of any template is put together in this way.** -/
theorem render (h : ComposesFor template P) : P template.render :=
  h.bind (h.write _) fun _ => h.renderFrom _ (.outside rfl)

end Render.ComposesFor

/-! ## How a rendering ends -/

/-- What an action comes to, apart from what it changes. -/
def Render.result {α : Type} : EStateM.Result Error Progress α → Except Error α
  | .ok value _ => .ok value
  | .error e _ => .error e

/-- What an action leaves, whether it fails or not. -/
def Render.final {α : Type} : EStateM.Result Error Progress α → Progress
  | .ok _ progress | .error _ progress => progress

/-- How the rendering of a template ends, and what the destination holds then. -/
def outcome (template : Template) (bindings : Bindings) (destination : Destination) :
    Except Error Unit × Destination :=
  let ended := template.render { bindings, destination }
  (Render.result ended, (Render.final ended).destination)

theorem renderText_eq (template : Template) (bindings : Bindings) :
    template.renderText bindings
      = (template.outcome bindings {}).1.map fun _ => (template.outcome bindings {}).2.text := by
  unfold renderText outcome
  rw [show template.render.run { bindings } = template.render { bindings } from rfl]
  cases template.render { bindings } with
  | ok value final => rfl
  | error e final => rfl

end Syllabus.Template
