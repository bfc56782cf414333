import Syllabus.Proofs.Template.AnyRendering

/-!
# Syllabus: the names a rendering depends on

There is one table of values for the whole of a rendering: a loop binds its item there, in place of
what the name stood for, and nothing is put back behind the loop. Still a rendering looks at no name
that its template does not mention, and touches none but the items of its loops.

* **`composesFor_blind`**: two renderings side by side stay alike, action by action.
* **`composesFor_bindsOnly`**: an action binds nothing but items of loops.
* **`outcome_of_agree`**: both for whole templates, nested well or not.
-/

namespace Syllabus.Template

/-! ## Two renderings side by side -/

/-- Whether two renderings have come to destinations that are the same, and to bindings that the
template cannot tell apart. -/
structure SideBySide (template : Template) (first second : Progress) : Prop where
  agree : template.Agree first.bindings second.bindings
  destination : first.destination = second.destination

/-- Whether an action comes to the same in two renderings side by side, which stay so. -/
def Blind (template : Template) {α : Type} (action : Render α) : Prop :=
  ∀ ⦃first second⦄, template.SideBySide first second →
    Render.result (action first) = Render.result (action second)
      ∧ template.SideBySide (Render.final (action first)) (Render.final (action second))

theorem composesFor_blind (template : Template) :
    Render.ComposesFor template (Blind template) where
  pure _ := fun _ _ h => ⟨rfl, h⟩
  bind {α β action next} haction hnext := by
    intro first second h
    obtain ⟨hresult, hfinal⟩ := haction h
    -- Both actions succeed, with the same value, or both fail, with the same error.
    cases hfirst : action first with
    | ok value between =>
      cases hsecond : action second with
      | ok other between' =>
        rw [hfirst, hsecond] at hresult hfinal
        cases hresult
        rw [Action.bind_ok hfirst, Action.bind_ok hsecond]
        exact hnext value hfinal
      | error e between' =>
        rw [hfirst, hsecond] at hresult
        cases hresult
    | error e between =>
      cases hsecond : action second with
      | ok other between' =>
        rw [hfirst, hsecond] at hresult
        cases hresult
      | error e' between' =>
        rw [hfirst, hsecond] at hresult hfinal
        cases hresult
        rw [Action.bind_error hfirst, Action.bind_error hsecond]
        exact ⟨rfl, hfinal⟩
  write s := by
    intro first second h
    unfold Render.write
    rw [h.destination]
    split
    · exact ⟨rfl, h.agree, rfl⟩
    · exact ⟨rfl, h⟩
  malformed _ := fun _ _ h => ⟨rfl, h⟩
  bindName _ value := fun _ _ h => ⟨rfl, h.agree.bind _ value, h.destination⟩
  consult {α β found next} hfound hnext := by
    intro first second h
    -- Looking up a mentioned name finds the same in both.
    have hsame := hfound.congr h.agree
    cases hsecond : found second.bindings with
    | ok value =>
      rw [Render.consult_ok (hsame.trans hsecond), Render.consult_ok hsecond]
      exact hnext value h
    | error e =>
      rw [Render.consult_error (hsame.trans hsecond), Render.consult_error hsecond]
      exact ⟨rfl, h⟩

/-! ## What a rendering binds -/

/-- Whether bindings are those from which a template was rendered, apart from the items of its
loops. -/
structure BindsOnly (template : Template) (given left : Bindings) : Prop where
  sequences : left.sequences = given.sequences
  values : ∀ ⦃name⦄, ¬ template.Binds name → left.values.find? name = given.values.find? name

namespace BindsOnly

variable {template : Template} {given between left : Bindings}

theorem refl (template : Template) (given : Bindings) : template.BindsOnly given given :=
  ⟨rfl, fun _ _ => rfl⟩

theorem trans (hfirst : template.BindsOnly given between)
    (hsecond : template.BindsOnly between left) : template.BindsOnly given left where
  sequences := hsecond.sequences.trans hfirst.sequences
  values _ hname := (hsecond.values hname).trans (hfirst.values hname)

theorem bind {name : String} (hname : template.Binds name) (given : Bindings) (value : Value) :
    template.BindsOnly given (given.bind name value) where
  sequences := rfl
  values other hother := by
    rw [Bindings.bind, Table.find?_insert, if_neg]
    rintro rfl
    exact hother hname

end BindsOnly

theorem composesFor_bindsOnly (template : Template) :
    Render.ComposesFor template fun action => ∀ progress : Progress,
      template.BindsOnly progress.bindings (Render.final (action progress)).bindings where
  pure _ := fun _ => .refl template _
  bind {α β action next} haction hnext := by
    intro progress
    have hfirst := haction progress
    -- Up to an error the bindings are those of the first action.
    cases hended : action progress with
    | ok value between =>
      rw [hended] at hfirst
      rw [Action.bind_ok hended]
      exact hfirst.trans (hnext value between)
    | error e final =>
      rw [hended] at hfirst
      rw [Action.bind_error hended]
      exact hfirst
  write s := by
    intro progress
    unfold Render.write
    split <;> exact .refl template _
  malformed _ := fun _ => .refl template _
  bindName hname value := fun progress => .bind hname progress.bindings value
  consult {α β found next} _ hnext := by
    intro progress
    cases hfound : found progress.bindings with
    | ok value =>
      rw [Render.consult_ok hfound]
      exact hnext value progress
    | error e =>
      rw [Render.consult_error hfound]
      exact .refl template _

/-! ## Whole templates -/

/-- What is bound when the rendering of a template stops. -/
def bindingsLeft (template : Template) (bindings : Bindings) (destination : Destination) :
    Bindings :=
  (Render.final (template.render { bindings, destination })).bindings

/-- **A rendering depends on what its template mentions.** Bindings that agree on the variables of
the interpolations and conditionals and on the sources of the loops come to the same text or error,
and in any destination to the same end with the same text before it. And from any bindings, however
a rendering ends, it leaves the sequences as they are and changes no value but those of items of
loops. -/
theorem outcome_of_agree (template : Template) :
    (∀ first second : Bindings, template.Agree first second →
      template.renderText first = template.renderText second
        ∧ ∀ destination, template.outcome first destination = template.outcome second destination)
      ∧ ∀ bindings destination,
        template.BindsOnly bindings (template.bindingsLeft bindings destination) := by
  refine ⟨fun first second hagree => ?_, fun bindings destination => ?_⟩
  · have houtcome (destination : Destination) :
        template.outcome first destination = template.outcome second destination := by
      obtain ⟨hresult, hfinal⟩ := (composesFor_blind template).render
        (⟨hagree, rfl⟩ : template.SideBySide ⟨first, destination⟩ ⟨second, destination⟩)
      exact Prod.ext hresult hfinal.destination
    exact ⟨by rw [renderText_eq, renderText_eq, houtcome], houtcome⟩
  · exact (composesFor_bindsOnly template).render ⟨bindings, destination⟩

/-- A loop whose item is written again behind it, and then a directive that is out of place:
`<%foreach (var x in xs) {%>[<%#x%>]<%}%><%#x%><%} else {%>`. -/
def loopAndStray : Template where
  name := "page"
  leading := ""
  segments :=
    [⟨.loop "x" ⟨"xs", []⟩, "foreach (var x in xs) \x7b", "[", 1⟩,
      ⟨.interpolation ⟨"x", []⟩, "#x", "]", 1⟩,
      ⟨.close, "\x7d", "", 1⟩,
      ⟨.interpolation ⟨"x", []⟩, "#x", "", 1⟩,
      ⟨.alternative, "\x7d else \x7b", "", 1⟩]

/-- The same sequence with another value beside it, which the template does not mention. -/
def sequenceBeside (value : Value) : Bindings where
  values := [("y", value)]
  sequences := [("xs", [.int 1, .int 2])]

theorem outcome_loopAndStray :
    loopAndStray.Agree (sequenceBeside .null) (sequenceBeside (.bool true))
      ∧ loopAndStray.renderText (sequenceBeside .null)
        = loopAndStray.renderText (sequenceBeside (.bool true))
      ∧ (∀ destination, loopAndStray.outcome (sequenceBeside .null) destination
        = loopAndStray.outcome (sequenceBeside (.bool true)) destination)
      ∧ ¬ loopAndStray.Binds "y"
      ∧ (loopAndStray.bindingsLeft (sequenceBeside .null) {}).values.find? "y" = some .null := by
  have hagree : loopAndStray.Agree (sequenceBeside .null) (sequenceBeside (.bool true)) := by
    refine ⟨?_, fun _ _ => rfl⟩
    rintro name ⟨reference, rfl, hmentioned⟩
    have hname : "y" ≠ reference.name := by
      rintro hname
      obtain ⟨name, path⟩ := reference
      subst hname
      simp [loopAndStray, directives] at hmentioned
    simp [sequenceBeside, Table.find?, hname]
  have hbinds : ¬ loopAndStray.Binds "y" := by
    rintro ⟨source, hmem⟩
    simp [loopAndStray, directives] at hmem
  obtain ⟨hsame, hleft⟩ := outcome_of_agree loopAndStray
  obtain ⟨htext, houtcome⟩ := hsame _ _ hagree
  exact ⟨hagree, htext, houtcome, hbinds, (hleft (sequenceBeside .null) {}).values hbinds⟩

/-- The item stays bound behind the loop, and the text before the error stays. -/
example : loopAndStray.outcome (sequenceBeside .null) {}
    = (.error (loopAndStray.malformedAt 4 .unexpectedAlternative), { text := "[1][2]2" }) := by
  decide +kernel

end Syllabus.Template
