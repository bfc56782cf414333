import Syllabus.Proofs.Template.AnyRendering

/-!
# Syllabus: which unclosed block is blamed

The check of blocks walks over the whole template before it blames a block that is never closed, and
then it is the innermost of them. A rendering looks for the end of a block when it comes to the
opener, and comes to the outermost of them first. Both may blame a block of the same template, and
it is the same block only if there is no other.

* **`composesFor_blamesOutermost`**: every action of a rendering blames the outermost block that is
  left open, if it blames one as unclosed.
* **`innermostOpen_of_checkNesting`**: the check blames the innermost.
* **`unclosed_of_outcome`**: the two errors side by side.
-/

namespace Syllabus.Template

variable {template : Template} {first second : Nat} {defect : Defect}

/-- Errors at two directives tell them apart by their numbers. -/
theorem malformedAt_inj :
    template.malformedAt first defect = template.malformedAt second defect ↔ first = second := by
  constructor
  · intro h
    have hlocation : template.location first = template.location second := (Error.malformed.inj h).1
    exact Nat.succ.inj (congrArg Location.directive hlocation)
  · rintro rfl
    rfl

/-! ## The two blames -/

/-- Whether an error, if it blames a block as unclosed, blames the outermost that is left open. -/
def BlamesOutermost (template : Template) (e : Error) : Prop :=
  ∀ ⦃location text⦄, e = .malformed location .unmatchedOpenBlock text →
    ∃ opener, OutermostOpen template.directives opener
      ∧ e = template.malformedAt opener .unmatchedOpenBlock

/-- **Every action of a rendering blames no unclosed block but the outermost.** -/
theorem composesFor_blamesOutermost (template : Template) :
    Render.ComposesFor template (Action.Raises template.BlamesOutermost) where
  toSequences := Render.sequences_raises nofun
  malformed {index defect} hreport := by
    intro progress e final h location text he
    cases h
    obtain rfl : defect = .unmatchedOpenBlock := (Error.malformed.inj he).2.1
    exact ⟨index, hreport rfl, rfl⟩
  bindName _ value := by
    intro progress e final h
    cases h
  consult {α β found next} hfound hnext := by
    intro progress e final h
    cases hvalue : found progress.bindings with
    | ok value =>
      rw [Render.consult_ok hvalue] at h
      exact hnext value h
    | error e' =>
      rw [Render.consult_error hvalue] at h
      cases h
      -- Nothing that is looked up is a block.
      rintro location text rfl
      cases hfound.concernsValue hvalue

/-- A rendering that blames an unclosed block blames the outermost. -/
theorem outermostOpen_of_outcome {bindings : Bindings} {destination : Destination} {e : Error}
    {location : Location} {text : String} (h : (template.outcome bindings destination).1 = .error e)
    (he : e = .malformed location .unmatchedOpenBlock text) :
    ∃ opener, OutermostOpen template.directives opener
      ∧ e = template.malformedAt opener .unmatchedOpenBlock := by
  unfold outcome at h
  cases hended : template.render { bindings, destination } with
  | ok value final =>
    rw [hended] at h
    cases h
  | error found final =>
    rw [hended] at h
    cases h
    exact (composesFor_blamesOutermost template).render hended he

/-- The check blames the innermost unclosed block, if it blames one. -/
theorem innermostOpen_of_checkNesting {e : Error} {location : Location} {text : String}
    (h : template.checkNesting = .error e)
    (he : e = .malformed location .unmatchedOpenBlock text) :
    ∃ opener, InnermostOpen template.directives opener
      ∧ e = template.malformedAt opener .unmatchedOpenBlock := by
  rw [checkNesting] at h
  cases hnest : nest [] 0 template.directives with
  | ok stack =>
    rw [walkNesting_eq, hnest] at h
    cases stack with
    | nil => cases h
    | cons block outer =>
      cases h
      exact ⟨block.opener, innermostOpen_of_nest hnest, rfl⟩
  | error failure =>
    -- A step that fails is at a directive out of place, and no such directive opens a block.
    obtain ⟨index, defect⟩ := failure
    rw [walkNesting_eq, hnest] at h
    cases h
    obtain ⟨_, directive, _, rfl⟩ := firstImpossible_of_nest_eq_error hnest
    obtain hmisplacement := (Error.malformed.inj he).2.1
    cases directive <;> cases hmisplacement

/-! ## Whether they are the same -/

/-- The outermost and the innermost open block are one exactly if no other is open. -/
theorem OutermostOpen.eq_iff {directives : List Directive} {outermost innermost : Nat}
    (houter : OutermostOpen directives outermost) (hinner : InnermostOpen directives innermost) :
    outermost = innermost ↔ ∃! index, StillOpen directives index := by
  constructor
  · rintro rfl
    exact ⟨outermost, houter.still, fun other hother =>
      Nat.le_antisymm (hinner.innermost other hother) (houter.outermost other hother)⟩
  · rintro ⟨index, _, hunique⟩
    rw [hunique outermost houter.still, hunique innermost hinner.still]

/-- **A rendering blames the outermost unclosed block, the check the innermost.** If both blame a
block of a template as unclosed, under whatever bindings and whatever the rendering writes to, the
rendering blames the outermost that is left open at the end of the template and the check the
innermost. Their errors are the same exactly if just one block is left open. -/
theorem unclosed_of_outcome {bindings : Bindings} {destination : Destination}
    {location location' : Location} {text text' : String}
    (hchecked : template.checkNesting = .error (.malformed location .unmatchedOpenBlock text))
    (hrendered : (template.outcome bindings destination).1
      = .error (.malformed location' .unmatchedOpenBlock text')) :
    ∃ outermost innermost,
      OutermostOpen template.directives outermost
      ∧ InnermostOpen template.directives innermost
      ∧ .malformed location' .unmatchedOpenBlock text'
        = template.malformedAt outermost .unmatchedOpenBlock
      ∧ .malformed location .unmatchedOpenBlock text
        = template.malformedAt innermost .unmatchedOpenBlock
      ∧ (template.checkNesting = (template.outcome bindings destination).1
        ↔ ∃! index, StillOpen template.directives index) := by
  obtain ⟨outermost, houter, houtererror⟩ := outermostOpen_of_outcome hrendered rfl
  obtain ⟨innermost, hinner, hinnererror⟩ := innermostOpen_of_checkNesting hchecked rfl
  refine ⟨outermost, innermost, houter, hinner, houtererror, hinnererror, ?_⟩
  rw [hchecked, hrendered, hinnererror, houtererror, Except.error.injEq, malformedAt_inj,
    eq_comm, houter.eq_iff hinner]

/-- A conditional that is parted and never closed, behind a loop that is:
`<%foreach (var x in xs) {%>[<%}%>` and, on the next line, `<%if (u.ok) {%>yes<%} else {%>no`. -/
def closedAndUnclosed : Template where
  name := "page"
  leading := ""
  segments :=
    [⟨.loop "x" ⟨"xs", []⟩, "foreach (var x in xs) \x7b", "[", 1⟩,
      ⟨.close, "\x7d", "\n", 1⟩,
      ⟨.conditional ⟨"u", ["ok"]⟩, "if (u.ok) \x7b", "yes", 2⟩,
      ⟨.alternative, "\x7d else \x7b", "no", 2⟩]

/-- A flag that is not set, and a sequence. -/
def flagUnset : Bindings where
  values := [("u", .record "object" [("ok", .bool false)] none)]
  sequences := [("xs", [.null])]

theorem unclosed_closedAndUnclosed :
    closedAndUnclosed.checkNesting
        = .error (.malformed ⟨"page", 2, 3⟩ .unmatchedOpenBlock "if (u.ok) \x7b")
      ∧ (closedAndUnclosed.outcome flagUnset {}).1
        = .error (.malformed ⟨"page", 2, 3⟩ .unmatchedOpenBlock "if (u.ok) \x7b")
      ∧ ∃! index, StillOpen closedAndUnclosed.directives index := by
  have hchecked : closedAndUnclosed.checkNesting
      = .error (.malformed ⟨"page", 2, 3⟩ .unmatchedOpenBlock "if (u.ok) \x7b") := by
    decide +kernel
  have hrendered : (closedAndUnclosed.outcome flagUnset {}).1
      = .error (.malformed ⟨"page", 2, 3⟩ .unmatchedOpenBlock "if (u.ok) \x7b") := by
    decide +kernel
  obtain ⟨_, _, _, _, _, _, hsame⟩ := unclosed_of_outcome hchecked hrendered
  exact ⟨hchecked, hrendered, hsame.mp (hchecked.trans hrendered.symm)⟩

/-- A conditional in a loop, both never closed: `<%foreach (var a in b) {%><%if (a.c) {%>`. -/
def unclosedInUnclosed : Template where
  name := "page"
  leading := ""
  segments :=
    [⟨.loop "a" ⟨"b", []⟩, "foreach (var a in b) \x7b", "", 1⟩,
      ⟨.conditional ⟨"a", ["c"]⟩, "if (a.c) \x7b", "", 1⟩]

theorem blames_differ :
    unclosedInUnclosed.checkNesting
        = .error (.malformed ⟨"page", 1, 2⟩ .unmatchedOpenBlock "if (a.c) \x7b")
      ∧ (unclosedInUnclosed.outcome { sequences := [("b", [])] } {}).1
        = .error (.malformed ⟨"page", 1, 1⟩ .unmatchedOpenBlock "foreach (var a in b) \x7b")
      ∧ unclosedInUnclosed.checkNesting
        ≠ (unclosedInUnclosed.outcome { sequences := [("b", [])] } {}).1 := by
  decide +kernel

end Syllabus.Template
