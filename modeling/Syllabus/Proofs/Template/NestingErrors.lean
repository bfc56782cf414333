import Syllabus.Proofs.Template.BlockGrammar

/-!
# Syllabus: what the check of blocks reports

The check refuses a template at the first directive that rules every continuation out, or else at
the innermost block that is never closed.

* **`completable_iff`**: a beginning can be completed exactly when no step of it fails, since
  closing all open blocks completes it. A failing step is therefore the first impossible one.
* **`OpenIn.step`**, **`OpenIn.nest`**: at every moment the stack holds the blocks that are still
  open, innermost first. Whether a block is still open is said by counting alone.
* **`checkNesting_decides_grammar`**: the whole verdict.
-/

namespace Syllabus.Template

/-! ## The first impossible directive -/

/-- Whether more directives can make items of a beginning. -/
def Completable (directives : List Directive) : Prop :=
  ∃ rest, Items maxOpenBlocks (directives ++ rest)

/-- The directive with that index is the first after which nothing completes the directives. -/
structure FirstImpossible (directives : List Directive) (index : Nat) : Prop where
  inside : index < directives.length
  before : ∀ earlier ≤ index, Completable (directives.take earlier)
  impossible : ¬ Completable (directives.take (index + 1))

/-- **A beginning can be completed exactly when every step of it succeeds.** -/
theorem completable_iff (directives : List Directive) :
    Completable directives ↔ ∃ stack, nest [] 0 directives = .ok stack := by
  constructor
  · rintro ⟨rest, h⟩
    rw [← walkNesting_eq_ok_iff, walkNesting_append] at h
    cases hnest : nest [] 0 directives with
    | error failure => simp [hnest] at h
    | ok stack => exact ⟨stack, rfl⟩
  · rintro ⟨stack, h⟩
    refine ⟨List.replicate stack.length .close, ?_⟩
    rw [← walkNesting_eq_ok_iff, walkNesting_append, h]
    exact walkNesting_closes stack _

/-- Steps fail at one of the directives: the steps before it succeed, and its own does not. -/
theorem nest_eq_error {stack : List OpenBlock} {start index : Nat} {directives : List Directive}
    {defect : Defect} (h : nest stack start directives = .error (index, defect)) :
    ∃ earlier directive later reached, directives = earlier ++ directive :: later
      ∧ index = start + earlier.length ∧ nest stack start earlier = .ok reached
      ∧ stepNesting reached index directive = .error defect := by
  -- On the directives, until the step that fails.
  induction directives generalizing stack start with
  | nil => cases h
  | cons directive rest ih =>
    rw [nest] at h
    cases hstep : stepNesting stack start directive with
    | error found =>
      rw [hstep] at h
      cases h
      exact ⟨[], directive, rest, stack, rfl, rfl, rfl, hstep⟩
    | ok next =>
      rw [hstep] at h
      obtain ⟨earlier, found, later, reached, rfl, rfl, hearlier, hfound⟩ := ih h
      refine ⟨directive :: earlier, found, later, reached, rfl, ?_, ?_, hfound⟩
      · rw [List.length_cons]
        omega
      · rw [nest, hstep]
        exact hearlier

/-- The directive whose step fails is the first impossible one. -/
theorem firstImpossible_of_nest_eq_error {directives : List Directive} {index : Nat}
    {defect : Defect} (h : nest [] 0 directives = .error (index, defect)) :
    FirstImpossible directives index
      ∧ ∃ directive, directives[index]? = some directive ∧ defect = directive.misplacement := by
  obtain ⟨earlier, directive, later, reached, rfl, rfl, hearlier, hstep⟩ := nest_eq_error h
  rw [Nat.zero_add] at hstep ⊢
  have htake :
      (earlier ++ directive :: later).take (earlier.length + 1) = earlier ++ [directive] := by
    rw [List.take_length_add_append]
    rfl
  refine ⟨⟨by simp, fun index hindex => ?_, fun himpossible => ?_⟩, directive, by simp,
    eq_misplacement_of_stepNesting hstep⟩
  · -- A beginning of what is completable is completable.
    rw [List.take_append_of_le_length hindex]
    obtain ⟨rest, hrest⟩ := (completable_iff earlier).mpr ⟨reached, hearlier⟩
    exact ⟨earlier.drop index ++ rest, by rwa [← List.append_assoc, List.take_append_drop]⟩
  · rw [htake, completable_iff, nest_append, hearlier] at himpossible
    obtain ⟨stack, himpossible⟩ := himpossible
    simp [nest, hstep] at himpossible

/-- There is only one first impossible directive. -/
theorem FirstImpossible.unique {directives : List Directive} {first second : Nat}
    (hfirst : FirstImpossible directives first) (hsecond : FirstImpossible directives second) :
    first = second := by
  rcases Nat.lt_trichotomy first second with hlt | heq | hgt
  · exact absurd (hsecond.before _ hlt) hfirst.impossible
  · exact heq
  · exact absurd (hfirst.before _ hgt) hsecond.impossible

/-! ## The blocks that are still open -/

/-- How many of the directives open blocks. -/
def openings (directives : List Directive) : Nat := directives.countP Directive.opensBlock

/-- How many of the directives close blocks. -/
def closings (directives : List Directive) : Nat := directives.count .close

/-- The directive with that index opens a block, and nothing behind it closes that block: no part
from there on closes more blocks than it opens. -/
structure StillOpen (directives : List Directive) (index : Nat) : Prop where
  opens : ∃ directive, directives[index]? = some directive ∧ directive.opensBlock = true
  unclosed : ∀ part, part <+: directives.drop (index + 1) → closings part ≤ openings part

/-- The opener with that index is still open, and every other open block was opened before it. -/
structure InnermostOpen (directives : List Directive) (index : Nat) : Prop where
  still : StillOpen directives index
  innermost : ∀ other, StillOpen directives other → other ≤ index

/-- The openers hold exactly the blocks that are still open, innermost first. Behind the opener in a
place of the list, as many blocks more have been opened than closed. -/
structure OpenIn (directives : List Directive) (openers : List Nat) : Prop where
  still : ∀ place index : Nat, openers[place]? = some index → StillOpen directives index
  excess : ∀ place index : Nat, openers[place]? = some index →
    openings (directives.drop (index + 1)) = closings (directives.drop (index + 1)) + place
  complete : ∀ index, StillOpen directives index → index ∈ openers
  descending : openers.Pairwise (· > ·)

theorem StillOpen.lt_length {directives : List Directive} {index : Nat}
    (h : StillOpen directives index) : index < directives.length := by
  obtain ⟨directive, hfound, _⟩ := h.opens
  exact (List.getElem?_eq_some_iff.mp hfound).1

/-- One directive more keeps an earlier block open unless it is one closing too many. -/
theorem stillOpen_concat_iff {past : List Directive} {directive : Directive} {index : Nat}
    (hindex : index < past.length) :
    StillOpen (past ++ [directive]) index ↔ StillOpen past index
      ∧ closings (past.drop (index + 1) ++ [directive])
        ≤ openings (past.drop (index + 1) ++ [directive]) := by
  have hdrop : (past ++ [directive]).drop (index + 1) = past.drop (index + 1) ++ [directive] :=
    List.drop_append_of_le_length hindex
  have hget : (past ++ [directive])[index]? = past[index]? := List.getElem?_append_left hindex
  constructor
  · rintro ⟨hopens, hunclosed⟩
    rw [hget] at hopens
    rw [hdrop] at hunclosed
    exact ⟨⟨hopens, fun part hpart => hunclosed part (hpart.trans (List.prefix_append _ _))⟩,
      hunclosed _ (List.prefix_refl _)⟩
  · rintro ⟨⟨hopens, hunclosed⟩, hwhole⟩
    refine ⟨by rwa [hget], fun part hpart => ?_⟩
    rw [hdrop] at hpart
    -- A part behind the opener is the whole of it, or one of those from before.
    rcases List.prefix_concat_iff.mp hpart with rfl | hpart
    · exact hwhole
    · exact hunclosed part hpart

/-- The last directive is still open if it opens a block. -/
theorem stillOpen_concat_self_iff {past : List Directive} {directive : Directive} :
    StillOpen (past ++ [directive]) past.length ↔ directive.opensBlock = true := by
  constructor
  · rintro ⟨⟨found, hfound, hopens⟩, _⟩
    rw [List.getElem?_concat_length, Option.some.injEq] at hfound
    rwa [hfound]
  · intro hopens
    refine ⟨⟨directive, List.getElem?_concat_length, hopens⟩, fun part hpart => ?_⟩
    -- Nothing stands behind the last directive that could close it.
    have hnil : (past ++ [directive]).drop (past.length + 1) = [] := by simp
    rw [hnil, List.prefix_nil] at hpart
    rw [hpart]
    exact Nat.le_refl 0

/-- Which openers are listed after one directive more. -/
def nextOpeners (openers : List Nat) (index : Nat) (directive : Directive) : List Nat :=
  if directive.opensBlock then index :: openers
  else if directive = .close then openers.tail
  else openers

theorem openers_of_stepNesting {stack next : List OpenBlock} {index : Nat} {directive : Directive}
    (h : stepNesting stack index directive = .ok next) :
    next.map OpenBlock.opener = nextOpeners (stack.map OpenBlock.opener) index directive
      ∧ (directive = .close → stack ≠ []) := by
  -- Openers add a block, a closing takes one off, and an alternative changes the top in its place.
  by_cases hopens : directive.opensBlock = true
  · rw [stepNesting_opener hopens] at h
    split at h
    · cases h
    · cases h
      refine ⟨by simp [nextOpeners, hopens], ?_⟩
      rintro rfl
      cases hopens
  · cases directive with
    | loop item source => exact absurd rfl hopens
    | conditional flag => exact absurd rfl hopens
    | interpolation value =>
      cases h
      exact ⟨rfl, nofun⟩
    | close =>
      rcases stack with _ | ⟨block, outer⟩ <;> cases h
      exact ⟨rfl, nofun⟩
    | alternative =>
      rcases stack with _ | ⟨⟨opener, _ | _⟩, outer⟩ <;> cases h
      exact ⟨rfl, nofun⟩

/-- A directive that opens no block is not itself still open. -/
theorem StillOpen.lt_length_past {past : List Directive} {directive : Directive} {index : Nat}
    (h : StillOpen (past ++ [directive]) index) (hopens : directive.opensBlock = false) :
    index < past.length := by
  have hlt := h.lt_length
  rw [List.length_append, List.length_singleton] at hlt
  rcases Nat.lt_succ_iff_lt_or_eq.mp hlt with hlt | rfl
  · exact hlt
  · rw [stillOpen_concat_self_iff.mp h] at hopens
    cases hopens

namespace OpenIn

variable {past : List Directive} {openers : List Nat} {directive : Directive}

theorem lt_length (h : OpenIn past openers) {place index : Nat}
    (hplace : openers[place]? = some index) : index < past.length :=
  (h.still place index hplace).lt_length

theorem drop_concat (h : OpenIn past openers) {place index : Nat}
    (hplace : openers[place]? = some index) :
    (past ++ [directive]).drop (index + 1) = past.drop (index + 1) ++ [directive] :=
  List.drop_append_of_le_length (h.lt_length hplace)

/-- A block that is opened is the innermost. Behind every other opener one block more has been
opened. -/
theorem opened (h : OpenIn past openers) (hopens : directive.opensBlock = true) :
    OpenIn (past ++ [directive]) (past.length :: openers) := by
  have hopenings (part : List Directive) :
      openings (part ++ [directive]) = openings part + 1 := by
    simp [openings, hopens]
  have hclosings (part : List Directive) : closings (part ++ [directive]) = closings part := by
    -- An opener is no closing, so the closings are as many as before.
    have hne : directive ≠ .close := by
      rintro rfl
      cases hopens
    simp [closings, hne]
  refine ⟨fun place index hplace => ?_, fun place index hplace => ?_, fun index hstill => ?_, ?_⟩
  · cases place with
    | zero =>
      cases hplace
      exact stillOpen_concat_self_iff.mpr hopens
    | succ place =>
      have hexcess := h.excess place index hplace
      rw [stillOpen_concat_iff (h.lt_length hplace), hopenings, hclosings]
      exact ⟨h.still place index hplace, by omega⟩
  · cases place with
    | zero =>
      -- Nothing stands behind the new opener.
      cases hplace
      simp [openings, closings]
    | succ place =>
      rw [h.drop_concat hplace, hopenings, hclosings, h.excess place index hplace]
      omega
  · by_cases hindex : index < past.length
    · exact List.mem_cons_of_mem _ (h.complete index ((stillOpen_concat_iff hindex).mp hstill).1)
    · have hlt := hstill.lt_length
      rw [List.length_append, List.length_singleton] at hlt
      rw [show index = past.length from by omega]
      exact List.mem_cons_self
  · refine List.pairwise_cons.mpr ⟨fun index hindex => ?_, h.descending⟩
    obtain ⟨place, hplace⟩ := List.mem_iff_getElem?.mp hindex
    exact h.lt_length hplace

/-- The innermost block is closed. Behind every other opener one block more has been closed. -/
theorem closed {top : Nat} {outer : List Nat} (h : OpenIn past (top :: outer)) :
    OpenIn (past ++ [.close]) outer := by
  have hopenings (part : List Directive) : openings (part ++ [.close]) = openings part := by
    simp [openings, Directive.opensBlock]
  have hclosings (part : List Directive) : closings (part ++ [.close]) = closings part + 1 := by
    simp [closings]
  refine ⟨fun place index hplace => ?_, fun place index hplace => ?_, fun index hstill => ?_,
    h.descending.of_cons⟩
  · -- An outer block has room for one closing more: the blocks inside it count in its excess.
    have houter : (top :: outer)[place + 1]? = some index := hplace
    have hexcess := h.excess _ index houter
    rw [stillOpen_concat_iff (h.lt_length houter), hopenings, hclosings]
    exact ⟨h.still _ index houter, by omega⟩
  · have houter : (top :: outer)[place + 1]? = some index := hplace
    have hexcess := h.excess _ index houter
    rw [h.drop_concat houter, hopenings, hclosings]
    omega
  · have hindex := hstill.lt_length_past rfl
    obtain ⟨hstill, hcount⟩ := (stillOpen_concat_iff hindex).mp hstill
    rw [hopenings, hclosings] at hcount
    rcases List.mem_cons.mp (h.complete index hstill) with rfl | hmem
    · -- Behind the innermost opener all blocks were closed, and now it has one closing too many.
      have hexcess := h.excess 0 index rfl
      omega
    · exact hmem

/-- A directive that neither opens nor closes a block changes nothing. -/
theorem passed (h : OpenIn past openers) (hopens : directive.opensBlock = false)
    (hcloses : directive ≠ .close) : OpenIn (past ++ [directive]) openers := by
  have hopenings (part : List Directive) : openings (part ++ [directive]) = openings part := by
    simp [openings, hopens]
  have hclosings (part : List Directive) : closings (part ++ [directive]) = closings part := by
    simp [closings, hcloses]
  refine ⟨fun place index hplace => ?_, fun place index hplace => ?_, fun index hstill => ?_,
    h.descending⟩
  · have hexcess := h.excess place index hplace
    rw [stillOpen_concat_iff (h.lt_length hplace), hopenings, hclosings]
    exact ⟨h.still place index hplace, by omega⟩
  · rw [h.drop_concat hplace, hopenings, hclosings]
    exact h.excess place index hplace
  · exact h.complete index ((stillOpen_concat_iff (hstill.lt_length_past hopens)).mp hstill).1

/-- **One step keeps the openers right.** -/
theorem step (h : OpenIn past openers) (hclose : directive = .close → openers ≠ []) :
    OpenIn (past ++ [directive]) (nextOpeners openers past.length directive) := by
  -- One of the three cases above, by the kind of the directive.
  unfold nextOpeners
  by_cases hopens : directive.opensBlock = true
  · rw [if_pos hopens]
    exact h.opened hopens
  · rw [if_neg hopens]
    by_cases hcloses : directive = .close
    · obtain ⟨top, outer, rfl⟩ := List.exists_cons_of_ne_nil (hclose hcloses)
      rw [if_pos hcloses, hcloses]
      exact h.closed
    · rw [if_neg hcloses]
      exact h.passed (by simpa using hopens) hcloses

/-- **The steps keep the openers right**, by induction on the directives still to come. -/
theorem nest {rest : List Directive} {stack reached : List OpenBlock}
    (h : OpenIn past (stack.map OpenBlock.opener))
    (hnest : nest stack past.length rest = .ok reached) :
    OpenIn (past ++ rest) (reached.map OpenBlock.opener) := by
  induction rest generalizing past stack with
  | nil =>
    cases hnest
    rwa [List.append_nil]
  | cons directive rest ih =>
    rw [Template.nest] at hnest
    -- A step that fails ends the walk, which was said to succeed.
    cases hstep : stepNesting stack past.length directive with
    | error defect => simp [hstep] at hnest
    | ok next =>
      obtain ⟨hopeners, hclose⟩ := openers_of_stepNesting hstep
      have hnext := h.step fun hd : directive = .close => by simpa using hclose hd
      rw [← hopeners] at hnext
      rw [hstep] at hnest
      rw [List.append_cons]
      exact ih hnext (by simpa using hnest)

end OpenIn

/-- After steps from the start, the stack holds the blocks that are still open. -/
theorem openIn_of_nest {directives : List Directive} {stack : List OpenBlock}
    (h : nest [] 0 directives = .ok stack) :
    OpenIn directives (stack.map OpenBlock.opener) := by
  -- Before the first directive there is no block, and nothing has been opened.
  have hempty : OpenIn [] (([] : List OpenBlock).map OpenBlock.opener) :=
    ⟨nofun, nofun, fun index hstill => by simpa using hstill.lt_length, .nil⟩
  have hopen := hempty.nest h
  rwa [List.nil_append] at hopen

/-- After steps from the start, the block on top of the stack is the innermost open one. -/
theorem innermostOpen_of_nest {directives : List Directive} {block : OpenBlock}
    {outer : List OpenBlock} (h : nest [] 0 directives = .ok (block :: outer)) :
    InnermostOpen directives block.opener := by
  have hopen := openIn_of_nest h
  rw [List.map_cons] at hopen
  refine ⟨hopen.still 0 _ rfl, fun other hother => ?_⟩
  -- The openers stand in descending order, so that none comes behind the top one.
  rcases List.mem_cons.mp (hopen.complete other hother) with rfl | hmem
  · exact Nat.le_refl _
  · exact Nat.le_of_lt (List.rel_of_pairwise_cons hopen.descending hmem)

/-! ## What the check reports -/

/-- **The check accepts exactly the block grammar and blames the earliest impossible directive.** It
accepts items with at most `maxOpenBlocks` blocks open at once. Its error is at the first directive
after which nothing completes the template, if there is one, and says what kind of directive that
is; every error other than that of an unmatched opener is such an error. If all beginnings can be
completed and the whole is still no sequence of items, the error is at the innermost opener that is
open at the end. -/
theorem checkNesting_decides_grammar (template : Template) :
    (template.checkNesting = .ok () ↔ Items maxOpenBlocks template.directives)
      ∧ (∀ index, FirstImpossible template.directives index →
          ∃ directive, template.directives[index]? = some directive
            ∧ template.checkNesting
              = .error (template.malformedAt index directive.misplacement))
      ∧ (∀ location defect text, defect ≠ .unmatchedOpenBlock →
          template.checkNesting = .error (.malformed location defect text) →
          ∃ index, FirstImpossible template.directives index
            ∧ .malformed location defect text = template.malformedAt index defect)
      ∧ ((∀ part, part <+: template.directives → Completable part) →
          ¬ Items maxOpenBlocks template.directives →
          ∃ opener, InnermostOpen template.directives opener
            ∧ template.checkNesting
              = .error (template.malformedAt opener .unmatchedOpenBlock)) := by
  have hgrammar := walkNesting_eq_ok_iff template.directives
  refine ⟨?_, fun index hfirst => ?_, fun location defect text hdefect herror => ?_,
    fun hcompletable hitems => ?_⟩
  · -- What the check makes of a walk succeeds exactly when the walk does.
    rw [← hgrammar, checkNesting]
    cases walkNesting [] 0 template.directives <;> simp
  · -- The steps fail, or else the whole template could be completed.
    cases hnest : nest [] 0 template.directives with
    | ok stack =>
      obtain ⟨rest, hrest⟩ := (completable_iff _).mpr ⟨stack, hnest⟩
      refine absurd ⟨template.directives.drop (index + 1) ++ rest, ?_⟩ hfirst.impossible
      rwa [← List.append_assoc, List.take_append_drop]
    | error failure =>
      obtain ⟨found, defect⟩ := failure
      obtain ⟨hfound, directive, hdirective, rfl⟩ := firstImpossible_of_nest_eq_error hnest
      obtain rfl := hfirst.unique hfound
      refine ⟨directive, hdirective, ?_⟩
      rw [checkNesting, walkNesting_eq, hnest]
  · cases hnest : nest [] 0 template.directives with
    | ok stack =>
      rw [checkNesting, walkNesting_eq, hnest] at herror
      cases stack with
      | nil => cases herror
      | cons block outer =>
        cases herror
        exact absurd rfl hdefect
    | error failure =>
      obtain ⟨found, kind⟩ := failure
      rw [checkNesting, walkNesting_eq, hnest] at herror
      cases herror
      exact ⟨found, (firstImpossible_of_nest_eq_error hnest).1, rfl⟩
  · -- All steps succeed. With no block left open the template would consist of items.
    obtain ⟨stack, hnest⟩ := (completable_iff _).mp (hcompletable _ (List.prefix_refl _))
    have hwalk := walkNesting_eq [] 0 template.directives
    rw [hnest] at hwalk
    cases stack with
    | nil => exact absurd (hgrammar.mp hwalk) hitems
    | cons block outer =>
      refine ⟨block.opener, innermostOpen_of_nest hnest, ?_⟩
      rw [checkNesting, hwalk]
      rfl

end Syllabus.Template
