import Syllabus.Proofs.Template.LeastEnds

/-!
# Syllabus: the matching end

The search for the end of a block counts, and the check of blocks keeps a stack. In a template that
the check accepts, both give every opener the same end. The two meet in the directives between the
opener and the end: behind those that close what they open, the block is on top of the stack again.

* **`nest_of_leadsOut`**: directives that close what they open leave the stack as it was, but for
  whether the block on top of it still takes an alternative.
* **`innermost_iff`**: a block is on top of the stack exactly behind such directives.
* **`closedAt_iff_closeFrom?`**, **`closeFrom?_of_partedAt`**: the end that is counted is where the
  check closes the block, and the end of its first part is where the check parts it.
* **`blockEnd_decides_matching`**: what the search returns.
-/

namespace Syllabus.Template

variable {parts : Bool} {directive : Directive} {directives : List Directive}
  {template : Template} {opener start index other : Nat}

/-! ## The stack of the check -/

/-- **What closes what it opens leaves the stack as it was.** Directives that lead out of the blocks
inside of a block bring the check back to it. It takes an alternative then only if it did before. -/
theorem nest_of_leadsOut (inner : List OpenBlock) (block : OpenBlock) {outer stack : List OpenBlock}
    (h : LeadsOut inner.length directives)
    (hnest : nest (inner ++ block :: outer) index directives = .ok stack) :
    ∃ takes, stack = ⟨block.opener, takes⟩ :: outer
      ∧ (takes = true → block.takesAlternative = true) := by
  -- On the directives, with the blocks that are open inside the block.
  induction directives generalizing inner block index with
  | nil =>
    rw [List.length_eq_zero_iff.mp h.depth_of_nil] at hnest
    cases hnest
    exact ⟨block.takesAlternative, rfl, id⟩
  | cons directive rest ih =>
    rw [nest] at hnest
    cases directive with
    | interpolation value => exact ih inner block ((leadsOut_cons_iff rfl).mp h) hnest
    | loop item source | conditional flag =>
      rw [stepNesting_opener rfl] at hnest
      by_cases hfull : (inner ++ block :: outer).length = maxOpenBlocks
      · rw [if_pos hfull] at hnest
        cases hnest
      · rw [if_neg hfull] at hnest
        exact ih (⟨index, _⟩ :: inner) block ((leadsOut_cons_iff rfl).mp h) hnest
    | close =>
      cases inner with
      | nil => exact absurd h not_leadsOut_close
      | cons innermost inner => exact ih inner block ((leadsOut_cons_iff rfl).mp h) hnest
    | alternative =>
      have hrest := (leadsOut_cons_iff rfl).mp h
      rcases inner with _ | ⟨⟨opener, _ | _⟩, inner⟩
      · -- The block itself is parted, and from then on takes no alternative.
        rcases block with ⟨opener, _ | _⟩
        · cases hnest
        · obtain ⟨takes, hstack, _⟩ := ih [] ⟨opener, false⟩ hrest hnest
          exact ⟨takes, hstack, fun _ => rfl⟩
      · cases hnest
      · exact ih (⟨opener, false⟩ :: inner) block hrest hnest

/-! ## The stack at an index -/

section Stack

variable {stack : List OpenBlock}

theorem take_append_between (hle : start ≤ index) :
    template.directives.take start ++ template.between start index
      = template.directives.take index := by
  have htake : (template.directives.take index).take start = template.directives.take start := by
    rw [List.take_take, Nat.min_eq_left hle]
  rw [between, ← htake, List.take_append_drop]

/-- A way over a directive: the way to it, the directive and the way behind it. -/
theorem between_eq_append (hdirective : template.directives[index]? = some directive)
    (hstart : start ≤ index) (hother : index < other) :
    template.between start other
      = template.between start index ++ directive :: template.between (index + 1) other := by
  have hfound : (template.directives.take other)[index]? = some directive := by
    rw [List.getElem?_take_of_lt hother, hdirective]
  obtain ⟨hlength, hget⟩ := List.getElem?_eq_some_iff.mp hfound
  have hfirst : template.between index other = directive :: template.between (index + 1) other := by
    rw [between, List.drop_eq_getElem_cons hlength, hget]
    rfl
  have hindex := (List.getElem?_eq_some_iff.mp hdirective).1
  rw [between, ← take_append_between (Nat.le_of_lt hother), hfirst, List.drop_append_of_le_length]
  · rfl
  · rw [List.length_take]
    omega

/-- The steps up to an index go through the stack at every earlier one. -/
theorem exists_nest_between (hstart : start ≤ template.directives.length) (hle : start ≤ index)
    (h : nest [] 0 (template.directives.take index) = .ok stack) :
    ∃ reached, nest [] 0 (template.directives.take start) = .ok reached
      ∧ nest reached start (template.between start index) = .ok stack := by
  rw [← take_append_between hle] at h
  obtain ⟨reached, hreached, hsteps⟩ := exists_nest_of_append h
  rw [Nat.zero_add, List.length_take, Nat.min_eq_left hstart] at hsteps
  exact ⟨reached, hreached, hsteps⟩

theorem nest_take_add_one (h : nest [] 0 (template.directives.take index) = .ok stack)
    (hdirective : template.directives[index]? = some directive) :
    nest [] 0 (template.directives.take (index + 1)) = nest stack index [directive] := by
  have hindex := (List.getElem?_eq_some_iff.mp hdirective).1
  rw [List.take_add_one, hdirective, Option.toList_some, nest_append, h, Nat.zero_add,
    List.length_take, Nat.min_eq_left (Nat.le_of_lt hindex)]

/-- Behind an opener its block is on top of the stack. -/
theorem exists_of_nest_opener (hdirective : template.directives[opener]? = some directive)
    (hopens : directive.opensBlock = true)
    (h : nest [] 0 (template.directives.take (opener + 1)) = .ok stack) :
    ∃ outer, stack = ⟨opener, directive.takesAlternative⟩ :: outer := by
  have hopener := (List.getElem?_eq_some_iff.mp hdirective).1
  obtain ⟨outer, houter, _⟩ :=
    exists_nest_between (Nat.le_of_lt hopener) (Nat.le_succ opener) h
  rw [nest_take_add_one houter hdirective, nest, stepNesting_opener hopens] at h
  by_cases hfull : outer.length = maxOpenBlocks
  · rw [if_pos hfull] at h
    cases h
  · rw [if_neg hfull] at h
    cases h
    exact ⟨outer, rfl⟩

/-- **A block is on top of the stack** exactly where the directives behind its opener have closed
what they opened. -/
theorem innermost_iff (hdirective : template.directives[opener]? = some directive)
    (hopens : directive.opensBlock = true)
    (h : nest [] 0 (template.directives.take index) = .ok stack) :
    (∃ takes outer, stack = ⟨opener, takes⟩ :: outer)
      ↔ opener < index ∧ LeadsOut 0 (template.between (opener + 1) index) := by
  constructor
  · rintro ⟨takes, outer, rfl⟩
    have hopen := openIn_of_nest h
    have hlength := (hopen.still 0 opener rfl).lt_length
    rw [List.length_take] at hlength
    exact ⟨by omega, (hopen.excess 0 opener rfl).symm, (hopen.still 0 opener rfl).unclosed⟩
  · rintro ⟨hbehind, heven⟩
    have hopener := (List.getElem?_eq_some_iff.mp hdirective).1
    -- The walk passes the opener, and what lies behind closes all that it opens.
    obtain ⟨reached, hreached, hsteps⟩ := exists_nest_between hopener hbehind h
    obtain ⟨outer, rfl⟩ := exists_of_nest_opener hdirective hopens hreached
    obtain ⟨takes, hstack, _⟩ := nest_of_leadsOut [] _ heven hsteps
    exact ⟨takes, outer, hstack⟩

/-! ## Where the check closes and parts a block -/

/-- The check comes to a closing directive with the block of that opener on top of its stack, and so
takes that block off. -/
structure ClosedAt (template : Template) (opener index : Nat) : Prop where
  closes : template.directives[index]? = some .close
  innermost : ∃ takes outer,
    nest [] 0 (template.directives.take index) = .ok (⟨opener, takes⟩ :: outer)

/-- The check comes to an alternative with the block of that opener on top of its stack, a block that
still takes one. -/
structure PartedAt (template : Template) (opener index : Nat) : Prop where
  parts : template.directives[index]? = some .alternative
  innermost : ∃ outer,
    nest [] 0 (template.directives.take index) = .ok (⟨opener, true⟩ :: outer)

end Stack

/-- Where a template is well nested, no step of the check fails, and no block is left open. -/
theorem nest_of_checkNesting (h : template.checkNesting = .ok ()) :
    nest [] 0 template.directives = .ok [] := by
  rw [checkNesting] at h
  cases hnest : nest [] 0 template.directives with
  | error failure =>
    rw [walkNesting_eq, hnest] at h
    cases h
  | ok stack =>
    rw [walkNesting_eq, hnest] at h
    cases stack with
    | nil => rfl
    | cons block outer => cases h

theorem exists_nest_take (h : template.checkNesting = .ok ()) (index : Nat) :
    ∃ stack, nest [] 0 (template.directives.take index) = .ok stack := by
  have hnest := nest_of_checkNesting h
  rw [← List.take_append_drop index template.directives] at hnest
  obtain ⟨stack, hstack, _⟩ := exists_nest_of_append hnest
  exact ⟨stack, hstack⟩

/-- No end lies behind a closing directive that is one. -/
theorem EndsAt.le_of_close (h : template.EndsAt start parts index)
    (hclose : template.directives[index]? = some .close)
    (hother : LeadsOut 0 (template.between start other)) : other ≤ index := by
  refine Nat.le_of_not_lt fun hlt => ?_
  rw [between_eq_append hclose h.behind hlt] at hother
  exact not_leadsOut_close (hother.of_append h.even)

section Opener

variable (hdirective : template.directives[opener]? = some directive)
  (hopens : directive.opensBlock = true)

include hdirective hopens

theorem ClosedAt.endsAt (h : template.ClosedAt opener index) (parts : Bool) :
    template.EndsAt (opener + 1) parts index := by
  obtain ⟨hclose, takes, outer, hstack⟩ := h
  obtain ⟨hbehind, heven⟩ := (innermost_iff hdirective hopens hstack).mp ⟨takes, outer, rfl⟩
  exact ⟨hbehind, heven, .inl hclose⟩

theorem PartedAt.endsAt (h : template.PartedAt opener index) :
    template.EndsAt (opener + 1) true index := by
  obtain ⟨halternative, outer, hstack⟩ := h
  obtain ⟨hbehind, heven⟩ := (innermost_iff hdirective hopens hstack).mp ⟨true, outer, rfl⟩
  exact ⟨hbehind, heven, .inr ⟨rfl, halternative⟩⟩

/-- **A block is parted at most once.** Behind its alternative it takes no other, and when the check
comes back to it, it still takes none. -/
theorem PartedAt.not_lt (h : template.PartedAt opener index)
    (hother : template.PartedAt opener other) : ¬ index < other := by
  intro hlt
  have hparts := h.endsAt hdirective hopens
  -- What lies between the two alternatives closes what it opens.
  have heven : LeadsOut 0 (template.between (index + 1) other) := by
    have hway := (hother.endsAt hdirective hopens).even
    rw [between_eq_append h.parts hparts.behind hlt] at hway
    exact (leadsOut_cons_iff rfl).mp (hway.of_append hparts.even)
  obtain ⟨outer, hstack⟩ := h.innermost
  obtain ⟨further, hfurther⟩ := hother.innermost
  have hindex := (List.getElem?_eq_some_iff.mp h.parts).1
  obtain ⟨reached, hreached, hsteps⟩ := exists_nest_between hindex hlt hfurther
  rw [nest_take_add_one hstack h.parts] at hreached
  cases hreached
  obtain ⟨takes, hblock, htakes⟩ := nest_of_leadsOut [] ⟨opener, false⟩ heven hsteps
  -- Behind the first alternative the block takes no other.
  cases hblock
  cases htakes rfl

/-! ## In a template that is well nested -/

variable (hchecked : template.checkNesting = .ok ())

include hchecked

/-- Where a block can end the check has it on top of its stack. -/
theorem innermost_of_endsAt (h : template.EndsAt (opener + 1) parts index) :
    ∃ takes outer, nest [] 0 (template.directives.take index) = .ok (⟨opener, takes⟩ :: outer) := by
  obtain ⟨stack, hstack⟩ := exists_nest_take hchecked index
  obtain ⟨takes, outer, rfl⟩ :=
    (innermost_iff hdirective hopens hstack).mpr ⟨h.behind, h.even⟩
  exact ⟨takes, outer, hstack⟩

theorem closedAt_of_endsAt (h : template.EndsAt (opener + 1) parts index)
    (hclose : template.directives[index]? = some .close) : template.ClosedAt opener index :=
  ⟨hclose, innermost_of_endsAt hdirective hopens hchecked h⟩

theorem partedAt_of_endsAt (h : template.EndsAt (opener + 1) parts index)
    (halternative : template.directives[index]? = some .alternative) :
    template.PartedAt opener index := by
  obtain ⟨takes, outer, hstack⟩ := innermost_of_endsAt hdirective hopens hchecked h
  -- If the block took no alternative, the next step would fail.
  obtain ⟨next, hnext⟩ := exists_nest_take hchecked (index + 1)
  rw [nest_take_add_one hstack halternative] at hnext
  cases takes with
  | false => cases hnext
  | true => exact ⟨halternative, outer, hstack⟩

/-- Every block has an end. One without an end would be left on the stack. -/
theorem exists_closeFrom? : ∃ close, template.closeFrom? (opener + 1) false = some close := by
  cases hclose : template.closeFrom? (opener + 1) false with
  | some close => exact ⟨close, rfl⟩
  | none =>
    have hstill := stillOpen_of_closeFrom? hdirective hopens hclose
    have hopen := openIn_of_nest (nest_of_checkNesting hchecked)
    cases hopen.complete opener hstill

/-- A block is closed where the count for the whole block finds its end, and only there. -/
theorem closedAt_iff_closeFrom? :
    template.ClosedAt opener index ↔ template.closeFrom? (opener + 1) false = some index := by
  constructor
  · intro h
    obtain ⟨first, hfirst, hfound⟩ := exists_closeFrom?_le (h.endsAt hdirective hopens false)
    have hle := (endsAt_of_closeFrom? hfound).le_of_close (getElem?_of_closeFrom?_false hfound)
      (h.endsAt hdirective hopens false).even
    rw [hfound, Nat.le_antisymm hfirst hle]
  · intro h
    exact closedAt_of_endsAt hdirective hopens hchecked (endsAt_of_closeFrom? h)
      (getElem?_of_closeFrom?_false h)

/-- The count for a part finds the alternative of the block itself. -/
theorem closeFrom?_of_partedAt (h : template.PartedAt opener index) :
    template.closeFrom? (opener + 1) true = some index := by
  have hends := h.endsAt hdirective hopens
  obtain ⟨first, hfirst, hfound⟩ := exists_closeFrom?_le hends
  have hfirstends := endsAt_of_closeFrom? hfound
  have hle : index ≤ first := by
    rcases hfirstends.ends with hclosing | ⟨_, halternative⟩
    · exact hfirstends.le_of_close hclosing hends.even
    · have hother := partedAt_of_endsAt hdirective hopens hchecked hfirstends halternative
      exact Nat.le_of_not_lt (hother.not_lt hdirective hopens h)
  rw [hfound, Nat.le_antisymm hfirst hle]

/-- Without one it finds what the count for the whole block finds. -/
theorem closeFrom?_of_not_partedAt (hnone : ∀ middle, ¬ template.PartedAt opener middle)
    (hclose : template.closeFrom? (opener + 1) false = some index) :
    template.closeFrom? (opener + 1) true = some index := by
  have hclosed := (closedAt_iff_closeFrom? hdirective hopens hchecked).mpr hclose
  obtain ⟨first, _, hfound⟩ := exists_closeFrom?_le (hclosed.endsAt hdirective hopens true)
  have hother : template.directives[first]? ≠ some .alternative := fun halternative =>
    hnone first (partedAt_of_endsAt hdirective hopens hchecked (endsAt_of_closeFrom? hfound)
      halternative)
  have hwhole := closeFrom?_parted hfound
  rw [if_neg hother, hclose] at hwhole
  rw [hfound, hwhole]

end Opener

/-! ## What the search for an end returns -/

/-- **The search returns the matching end, and agrees with the check.** From every start, in every
template, it returns the least end there is, and if there is none, the error that the block of the
given opener is unmatched. In a template that is well nested, every block is closed at one index,
and that is what the search for the whole block returns behind its opener. The search for a part
returns the alternative at which the block is parted, if it is, and otherwise where it is closed. -/
theorem blockEnd_decides_matching (template : Template) :
    (∀ opener start parts,
      (∀ index, template.blockEnd opener start parts = .ok index
        ↔ IsLeast {index | template.EndsAt start parts index} index)
      ∧ (template.blockEnd opener start parts
          = .error (template.malformedAt opener .unmatchedOpenBlock)
        ↔ ∀ index, ¬ template.EndsAt start parts index))
    ∧ (template.checkNesting = .ok () →
      ∀ opener directive, template.directives[opener]? = some directive →
        directive.opensBlock = true →
        ∃ close, (∀ index, template.ClosedAt opener index ↔ index = close)
          ∧ template.blockEnd opener (opener + 1) false = .ok close
          ∧ (∀ middle, template.PartedAt opener middle →
            template.blockEnd opener (opener + 1) true = .ok middle)
          ∧ ((∀ middle, ¬ template.PartedAt opener middle) →
            template.blockEnd opener (opener + 1) true = .ok close)) := by
  refine ⟨fun opener start parts => ⟨fun index => ?_, ?_⟩,
    fun hchecked opener directive hdirective hopens => ?_⟩
  · rw [blockEnd_eq_ok_iff, closeFrom?_eq_some_iff]
  · rw [blockEnd_eq_error_iff, closeFrom?_eq_none_iff]
  · obtain ⟨close, hclose⟩ := exists_closeFrom? hdirective hopens hchecked
    refine ⟨close, fun index => ?_, blockEnd_eq_ok_iff.mpr hclose, fun middle hparted => ?_,
      fun hnone => ?_⟩
    · rw [closedAt_iff_closeFrom? hdirective hopens hchecked, hclose, Option.some.injEq, eq_comm]
    · exact blockEnd_eq_ok_iff.mpr (closeFrom?_of_partedAt hdirective hopens hchecked hparted)
    · exact blockEnd_eq_ok_iff.mpr
        (closeFrom?_of_not_partedAt hdirective hopens hchecked hnone hclose)

/-- A conditional in the first part of another one, in a loop:
`<%foreach (var a in b) {%><%if (a.ok) {%><%if (a.new) {%><%}%><%} else {%><%}%><%}%>`. -/
def conditionalInPart : Template where
  name := "page"
  leading := ""
  segments :=
    [⟨.loop "a" ⟨"b", []⟩, "foreach (var a in b) \x7b", "", 1⟩,
      ⟨.conditional ⟨"a", ["ok"]⟩, "if (a.ok) \x7b", "", 1⟩,
      ⟨.conditional ⟨"a", ["new"]⟩, "if (a.new) \x7b", "", 1⟩,
      ⟨.close, "\x7d", "", 1⟩,
      ⟨.alternative, "\x7d else \x7b", "", 1⟩,
      ⟨.close, "\x7d", "", 1⟩,
      ⟨.close, "\x7d", "", 1⟩]

theorem blockEnd_conditionalInPart :
    conditionalInPart.checkNesting = .ok ()
      ∧ conditionalInPart.directives[1]? = some (.conditional ⟨"a", ["ok"]⟩)
      ∧ conditionalInPart.ClosedAt 1 5
      ∧ conditionalInPart.PartedAt 1 4
      ∧ conditionalInPart.blockEnd 1 2 false = .ok 5
      ∧ conditionalInPart.blockEnd 1 2 true = .ok 4
      ∧ IsLeast {index | conditionalInPart.EndsAt 2 true index} 4
      ∧ conditionalInPart.directives[2]? = some (.conditional ⟨"a", ["new"]⟩)
      ∧ (∀ middle, ¬ conditionalInPart.PartedAt 2 middle)
      ∧ conditionalInPart.blockEnd 2 3 true = .ok 3
      ∧ ∀ index, ¬ conditionalInPart.EndsAt 7 true index := by
  have hchecked : conditionalInPart.checkNesting = .ok () := rfl
  have hclosed : conditionalInPart.ClosedAt 1 5 := ⟨rfl, false, [⟨0, false⟩], rfl⟩
  have hparted : conditionalInPart.PartedAt 1 4 := ⟨rfl, [⟨0, false⟩], rfl⟩
  have hinner : conditionalInPart.ClosedAt 2 3 := ⟨rfl, true, [⟨1, true⟩, ⟨0, false⟩], rfl⟩
  have hnone (middle : Nat) : ¬ conditionalInPart.PartedAt 2 middle := by
    rintro ⟨halternative, outer, hstack⟩
    have honly : ∀ index < 7,
        conditionalInPart.directives[index]? = some .alternative → index = 4 := by
      decide
    obtain rfl := honly middle (List.getElem?_eq_some_iff.mp halternative).1 halternative
    cases hstack
  obtain ⟨hsearch, hnested⟩ := blockEnd_decides_matching conditionalInPart
  -- The outer conditional is parted, the inner one is not.
  obtain ⟨close, hclose, hwhole, hpart, _⟩ := hnested hchecked 1 _ rfl rfl
  obtain rfl := (hclose 5).mp hclosed
  obtain ⟨last, hlast, _, _, hunparted⟩ := hnested hchecked 2 _ rfl rfl
  obtain rfl := (hlast 3).mp hinner
  exact ⟨hchecked, rfl, hclosed, hparted, hwhole, hpart 4 hparted,
    ((hsearch 1 2 true).1 4).mp (hpart 4 hparted), rfl, hnone, hunparted hnone,
    (hsearch 0 7 true).2.mp rfl⟩

end Syllabus.Template
