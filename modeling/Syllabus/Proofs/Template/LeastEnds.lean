import Mathlib.Order.Bounds.Defs
import Syllabus.Proofs.Template.OpenBlocks

/-!
# Syllabus: the least end

One counter finds the end of a block, from any start in any template. Without the counter, an end is
told by the directives between the start and it: they open as many blocks as they close, and no
beginning of them closes more than it opens. What is found is the least such index.

* **`LeadsOut`**: directives that close so many blocks more than they open, and no beginning of them
  more than that. The count from a depth stops behind such directives.
* **`closeFrom?_eq_some_iff`**: the count finds the least end.
* **`closeFrom?_eq_none_iff`**: it finds none only if there is none.
-/

namespace Syllabus.Template

variable {parts : Bool} {depth deeper offset : Nat} {directive : Directive}
  {directives rest part : List Directive}

/-! ## Ways out of blocks -/

/-- The directives lead out of so many blocks and no further: they close that many more than they
open, and no beginning of them closes more. At depth 0 they close what they open. -/
structure LeadsOut (depth : Nat) (part : List Directive) : Prop where
  count : closings part = openings part + depth
  within : ∀ front, front <+: part → closings front ≤ openings front + depth

theorem leadsOut_nil : LeadsOut 0 [] where
  count := rfl
  within front hfront := by
    rw [List.prefix_nil.mp hfront]
    exact Nat.le_refl 0

theorem LeadsOut.depth_of_nil (h : LeadsOut depth []) : depth = 0 := by
  have hcount := h.count
  rw [openings, closings, List.countP_nil, List.count_nil] at hcount
  omega

/-- Behind one directive more there is one block more to lead out of, one less, or as many. -/
theorem leadsOut_cons_iff
    (h : depth + (if directive.opensBlock then 1 else 0)
      = deeper + (if directive = .close then 1 else 0)) :
    LeadsOut depth (directive :: rest) ↔ LeadsOut deeper rest := by
  constructor
  · rintro ⟨hcount, hwithin⟩
    refine ⟨?_, fun front hfront => ?_⟩
    · rw [openings_cons, closings_cons] at hcount
      omega
    · have hfront := hwithin _ ((List.prefix_cons_inj directive).mpr hfront)
      rw [openings_cons, closings_cons] at hfront
      omega
  · rintro ⟨hcount, hwithin⟩
    refine ⟨?_, fun front hfront => ?_⟩
    · rw [openings_cons, closings_cons]
      omega
    · -- The empty front is within all blocks; any other one has the directive in it.
      rcases List.prefix_cons_iff.mp hfront with rfl | ⟨front, rfl, hrest⟩
      · exact Nat.zero_le _
      · have hfront := hwithin front hrest
        rw [openings_cons, closings_cons]
        omega

/-- No way that leads out of no block starts with a closing directive. -/
theorem not_leadsOut_close : ¬ LeadsOut 0 (.close :: rest) := by
  intro h
  exact absurd (h.within [.close] (List.prefix_append [_] rest)) (by decide)

/-- A way can be cut behind a part that closes what it opens. -/
theorem LeadsOut.of_append (h : LeadsOut depth (part ++ rest)) (hpart : LeadsOut 0 part) :
    LeadsOut depth rest := by
  have hopenings (more : List Directive) :
      openings (part ++ more) = openings part + openings more := List.countP_append
  have hclosings (more : List Directive) :
      closings (part ++ more) = closings part + closings more := List.count_append
  -- The part opens as many blocks as it closes.
  have heven := hpart.count
  refine ⟨?_, fun front hfront => ?_⟩
  · have hcount := h.count
    rw [hopenings, hclosings] at hcount
    omega
  · have hfront := h.within _ ((List.prefix_append_right_inj part).mpr hfront)
    rw [hopenings, hclosings] at hfront
    omega

/-! ## What the count finds -/

/-- Up to the end that the scan finds, the directives lead out of its blocks. -/
theorem leadsOut_of_scanClose (h : scanClose parts depth directives = some offset) :
    LeadsOut depth (directives.take offset) := by
  -- Along the scan: its depth is how many blocks there are to lead out of.
  fun_induction scanClose parts depth directives generalizing offset with
  | case1 depth => cases h
  | case2 rest =>
    cases h
    exact leadsOut_nil
  | case3 rest depth ih =>
    obtain ⟨offset, hoffset, rfl⟩ := Option.map_eq_some_iff.mp h
    exact (leadsOut_cons_iff rfl).mpr (ih hoffset)
  | case4 rest =>
    cases h
    exact leadsOut_nil
  | case5 rest hparts ih =>
    obtain ⟨offset, hoffset, rfl⟩ := Option.map_eq_some_iff.mp h
    exact (leadsOut_cons_iff rfl).mpr (ih hoffset)
  | case6 rest directive depth houter hdeeper halternative ih =>
    obtain ⟨offset, hoffset, rfl⟩ := Option.map_eq_some_iff.mp h
    refine (leadsOut_cons_iff ?_).mpr (ih hoffset)
    rw [if_neg (ne_close houter hdeeper)]
    split <;> rfl

/-- The scan stops no later than at any end. -/
theorem exists_scanClose_le (h : LeadsOut depth (directives.take offset))
    (hends : directives[offset]? = some .close
      ∨ parts = true ∧ directives[offset]? = some .alternative) :
    ∃ first ≤ offset, scanClose parts depth directives = some first := by
  -- Where the scan passes a directive, that directive is no end, and the end lies behind it.
  have hlater {found : Option Nat} {offset : Nat} (h : ∃ first ≤ offset, found = some first) :
      ∃ first ≤ offset + 1, found.map (· + 1) = some first := by
    obtain ⟨first, hfirst, rfl⟩ := h
    exact ⟨first + 1, Nat.succ_le_succ hfirst, rfl⟩
  -- Along the scan, which stops at the first end there is.
  fun_induction scanClose parts depth directives generalizing offset with
  | case1 depth =>
    rcases hends with hclose | ⟨_, halternative⟩
    · cases hclose
    · cases halternative
  | case2 rest => exact ⟨0, Nat.zero_le _, rfl⟩
  | case3 rest depth ih =>
    cases offset with
    | zero => cases h.depth_of_nil
    | succ offset => exact hlater (ih ((leadsOut_cons_iff rfl).mp h) hends)
  | case4 rest => exact ⟨0, Nat.zero_le _, rfl⟩
  | case5 rest hparts ih =>
    cases offset with
    | zero =>
      rcases hends with hclose | ⟨hparts', _⟩
      · cases hclose
      · exact absurd hparts' hparts
    | succ offset => exact hlater (ih ((leadsOut_cons_iff rfl).mp h) hends)
  | case6 rest directive depth houter hdeeper halternative ih =>
    cases offset with
    | zero =>
      rcases hends with hclose | ⟨_, hpart⟩
      · exact absurd (Option.some.inj hclose) (ne_close houter hdeeper)
      · exact absurd h.depth_of_nil (halternative (Option.some.inj hpart))
    | succ offset =>
      refine hlater (ih ((leadsOut_cons_iff ?_).mp h) hends)
      rw [if_neg (ne_close houter hdeeper)]
      split <;> rfl

/-! ## Ends in a template -/

variable {template : Template} {opener start index other : Nat}

/-- The directives from one index up to another. -/
def between (template : Template) (start stop : Nat) : List Directive :=
  (template.directives.take stop).drop start

/-- Whether an index is an end as seen from a start: up to it as many blocks are opened as closed,
no beginning of the way closes more than it opens, and there stands a closing directive, or, where
an end of a part is looked for, an alternative. -/
structure EndsAt (template : Template) (start : Nat) (parts : Bool) (index : Nat) : Prop where
  behind : start ≤ index
  even : LeadsOut 0 (template.between start index)
  ends : template.directives[index]? = some .close
    ∨ parts = true ∧ template.directives[index]? = some .alternative

/-- The directives between two indexes are taken from the first on. -/
theorem between_add (template : Template) (start offset : Nat) :
    template.between start (start + offset) = (template.directives.drop start).take offset := by
  rw [between, List.drop_take, Nat.add_sub_cancel_left]

theorem endsAt_of_closeFrom? (h : template.closeFrom? start parts = some index) :
    template.EndsAt start parts index := by
  refine ⟨le_of_closeFrom? h, ?_, getElem?_of_closeFrom? h⟩
  obtain ⟨offset, hoffset, rfl⟩ := Option.map_eq_some_iff.mp h
  rw [between_add]
  exact leadsOut_of_scanClose hoffset

/-- Where there is an end, one is found that is no later. -/
theorem exists_closeFrom?_le (h : template.EndsAt start parts index) :
    ∃ first ≤ index, template.closeFrom? start parts = some first := by
  obtain ⟨hbehind, heven, hends⟩ := h
  obtain ⟨offset, rfl⟩ := Nat.exists_eq_add_of_le hbehind
  rw [between_add] at heven
  rw [← List.getElem?_drop] at hends
  obtain ⟨first, hfirst, hfound⟩ := exists_scanClose_le heven hends
  exact ⟨start + first, Nat.add_le_add_left hfirst start, by rw [closeFrom?, hfound]; rfl⟩

/-- **The count finds the least end.** -/
theorem closeFrom?_eq_some_iff :
    template.closeFrom? start parts = some index
      ↔ IsLeast {index | template.EndsAt start parts index} index := by
  constructor
  · intro h
    refine ⟨endsAt_of_closeFrom? h, fun other hother => ?_⟩
    obtain ⟨first, hfirst, hfound⟩ := exists_closeFrom?_le hother
    rwa [Option.some.inj (h.symm.trans hfound)]
  · rintro ⟨hends, hleast⟩
    obtain ⟨first, hfirst, hfound⟩ := exists_closeFrom?_le hends
    rw [hfound, Nat.le_antisymm hfirst (hleast (endsAt_of_closeFrom? hfound))]

/-- None is found just if there is none. -/
theorem closeFrom?_eq_none_iff :
    template.closeFrom? start parts = none ↔ ∀ index, ¬ template.EndsAt start parts index := by
  constructor
  · intro h index hends
    obtain ⟨first, _, hfound⟩ := exists_closeFrom?_le hends
    cases h.symm.trans hfound
  · intro h
    rw [Option.eq_none_iff_forall_ne_some]
    exact fun index hfound => h index (endsAt_of_closeFrom? hfound)

theorem blockEnd_eq_ok_iff :
    template.blockEnd opener start parts = .ok index
      ↔ template.closeFrom? start parts = some index := by
  unfold blockEnd
  cases template.closeFrom? start parts <;> simp

theorem blockEnd_eq_error_iff :
    template.blockEnd opener start parts
        = .error (template.malformedAt opener .unmatchedOpenBlock)
      ↔ template.closeFrom? start parts = none := by
  unfold blockEnd
  cases template.closeFrom? start parts <;> simp

end Syllabus.Template
