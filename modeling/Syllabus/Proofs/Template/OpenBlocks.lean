import Syllabus.Proofs.Template.CountedEnds
import Syllabus.Proofs.Template.NestingErrors

/-!
# Syllabus: blocks that are left open

A block is left open if no directive behind its opener closes it. It has no end to be found then,
and is around everything behind its opener. Whoever goes into blocks only if they have an end comes
to openers without one only outside of all blocks, and such an opener is the outermost that is left
open.

* **`stillOpen_of_closeFrom?`**: a block for which no end is found is left open.
* **`mem_enclosing_of_stillOpen`**: a block that is left open is around everything behind it.
* **`Standing`**: the places outside of all blocks and in bodies that end.
-/

namespace Syllabus.Template

variable {template : Template} {index stop : Nat} {directive : Directive}

/-! ## Blocks without an end -/

/-- The opener with that index is still open, and every other open block was opened behind it. -/
structure OutermostOpen (directives : List Directive) (index : Nat) : Prop where
  still : StillOpen directives index
  outermost : ∀ other, StillOpen directives other → index ≤ other

theorem openings_cons (directive : Directive) (rest : List Directive) :
    openings (directive :: rest) = openings rest + if directive.opensBlock then 1 else 0 :=
  List.countP_cons

theorem closings_cons (directive : Directive) (rest : List Directive) :
    closings (directive :: rest) = closings rest + if directive = .close then 1 else 0 := by
  rw [closings, List.count_cons]
  simp only [beq_iff_eq]
  rfl

/-- If a count finds no end, nothing closes the block that it started in. -/
theorem closings_le_of_scanClose {depth : Nat} {directives part : List Directive}
    (h : scanClose false depth directives = none) (hpart : part <+: directives) :
    closings part ≤ openings part + depth := by
  -- On the directives, with the count of blocks that are open inside.
  induction directives generalizing depth part with
  | nil =>
    rw [List.prefix_nil.mp hpart]
    exact Nat.zero_le _
  | cons directive rest ih =>
    rcases List.prefix_cons_iff.mp hpart with rfl | ⟨part, rfl, hrest⟩
    · exact Nat.zero_le _
    · rw [openings_cons, closings_cons]
      cases directive with
      | interpolation value =>
        rw [scanClose_interpolation, Option.map_eq_none_iff] at h
        exact ih h hrest
      | alternative =>
        rw [scanClose_alternative, Option.map_eq_none_iff] at h
        exact ih h hrest
      | loop item source | conditional flag =>
        rw [scanClose_opener rfl, Option.map_eq_none_iff] at h
        have hcount := ih h hrest
        simp only [Directive.opensBlock, if_true, reduceCtorEq, if_false]
        omega
      | close =>
        -- At the depth of the block itself a closing would be the end.
        cases depth with
        | zero => cases h
        | succ depth =>
          rw [scanClose, Option.map_eq_none_iff] at h
          have hcount := ih h hrest
          simp only [Directive.opensBlock, Bool.false_eq_true, if_true, if_false]
          omega

/-- An opener for which no end is found is still open at the end of the template. -/
theorem stillOpen_of_closeFrom? (h : template.directives[index]? = some directive)
    (hopens : directive.opensBlock = true) (hend : template.closeFrom? (index + 1) false = none) :
    StillOpen template.directives index where
  opens := ⟨directive, h, hopens⟩
  unclosed _ hpart := closings_le_of_scanClose (Option.map_eq_none_iff.mp hend) hpart

/-- If a count for a part finds no end, a count for the whole block finds none. -/
theorem scanClose_false_eq_none {depth : Nat} {directives : List Directive}
    (h : scanClose true depth directives = none) : scanClose false depth directives = none := by
  induction directives generalizing depth with
  | nil => rfl
  | cons directive rest ih =>
    cases directive with
    | interpolation value =>
      rw [scanClose_interpolation, Option.map_eq_none_iff] at h ⊢
      exact ih h
    | loop item source | conditional flag =>
      rw [scanClose_opener rfl, Option.map_eq_none_iff] at h ⊢
      exact ih h
    | alternative =>
      -- At the depth of the block itself it would end the part.
      cases depth with
      | zero => cases h
      | succ depth =>
        rw [scanClose_alternative, Option.map_eq_none_iff]
        exact ih (Option.map_eq_none_iff.mp h)
    | close =>
      cases depth with
      | zero => cases h
      | succ depth =>
        rw [scanClose, Option.map_eq_none_iff] at h ⊢
        exact ih h

/-- A conditional has no ends only if its block has none. -/
theorem closeFrom?_of_conditionalEnds?_eq_none (h : template.conditionalEnds? index = none) :
    template.closeFrom? (index + 1) false = none := by
  cases hmiddle : template.closeFrom? (index + 1) true with
  | none =>
    rw [closeFrom?, Option.map_eq_none_iff] at hmiddle ⊢
    exact scanClose_false_eq_none hmiddle
  | some middle =>
    simp only [conditionalEnds?, hmiddle, Option.bind_eq_bind, Option.bind_some] at h
    -- Where there is a middle, the end of the block is looked for from there on.
    rw [closeFrom?_parted hmiddle]
    split at h
    · next halternative =>
      rw [if_pos halternative]
      cases hclose : template.closeFrom? (middle + 1) false with
      | none => rfl
      | some close =>
        rw [hclose] at h
        cases h
    · cases h

/-! ## Open blocks around a directive -/

/-- The blocks around stay open as long as no more blocks are closed than were opened inside. -/
theorem exists_openersBehind {directives : List Directive} (inner outer : List Nat) (index : Nat)
    (h : ∀ part, part <+: directives → closings part ≤ openings part + inner.length) :
    ∃ deeper, openersBehind (inner ++ outer) index directives = deeper ++ outer := by
  -- On the directives, with the blocks opened inside so far.
  induction directives generalizing inner index with
  | nil => exact ⟨inner, rfl⟩
  | cons directive rest ih =>
    have hrest (part : List Directive) (hpart : part <+: rest) :
        closings part + (if directive = .close then 1 else 0)
          ≤ openings part + (if directive.opensBlock then 1 else 0) + inner.length := by
      rw [← openings_cons, ← closings_cons]
      exact h _ ((List.prefix_cons_inj directive).mpr hpart)
    cases directive with
    | interpolation value => exact ih inner _ hrest
    | alternative => exact ih inner _ hrest
    | loop item source | conditional flag =>
      refine ih (index :: inner) _ fun part hpart => ?_
      have hcount := hrest part hpart
      simp only [Directive.opensBlock, if_true, reduceCtorEq, if_false] at hcount
      rw [List.length_cons]
      omega
    | close =>
      -- There is a block inside to be closed.
      cases inner with
      | nil => exact absurd (hrest [] (List.nil_prefix)) (by decide)
      | cons opener inner =>
        refine ih inner _ fun part hpart => ?_
        have hcount := hrest part hpart
        simp only [Directive.opensBlock, Bool.false_eq_true, if_true, if_false, List.length_cons]
          at hcount
        omega

/-- **A block that is still open is around everything behind its opener.** -/
theorem mem_enclosing_of_stillOpen {opener : Nat} (h : StillOpen template.directives opener)
    (hbehind : opener < index) : opener ∈ template.enclosing index := by
  obtain ⟨⟨directive, hdirective, hopens⟩, hunclosed⟩ := h
  obtain ⟨later, rfl⟩ := Nat.exists_eq_add_of_le hbehind
  have hlength := (List.getElem?_eq_some_iff.mp hdirective).1
  -- What stands between closes none of the blocks that are open behind the opener.
  have hbetween (part : List Directive)
      (hpart : part <+: (template.directives.drop (opener + 1)).take later) :
      closings part ≤ openings part + ([] : List Nat).length :=
    hunclosed part (hpart.trans (List.take_prefix _ _))
  obtain ⟨deeper, hdeeper⟩ := exists_openersBehind [] (opener :: template.enclosing opener)
    (opener + 1) hbetween
  -- The blocks around it are those around the opener, and what became of them in between.
  have hsplit : template.enclosing (opener + 1 + later)
      = openersBehind (template.enclosing (opener + 1)) (opener + 1)
        ((template.directives.drop (opener + 1)).take later) := by
    rw [enclosing, List.take_add, openersBehind_append, List.length_take,
      Nat.min_eq_left (by omega), Nat.zero_add]
    rfl
  rw [hsplit, enclosing_opener hdirective hopens, ← List.nil_append (opener :: _), hdeeper]
  simp

/-- An opener outside of all blocks for which no end is found is the outermost that is open. -/
theorem outermostOpen_of_enclosing (h : template.directives[index]? = some directive)
    (hopens : directive.opensBlock = true) (hend : template.closeFrom? (index + 1) false = none)
    (houtside : template.enclosing index = []) : OutermostOpen template.directives index where
  still := stillOpen_of_closeFrom? h hopens hend
  outermost other hother := by
    refine Nat.le_of_not_lt fun hbehind => ?_
    have hmem := mem_enclosing_of_stillOpen hother hbehind
    rw [houtside] at hmem
    cases hmem

/-! ## Outside of all blocks, and in bodies that end -/

/-- Where a rendering can be: outside of all blocks, or in a body, up to the end of it. -/
inductive Standing (template : Template) (index stop : Nat) : Prop where
  | outside (hnone : template.enclosing index = [])
  | inside {parts : Bool} (hend : template.closeFrom? index parts = some stop)

namespace Standing

theorem next {value : Reference} (h : template.Standing index stop)
    (hdirective : template.directives[index]? = some (.interpolation value)) :
    template.Standing (index + 1) stop := by
  -- A directive that opens and closes nothing changes neither.
  cases h with
  | outside hnone =>
    refine .outside ?_
    rw [enclosing_succ hdirective, hnone]
    rfl
  | inside hend => exact .inside (closeFrom?_interpolation hdirective ▸ hend)

section Block

variable (h : template.Standing index stop)
  (hdirective : template.directives[index]? = some directive) (hopens : directive.opensBlock = true)

include h hdirective hopens

theorem behind {close : Nat} (hclose : template.closeFrom? (index + 1) false = some close) :
    template.Standing (close + 1) stop := by
  -- Behind its end a block is as if it had not been there.
  cases h with
  | outside hnone =>
    refine .outside ?_
    rw [enclosing_behind_block hdirective hopens hclose, hnone]
  | inside hend =>
    rw [closeFrom?_opener hdirective hopens, hclose] at hend
    exact .inside hend

/-- **An opener without an end stands outside of all blocks.** In a body that ends, its block would
end before. -/
theorem outermostOpen (hend : template.closeFrom? (index + 1) false = none) :
    OutermostOpen template.directives index := by
  cases h with
  | outside hnone => exact outermostOpen_of_enclosing hdirective hopens hend hnone
  | inside hstop =>
    rw [closeFrom?_opener hdirective hopens, hend] at hstop
    cases hstop

end Block

end Standing

end Syllabus.Template
