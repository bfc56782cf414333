import Syllabus.Template.Blocks

/-!
# Syllabus: the grammar of blocks

The directives of a well-formed template are items: an interpolation, or a block with items inside,
in any number. `Template.checkNesting` decides this with a stack of open blocks, one directive at a
time. The two sides meet in `Completes`, which says by the grammar alone what may still follow when
the blocks on a stack are open:

* **`completes_cons_iff`**: taking one directive off what may follow is one step of the stack.
* **`walkNesting_eq_ok_iff`**: so the walk accepts exactly the items, by induction on the
  directives.
-/

namespace Syllabus

/-- Whether the block that a directive opens may be parted by an alternative. -/
def Directive.takesAlternative : Directive → Bool
  | conditional _ => true
  | _ => false

/-- What is wrong with a directive that fits nowhere. -/
def Directive.misplacement : Directive → Template.Defect
  | close => .unexpectedClose
  | alternative => .unexpectedAlternative
  | _ => .nestingTooDeep

namespace Template

/-! ## The grammar -/

/-- A sequence of complete items in which at most so many blocks are open at once. -/
inductive Items : Nat → List Directive → Prop where
  | nil {depth : Nat} : Items depth []
  | interpolation {depth : Nat} {value : Reference} {rest : List Directive}
      (hrest : Items depth rest) : Items depth (.interpolation value :: rest)
  | loop {depth : Nat} {item : String} {source : Reference} {body rest : List Directive}
      (hbody : Items depth body) (hrest : Items (depth + 1) rest) :
      Items (depth + 1) (.loop item source :: (body ++ .close :: rest))
  | conditional {depth : Nat} {flag : Reference} {body rest : List Directive}
      (hbody : Items depth body) (hrest : Items (depth + 1) rest) :
      Items (depth + 1) (.conditional flag :: (body ++ .close :: rest))
  | parted {depth : Nat} {flag : Reference} {body other rest : List Directive}
      (hbody : Items depth body) (hother : Items depth other) (hrest : Items (depth + 1) rest) :
      Items (depth + 1)
        (.conditional flag :: (body ++ .alternative :: (other ++ .close :: rest)))

/-- What may follow inside an open block: items up to its end and then what `After` allows. A block
that takes an alternative may be parted first. -/
inductive Closes (depth : Nat) (After : List Directive → Prop) : Bool → List Directive → Prop where
  | close {takes : Bool} {items after : List Directive}
      (hitems : Items depth items) (hafter : After after) :
      Closes depth After takes (items ++ .close :: after)
  | alternative {items after : List Directive}
      (hitems : Items depth items) (hafter : Closes depth After false after) :
      Closes depth After true (items ++ .alternative :: after)

/-- What may follow when the blocks on the stack are open. -/
def Completes : List OpenBlock → List Directive → Prop
  | [] => Items maxOpenBlocks
  | block :: outer =>
    Closes (maxOpenBlocks - (outer.length + 1)) (Completes outer) block.takesAlternative

/-! ## Taking off the first directive

Items start with an interpolation or an opener. What may follow inside a block starts with an item,
or with the directive that ends the block or parts it. -/

theorem items_interpolation_iff {depth : Nat} {value : Reference} {rest : List Directive} :
    Items depth (.interpolation value :: rest) ↔ Items depth rest := by
  constructor
  · intro h
    cases h with
    | interpolation hrest => exact hrest
  · exact .interpolation

theorem items_opener_iff {depth : Nat} {opener : Directive} {rest : List Directive}
    (hopens : opener.opensBlock = true) :
    Items depth (opener :: rest) ↔
      ∃ inner, depth = inner + 1 ∧ Closes inner (Items depth) opener.takesAlternative rest := by
  constructor
  · intro h
    cases h with
    | interpolation _ => cases hopens
    | loop hbody hrest => exact ⟨_, rfl, .close hbody hrest⟩
    | conditional hbody hrest => exact ⟨_, rfl, .close hbody hrest⟩
    | parted hbody hother hrest => exact ⟨_, rfl, .alternative hbody (.close hother hrest)⟩
  · rintro ⟨inner, rfl, h⟩
    cases opener with
    | interpolation _ => cases hopens
    | close => cases hopens
    | alternative => cases hopens
    | loop item source =>
      change Closes inner _ false rest at h
      cases h with
      | close hitems hafter => exact .loop hitems hafter
    | conditional flag =>
      change Closes inner _ true rest at h
      cases h with
      | close hitems hafter => exact .conditional hitems hafter
      | alternative hitems hafter =>
        -- No second alternative: behind the first one the block may only end.
        cases hafter with
        | close hother hafter => exact .parted hitems hother hafter

/-- What may follow inside a block is items and a remainder. The remainder goes with any items, and
starts with the end of the block or with its alternative. -/
theorem Closes.split {depth : Nat} {After : List Directive → Prop} {takes : Bool}
    {directives : List Directive} (h : Closes depth After takes directives) :
    ∃ items remainder, directives = items ++ remainder ∧ Items depth items
      ∧ (∀ others, Items depth others → Closes depth After takes (others ++ remainder))
      ∧ ((∃ after, remainder = .close :: after ∧ After after)
        ∨ takes = true ∧ ∃ after, remainder = .alternative :: after
          ∧ Closes depth After false after) := by
  cases h with
  | close hitems hafter =>
    exact ⟨_, _, rfl, hitems, fun _ hothers => .close hothers hafter, .inl ⟨_, rfl, hafter⟩⟩
  | alternative hitems hafter =>
    exact ⟨_, _, rfl, hitems, fun _ hothers => .alternative hothers hafter,
      .inr ⟨rfl, _, rfl, hafter⟩⟩

/-- The block ends where it did when more may follow behind its end. -/
theorem Closes.extend {depth : Nat} {After Further : List Directive → Prop} {takes : Bool}
    {directives more : List Directive} (h : Closes depth After takes directives)
    (hfurther : ∀ after, After after → Further (after ++ more)) :
    Closes depth Further takes (directives ++ more) := by
  induction h with
  | close hitems hafter =>
    rw [List.append_assoc, List.cons_append]
    exact .close hitems (hfurther _ hafter)
  | alternative hitems _ ih =>
    rw [List.append_assoc, List.cons_append]
    exact .alternative hitems ih

/-- Behind the end of an inner block comes what may follow inside the outer one: first items, which
make up one item of the outer block together with the inner block, then the remainder. -/
theorem Closes.split_inner {inner depth : Nat} {After : List Directive → Prop}
    {takes innerTakes : Bool} {directives : List Directive}
    (h : Closes inner (Closes depth After takes) innerTakes directives) :
    ∃ front remainder, directives = front ++ remainder
      ∧ Closes inner (Items depth) innerTakes front
      ∧ ∀ others, Items depth others → Closes depth After takes (others ++ remainder) := by
  induction h with
  | @close takes items after hitems hafter =>
    -- The inner block ends here. The items behind it up to the end of the outer block go with it.
    obtain ⟨others, remainder, rfl, hothers, hjoin, _⟩ := hafter.split
    exact ⟨items ++ .close :: others, remainder, by simp, .close hitems hothers, hjoin⟩
  | @alternative items after hitems _ ih =>
    obtain ⟨front, remainder, rfl, hfront, hjoin⟩ := ih
    exact ⟨items ++ .alternative :: front, remainder, by simp, .alternative hitems hfront, hjoin⟩

theorem closes_close_iff {depth : Nat} {After : List Directive → Prop} {takes : Bool}
    {rest : List Directive} : Closes depth After takes (.close :: rest) ↔ After rest := by
  constructor
  · intro h
    obtain ⟨items, remainder, hsplit, hitems, _, hends⟩ := h.split
    -- A closing directive starts no item, so there are no items before the end.
    cases items with
    | nil =>
      rcases hends with ⟨after, rfl, hafter⟩ | ⟨_, after, rfl, _⟩
      · cases hsplit
        exact hafter
      · cases hsplit
    | cons first items =>
      cases hsplit
      cases hitems
  · exact fun h => .close .nil h

theorem closes_alternative_iff {depth : Nat} {After : List Directive → Prop} {takes : Bool}
    {rest : List Directive} :
    Closes depth After takes (.alternative :: rest)
      ↔ takes = true ∧ Closes depth After false rest := by
  constructor
  · intro h
    obtain ⟨items, remainder, hsplit, hitems, _, hends⟩ := h.split
    -- Nor does an alternative start an item.
    cases items with
    | nil =>
      rcases hends with ⟨after, rfl, _⟩ | ⟨htakes, after, rfl, hafter⟩
      · cases hsplit
      · cases hsplit
        exact ⟨htakes, hafter⟩
    | cons first items =>
      cases hsplit
      cases hitems
  · rintro ⟨rfl, h⟩
    exact .alternative .nil h

theorem closes_interpolation_iff {depth : Nat} {After : List Directive → Prop} {takes : Bool}
    {value : Reference} {rest : List Directive} :
    Closes depth After takes (.interpolation value :: rest) ↔ Closes depth After takes rest := by
  constructor
  · intro h
    obtain ⟨items, remainder, hsplit, hitems, hjoin, hends⟩ := h.split
    -- The remainder starts with an end, so the interpolation is the first of the items.
    cases items with
    | nil => rcases hends with ⟨after, rfl, _⟩ | ⟨_, after, rfl, _⟩ <;> cases hsplit
    | cons first items =>
      cases hsplit
      exact hjoin _ (items_interpolation_iff.mp hitems)
  · intro h
    obtain ⟨items, remainder, rfl, hitems, hjoin, _⟩ := h.split
    exact hjoin _ (.interpolation hitems)

theorem closes_opener_iff {depth : Nat} {After : List Directive → Prop} {takes : Bool}
    {opener : Directive} {rest : List Directive} (hopens : opener.opensBlock = true) :
    Closes depth After takes (opener :: rest) ↔
      ∃ inner, depth = inner + 1
        ∧ Closes inner (Closes depth After takes) opener.takesAlternative rest := by
  constructor
  · intro h
    obtain ⟨items, remainder, hsplit, hitems, hjoin, hends⟩ := h.split
    -- Likewise the opener is the first of the items, and opens a block among them.
    cases items with
    | nil =>
      rcases hends with ⟨after, rfl, _⟩ | ⟨_, after, rfl, _⟩ <;> cases hsplit <;> cases hopens
    | cons first items =>
      cases hsplit
      obtain ⟨inner, hdepth, hinner⟩ := (items_opener_iff hopens).mp hitems
      exact ⟨inner, hdepth, hinner.extend hjoin⟩
  · rintro ⟨inner, hdepth, h⟩
    obtain ⟨front, remainder, rfl, hfront, hjoin⟩ := h.split_inner
    exact hjoin (opener :: front) ((items_opener_iff hopens).mpr ⟨inner, hdepth, hfront⟩)

/-! ## One step of the stack -/

theorem stepNesting_opener {opener : Directive} (hopens : opener.opensBlock = true)
    (stack : List OpenBlock) (index : Nat) :
    stepNesting stack index opener =
      if stack.length = maxOpenBlocks then .error .nestingTooDeep
      else .ok (⟨index, opener.takesAlternative⟩ :: stack) := by
  cases opener with
  | loop item source => rfl
  | conditional flag => rfl
  | interpolation _ => cases hopens
  | close => cases hopens
  | alternative => cases hopens

/-- A step leaves at most as many blocks open as may be. -/
theorem length_le_of_stepNesting {stack next : List OpenBlock} {index : Nat}
    {directive : Directive} (hlength : stack.length ≤ maxOpenBlocks)
    (h : stepNesting stack index directive = .ok next) : next.length ≤ maxOpenBlocks := by
  -- Only an opener makes the stack longer, and it needs room.
  by_cases hopens : directive.opensBlock = true
  · rw [stepNesting_opener hopens] at h
    split at h
    · cases h
    · next hfull =>
      cases h
      rw [List.length_cons]
      omega
  · cases directive with
    | loop item source => exact absurd rfl hopens
    | conditional flag => exact absurd rfl hopens
    | interpolation value =>
      cases h
      exact hlength
    | close =>
      rcases stack with _ | ⟨block, outer⟩
      · cases h
      · cases h
        exact Nat.le_of_succ_le hlength
    | alternative =>
      rcases stack with _ | ⟨⟨opener, _ | _⟩, outer⟩ <;> cases h
      exact hlength

/-- Only one defect is possible for each kind of directive. -/
theorem eq_misplacement_of_stepNesting {stack : List OpenBlock} {index : Nat}
    {directive : Directive} {defect : Defect}
    (h : stepNesting stack index directive = .error defect) :
    defect = directive.misplacement := by
  -- Each directive can be misplaced in one way.
  cases directive with
  | interpolation value => cases h
  | loop item source =>
    rw [stepNesting_opener rfl] at h
    split at h <;> cases h
    rfl
  | conditional flag =>
    rw [stepNesting_opener rfl] at h
    split at h <;> cases h
    rfl
  | close =>
    rcases stack with _ | ⟨block, outer⟩ <;> cases h
    rfl
  | alternative =>
    rcases stack with _ | ⟨⟨opener, _ | _⟩, outer⟩ <;> cases h <;> rfl

/-- **What may follow, directive by directive.** A directive may come next exactly when the step
with it succeeds, and then what may follow it is what the new stack says. -/
theorem completes_cons_iff {stack : List OpenBlock} (hlength : stack.length ≤ maxOpenBlocks)
    (index : Nat) (directive : Directive) (rest : List Directive) :
    Completes stack (directive :: rest) ↔
      ∃ next, stepNesting stack index directive = .ok next ∧ Completes next rest := by
  by_cases hopens : directive.opensBlock = true
  · -- The new block has room for one block less than the items it stands among.
    rw [stepNesting_opener hopens]
    have hroom : Completes stack (directive :: rest) ↔
        ∃ inner, maxOpenBlocks - stack.length = inner + 1
          ∧ Closes inner (Completes stack) directive.takesAlternative rest := by
      cases stack with
      | nil => exact items_opener_iff hopens
      | cons block outer => exact closes_opener_iff hopens
    rw [hroom]
    constructor
    · rintro ⟨inner, hinner, h⟩
      have hinner' : inner = maxOpenBlocks - (stack.length + 1) := by omega
      rw [if_neg (by omega)]
      rw [hinner'] at h
      exact ⟨_, rfl, h⟩
    · rintro ⟨next, hstep, h⟩
      split at hstep
      · cases hstep
      · next hfull =>
        cases hstep
        exact ⟨_, by omega, h⟩
  · cases directive with
    | loop item source => exact absurd rfl hopens
    | conditional flag => exact absurd rfl hopens
    | interpolation value =>
      have hskip : Completes stack (.interpolation value :: rest) ↔ Completes stack rest := by
        cases stack with
        | nil => exact items_interpolation_iff
        | cons block outer => exact closes_interpolation_iff
      simp [stepNesting, hskip]
    | close =>
      cases stack with
      | nil =>
        refine iff_of_false (fun h => ?_) (fun ⟨next, hstep, _⟩ => by cases hstep)
        cases h
      | cons block outer =>
        -- The block on top of the stack ends, and what may follow is up to the outer ones.
        simp only [stepNesting, Except.ok.injEq, exists_eq_left']
        exact closes_close_iff
    | alternative =>
      rcases stack with _ | ⟨⟨opener, takes⟩, outer⟩
      · refine iff_of_false (fun h => ?_) (fun ⟨next, hstep, _⟩ => by cases hstep)
        cases h
      · change Closes _ _ takes _ ↔ _
        rw [closes_alternative_iff]
        cases takes with
        | false => simp [stepNesting]
        | true =>
          simp only [stepNesting, Except.ok.injEq, exists_eq_left', true_and]
          rfl

/-! ## Whole walks -/

/-- From any stack, the walk succeeds exactly on what may follow. -/
theorem walkNesting_eq_ok_iff_completes {stack : List OpenBlock}
    (hlength : stack.length ≤ maxOpenBlocks) (index : Nat) (directives : List Directive) :
    walkNesting stack index directives = .ok () ↔ Completes stack directives := by
  -- On the directives, for every stack: a step leads to another stack with the same meaning.
  induction directives generalizing stack index with
  | nil =>
    cases stack with
    | nil => exact iff_of_true rfl .nil
    | cons block outer =>
      -- A block is still open, so something has to follow.
      refine iff_of_false (fun h => by cases h) (fun h => ?_)
      obtain ⟨items, remainder, hsplit, _, _, hends⟩ := Closes.split h
      rcases hends with ⟨after, rfl, _⟩ | ⟨_, after, rfl, _⟩ <;> simp at hsplit
  | cons directive rest ih =>
    rw [walkNesting, completes_cons_iff hlength index]
    cases hstep : stepNesting stack index directive with
    | error defect => simp
    | ok next => simp [ih (length_le_of_stepNesting hlength hstep)]

/-- **The walk accepts exactly the grammar.** -/
theorem walkNesting_eq_ok_iff (directives : List Directive) :
    walkNesting [] 0 directives = .ok () ↔ Items maxOpenBlocks directives :=
  walkNesting_eq_ok_iff_completes (Nat.zero_le _) 0 directives

/-- The stack after some directives, or where and why a step failed. -/
def nest (stack : List OpenBlock) (index : Nat) :
    List Directive → Except (Nat × Defect) (List OpenBlock)
  | [] => .ok stack
  | directive :: rest =>
    match stepNesting stack index directive with
    | .error defect => .error (index, defect)
    | .ok next => nest next (index + 1) rest

/-- The steps over two parts are those over the first, then those over the second. -/
theorem nest_append (stack : List OpenBlock) (index : Nat) (directives rest : List Directive) :
    nest stack index (directives ++ rest) =
      match nest stack index directives with
      | .error failure => .error failure
      | .ok next => nest next (index + directives.length) rest := by
  -- On the first part: each of its steps hands its stack on to all that follows.
  induction directives generalizing stack index with
  | nil => rfl
  | cons directive directives ih =>
    rw [List.cons_append, nest, nest]
    cases stepNesting stack index directive with
    | error defect => rfl
    | ok next =>
      simp only [ih, List.length_cons]
      rw [Nat.add_assoc, Nat.add_comm 1]

/-- What a walk says of the stack that it ends with: a block that is left on it is never closed. -/
def verdict : List OpenBlock → Except (Nat × Defect) Unit
  | [] => .ok ()
  | block :: _ => .error (block.opener, .unmatchedOpenBlock)

/-- A walk is its steps, and then a look at the stack that they leave. -/
theorem walkNesting_eq (stack : List OpenBlock) (index : Nat) (directives : List Directive) :
    walkNesting stack index directives =
      match nest stack index directives with
      | .error failure => .error failure
      | .ok reached => verdict reached := by
  induction directives generalizing stack index with
  | nil => cases stack <;> rfl
  | cons directive rest ih =>
    rw [walkNesting, nest]
    cases stepNesting stack index directive with
    | error defect => rfl
    | ok next => exact ih next (index + 1)

/-- Walking over two parts is taking the steps of the first, then walking over the second. -/
theorem walkNesting_append (stack : List OpenBlock) (index : Nat)
    (directives rest : List Directive) :
    walkNesting stack index (directives ++ rest) =
      match nest stack index directives with
      | .error failure => .error failure
      | .ok next => walkNesting next (index + directives.length) rest := by
  rw [walkNesting_eq, nest_append]
  cases nest stack index directives with
  | error failure => rfl
  | ok next => exact (walkNesting_eq next _ rest).symm

/-- Steps over two parts go through the stack between them. -/
theorem exists_nest_of_append {stack final : List OpenBlock} {index : Nat}
    {directives rest : List Directive} (h : nest stack index (directives ++ rest) = .ok final) :
    ∃ reached, nest stack index directives = .ok reached
      ∧ nest reached (index + directives.length) rest = .ok final := by
  rw [nest_append] at h
  cases hreached : nest stack index directives with
  | error failure => simp [hreached] at h
  | ok reached =>
    rw [hreached] at h
    exact ⟨reached, rfl, h⟩

/-- Closing every open block completes a walk. -/
theorem walkNesting_closes (stack : List OpenBlock) (index : Nat) :
    walkNesting stack index (List.replicate stack.length .close) = .ok () := by
  induction stack generalizing index with
  | nil => rfl
  | cons block outer ih => exact ih (index + 1)

end Template

end Syllabus
