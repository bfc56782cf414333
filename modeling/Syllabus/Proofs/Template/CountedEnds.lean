import Syllabus.Proofs.Template.BlockEnds

/-!
# Syllabus: ends found by counting

The end of a block is found by counting, in any template: well nested or not, and wherever the count
starts. What is passed over on the way opens as many blocks as it closes.

* **`scanClose_nested`**: a count that starts inside a block finds the end of that block first and
  goes on behind it.
* **`scanClose_parted`**: behind an alternative the count finds the end of the same block.
* **`enclosing_of_closeFrom?`**: at the end that is found the same blocks are open as where the count
  started.
-/

namespace Syllabus.Template

variable {parts : Bool} {depth offset : Nat} {directives : List Directive}

/-! ## Counting on -/

theorem scanClose_interpolation (parts : Bool) (depth : Nat) (value : Reference)
    (rest : List Directive) :
    scanClose parts depth (.interpolation value :: rest)
      = (scanClose parts depth rest).map (· + 1) := by
  cases depth <;> rfl

/-- An alternative is passed over by a count for the whole block. -/
theorem scanClose_alternative (depth : Nat) (rest : List Directive) :
    scanClose false depth (.alternative :: rest) = (scanClose false depth rest).map (· + 1) := by
  cases depth <;> rfl

/-- **From inside a block.** A count that starts `inner` blocks deep in a block, which stands in
`depth` more, finds the end of the block first and counts on behind it. -/
theorem scanClose_nested (parts : Bool) (inner depth : Nat) (directives : List Directive) :
    scanClose parts (inner + 1 + depth) directives
      = (scanClose false inner directives).bind fun offset =>
          (scanClose parts depth (directives.drop (offset + 1))).map (· + (offset + 1)) := by
  -- On the directives: both counts go up and down together until the inner one has ended.
  induction directives generalizing inner with
  | nil => rfl
  | cons directive rest ih =>
    -- A directive that neither count stops at.
    have hpassed (deeper : Nat)
        (hcount : scanClose parts (inner + 1 + depth) (directive :: rest)
          = (scanClose parts (deeper + 1 + depth) rest).map (· + 1))
        (hblock : scanClose false inner (directive :: rest)
          = (scanClose false deeper rest).map (· + 1)) :
        scanClose parts (inner + 1 + depth) (directive :: rest)
          = (scanClose false inner (directive :: rest)).bind fun offset =>
            (scanClose parts depth ((directive :: rest).drop (offset + 1))).map
              (· + (offset + 1)) := by
      rw [hcount, hblock, ih, Option.map_bind, Option.bind_map]
      congr 1
      funext offset
      exact scanClose_map_add _ _ _
    have hinside : inner + 1 + depth = inner + depth + 1 := by omega
    cases directive with
    | interpolation value =>
      exact hpassed inner (scanClose_interpolation _ _ _ _) (scanClose_interpolation _ _ _ _)
    | loop item source =>
      refine hpassed (inner + 1) ?_ (scanClose_opener rfl)
      rw [scanClose_opener rfl, hinside]
      congr 2
      omega
    | conditional flag =>
      refine hpassed (inner + 1) ?_ (scanClose_opener rfl)
      rw [scanClose_opener rfl, hinside]
      congr 2
      omega
    | alternative =>
      refine hpassed inner ?_ (scanClose_alternative _ _)
      rw [hinside]
      rfl
    | close =>
      cases inner with
      | zero =>
        rw [hinside, Nat.zero_add]
        rfl
      | succ inner =>
        refine hpassed inner ?_ rfl
        rw [hinside, show inner + 1 + depth = inner + depth + 1 by omega]
        rfl

/-- What a count passes over: anything but a closing directive, and an alternative only in a deeper
block. -/
theorem scanClose_passed {directive : Directive} {rest : List Directive}
    (hclose : directive ≠ .close) (halternative : directive = .alternative → depth ≠ 0) :
    scanClose parts depth (directive :: rest)
      = (scanClose parts (if directive.opensBlock then depth + 1 else depth) rest).map (· + 1) := by
  cases directive with
  | interpolation value => exact scanClose_interpolation _ _ _ _
  | loop item source => exact scanClose_opener rfl
  | conditional flag => exact scanClose_opener rfl
  | close => cases hclose rfl
  | alternative =>
    obtain ⟨depth, rfl⟩ := Nat.exists_eq_succ_of_ne_zero (halternative rfl)
    rfl

/-- What the scan passes over is no end of a block. -/
theorem ne_close {directive : Directive} (houter : directive = .close → depth = 0 → False)
    (hdeeper : ∀ outer : Nat, directive = .close → depth = outer.succ → False) :
    directive ≠ .close := by
  intro hclose
  cases depth with
  | zero => exact houter hclose rfl
  | succ outer => exact hdeeper outer hclose rfl

/-- What is found is a closing directive, or the alternative if the count was for a part. -/
theorem getElem?_of_scanClose (h : scanClose parts depth directives = some offset) :
    directives[offset]? = some .close
      ∨ parts = true ∧ directives[offset]? = some .alternative := by
  -- Along the scan, which stops only at such a directive.
  fun_induction scanClose parts depth directives generalizing offset with
  | case1 depth => cases h
  | case2 rest =>
    cases h
    exact .inl rfl
  | case3 rest depth ih =>
    obtain ⟨offset, hoffset, rfl⟩ := Option.map_eq_some_iff.mp h
    exact ih hoffset
  | case4 rest hparts =>
    cases h
    exact .inr ⟨hparts, rfl⟩
  | case5 rest hparts ih =>
    obtain ⟨offset, hoffset, rfl⟩ := Option.map_eq_some_iff.mp h
    exact ih hoffset
  | case6 rest directive depth _ _ _ ih =>
    obtain ⟨offset, hoffset, rfl⟩ := Option.map_eq_some_iff.mp h
    exact ih hoffset

/-- **Behind an alternative.** Where a count for a part stops, a count for the whole block stops,
too, unless it is at the alternative. Then it goes on behind it. -/
theorem scanClose_parted (h : scanClose true depth directives = some offset) :
    scanClose false depth directives =
      if directives[offset]? = some .alternative then
        (scanClose false 0 (directives.drop (offset + 1))).map (· + (offset + 1))
      else some offset := by
  have hlater {offset : Nat} {directive : Directive} {rest : List Directive} {found : Option Nat}
      (hfound : found = if rest[offset]? = some .alternative then
          (scanClose false 0 (rest.drop (offset + 1))).map (· + (offset + 1))
        else some offset) :
      found.map (· + 1) = if (directive :: rest)[offset + 1]? = some .alternative then
          (scanClose false 0 ((directive :: rest).drop (offset + 1 + 1))).map (· + (offset + 1 + 1))
        else some (offset + 1) := by
    rw [hfound, List.getElem?_cons_succ, List.drop_succ_cons]
    split
    · exact scanClose_map_add _ _ _
    · rfl
  -- Along the scan; the two counts differ only at an alternative that ends a part.
  fun_induction scanClose true depth directives generalizing offset with
  | case1 depth => cases h
  | case2 rest =>
    cases h
    simp [scanClose]
  | case3 rest depth ih =>
    obtain ⟨offset, hoffset, rfl⟩ := Option.map_eq_some_iff.mp h
    exact hlater (ih hoffset)
  | case4 rest =>
    cases h
    rfl
  | case5 rest hparts => exact absurd rfl hparts
  | case6 rest directive depth houter hdeeper halternative ih =>
    obtain ⟨offset, hoffset, rfl⟩ := Option.map_eq_some_iff.mp h
    rw [scanClose_passed (ne_close houter hdeeper) halternative]
    exact hlater (ih hoffset)

/-! ## Open blocks -/

/-- The stack of the openers of open blocks behind one more directive, innermost first. -/
def stepOpeners (stack : List Nat) (index : Nat) : Directive → List Nat
  | .loop .. | .conditional .. => index :: stack
  | .close => stack.tail
  | .interpolation _ | .alternative => stack

/-- The stack behind directives, the first of which has the given index. -/
def openersBehind (stack : List Nat) (index : Nat) : List Directive → List Nat
  | [] => stack
  | directive :: rest => openersBehind (stepOpeners stack index directive) (index + 1) rest

/-- The openers of the blocks around the directive with that index: those in front of it that no
closing directive has closed. -/
def enclosing (template : Template) (index : Nat) : List Nat :=
  openersBehind [] 0 (template.directives.take index)

/-- The blocks open behind more directives come from those open behind the first. -/
theorem openersBehind_append (stack : List Nat) (index : Nat) (front rest : List Directive) :
    openersBehind stack index (front ++ rest)
      = openersBehind (openersBehind stack index front) (index + front.length) rest := by
  induction front generalizing stack index with
  | nil => rfl
  | cons directive front ih =>
    rw [List.cons_append, openersBehind, openersBehind, ih, List.length_cons]
    congr 1
    omega

/-- **What a count passes over closes what it opens.** At the end that is found, the blocks that the
count started in are closed, but for the one it is the end of. -/
theorem openersBehind_of_scanClose {inner outer : List Nat} {index : Nat}
    (h : scanClose parts depth directives = some offset) (hinner : inner.length = depth) :
    openersBehind (inner ++ outer) index (directives.take offset) = outer := by
  -- Along the scan: its depth is the number of inner blocks that are still open.
  fun_induction scanClose parts depth directives generalizing offset inner index with
  | case1 depth => cases h
  | case2 rest =>
    cases h
    rw [List.length_eq_zero_iff.mp hinner]
    rfl
  | case3 rest depth ih =>
    obtain ⟨offset, hoffset, rfl⟩ := Option.map_eq_some_iff.mp h
    obtain ⟨opener, inner, rfl⟩ := List.exists_cons_of_length_eq_add_one hinner
    exact ih hoffset (Nat.succ_inj.mp hinner)
  | case4 rest =>
    cases h
    rw [List.length_eq_zero_iff.mp hinner]
    rfl
  | case5 rest hparts ih =>
    obtain ⟨offset, hoffset, rfl⟩ := Option.map_eq_some_iff.mp h
    exact ih hoffset hinner
  | case6 rest directive depth houter hdeeper halternative ih =>
    obtain ⟨offset, hoffset, rfl⟩ := Option.map_eq_some_iff.mp h
    cases directive with
    | loop item source | conditional flag =>
      have hopened : (index :: inner).length = depth + 1 := congrArg Nat.succ hinner
      exact ih hoffset hopened
    | interpolation value => exact ih hoffset hinner
    | alternative => exact ih hoffset hinner
    | close => exact absurd rfl (ne_close houter hdeeper)

/-! ## Ends in a template -/

variable {template : Template} {index start stop : Nat} {directive : Directive}

/-- Of the directives from an index on, the first is the one at the index. -/
theorem drop_directives (h : template.directives[index]? = some directive) :
    template.directives.drop index = directive :: template.directives.drop (index + 1) := by
  obtain ⟨hindex, rfl⟩ := List.getElem?_eq_some_iff.mp h
  exact List.drop_eq_getElem_cons hindex

/-- A block ends at an end, or a part of it at an alternative. -/
theorem getElem?_of_closeFrom? (h : template.closeFrom? start parts = some stop) :
    template.directives[stop]? = some .close
      ∨ parts = true ∧ template.directives[stop]? = some .alternative := by
  obtain ⟨offset, hoffset, rfl⟩ := Option.map_eq_some_iff.mp h
  simpa only [List.getElem?_drop] using getElem?_of_scanClose hoffset

/-- The end of the whole block is a closing directive. -/
theorem getElem?_of_closeFrom?_false (h : template.closeFrom? start false = some stop) :
    template.directives[stop]? = some .close :=
  (getElem?_of_closeFrom? h).resolve_right fun ⟨hparts, _⟩ => nomatch hparts

theorem lt_length_of_closeFrom? (h : template.closeFrom? start parts = some stop) :
    stop < template.segments.length := by
  rw [← List.length_map (f := Segment.directive)]
  rcases getElem?_of_closeFrom? h with hclose | ⟨_, halternative⟩
  · exact (List.getElem?_eq_some_iff.mp hclose).1
  · exact (List.getElem?_eq_some_iff.mp halternative).1

/-- A count over the directives behind a number of others. -/
theorem map_scanClose_drop (start skipped : Nat) :
    ((scanClose parts 0 ((template.directives.drop start).drop skipped)).map (· + skipped)).map
        (start + ·)
      = template.closeFrom? (start + skipped) parts := by
  rw [closeFrom?, List.drop_drop, Option.map_map]
  congr 1
  funext offset
  show start + (offset + skipped) = start + skipped + offset
  omega

/-- An interpolation is passed over in search of the end. -/
theorem closeFrom?_interpolation {value : Reference}
    (h : template.directives[index]? = some (.interpolation value)) :
    template.closeFrom? index parts = template.closeFrom? (index + 1) parts := by
  rw [← map_scanClose_drop index 1, closeFrom?, drop_directives h, scanClose_interpolation]
  rfl

/-- **Blocks lie within one another.** Where a block opens, the count finds the end of the block
first and goes on behind it. -/
theorem closeFrom?_opener (h : template.directives[index]? = some directive)
    (hopens : directive.opensBlock = true) :
    template.closeFrom? index parts
      = (template.closeFrom? (index + 1) false).bind fun close =>
          template.closeFrom? (close + 1) parts := by
  rw [closeFrom?, drop_directives h, scanClose_opener hopens, scanClose_nested parts 0 0,
    Option.map_bind, Option.map_bind, closeFrom?, Option.bind_map]
  congr 1
  funext offset
  show _ = template.closeFrom? (index + 1 + (offset + 1)) parts
  rw [← map_scanClose_drop]
  simp only [Function.comp_apply, Option.map_map]
  congr 1
  funext behind
  show index + (behind + (offset + 1) + 1) = index + 1 + (behind + (offset + 1))
  omega

/-- **The parts of a block end where the block does.** -/
theorem closeFrom?_parted {middle : Nat} (h : template.closeFrom? start true = some middle) :
    template.closeFrom? start false =
      if template.directives[middle]? = some .alternative then template.closeFrom? (middle + 1) false
      else some middle := by
  obtain ⟨offset, hoffset, rfl⟩ := Option.map_eq_some_iff.mp h
  show _ = if _ then template.closeFrom? (start + (offset + 1)) false else _
  rw [closeFrom?, scanClose_parted hoffset, List.getElem?_drop, ← map_scanClose_drop]
  split <;> rfl

/-- No end is behind the end of the block. -/
theorem le_of_closeFrom?_false {close whole : Nat}
    (h : template.closeFrom? start parts = some close)
    (hwhole : template.closeFrom? start false = some whole) : close ≤ whole := by
  cases parts with
  | false => exact Nat.le_of_eq (Option.some.inj (h.symm.trans hwhole))
  | true =>
    rw [closeFrom?_parted h] at hwhole
    split at hwhole
    · exact Nat.le_of_succ_le (le_of_closeFrom? hwhole)
    · exact Nat.le_of_eq (Option.some.inj hwhole)

/-! ## The ends of a conditional -/

/-- The two ends of a conditional are found with its parts and without them. -/
theorem closeFrom?_of_conditionalEnds? {middle close : Nat}
    (h : template.conditionalEnds? index = some (middle, close)) :
    template.closeFrom? (index + 1) true = some middle
      ∧ template.closeFrom? (index + 1) false = some close := by
  obtain ⟨found, hfound, h⟩ := Option.bind_eq_some_iff.mp h
  have hwhole := closeFrom?_parted hfound
  split at h
  · next halternative =>
    obtain ⟨last, hlast, h⟩ := Option.bind_eq_some_iff.mp h
    cases h
    exact ⟨hfound, by rw [hwhole, if_pos halternative, hlast]⟩
  · next hother =>
    cases h
    exact ⟨hfound, by rw [hwhole, if_neg hother]⟩

/-- If the two ends of a conditional differ, the first is an alternative, and the second ends the
part behind it. -/
theorem closeFrom?_of_parted {middle close : Nat}
    (h : template.conditionalEnds? index = some (middle, close)) (hparted : middle < close) :
    template.directives[middle]? = some .alternative
      ∧ template.closeFrom? (middle + 1) false = some close := by
  obtain ⟨found, hfound, h⟩ := Option.bind_eq_some_iff.mp h
  split at h
  · next halternative =>
    obtain ⟨last, hlast, h⟩ := Option.bind_eq_some_iff.mp h
    cases h
    exact ⟨halternative, hlast⟩
  · cases h
    exact absurd hparted (Nat.lt_irrefl _)

/-! ## Open blocks in a template -/

/-- The blocks open behind a directive are those before it, changed by it. -/
theorem enclosing_succ (h : template.directives[index]? = some directive) :
    template.enclosing (index + 1) = stepOpeners (template.enclosing index) index directive := by
  have hindex := (List.getElem?_eq_some_iff.mp h).1
  rw [enclosing, List.take_add_one, h, openersBehind_append, List.length_take,
    Nat.min_eq_left (by omega), Nat.zero_add]
  rfl

/-- **The same blocks are open** at an end as where the count for it started. -/
theorem enclosing_of_closeFrom? (h : template.closeFrom? start parts = some stop) :
    template.enclosing stop = template.enclosing start := by
  obtain ⟨offset, hoffset, rfl⟩ := Option.map_eq_some_iff.mp h
  rw [enclosing, List.take_add, openersBehind_append]
  exact openersBehind_of_scanClose hoffset List.length_nil

/-- Behind an opener its block is open, too. -/
theorem enclosing_opener (h : template.directives[index]? = some directive)
    (hopens : directive.opensBlock = true) :
    template.enclosing (index + 1) = index :: template.enclosing index := by
  rw [enclosing_succ h]
  cases directive with
  | loop item source | conditional flag => rfl
  | interpolation _ | close | alternative => cases hopens

/-- Behind a block the same blocks are open as in front of it. -/
theorem enclosing_behind_block (h : template.directives[index]? = some directive)
    (hopens : directive.opensBlock = true)
    (hclose : template.closeFrom? (index + 1) false = some stop) :
    template.enclosing (stop + 1) = template.enclosing index := by
  rw [enclosing_succ (getElem?_of_closeFrom?_false hclose), enclosing_of_closeFrom? hclose,
    enclosing_opener h hopens]
  rfl

end Syllabus.Template
