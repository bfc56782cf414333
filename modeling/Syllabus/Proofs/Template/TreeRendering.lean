import Syllabus.Proofs.Action
import Syllabus.Proofs.Template.BlockEnds
import Syllabus.Proofs.Template.NestingErrors

/-!
# Syllabus: rendering the tree of blocks

`Template.render` walks over segments by their indices and looks for the end of a block whenever it
opens one. On a template that is nested well this is the recursion over its tree: the same text,
the same bindings, the same error with the same text in front of it.

* **`renderFrom_tree`**: the segments that spell a tree render as the tree, and the rendering goes
  on behind it, by induction on the tree.
* **`Render.Composes.renderTree`**: what holds of all actions that a tree is put together from
  holds of its rendering.
* **`renderTree_sound`**: rendering a tree never finds the template malformed.
-/

namespace Syllabus.Template

/-- Renders a tree whose first directive has the given index. A body starts one behind the
directive that opens it, and what follows a block starts one behind its closing directive. The
index matters only to the location of an error. -/
def renderTree (template : Template) : Nat → Tree → Render Unit
  | _, .nil => pure ()
  | index, .interpolation reference literal rest => do
    let value ← .ofExcept (template.evaluate (← get).bindings index reference)
    .writeValue value
    .write literal
    template.renderTree (index + 1) rest
  | index, .loop item source literal body closing rest => do
    let items ← .ofExcept (template.elements (← get).bindings index source)
    items.forM fun element => do
      .write literal
      .bind item element
      template.renderTree (index + 1) body
    .write closing
    template.renderTree (index + 1 + body.size + 1) rest
  | index, .conditional reference literal body closing rest => do
    if ← .ofExcept (template.flag (← get).bindings index reference) then
      .write literal
      template.renderTree (index + 1) body
    .write closing
    template.renderTree (index + 1 + body.size + 1) rest
  | index, .parted reference literal body middle other closing rest => do
    if ← .ofExcept (template.flag (← get).bindings index reference) then
      .write literal
      template.renderTree (index + 1) body
    else
      .write middle
      template.renderTree (index + 1 + body.size + 1) other
    .write closing
    template.renderTree (index + 1 + body.size + 1 + other.size + 1) rest

/-! ## One segment at a time -/

/-- Renders a body inside the block of a directive, one block deeper. -/
def renderBody (template : Template) (depth opener index stop : Nat) : Render Unit :=
  if depth < maxOpenBlocks then template.renderFrom (depth + 1) index stop
  else throw (template.malformedAt opener .nestingTooDeep)

section Steps

variable {template : Template} {depth index stop : Nat} {segment : Segment}

/-- Nothing is rendered from where the rendering stops. -/
theorem renderFrom_outside (template : Template) (depth : Nat) (h : stop ≤ index) :
    template.renderFrom depth index stop = pure () := by
  rw [renderFrom, dif_neg (by omega)]

/-- Nothing is rendered behind the last segment. -/
theorem renderFrom_behind (depth stop : Nat) (h : template.segments[index]? = none) :
    template.renderFrom depth index stop = pure () := by
  rw [renderFrom]
  split
  · split
    · rfl
    · next found hfound => simp [h] at hfound
  · rfl

/-- **One segment.** What its directive does, and then the segments behind it, or behind its
block. -/
theorem renderFrom_at (hsegment : template.segments[index]? = some segment)
    (hstop : index < stop) :
    template.renderFrom depth index stop =
      match segment.directive with
      | .interpolation reference => do
        let value ← .ofExcept (template.evaluate (← get).bindings index reference)
        .writeValue value
        .write segment.literal
        template.renderFrom depth (index + 1) stop
      | .loop item source => do
        let items ← .ofExcept (template.elements (← get).bindings index source)
        match template.closeFrom? (index + 1) false with
        | none => throw (template.malformedAt index .unmatchedOpenBlock)
        | some close =>
          items.forM fun element => do
            .write segment.literal
            .bind item element
            template.renderBody depth index (index + 1) close
          .write (template.literalAt close)
          template.renderFrom depth (close + 1) stop
      | .conditional reference => do
        let set ← .ofExcept (template.flag (← get).bindings index reference)
        match template.conditionalEnds? index with
        | none => throw (template.malformedAt index .unmatchedOpenBlock)
        | some (middle, close) =>
          if set then
            .write segment.literal
            template.renderBody depth index (index + 1) middle
          else if middle < close then
            .write (template.literalAt middle)
            template.renderBody depth index (middle + 1) close
          .write (template.literalAt close)
          template.renderFrom depth (close + 1) stop
      | .close => throw (template.malformedAt index .unexpectedClose)
      | .alternative => throw (template.malformedAt index .unexpectedAlternative) := by
  rw [renderFrom, dif_pos hstop]
  split
  · next hnone => simp [hsegment] at hnone
  · next found hfound =>
    cases hsegment.symm.trans hfound
    cases segment.directive with
    | interpolation reference => rfl
    | loop item source =>
      -- The source is evaluated before the end of the block is looked for.
      refine bind_congr fun progress => bind_congr fun items => ?_
      split
      · next hnone => rw [hnone]
      · next close hclose =>
        rw [hclose]
        rfl
    | conditional reference =>
      refine bind_congr fun progress => bind_congr fun set => ?_
      split
      · next hnone => rw [hnone]
      · next middle close hends =>
        rw [hends]
        by_cases hdepth : depth < maxOpenBlocks
        · simp only [renderBody, if_pos hdepth]
        · simp only [renderBody, if_neg hdepth]
    -- A block that ends without a start is an error in both.
    | close | alternative => rfl

end Steps

/-! ## The whole tree -/

/-- A body that ends where its block does. -/
theorem renderBody_eq {template : Template} {depth opener index stop : Nat} {body : Render Unit}
    (hdepth : depth < maxOpenBlocks)
    (h : template.renderFrom (depth + 1) index stop = (do
      body
      template.renderFrom (depth + 1) stop stop)) :
    template.renderBody depth opener index stop = body := by
  rw [renderBody, if_pos hdepth, h, renderFrom_outside template _ (Nat.le_refl _)]
  exact bind_pure_unit

/-- **Rendering by indices is rendering the tree.** Where a template spells out a tree, inside as
many blocks as leave room for those of the tree, the segments of the tree render as the tree, and
the rendering goes on behind it. -/
theorem renderFrom_tree {template : Template} {tree : Tree} {depth index behind stop : Nat}
    {after : List (Directive × String)} (h : Spells template index (tree.spelling ++ after))
    (hbehind : behind = index + tree.size) (hstop : behind ≤ stop)
    (hdepth : depth + tree.height ≤ maxOpenBlocks) :
    template.renderFrom depth index stop = (do
      template.renderTree index tree
      template.renderFrom depth behind stop) := by
  -- On the tree, wherever it stands: a body stands inside one block more, so the room for its
  -- blocks is what carries the induction.
  induction tree generalizing depth index behind stop after with
  | nil =>
    obtain rfl : behind = index := hbehind
    rfl
  | interpolation reference literal rest ih =>
    rw [Tree.size_interpolation] at hbehind
    rw [Tree.spelling, List.cons_append] at h
    obtain ⟨segment, hsegment, hdirective, rfl⟩ := h.exists_segment
    rw [renderFrom_at hsegment (by omega), hdirective, ih h.tail (by omega) hstop hdepth]
    simp only [renderTree, bind_assoc]
  | loop item source literal body closing rest ihbody ihrest =>
    rw [Tree.size_loop] at hbehind
    rw [Tree.height] at hdepth
    simp only [Tree.spelling, List.cons_append, List.append_assoc] at h
    obtain ⟨segment, hsegment, hdirective, rfl⟩ := h.exists_segment
    have hbody : template.renderBody depth index (index + 1) (index + 1 + body.size)
        = template.renderTree (index + 1) body :=
      renderBody_eq (by omega) (ihbody h.tail rfl (Nat.le_refl _) (by omega))
    have hrest : template.renderFrom depth (index + 1 + body.size + 1) stop = (do
        template.renderTree (index + 1 + body.size + 1) rest
        template.renderFrom depth behind stop) :=
      ihrest h.tail.behind.tail (by omega) hstop (by omega)
    rw [renderFrom_at hsegment (by omega), hdirective, h.tail.closeFrom?_close]
    simp only [hbody, hrest, h.tail.behind.literalAt_eq, renderTree, bind_assoc]
  | conditional reference literal body closing rest ihbody ihrest =>
    rw [Tree.size_conditional] at hbehind
    rw [Tree.height] at hdepth
    simp only [Tree.spelling, List.cons_append, List.append_assoc] at h
    obtain ⟨segment, hsegment, hdirective, rfl⟩ := h.exists_segment
    have hbody : template.renderBody depth index (index + 1) (index + 1 + body.size)
        = template.renderTree (index + 1) body :=
      renderBody_eq (by omega) (ihbody h.tail rfl (Nat.le_refl _) (by omega))
    have hrest : template.renderFrom depth (index + 1 + body.size + 1) stop = (do
        template.renderTree (index + 1 + body.size + 1) rest
        template.renderFrom depth behind stop) :=
      ihrest h.tail.behind.tail (by omega) hstop (by omega)
    rw [renderFrom_at hsegment (by omega), hdirective, h.conditionalEnds?_close]
    -- The conditional is not parted, so there is nothing between its two ends.
    simp only [hbody, hrest, h.tail.behind.literalAt_eq, Nat.lt_irrefl, if_false, renderTree,
      bind_assoc]
    refine bind_congr fun progress => bind_congr fun set => ?_
    cases set <;> simp
  | parted reference literal body middle other closing rest ihbody ihother ihrest =>
    rw [Tree.size_parted] at hbehind
    rw [Tree.height] at hdepth
    simp only [Tree.spelling, List.cons_append, List.append_assoc] at h
    obtain ⟨segment, hsegment, hdirective, rfl⟩ := h.exists_segment
    have hbody : template.renderBody depth index (index + 1) (index + 1 + body.size)
        = template.renderTree (index + 1) body :=
      renderBody_eq (by omega) (ihbody h.tail rfl (Nat.le_refl _) (by omega))
    have hother : template.renderBody depth index (index + 1 + body.size + 1)
        (index + 1 + body.size + 1 + other.size)
        = template.renderTree (index + 1 + body.size + 1) other :=
      renderBody_eq (by omega) (ihother h.tail.behind.tail rfl (Nat.le_refl _) (by omega))
    have hrest : template.renderFrom depth (index + 1 + body.size + 1 + other.size + 1) stop = (do
        template.renderTree (index + 1 + body.size + 1 + other.size + 1) rest
        template.renderFrom depth behind stop) :=
      ihrest h.tail.behind.tail.behind.tail (by omega) hstop (by omega)
    -- The second body is behind the alternative, which is what the index test asks.
    have hparted : index + 1 + body.size < index + 1 + body.size + 1 + other.size := by omega
    rw [renderFrom_at hsegment (by omega), hdirective, h.conditionalEnds?_parted]
    simp only [hbody, hother, hrest, if_pos hparted, h.tail.behind.literalAt_eq,
      h.tail.behind.tail.behind.literalAt_eq, renderTree, bind_assoc]
    refine bind_congr fun progress => bind_congr fun set => ?_
    cases set <;> simp

/-- Segments that spell out just a tree render as the tree. -/
theorem renderFrom_eq_renderTree {template : Template} {tree : Tree} {depth index stop : Nat}
    {after : List (Directive × String)} (h : Spells template index (tree.spelling ++ after))
    (hstop : stop = index + tree.size) (hdepth : depth + tree.height ≤ maxOpenBlocks) :
    template.renderFrom depth index stop = template.renderTree index tree := by
  rw [renderFrom_tree h hstop (Nat.le_refl _) hdepth,
    renderFrom_outside template _ (Nat.le_refl _)]
  exact bind_pure_unit

/-! ## Looking something up -/

section Consult

variable {α β : Type} {found : Bindings → Except Error α} {next : α → Render β}
  {progress : Progress}

/-- What is looked up with success goes on with what is found, and the progress is unchanged. -/
theorem Render.consult_ok {value : α} (h : found progress.bindings = .ok value) :
    (do
      let value ← Render.ofExcept (found (← get).bindings)
      next value : Render β) progress = next value progress := by
  show (Render.ofExcept (found progress.bindings) >>= next) progress = _
  rw [h]
  exact Action.bind_ok rfl

/-- What cannot be looked up fails the rendering, and the progress is unchanged. -/
theorem Render.consult_error {e : Error} (h : found progress.bindings = .error e) :
    (do
      let value ← Render.ofExcept (found (← get).bindings)
      next value : Render β) progress = .error e progress := by
  show (Render.ofExcept (found progress.bindings) >>= next) progress = _
  rw [h]
  exact Action.bind_error rfl

end Consult

/-! ## No template is malformed any more -/

/-- Whether an error says that a template is malformed. -/
def Error.isMalformed : Error → Bool
  | malformed .. => true
  | _ => false

/-- Whether an error is about what a name stands for. -/
def Error.concernsValue : Error → Bool
  | unboundName .. | unknownField .. | wrongKind .. => true
  | _ => false

/-- An error about a value does not call the template malformed. -/
theorem Error.isMalformed_of_concernsValue {e : Error} (h : e.concernsValue = true) :
    e.isMalformed = false := by
  cases e with
  | malformed => cases h
  | unboundName | unknownField | wrongKind | outputFull => rfl

section Lookup

variable {template : Template} {bindings : Bindings} {index : Nat} {reference : Reference}
  {e : Error}

/-- A reference fails with an error about a value. -/
theorem concernsValue_of_evaluate (h : template.evaluate bindings index reference = .error e) :
    e.concernsValue = true := by
  unfold evaluate at h
  split at h
  · cases h
    rfl
  · split at h
    · cases h
    · cases h
      rfl

theorem concernsValue_of_elements (h : template.elements bindings index reference = .error e) :
    e.concernsValue = true := by
  unfold elements at h
  split at h
  · cases h
  · split at h
    · next herror =>
      cases h
      exact concernsValue_of_evaluate herror
    · split at h
      · cases h
      · cases h
        rfl

theorem concernsValue_of_flag (h : template.flag bindings index reference = .error e) :
    e.concernsValue = true := by
  unfold flag at h
  split at h
  · next herror =>
    cases h
    exact concernsValue_of_evaluate herror
  · cases h
  · cases h
    rfl

theorem isMalformed_of_evaluate (h : template.evaluate bindings index reference = .error e) :
    e.isMalformed = false :=
  Error.isMalformed_of_concernsValue (concernsValue_of_evaluate h)

theorem isMalformed_of_elements (h : template.elements bindings index reference = .error e) :
    e.isMalformed = false :=
  Error.isMalformed_of_concernsValue (concernsValue_of_elements h)

theorem isMalformed_of_flag (h : template.flag bindings index reference = .error e) :
    e.isMalformed = false :=
  Error.isMalformed_of_concernsValue (concernsValue_of_flag h)

end Lookup

/-- A property that all actions have which are put together from writing, one after the other. -/
structure Render.Sequences (P : ∀ {α : Type}, Render α → Prop) : Prop where
  pure : ∀ {α : Type} (value : α), P (Pure.pure value : Render α)
  bind : ∀ {α β : Type} {action : Render α} {next : α → Render β}, P action →
    (∀ value, P (next value)) → P (action >>= next)
  write : ∀ s : String, P (Render.write s)

namespace Render.Sequences

variable {P : ∀ {α : Type}, Render α → Prop}

/-- What holds of each turn holds of the loop. -/
theorem forM (h : Sequences P) {α : Type} {items : List α} {action : α → Render Unit}
    (haction : ∀ item, P (action item)) : P (items.forM action) := by
  induction items with
  | nil => exact h.pure _
  | cons item items ih => exact h.bind (haction item) fun _ => ih

/-- A value is written portion by portion. -/
theorem writeValue (h : Sequences P) (value : Value) : P (Render.writeValue value) :=
  h.forM fun portion => h.write portion

end Render.Sequences

/-- A property that all actions have which are put together from writing, binding and looking at
values. What is looked at fails only with errors that do not find the template malformed. -/
structure Render.Composes (P : ∀ {α : Type}, Render α → Prop) : Prop
    extends Render.Sequences @P where
  get : P (MonadState.get : Render Progress)
  bindName : ∀ (name : String) (value : Value), P (Render.bind name value)
  ofExcept : ∀ {α : Type} {result : Except Error α},
    (∀ e, result = .error e → e.isMalformed = false) → P (Render.ofExcept result)

namespace Render.Composes

variable {P : ∀ {α : Type}, Render α → Prop}

/-- Rendering a tree is put together in this way. -/
theorem renderTree (h : Composes P) (template : Template) (index : Nat) (tree : Tree) :
    P (template.renderTree index tree) := by
  induction tree generalizing index with
  | nil => exact h.pure _
  | interpolation reference literal rest ih =>
    refine h.bind h.get fun progress => h.bind (h.ofExcept fun _ => isMalformed_of_evaluate) ?_
    intro value
    exact h.bind (h.writeValue _) fun _ => h.bind (h.write _) fun _ => ih _
  | loop item source literal body closing rest ihbody ihrest =>
    -- The items of the loop are values, which need no induction of their own here: every pass over
    -- the body is a rendering of the same tree.
    refine h.bind h.get fun progress => h.bind (h.ofExcept fun _ => isMalformed_of_elements) ?_
    intro items
    refine h.bind (h.forM fun element => ?_) fun _ => h.bind (h.write _) fun _ => ihrest _
    exact h.bind (h.write _) fun _ => h.bind (h.bindName _ _) fun _ => ihbody _
  | conditional reference literal body closing rest ihbody ihrest =>
    refine h.bind h.get fun progress => h.bind (h.ofExcept fun _ => isMalformed_of_flag) ?_
    intro set
    -- What is behind the block is rendered in both cases.
    have hbehind : P (do
        Render.write closing
        template.renderTree (index + 1 + body.size + 1) rest) :=
      h.bind (h.write _) fun _ => ihrest _
    cases set with
    | true => exact h.bind (h.write _) fun _ => h.bind (ihbody _) fun _ => hbehind
    | false => exact hbehind
  | parted reference literal body middle other closing rest ihbody ihother ihrest =>
    refine h.bind h.get fun progress => h.bind (h.ofExcept fun _ => isMalformed_of_flag) ?_
    intro set
    have hbehind : P (do
        Render.write closing
        template.renderTree (index + 1 + body.size + 1 + other.size + 1) rest) :=
      h.bind (h.write _) fun _ => ihrest _
    cases set with
    | true => exact h.bind (h.write _) fun _ => h.bind (ihbody _) fun _ => hbehind
    | false => exact h.bind (h.write _) fun _ => h.bind (ihother _) fun _ => hbehind

end Render.Composes

/-- Only a full destination fails while texts are written. -/
theorem Render.sequences_raises {allowed : Error → Prop} (houtput : allowed .outputFull) :
    Render.Sequences (Action.Raises allowed) where
  pure := .pure
  bind := .bind
  write s := by
    intro progress e final h
    unfold Render.write at h
    split at h
    · cases h
    · cases h
      exact houtput

/-- A rendering that never finds a template malformed. -/
def Render.Sound {α : Type} (action : Render α) : Prop :=
  ∀ ⦃progress e final⦄, action progress = .error e final → e.isMalformed = false

/-- No step calls the template malformed. -/
theorem Render.composes_sound : Render.Composes Render.Sound where
  toSequences := Render.sequences_raises rfl
  get := by
    intro progress e final h
    cases h
  bindName name value := by
    intro progress e final h
    cases h
  ofExcept {α result} hresult := by
    intro progress e final h
    cases result with
    | ok value => cases h
    | error found =>
      cases h
      exact hresult _ rfl

/-- **Rendering a tree never finds the template malformed.** Its errors come from names, fields,
kinds of values and the destination. -/
theorem renderTree_sound (template : Template) (index : Nat) (tree : Tree) :
    Render.Sound (template.renderTree index tree) :=
  Render.composes_sound.renderTree template index tree

/-! ## Whole templates -/

/-- A template without directives is rendered as it stands. -/
theorem renderText_of_plain (name leading : String) (bindings : Bindings) :
    renderText ⟨name, leading, []⟩ bindings = .ok leading := by
  have hnothing : renderFrom ⟨name, leading, []⟩ 0 0 0 = pure () := by
    rw [renderFrom]
    rfl
  unfold renderText render
  simp only [List.length_nil, hnothing]
  show Except.ok ("" ++ leading) = _
  rw [String.empty_append]

/-- A template that is nested well spells out a tree with room for its blocks. -/
theorem exists_tree_of_checkNesting {template : Template} (h : template.checkNesting = .ok ()) :
    ∃ tree : Tree, tree.spelling = template.spelling ∧ tree.height ≤ maxOpenBlocks := by
  have hwalk : walkNesting [] 0 template.directives = .ok () := by
    unfold checkNesting at h
    split at h
    · assumption
    · cases h
  -- The grammar speaks of the directives alone; the literals are those of the segments.
  refine ((walkNesting_eq_ok_iff template.directives).mp hwalk).exists_tree ?_
  rw [spelling, List.map_map]
  rfl

/-- A template that spells out a tree with room for its blocks renders as the tree. -/
theorem render_of_tree {template : Template} {tree : Tree}
    (htree : tree.spelling = template.spelling) (hheight : tree.height ≤ maxOpenBlocks) :
    template.render = (do
      Render.write template.leading
      template.renderTree 0 tree) := by
  have hspells : Spells template 0 (tree.spelling ++ []) := by
    rw [List.append_nil, htree]
    rfl
  have hlength : template.segments.length = 0 + tree.size := by
    rw [Nat.zero_add, Tree.size, htree, spelling, List.length_map]
  rw [render, renderFrom_eq_renderTree hspells hlength (by omega)]

/-- **Rendering a template is rendering its tree.** A template that is nested well spells out
exactly one tree, and rendering it does the same as writing the leading text and then rendering the
tree, from any bindings and to any destination: the outcome, the error if there is one, the text
and the bindings at the end. The error never is that the template is malformed. -/
theorem render_eq_renderTree {template : Template} (h : template.checkNesting = .ok ()) :
    ∃ tree : Tree, tree.spelling = template.spelling
      ∧ (∀ other : Tree, other.spelling = template.spelling → other = tree)
      ∧ ∀ progress : Progress,
        template.render progress = (do
          Render.write template.leading
          template.renderTree 0 tree : Render Unit) progress
        ∧ ∀ e final, template.render progress = .error e final →
          ∀ location defect text, e ≠ .malformed location defect text := by
  obtain ⟨tree, htree, hheight⟩ := exists_tree_of_checkNesting h
  have hrender := render_of_tree htree hheight
  refine ⟨tree, htree, fun other hother => Tree.eq_of_spelling_eq (hother.trans htree.symm), ?_⟩
  intro progress
  refine ⟨by rw [hrender], ?_⟩
  rintro e final herror location defect text rfl
  rw [hrender] at herror
  have hsound := Render.composes_sound.bind (Render.composes_sound.write template.leading) fun _ =>
    renderTree_sound template 0 tree
  cases hsound herror

/-- A loop around a conditional that is parted:
`a<%foreach (var x in xs) {%>b<%if (x.flag) {%>c<%} else {%>d<%}%>e<%}%>f`. -/
def loopAroundConditional : Template where
  name := "page"
  leading := "a"
  segments :=
    [⟨.loop "x" ⟨"xs", []⟩, "foreach (var x in xs) \x7b", "b", 1⟩,
      ⟨.conditional ⟨"x", ["flag"]⟩, "if (x.flag) \x7b", "c", 1⟩,
      ⟨.alternative, "\x7d else \x7b", "d", 1⟩,
      ⟨.close, "\x7d", "e", 1⟩,
      ⟨.close, "\x7d", "f", 1⟩]

theorem render_loopAroundConditional :
    loopAroundConditional.checkNesting = .ok () ∧ ∃ tree : Tree,
      tree.spelling = loopAroundConditional.spelling
      ∧ (∀ other : Tree, other.spelling = loopAroundConditional.spelling → other = tree)
      ∧ ∀ progress : Progress,
        loopAroundConditional.render progress = (do
          Render.write "a"
          loopAroundConditional.renderTree 0 tree : Render Unit) progress
        ∧ ∀ e final, loopAroundConditional.render progress = .error e final →
          ∀ location defect text, e ≠ .malformed location defect text :=
  ⟨rfl, render_eq_renderTree rfl⟩

end Syllabus.Template
