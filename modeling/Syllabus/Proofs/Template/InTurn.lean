import Syllabus.Proofs.Template.Destinations
import Syllabus.Proofs.Template.Displacement

/-!
# Syllabus: rendering two templates in turn

A template behind another renders after it, from the bindings that the loops of the first have
left. The first has to be nested well: then no block of it looks for its end among the directives
of the second, and its last literal, which goes on with the text in front of the second, is written
exactly once and at the very end.

The two texts that meet there are written at once, all of it or nothing. Only a destination that
becomes full at that place can tell.

* **`Tree.extend`**: a tree with more text behind its last literal.
* **`Render.Fuses`**: an action that does the same as one that writes in smaller portions.
* **`fuses_extend`**: more text behind a tree is written behind it, by induction on the tree.
* **`render_append`**: two texts behind each other are read and rendered as their templates in turn.
-/

namespace Syllabus.Template

/-! ## More text behind a tree -/

namespace Tree

/-- The literal in front of a tree, with more text behind it if the tree is empty. -/
def lead (literal text : String) : Tree → String
  | nil => literal ++ text
  | _ => literal

/-- A tree with more text behind its last literal. -/
def extend (text : String) : Tree → Tree
  | nil => nil
  | interpolation value literal rest =>
    interpolation value (rest.lead literal text) (rest.extend text)
  | loop item source literal body closing rest =>
    loop item source literal body (rest.lead closing text) (rest.extend text)
  | conditional flag literal body closing rest =>
    conditional flag literal body (rest.lead closing text) (rest.extend text)
  | parted flag literal body middle other closing rest =>
    parted flag literal body middle other (rest.lead closing text) (rest.extend text)

/-- More text does not change how deep the blocks are nested. -/
theorem height_extend (text : String) (tree : Tree) : (tree.extend text).height = tree.height := by
  induction tree with
  | nil => rfl
  | interpolation value literal rest ih => exact ih
  | loop item source literal body closing rest _ ih
  | conditional flag literal body closing rest _ ih => rw [extend, height, height, ih]
  | parted flag literal body middle other closing rest _ _ ih => rw [extend, height, height, ih]

theorem size_extend (text : String) (tree : Tree) : (tree.extend text).size = tree.size := by
  induction tree with
  | nil => rfl
  | interpolation | loop | conditional | parted => simp [extend, *]

/-- More text behind the last of some literals. -/
def extendLast (text : String) (pairs : List (Directive × String)) : List (Directive × String) :=
  pairs.modifyLast fun pair => (pair.1, pair.2 ++ text)

/-- What the last item of a tree ends in is what its rest does, or the literal in front of that. -/
theorem extendLast_behind {text : String} {rest : Tree}
    (h : (rest.extend text).spelling = extendLast text rest.spelling)
    (front : List (Directive × String)) (directive : Directive) (literal : String) :
    extendLast text (front ++ (directive, literal) :: rest.spelling)
      = front ++ (directive, rest.lead literal text) :: (rest.extend text).spelling := by
  have hrest : extendLast text ((directive, literal) :: rest.spelling)
      = (directive, rest.lead literal text) :: (rest.extend text).spelling := by
    cases rest with
    | nil => rfl
    | interpolation | loop | conditional | parted =>
      rw [h]
      exact List.modifyLast_append_of_right_ne_nil _ [_] _ (List.cons_ne_nil _ _)
  rw [← hrest]
  exact List.modifyLast_append_of_right_ne_nil _ front _ (List.cons_ne_nil _ _)

theorem spelling_extend (text : String) (tree : Tree) :
    (tree.extend text).spelling = extendLast text tree.spelling := by
  induction tree with
  | nil => rfl
  | interpolation value literal rest ih => exact (extendLast_behind ih [] _ literal).symm
  | loop item source literal body closing rest _ ih =>
    exact (extendLast_behind ih ((.loop item source, literal) :: body.spelling) _ closing).symm
  | conditional flag literal body closing rest _ ih =>
    exact (extendLast_behind ih ((.conditional flag, literal) :: body.spelling) _ closing).symm
  | parted flag literal body middle other closing rest _ _ ih =>
    have hlast := extendLast_behind ih ((.conditional flag, literal) ::
      (body.spelling ++ (.alternative, middle) :: other.spelling)) .close closing
    simp only [List.cons_append, List.append_assoc] at hlast
    exact hlast.symm

end Tree

/-! ## Writing at once or in two -/

namespace Render

/-- An action that leaves the limit of the destination alone. -/
def KeepsLimit {α : Type} (action : Render α) : Prop :=
  ∀ ⦃progress value final⦄, action progress = .ok value final →
    final.destination.limit = progress.destination.limit

/-- No step of a rendering changes the limit of the destination. -/
theorem composes_keepsLimit : Composes KeepsLimit where
  pure value := by
    intro progress found final h
    cases h
    rfl
  bind {α β action next} haction hnext := by
    intro progress value final h
    obtain ⟨found, between, hfirst, hsecond⟩ := Action.exists_of_bind_eq_ok h
    exact (hnext found hsecond).trans (haction hfirst)
  get := by
    intro progress value final h
    cases h
    rfl
  write s := by
    intro progress value final h
    unfold write at h
    split at h
    · cases h
      rfl
    · cases h
  bindName name value := by
    intro progress found final h
    cases h
    rfl
  ofExcept {α result} _ := by
    intro progress value final h
    cases result with
    | ok value =>
      cases h
      rfl
    | error e => cases h

/-- Whether an action does the same as another that writes in smaller portions. Only where the
destination is full the smaller portions may leave some more text. -/
def Fuses (fused parted : Render Unit) : Prop :=
  ∀ progress : Progress, fused progress = parted progress
    ∨ ∃ limit, progress.destination.limit = some limit ∧ ∃ (final : Progress) (text : String),
      fused progress = .error .outputFull final
      ∧ parted progress = .error .outputFull
        { final with destination.text := final.destination.text ++ text }

/-- Two texts are written at once or one after the other. -/
theorem fuses_write (s t : String) :
    Fuses (write (s ++ t)) (do
      write s
      write t) := by
  intro progress
  have htakes := progress.destination.takes_append s t
  -- Where the first text is too long already, both are refused.
  cases hfirst : progress.destination.takes s with
  | false =>
    rw [hfirst, Bool.false_and] at htakes
    refine .inl ((write_of_not_takes htakes).trans ?_)
    exact (Action.bind_error (write_of_not_takes hfirst)).symm
  | true =>
    rw [hfirst, Bool.true_and] at htakes
    rw [Action.bind_ok (write_of_takes hfirst)]
    cases hsecond : (progress.destination.append s).takes t with
    | true =>
      rw [write_of_takes (htakes.trans hsecond), write_of_takes hsecond, Destination.append_append]
      exact .inl rfl
    | false =>
      -- The first portion is written, and the second is one too many.
      obtain ⟨limit, hlimit⟩ := Destination.exists_limit_of_takes hsecond
      exact .inr ⟨limit, hlimit, progress, s, write_of_not_takes (htakes.trans hsecond),
        write_of_not_takes hsecond⟩

namespace Fuses

variable {fused parted : Render Unit}

/-- Two renderings that fuse still do behind the same action. -/
theorem after {α : Type} {action : Render α} {fused parted : α → Render Unit}
    (haction : KeepsLimit action) (h : ∀ value, Fuses (fused value) (parted value)) :
    Fuses (action >>= fused) (action >>= parted) := by
  intro progress
  cases hresult : action progress with
  | ok value between =>
    rw [Action.bind_ok hresult, Action.bind_ok hresult, ← haction hresult]
    exact h value between
  | error e final => exact .inl ((Action.bind_error hresult).trans (Action.bind_error hresult).symm)

theorem before (h : Fuses fused parted) (next : Unit → Render Unit) :
    Fuses (fused >>= next) (parted >>= next) := by
  intro progress
  rcases h progress with hsame | ⟨limit, hlimit, final, text, hfused, hparted⟩
  · cases hresult : parted progress with
    | ok value between =>
      exact .inl ((Action.bind_ok (hsame.trans hresult)).trans (Action.bind_ok hresult).symm)
    | error e final =>
      exact .inl ((Action.bind_error (hsame.trans hresult)).trans (Action.bind_error hresult).symm)
  · exact .inr ⟨limit, hlimit, final, text, Action.bind_error hfused, Action.bind_error hparted⟩

end Fuses

end Render

/-! ## A tree with more text behind it -/

section Agree

variable {first second : Template} {index : Nat}

/-- At the same place a reference has the same value or error. -/
theorem evaluate_congr (h : first.location index = second.location index) (bindings : Bindings)
    (reference : Reference) :
    first.evaluate bindings index reference = second.evaluate bindings index reference := by
  unfold evaluate
  rw [h]

theorem elements_congr (h : first.location index = second.location index) (bindings : Bindings)
    (source : Reference) :
    first.elements bindings index source = second.elements bindings index source := by
  unfold elements
  rw [evaluate_congr h, h]

theorem flag_congr (h : first.location index = second.location index) (bindings : Bindings)
    (reference : Reference) :
    first.flag bindings index reference = second.flag bindings index reference := by
  unfold flag
  rw [evaluate_congr h, h]

/-- Rendering a tree asks a template only where its directives stand. -/
theorem renderTree_congr {bound : Nat}
    (hsame : ∀ index < bound, first.location index = second.location index) (index : Nat)
    {tree : Tree} (h : index + tree.size ≤ bound) :
    first.renderTree index tree = second.renderTree index tree := by
  -- On the tree: each directive is at an index below the bound.
  induction tree generalizing index with
  | nil => rfl
  | interpolation reference literal rest ih =>
    rw [Tree.size_interpolation] at h
    simp only [renderTree, evaluate_congr (hsame index (by omega)), ih (index + 1) (by omega)]
  | loop item source literal body closing rest ihbody ihrest =>
    rw [Tree.size_loop] at h
    simp only [renderTree, elements_congr (hsame index (by omega)),
      ihbody (index + 1) (by omega), ihrest (index + 1 + body.size + 1) (by omega)]
  | conditional reference literal body closing rest ihbody ihrest =>
    rw [Tree.size_conditional] at h
    simp only [renderTree, flag_congr (hsame index (by omega)),
      ihbody (index + 1) (by omega), ihrest (index + 1 + body.size + 1) (by omega)]
  | parted reference literal body middle other closing rest ihbody ihother ihrest =>
    rw [Tree.size_parted] at h
    simp only [renderTree, flag_congr (hsame index (by omega)),
      ihbody (index + 1) (by omega), ihother (index + 1 + body.size + 1) (by omega),
      ihrest (index + 1 + body.size + 1 + other.size + 1) (by omega)]

end Agree

/-- **More text behind a tree is written behind it.** -/
theorem fuses_extend (template : Template) (index : Nat) (literal text : String) (tree : Tree) :
    Render.Fuses
      (do
        Render.write (tree.lead literal text)
        template.renderTree index (tree.extend text))
      (do
        Render.write literal
        template.renderTree index tree
        Render.write text) := by
  have hkeeps := Render.composes_keepsLimit
  -- On the tree, with the literal in front of it, since that is the one that grows in the end.
  induction tree generalizing index literal with
  | nil =>
    simp only [renderTree, Tree.extend, Tree.lead, pure_bind, bind_pure_unit]
    exact Render.fuses_write literal text
  | interpolation reference following rest ih =>
    simp only [renderTree, Tree.extend, bind_assoc]
    refine .after (hkeeps.write _) fun _ => .after hkeeps.get fun progress => ?_
    refine .after (hkeeps.ofExcept fun _ => isMalformed_of_evaluate) fun value => ?_
    exact .after (hkeeps.writeValue _) fun _ => ih _ following
  | loop item source following body closing rest _ ih =>
    simp only [renderTree, Tree.extend, bind_assoc]
    refine .after (hkeeps.write _) fun _ => .after hkeeps.get fun progress => ?_
    refine .after (hkeeps.ofExcept fun _ => isMalformed_of_elements) fun items => ?_
    -- The text comes behind the block, so the turns are the same.
    refine .after (hkeeps.forM fun element => ?_) fun _ => ih _ closing
    exact hkeeps.bind (hkeeps.write _) fun _ => hkeeps.bind (hkeeps.bindName _ _) fun _ =>
      hkeeps.renderTree template _ body
  | conditional reference following body closing rest _ ih =>
    simp only [renderTree, Tree.extend, bind_assoc]
    refine .after (hkeeps.write _) fun _ => .after hkeeps.get fun progress => ?_
    refine .after (hkeeps.ofExcept fun _ => isMalformed_of_flag) fun set => ?_
    cases set with
    | true =>
      simp only [if_true, bind_assoc]
      exact .after (hkeeps.write _) fun _ => .after (hkeeps.renderTree template _ body) fun _ =>
        ih _ closing
    | false =>
      simp only [Bool.false_eq_true, if_false, bind_assoc]
      exact ih _ closing
  -- Either part is rendered alike, and the text is behind the block again.
  | parted reference following body middle other closing rest _ _ ih =>
    simp only [renderTree, Tree.extend, bind_assoc]
    refine .after (hkeeps.write _) fun _ => .after hkeeps.get fun progress => ?_
    refine .after (hkeeps.ofExcept fun _ => isMalformed_of_flag) fun set => ?_
    cases set with
    | true =>
      simp only [if_true, bind_assoc]
      exact .after (hkeeps.write _) fun _ => .after (hkeeps.renderTree template _ body) fun _ =>
        ih _ closing
    | false =>
      simp only [Bool.false_eq_true, if_false, bind_assoc]
      exact .after (hkeeps.write _) fun _ => .after (hkeeps.renderTree template _ other) fun _ =>
        ih _ closing

/-! ## Whole templates -/

section Append

variable {first second : Template}

theorem lines_extend (template : Template) (text : String) :
    (template.extend text).segments.map Segment.line = template.segments.map Segment.line := by
  rcases List.eq_nil_or_concat' template.segments with h | ⟨front, last, h⟩
  · rw [extend_of_nil h, h]
  · rw [extend_of_concat h, h]
    simp

/-- The text comes behind the last literal of the template. -/
theorem spelling_extend (template : Template) (text : String) :
    (template.extend text).spelling = Tree.extendLast text template.spelling := by
  rcases List.eq_nil_or_concat' template.segments with h | ⟨front, last, h⟩
  · rw [extend_of_nil h, spelling, spelling, h]
    rfl
  · rw [extend_of_concat h, spelling, spelling, h, Tree.extendLast, List.map_append,
      List.map_append, List.map_singleton, List.map_singleton, List.modifyLast_concat]

/-- More text comes behind the leading text only if there is no directive. -/
theorem leading_extend {template : Template} {tree : Tree}
    (h : tree.spelling = template.spelling) (text : String) :
    (template.extend text).leading = tree.lead template.leading text := by
  rw [extend, spelling] at *
  cases hsegments : template.segments with
  | nil =>
    rw [hsegments] at h
    obtain rfl : tree = .nil := Tree.eq_nil_of_stops Tree.stops_nil (by rw [h]; rfl)
    rfl
  | cons first rest =>
    rw [hsegments] at h
    cases tree with
    | nil => cases h
    | interpolation | loop | conditional | parted => rfl

/-- There are as many segments as before. -/
theorem length_extend (template : Template) (text : String) :
    (template.extend text).segments.length = template.segments.length := by
  simpa using congrArg List.length (lines_extend template text)

/-- A directive of the first template is where it was. -/
theorem location_append {index : Nat} (h : index < first.segments.length) :
    (first.append second).location index = first.location index := by
  have hline : (first.append second).segments[index]?.map Segment.line
      = first.segments[index]?.map Segment.line := by
    rw [← List.getElem?_map, ← List.getElem?_map, ← lines_extend first second.leading, append,
      List.map_append, List.getElem?_append_left]
    rwa [List.length_map, length_extend]
  rw [location, location, hline]
  rfl

/-- The second template is displaced behind the first. -/
theorem displaced_append (hname : second.name = first.name) :
    Displaced second (first.append second) first.lineBreaks first.segments.length where
  name_eq := hname.symm
  segments_eq := List.drop_left' (length_extend first second.leading)

/-- The directives and literals of both, from the first on. -/
theorem spells_append {tree : Tree} (h : tree.spelling = first.spelling) :
    Spells (first.append second) 0
      ((tree.extend second.leading).spelling ++ second.spelling) := by
  rw [Tree.spelling_extend, h, ← spelling_extend]
  show (first.append second).spelling = _
  rw [append, spelling, spelling, List.map_append, spelling, List.map_map]
  rfl

/-- One template and then another. What goes wrong in the second is told as if it stood behind the
first. -/
def renderInTurn (first second : Template) : Render Unit := do
  first.render
  EStateM.adaptExcept (Error.moved first.lineBreaks first.segments.length) second.render

/-- **Rendering two templates at once is rendering them in turn.** -/
theorem fuses_append (hname : second.name = first.name) (hnested : first.checkNesting = .ok ()) :
    Render.Fuses (first.append second).render (first.renderInTurn second) := by
  obtain ⟨tree, htree, hheight⟩ := exists_tree_of_checkNesting hnested
  have hsize : tree.size = first.segments.length := by
    rw [Tree.size, htree, spelling, List.length_map]
  have hlength : (first.append second).segments.length
      = first.segments.length + second.segments.length := by
    rw [append, List.length_append, length_extend, List.length_map]
  -- The tree of the first is rendered, then what is behind it, which is the second.
  have hsplit : (first.append second).renderFrom 0 0 (first.append second).segments.length = (do
      (first.append second).renderTree 0 (tree.extend second.leading)
      (first.append second).renderFrom 0 first.segments.length
        (first.segments.length + second.segments.length)) := by
    rw [hlength]
    refine renderFrom_tree (spells_append htree) ?_ (Nat.le_add_right _ _) ?_
    · rw [Tree.size_extend, hsize, Nat.zero_add]
    · rwa [Tree.height_extend, Nat.zero_add]
  -- In the tree of the first the errors are at the places in the first.
  have hfront : (first.append second).renderTree 0 (tree.extend second.leading)
      = first.renderTree 0 (tree.extend second.leading) := by
    refine renderTree_congr (fun _ => location_append) 0 ?_
    rw [Tree.size_extend, hsize, Nat.zero_add]
  have hbehind := (displaced_append hname).renderFrom 0 0 second.segments.length
  have hleading : (first.append second).leading = tree.lead first.leading second.leading :=
    leading_extend htree second.leading
  rw [Nat.add_zero] at hbehind
  rw [render, hsplit, hfront, hbehind, hleading, renderInTurn, render_of_tree htree hheight, render]
  simp only [Render.adaptExcept_bind, Render.adaptExcept_write]
  have hfuses := (fuses_extend first 0 first.leading second.leading tree).before fun _ =>
    EStateM.adaptExcept (Error.moved first.lineBreaks first.segments.length)
      (second.renderFrom 0 0 second.segments.length)
  simpa only [bind_assoc] using hfuses

end Append

/-- **Rendering is compositional.** Two texts that can be read make up one that is read as the
second template behind the first, unless an opening marker arises where they meet. If the first is
nested well, rendering the whole is rendering the first and, if that succeeds, the second from the
bindings that the first has left: the same text, the same bindings at the end and the same error,
one in the second by its line and number in the whole. A destination with a limit can only make a
difference where it becomes full between the two texts that meet: they are written at once. -/
theorem render_append {name first second : String} {A B : Template}
    (hfirst : parse name first = .ok A) (hsecond : parse name second = .ok B)
    (hnested : A.checkNesting = .ok ())
    (hseam : ¬ (['<'] <:+ first.toList ∧ ['%'] <+: second.toList)) :
    parse name (first ++ second) = .ok (A.append B)
      ∧ A.lineBreaks = Text.lineBreaks first.toList
      ∧ (∀ progress : Progress, progress.destination.limit = none →
        (A.append B).render progress = A.renderInTurn B progress)
      ∧ Render.Fuses (A.append B).render (A.renderInTurn B) := by
  have hA := source_of_parse hfirst
  have hB := source_of_parse hsecond
  have hfuses : Render.Fuses (A.append B).render (A.renderInTurn B) :=
    fuses_append (hB.1.trans hA.1.symm) hnested
  refine ⟨parse_append hfirst hsecond hseam, by rw [lineBreaks, hA.2.1], ?_, hfuses⟩
  intro progress hunlimited
  rcases hfuses progress with hsame | ⟨limit, hlimit, _⟩
  · exact hsame
  · cases hunlimited.symm.trans hlimit

/-- A loop, whose item stays bound behind it: `<%foreach (var x in xs) {%>a`, a line break and
`<%}%>b`. -/
def loopOverItems : Template where
  name := "page"
  leading := ""
  segments :=
    [⟨.loop "x" ⟨"xs", []⟩, "foreach (var x in xs) \x7b", "a\n", 1⟩, ⟨.close, "\x7d", "b", 2⟩]

/-- The item and a name: `c<%#x%>`, a line break and `<%#y%>`. -/
def itemAndName : Template where
  name := "page"
  leading := "c"
  segments :=
    [⟨.interpolation ⟨"x", []⟩, "#x", "\n", 1⟩, ⟨.interpolation ⟨"y", []⟩, "#y", "", 2⟩]

/-- Two such templates, of which the second starts in the last line of the first. -/
theorem render_loopOverItems_itemAndName :
    parse "page" loopOverItems.source = .ok loopOverItems
      ∧ parse "page" itemAndName.source = .ok itemAndName
      ∧ loopOverItems.checkNesting = .ok ()
      ∧ ¬ (['<'] <:+ loopOverItems.source.toList ∧ ['%'] <+: itemAndName.source.toList)
      ∧ parse "page" (loopOverItems.source ++ itemAndName.source)
        = .ok (loopOverItems.append itemAndName)
      ∧ loopOverItems.lineBreaks = Text.lineBreaks loopOverItems.source.toList
      ∧ (∀ progress : Progress, progress.destination.limit = none →
        (loopOverItems.append itemAndName).render progress
          = loopOverItems.renderInTurn itemAndName progress)
      ∧ Render.Fuses (loopOverItems.append itemAndName).render
        (loopOverItems.renderInTurn itemAndName) := by
  have hfirst : parse "page" loopOverItems.source = .ok loopOverItems := by decide +kernel
  have hsecond : parse "page" itemAndName.source = .ok itemAndName := by decide +kernel
  have hseam : ¬ (['<'] <:+ loopOverItems.source.toList ∧ ['%'] <+: itemAndName.source.toList) := by
    decide +kernel
  exact ⟨hfirst, hsecond, rfl, hseam, render_append hfirst hsecond rfl hseam⟩

/-- The name that is not bound is the second of its template and the fourth of both. -/
example : (loopOverItems.append itemAndName).renderText { sequences := [("xs", [.int 1])] }
    = .error (.unboundName ⟨"page", 3, 4⟩ "y") := by
  decide +kernel

end Syllabus.Template
