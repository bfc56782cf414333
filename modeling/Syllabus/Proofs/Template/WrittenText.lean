import Syllabus.Proofs.Template.TreeRendering

/-!
# Syllabus: what a tree of blocks writes

Rules for the text that the tree of a template writes, one for each kind of item. Each rule asks
for the values that the item looks at. Bindings may hold more than is known of them, which is how
they come out of a loop: its item stays bound.

* **`Tree.Completes`**: a tree goes on from a text to a longer one, whatever stands around it.
* **`renderText_of_completes`**: the text of a whole template.
-/

namespace Syllabus.Template

/-! ## What is known of bindings -/

/-- Whether bindings hold all that is known of them: the values and perhaps others, and just the
sequences. -/
structure Bindings.Extends (bindings known : Bindings) : Prop where
  values : ∀ ⦃name value⦄, known.values.find? name = some value →
    bindings.values.find? name = some value
  sequences : bindings.sequences = known.sequences

section Known

variable {bindings known : Bindings} {template : Template} {index : Nat}

theorem Bindings.Extends.refl (bindings : Bindings) : bindings.Extends bindings :=
  ⟨fun _ _ h => h, rfl⟩

/-- Binding the same name keeps what is known. -/
theorem Bindings.Extends.bind (h : bindings.Extends known) (name : String) (value : Value) :
    (bindings.bind name value).Extends (known.bind name value) where
  values other found hfound := by
    rw [Bindings.bind, Table.find?_insert] at hfound ⊢
    split
    · next hname => rwa [if_pos hname] at hfound
    · next hname =>
      rw [if_neg hname] at hfound
      exact h.values hfound
  sequences := h.sequences

/-- A name of which nothing was known can be left bound. -/
theorem Bindings.Extends.of_bind {name : String} {value : Value}
    (h : bindings.Extends (known.bind name value)) (hnew : known.values.find? name = none) :
    bindings.Extends known where
  values other found hfound := by
    refine h.values ?_
    rw [Bindings.bind, Table.find?_insert, if_neg]
    · exact hfound
    · -- The name itself had no value that could be lost.
      rintro rfl
      rw [hnew] at hfound
      cases hfound
  sequences := h.sequences

/-- A reference with a known value has it in all bindings that extend the known ones. -/
theorem evaluate_of_extends (h : bindings.Extends known) {reference : Reference} {value : Value}
    (hvalue : template.evaluate known index reference = .ok value) :
    template.evaluate bindings index reference = .ok value := by
  unfold evaluate at hvalue ⊢
  split at hvalue
  · cases hvalue
  · next hfound =>
    rw [h.values hfound]
    exact hvalue

theorem elements_of_extends (h : bindings.Extends known) {source : Reference} {items : List Value}
    (hitems : template.elements known index source = .ok items) :
    template.elements bindings index source = .ok items := by
  unfold elements at hitems ⊢
  rw [h.sequences]
  split at hitems
  · exact hitems
  · -- No sequence is known of that name, so the source is a value.
    split at hitems
    · cases hitems
    · next hvalue =>
      rw [evaluate_of_extends h hvalue]
      exact hitems

theorem flag_of_extends (h : bindings.Extends known) {reference : Reference} {set : Bool}
    (hset : template.flag known index reference = .ok set) :
    template.flag bindings index reference = .ok set := by
  unfold flag at hset ⊢
  -- Only a flag that is known to be set or not set is looked at.
  split at hset
  · cases hset
  · next hvalue =>
    rw [evaluate_of_extends h hvalue]
    exact hset
  · cases hset

end Known

/-! ## What is written for a value -/

namespace Value

/-- The sign and the digits make up the integer. -/
theorem join_intPortions (value : Int) : String.join (intPortions value) = toString value := by
  cases value with
  | ofNat n | negSucc n =>
    simp only [intPortions, String.join_cons, String.join_nil, String.append_empty]
    rfl

mutual

/-- The portions of a value are what is displayed. -/
theorem join_portions (value : Value) : String.join value.portions = value.display := by
  cases value with
  | null | float value => rfl
  | int value => exact join_intPortions value
  | list items => exact join_portionsAll items
  | bool value | text value | date value | view value | record kind fields items =>
    simp [portions]

/-- The portions of several values are what is displayed of them, with commas between them. -/
theorem join_portionsAll (items : List Value) :
    String.join (portionsAll items) = ", ".intercalate (displayAll items) := by
  -- As for a list that is written: no comma for none or one.
  match items with
  | [] => rfl
  | [value] =>
    rw [portionsAll, displayAll, displayAll, String.intercalate_singleton, join_portions value]
  | value :: next :: rest =>
    rw [portionsAll, displayAll, displayAll, String.intercalate_cons_cons, String.join_append,
      String.join_cons, join_portions value, join_portionsAll (next :: rest), displayAll,
      String.append_assoc]

end

end Value

/-! ## Actions -/

namespace Render

/-- Whether an action writes a text. It starts from bindings that hold all that is known, with a
destination that has no limit, and loses nothing that is known. -/
def Writes (known : Bindings) (text : String) (action : Render Unit) : Prop :=
  ∀ progress : Progress, progress.bindings.Extends known → progress.destination.limit = none →
    ∃ bindings : Bindings,
      action progress = .ok () ⟨bindings, ⟨progress.destination.text ++ text, none⟩⟩
        ∧ bindings.Extends known

namespace Writes

variable {known : Bindings} {text first second : String}

/-- Nothing is written by doing nothing. -/
theorem nothing (known : Bindings) : Writes known "" (pure ()) := by
  rintro ⟨bindings, written, limit⟩ hknown rfl
  refine ⟨bindings, ?_, hknown⟩
  rw [String.append_empty]
  rfl

theorem write (known : Bindings) (s : String) : Writes known s (Render.write s) := by
  rintro ⟨bindings, written, limit⟩ hknown rfl
  exact ⟨bindings, rfl, hknown⟩

/-- One text behind the other is written in two steps. -/
theorem andThen {action : Render Unit} {next : Unit → Render Unit}
    (haction : Writes known first action) (hnext : Writes known second (next ())) :
    Writes known (first ++ second) (action >>= next) := by
  intro progress hknown hlimit
  obtain ⟨bindings, hfirst, hbindings⟩ := haction progress hknown hlimit
  obtain ⟨bindings', hsecond, hbindings'⟩ :=
    hnext ⟨bindings, ⟨progress.destination.text ++ first, none⟩⟩ hbindings rfl
  -- The second action goes on from the bindings and the text of the first.
  refine ⟨bindings', ?_, hbindings'⟩
  rw [Action.bind_ok hfirst, ← String.append_assoc]
  exact hsecond

/-- Looking something up that is known. -/
theorem look {α : Type} {found : Bindings → Except Error α} {value : α} {next : α → Render Unit}
    (hfound : ∀ bindings : Bindings, bindings.Extends known → found bindings = .ok value)
    (hnext : Writes known text (next value)) :
    Writes known text (do
      let value ← Render.ofExcept (found (← get).bindings)
      next value) := by
  intro progress hknown hlimit
  obtain ⟨bindings, hnext, hbindings⟩ := hnext progress hknown hlimit
  exact ⟨bindings, (Render.consult_ok (hfound _ hknown)).trans hnext, hbindings⟩

/-- A new name is known behind its binding. -/
theorem bindName {name : String} {value : Value} {next : Unit → Render Unit}
    (hnew : known.values.find? name = none)
    (hnext : Writes (known.bind name value) text (next ())) :
    Writes known text (Render.bind name value >>= next) := by
  intro progress hknown hlimit
  obtain ⟨bindings, hnext, hbindings⟩ := hnext
    ⟨progress.bindings.bind name value, progress.destination⟩ (hknown.bind name value) hlimit
  -- What the binding adds is not among what is known in front of it.
  exact ⟨bindings, hnext, hbindings.of_bind hnew⟩

/-- A loop over values writes the text of each. -/
theorem forM {α : Type} {value : α → Value} {action : Value → Render Unit} {textOf : α → String}
    (things : List α) (h : ∀ thing, Writes known (textOf thing) (action (value thing))) :
    Writes known (String.join (things.map textOf)) ((things.map value).forM action) := by
  -- On the things, in order; each turn leaves what is known.
  induction things with
  | nil => exact nothing known
  | cons thing things ih =>
    rw [List.map_cons, List.map_cons, String.join_cons]
    exact (h thing).andThen ih

/-- Portions are written as their whole. -/
theorem portions (known : Bindings) (portions : List String) :
    Writes known (String.join portions) (portions.forM Render.write) := by
  induction portions with
  | nil => exact nothing known
  | cons portion portions ih =>
    rw [String.join_cons]
    exact (write known portion).andThen ih

/-- A value writes what is displayed for it. -/
theorem writeValue (known : Bindings) (value : Value) :
    Writes known value.display (Render.writeValue value) := by
  rw [← value.join_portions]
  -- The portions together are the text.
  exact portions known value.portions

end Writes

end Render

/-! ## Trees -/

/-- Whether a tree goes on from the text before it to a whole text, in any template and at any
place of it. -/
def Tree.Completes (known : Bindings) (before whole : String) (tree : Tree) : Prop :=
  ∃ text, before ++ text = whole
    ∧ ∀ template index, Render.Writes known text (renderTree template index tree)

namespace Tree.Completes

variable {known : Bindings} {before whole inside literal closing : String} {reference : Reference}
  {body rest : Tree}

theorem nil (h : before = whole) : Completes known before whole .nil :=
  ⟨"", by rw [String.append_empty, h], fun _ _ => .nothing known⟩

/-- A reference adds what is shown for its value, and the literal behind it. -/
theorem interpolation (shown : String)
    (hshown : ∀ template index,
      (evaluate template known index reference).map Value.display = .ok shown)
    (hrest : Completes known (before ++ shown ++ literal) whole rest) :
    Completes known before whole (.interpolation reference literal rest) := by
  obtain ⟨text, rfl, hrest⟩ := hrest
  refine ⟨shown ++ (literal ++ text), by simp only [String.append_assoc], fun template index => ?_⟩
  -- The reference has a value, since something is shown for it.
  cases hvalue : evaluate template known index reference with
  | error e =>
    have herror := hshown template index
    rw [hvalue] at herror
    cases herror
  | ok value =>
    have hdisplay := hshown template index
    rw [hvalue] at hdisplay
    cases hdisplay
    refine .look (fun bindings hbindings => evaluate_of_extends hbindings hvalue) ?_
    exact (Render.Writes.writeValue known _).andThen
      ((Render.Writes.write known _).andThen (hrest template _))

/-- A loop adds the texts of its turns. -/
theorem loop {α : Type} {value : α → Value} {things : List α} {item : String} {source : Reference}
    (textOf : α → String)
    (hitems : ∀ template index, elements template known index source = .ok (things.map value))
    (hnew : known.values.find? item = none)
    (hbody : ∀ thing, Completes (known.bind item (value thing)) literal (textOf thing) body)
    (hrest : Completes known (before ++ String.join (things.map textOf) ++ closing) whole rest) :
    Completes known before whole (.loop item source literal body closing rest) := by
  obtain ⟨text, rfl, hrest⟩ := hrest
  refine ⟨String.join (things.map textOf) ++ (closing ++ text),
    by simp only [String.append_assoc], fun template index => ?_⟩
  refine .look (fun bindings hbindings => elements_of_extends hbindings (hitems template index)) ?_
  refine (Render.Writes.forM things fun thing => ?_).andThen
    ((Render.Writes.write known _).andThen (hrest template _))
  -- In a turn the literal is written, the item is bound, and then comes the body.
  obtain ⟨inside, hinside, hbody⟩ := hbody thing
  rw [← hinside]
  exact (Render.Writes.write known _).andThen (.bindName hnew (hbody template _))

/-- The body of a block is written behind the text in front of it, and then what follows. -/
theorem followedBy (h : Completes known literal inside body) {behind : String}
    {next : Render Unit} (hnext : Render.Writes known behind next) (template : Template)
    (index : Nat) :
    Render.Writes known (inside ++ behind) (do
      Render.write literal
      renderTree template index body
      next) := by
  obtain ⟨written, rfl, hwritten⟩ := h
  rw [String.append_assoc]
  exact (Render.Writes.write known _).andThen ((hwritten template index).andThen hnext)

/-- A conditional adds its part if the flag is set. -/
theorem conditional {set : Bool}
    (hset : ∀ template index, flag template known index reference = .ok set)
    (hbody : set = true → Completes known literal inside body)
    (hrest : Completes known (before ++ (if set then inside else "") ++ closing) whole rest) :
    Completes known before whole (.conditional reference literal body closing rest) := by
  obtain ⟨text, rfl, hrest⟩ := hrest
  refine ⟨(if set then inside else "") ++ (closing ++ text), by simp only [String.append_assoc],
    fun template index => ?_⟩
  refine .look (fun bindings hbindings => flag_of_extends hbindings (hset template index)) ?_
  have hbehind : Render.Writes known (closing ++ text) (do
      Render.write closing
      renderTree template (index + 1 + body.size + 1) rest) :=
    (Render.Writes.write known closing).andThen (hrest template _)
  -- The literal behind the end is written in both cases.
  cases set with
  | true =>
    rw [if_pos rfl]
    exact (hbody rfl).followedBy hbehind template _
  | false =>
    rw [if_neg Bool.false_ne_true, String.empty_append]
    exact hbehind

/-- A block that is written for a value, if there is one. -/
theorem optional {α : Type} {value : Option α} (textOf : α → String)
    (hset : ∀ template index, flag template known index reference = .ok value.isSome)
    (hbody : ∀ found, value = some found → Completes known literal (textOf found) body)
    (hrest : Completes known (before ++ value.elim "" textOf ++ closing) whole rest) :
    Completes known before whole (.conditional reference literal body closing rest) := by
  have hinside : (if value.isSome then value.elim "" textOf else "") = value.elim "" textOf := by
    cases value <;> rfl
  refine conditional hset (fun hsome => ?_) (hinside ▸ hrest)
  obtain ⟨found, rfl⟩ := Option.isSome_iff_exists.mp hsome
  exact hbody found rfl

/-- A conditional with two parts adds the one that the flag selects. -/
theorem parted {set : Bool} {middle inOther : String} {other : Tree}
    (hset : ∀ template index, flag template known index reference = .ok set)
    (hbody : set = true → Completes known literal inside body)
    (hother : set = false → Completes known middle inOther other)
    (hrest : Completes known (before ++ (if set then inside else inOther) ++ closing) whole rest) :
    Completes known before whole (.parted reference literal body middle other closing rest) := by
  obtain ⟨text, rfl, hrest⟩ := hrest
  refine ⟨(if set then inside else inOther) ++ (closing ++ text),
    by simp only [String.append_assoc], fun template index => ?_⟩
  refine .look (fun bindings hbindings => flag_of_extends hbindings (hset template index)) ?_
  have hbehind : Render.Writes known (closing ++ text) (do
      Render.write closing
      renderTree template (index + 1 + body.size + 1 + other.size + 1) rest) :=
    (Render.Writes.write known closing).andThen (hrest template _)
  -- Either part is followed by the literal behind the end.
  cases set with
  | true =>
    rw [if_pos rfl]
    exact (hbody rfl).followedBy hbehind template _
  | false =>
    rw [if_neg Bool.false_ne_true]
    exact (hother rfl).followedBy hbehind template _

end Tree.Completes

/-! ## Whole templates -/

/-- What a template that spells out a tree is rendered as: its leading text, as far as the tree goes
on from it. -/
theorem renderText_of_completes {template : Template} {tree : Tree} {bindings : Bindings}
    {whole : String} (htree : template.spelling = tree.spelling)
    (hheight : tree.height ≤ maxOpenBlocks)
    (hcompletes : tree.Completes bindings template.leading whole) :
    template.renderText bindings = .ok whole := by
  obtain ⟨text, rfl, hwrites⟩ := hcompletes
  -- Outside of the tree there is only the leading text.
  have hall : Render.Writes bindings (template.leading ++ text) template.render := by
    rw [render_of_tree htree.symm hheight]
    exact (Render.Writes.write bindings _).andThen (hwrites template 0)
  obtain ⟨_, hfinal, _⟩ := hall { bindings } (.refl bindings) rfl
  unfold renderText
  rw [show template.render.run { bindings } = template.render { bindings } from rfl, hfinal]
  exact congrArg Except.ok String.empty_append

end Syllabus.Template
