import Syllabus.Proofs.Template.BlockGrammar

/-!
# Syllabus: the tree of blocks

The directives of a well-formed template, each with the literal text behind it, spell out one tree:
an item, with the items inside it if it is a block, and the items behind it.

* **`Tree.eq_of_spelling_eq`**: a tree can be told from what it spells.
* **`Items.exists_tree`**: items in the sense of the grammar are spelled by a tree that is no
  higher than they may be nested.
-/

namespace Syllabus.Template

/-- Items, the first of them with the directives and literal texts that it consists of, and then
the rest. -/
inductive Tree where
  | nil
  | interpolation (value : Reference) (literal : String) (rest : Tree)
  | loop (item : String) (source : Reference) (literal : String) (body : Tree) (closing : String)
      (rest : Tree)
  | conditional (flag : Reference) (literal : String) (body : Tree) (closing : String)
      (rest : Tree)
  /-- A conditional with an alternative, whose literal is `middle`. -/
  | parted (flag : Reference) (literal : String) (body : Tree) (middle : String) (other : Tree)
      (closing : String) (rest : Tree)

namespace Tree

/-- The directives of a tree in order, each with the literal behind it. -/
def spelling : Tree → List (Directive × String)
  | nil => []
  | interpolation value literal rest => (.interpolation value, literal) :: rest.spelling
  | loop item source literal body closing rest =>
    (.loop item source, literal) :: (body.spelling ++ (.close, closing) :: rest.spelling)
  | conditional flag literal body closing rest =>
    (.conditional flag, literal) :: (body.spelling ++ (.close, closing) :: rest.spelling)
  | parted flag literal body middle other closing rest =>
    (.conditional flag, literal) :: (body.spelling ++ (.alternative, middle) ::
      (other.spelling ++ (.close, closing) :: rest.spelling))

/-- How many directives a tree has. -/
def size (tree : Tree) : Nat := tree.spelling.length

/-- How many blocks of a tree lie in each other. -/
def height : Tree → Nat
  | nil => 0
  | interpolation _ _ rest => rest.height
  | loop _ _ _ body _ rest => max (body.height + 1) rest.height
  | conditional _ _ body _ rest => max (body.height + 1) rest.height
  | parted _ _ body _ other _ rest => max (max body.height other.height + 1) rest.height

@[simp] theorem size_nil : nil.size = 0 := rfl

@[simp] theorem size_interpolation (value : Reference) (literal : String) (rest : Tree) :
    (interpolation value literal rest).size = rest.size + 1 := rfl

/-- A loop has two directives besides those inside it and behind it. -/
@[simp] theorem size_loop (item : String) (source : Reference) (literal : String) (body : Tree)
    (closing : String) (rest : Tree) :
    (loop item source literal body closing rest).size = body.size + rest.size + 2 := by
  simp only [size, spelling, List.length_cons, List.length_append]
  omega

@[simp] theorem size_conditional (flag : Reference) (literal : String) (body : Tree)
    (closing : String) (rest : Tree) :
    (conditional flag literal body closing rest).size = body.size + rest.size + 2 := by
  simp only [size, spelling, List.length_cons, List.length_append]
  omega

@[simp] theorem size_parted (flag : Reference) (literal : String) (body : Tree) (middle : String)
    (other : Tree) (closing : String) (rest : Tree) :
    (parted flag literal body middle other closing rest).size
      = body.size + other.size + rest.size + 3 := by
  simp only [size, spelling, List.length_cons, List.length_append]
  omega

/-! ## One tree for one spelling -/

/-- Whether no item can start here: at the end, or at a directive that ends or parts a block. -/
def Stops : List (Directive × String) → Prop
  | [] => True
  | (directive, _) :: _ => directive = .close ∨ directive = .alternative

theorem stops_nil : Stops [] := trivial

theorem stops_close (literal : String) (rest : List (Directive × String)) :
    Stops ((.close, literal) :: rest) := Or.inl rfl

theorem stops_alternative (literal : String) (rest : List (Directive × String)) :
    Stops ((.alternative, literal) :: rest) := Or.inr rfl

/-- A tree that is spelled where no item starts is empty. -/
theorem eq_nil_of_stops {tree : Tree} {behind others : List (Directive × String)}
    (hothers : Stops others) (h : tree.spelling ++ behind = others) : tree = nil := by
  subst h
  cases tree with
  | nil => rfl
  | interpolation value literal rest | loop item source literal body closing rest
  | conditional flag literal body closing rest
  | parted flag literal body middle other closing rest =>
    rcases hothers with hclose | halternative
    · cases hclose
    · cases halternative

/-- Two trees that spell out the same, up to where no item can start, are the same. The items are
compared one after the other; the inner blocks end at the first place where they can. -/
theorem eq_of_spelling_append {first second : Tree} {behind others : List (Directive × String)}
    (hbehind : Stops behind) (hothers : Stops others)
    (h : first.spelling ++ behind = second.spelling ++ others) :
    first = second ∧ behind = others := by
  -- On the first tree, for every second one and whatever stands behind: a body is compared with
  -- what stands behind it in its block, and only that no item starts there is used.
  induction first generalizing second behind others with
  | nil =>
    obtain rfl := eq_nil_of_stops hbehind h.symm
    exact ⟨rfl, h⟩
  | interpolation value literal rest ih =>
    -- The second tree has to start with the same directive.
    cases second with
    | interpolation value' literal' rest' =>
      simp only [spelling, List.cons_append, List.cons.injEq, Prod.mk.injEq,
        Directive.interpolation.injEq] at h
      obtain ⟨⟨rfl, rfl⟩, h⟩ := h
      obtain ⟨rfl, rfl⟩ := ih hbehind hothers h
      exact ⟨rfl, rfl⟩
    | nil => cases eq_nil_of_stops hothers h
    | loop item source literal body closing rest | conditional flag literal body closing rest
    | parted flag literal body middle other closing rest => simp [spelling] at h
  | loop item source literal body closing rest ihbody ih =>
    cases second with
    | loop item' source' literal' body' closing' rest' =>
      simp only [spelling, List.cons_append, List.append_assoc, List.cons.injEq, Prod.mk.injEq,
        Directive.loop.injEq] at h
      obtain ⟨⟨⟨rfl, rfl⟩, rfl⟩, h⟩ := h
      obtain ⟨rfl, hends⟩ := ihbody (stops_close _ _) (stops_close _ _) h
      simp only [List.cons.injEq, Prod.mk.injEq, true_and] at hends
      obtain ⟨rfl, hrest⟩ := hends
      obtain ⟨rfl, rfl⟩ := ih hbehind hothers hrest
      exact ⟨rfl, rfl⟩
    | nil => cases eq_nil_of_stops hothers h
    | interpolation value literal rest | conditional flag literal body closing rest
    | parted flag literal body middle other closing rest => simp [spelling] at h
  | conditional flag literal body closing rest ihbody ih =>
    cases second with
    | conditional flag' literal' body' closing' rest' =>
      simp only [spelling, List.cons_append, List.append_assoc, List.cons.injEq, Prod.mk.injEq,
        Directive.conditional.injEq] at h
      obtain ⟨⟨rfl, rfl⟩, h⟩ := h
      obtain ⟨rfl, hends⟩ := ihbody (stops_close _ _) (stops_close _ _) h
      simp only [List.cons.injEq, Prod.mk.injEq, true_and] at hends
      obtain ⟨rfl, hrest⟩ := hends
      obtain ⟨rfl, rfl⟩ := ih hbehind hothers hrest
      exact ⟨rfl, rfl⟩
    | parted flag' literal' body' middle' other' closing' rest' =>
      -- The first bodies are the same, but one is closed where the other is parted.
      simp only [spelling, List.cons_append, List.append_assoc, List.cons.injEq] at h
      obtain ⟨_, hends⟩ := ihbody (stops_close _ _) (stops_alternative _ _) h.2
      simp at hends
    | nil => cases eq_nil_of_stops hothers h
    | interpolation value literal rest | loop item source literal body closing rest =>
      simp [spelling] at h
  | parted flag literal body middle other closing rest ihbody ihother ih =>
    cases second with
    | parted flag' literal' body' middle' other' closing' rest' =>
      simp only [spelling, List.cons_append, List.append_assoc, List.cons.injEq, Prod.mk.injEq,
        Directive.conditional.injEq] at h
      obtain ⟨⟨rfl, rfl⟩, h⟩ := h
      obtain ⟨rfl, hends⟩ := ihbody (stops_alternative _ _) (stops_alternative _ _) h
      simp only [List.cons.injEq, Prod.mk.injEq, true_and] at hends
      obtain ⟨rfl, hother⟩ := hends
      obtain ⟨rfl, hends⟩ := ihother (stops_close _ _) (stops_close _ _) hother
      simp only [List.cons.injEq, Prod.mk.injEq, true_and] at hends
      obtain ⟨rfl, hrest⟩ := hends
      obtain ⟨rfl, rfl⟩ := ih hbehind hothers hrest
      exact ⟨rfl, rfl⟩
    | conditional flag' literal' body' closing' rest' =>
      simp only [spelling, List.cons_append, List.append_assoc, List.cons.injEq] at h
      obtain ⟨_, hends⟩ := ihbody (stops_alternative _ _) (stops_close _ _) h.2
      simp at hends
    | nil => cases eq_nil_of_stops hothers h
    | interpolation value literal rest | loop item source literal body closing rest =>
      simp [spelling] at h

theorem eq_of_spelling_eq {first second : Tree} (h : first.spelling = second.spelling) :
    first = second := by
  have happend : first.spelling ++ [] = second.spelling ++ [] := by rw [h]
  exact (eq_of_spelling_append stops_nil stops_nil happend).1

end Tree

/-! ## A tree for items -/

/-- Directives that are items, with whatever literals behind them, are spelled by a tree that is no
higher than the items may be nested. -/
theorem Items.exists_tree {depth : Nat} {directives : List Directive} (h : Items depth directives)
    {pairs : List (Directive × String)} (hpairs : pairs.map Prod.fst = directives) :
    ∃ tree : Tree, tree.spelling = pairs ∧ tree.height ≤ depth := by
  -- On the items. The literals are cut in the same places as the directives.
  induction h generalizing pairs with
  | nil =>
    rw [List.map_eq_nil_iff] at hpairs
    exact ⟨.nil, hpairs.symm, Nat.zero_le _⟩
  | interpolation _ ih =>
    obtain ⟨⟨_, literal⟩, pairs, rfl, rfl, hrest⟩ := List.map_eq_cons_iff.mp hpairs
    obtain ⟨rest, rfl, hheight⟩ := ih hrest
    exact ⟨.interpolation _ literal rest, rfl, hheight⟩
  | loop _ _ ihbody ihrest =>
    obtain ⟨⟨_, literal⟩, pairs, rfl, rfl, htail⟩ := List.map_eq_cons_iff.mp hpairs
    obtain ⟨inside, ending, rfl, hinside, hending⟩ := List.map_eq_append_iff.mp htail
    obtain ⟨⟨_, closing⟩, after, rfl, rfl, hafter⟩ := List.map_eq_cons_iff.mp hending
    obtain ⟨body, rfl, hbody⟩ := ihbody hinside
    obtain ⟨rest, rfl, hrest⟩ := ihrest hafter
    exact ⟨.loop _ _ literal body closing rest, rfl,
      Nat.max_le.mpr ⟨Nat.succ_le_succ hbody, hrest⟩⟩
  | conditional _ _ ihbody ihrest =>
    obtain ⟨⟨_, literal⟩, pairs, rfl, rfl, htail⟩ := List.map_eq_cons_iff.mp hpairs
    obtain ⟨inside, ending, rfl, hinside, hending⟩ := List.map_eq_append_iff.mp htail
    obtain ⟨⟨_, closing⟩, after, rfl, rfl, hafter⟩ := List.map_eq_cons_iff.mp hending
    obtain ⟨body, rfl, hbody⟩ := ihbody hinside
    obtain ⟨rest, rfl, hrest⟩ := ihrest hafter
    exact ⟨.conditional _ literal body closing rest, rfl,
      Nat.max_le.mpr ⟨Nat.succ_le_succ hbody, hrest⟩⟩
  | parted _ _ _ ihbody ihother ihrest =>
    obtain ⟨⟨_, literal⟩, pairs, rfl, rfl, htail⟩ := List.map_eq_cons_iff.mp hpairs
    obtain ⟨inside, parting, rfl, hinside, hparting⟩ := List.map_eq_append_iff.mp htail
    obtain ⟨⟨_, middle⟩, second, rfl, rfl, hsecond⟩ := List.map_eq_cons_iff.mp hparting
    obtain ⟨within, ending, rfl, hwithin, hending⟩ := List.map_eq_append_iff.mp hsecond
    obtain ⟨⟨_, closing⟩, after, rfl, rfl, hafter⟩ := List.map_eq_cons_iff.mp hending
    obtain ⟨body, rfl, hbody⟩ := ihbody hinside
    obtain ⟨other, rfl, hother⟩ := ihother hwithin
    obtain ⟨rest, rfl, hrest⟩ := ihrest hafter
    exact ⟨.parted _ literal body middle other closing rest, rfl,
      Nat.max_le.mpr ⟨Nat.succ_le_succ (Nat.max_le.mpr ⟨hbody, hother⟩), hrest⟩⟩

end Syllabus.Template
