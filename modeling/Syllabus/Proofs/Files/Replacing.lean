import Syllabus.Files.Node
import Syllabus.Proofs.Table

/-!
# Syllabus: changes of one place

Putting a node somewhere and taking one out are one change: what stands at the end of some names is
another node afterwards, or nothing. Seen so, from a node or from nothing, the change goes down
entry by entry, and nothing has to be said twice.

* **`Node.replaced`**: what there is after such a change, with **`Node.some_set`** and
  **`Node.some_remove`** for the two operations.
* **`find?_of_replaced`**: what is found elsewhere.
* **`replaced_same`**, **`replaced_replaced`**: changes that leave everything, or that undo others.
-/

namespace Syllabus

/-! ## Entries -/

namespace Table

variable {α : Type}

/-- The table with another entry of a name, or with none. -/
def replace (table : Table α) (name : String) : Option α → Table α
  | some entry => insert table name entry
  | none => erase table name

/-- Under the name there is what has been put, and under all others what was there. -/
theorem find?_replace (table : Table α) (name other : String) (entry : Option α) :
    (replace table name entry).find? other = if name = other then entry else table.find? other := by
  cases entry with
  | none => exact find?_erase table name other
  | some entry => exact find?_insert table name other entry

/-- Putting what is there already changes nothing. -/
theorem replace_same (table : Table α) (name : String) :
    replace table name (table.find? name) = table := by
  cases h : table.find? name with
  | none => exact erase_eq_self h
  | some entry => exact insert_same h

/-- What was set for a name does not matter when the name is changed once more. -/
theorem replace_replace {table : Table α} {name : String} {first : Option α}
    (h : first = none → table.find? name = none) (entry : Option α) :
    replace (replace table name first) name entry = replace table name entry := by
  cases first with
  | none => rw [replace, erase_eq_self (h rfl)]
  | some old =>
    cases entry with
    | none => exact erase_insert table name old
    | some entry => exact insert_insert table name old entry

end Table

/-! ## Nodes -/

namespace Node

variable {names other : List String} {node later : Node} {new : Option Node}

/-- What there is once another node stands at the end of the names, or nothing does. It differs only
where the names before the last lead to a directory. -/
def replaced (old new : Option Node) : List String → Option Node
  | [] => new
  | name :: rest =>
    match old with
    | some (directory entries) =>
      some (directory (Table.replace entries name (replaced (Table.find? entries name) new rest)))
    | unchanged => unchanged

/-- In a directory only the entry of the first name changes. -/
theorem replaced_directory (entries : List (String × Node)) (new : Option Node) (name : String)
    (rest : List String) :
    replaced (some (directory entries)) new (name :: rest)
      = some (directory (Table.replace entries name
        (replaced (Table.find? entries name) new rest))) := rfl

/-- Where nothing is, nothing is put further down. -/
theorem replaced_none (new : Option Node) (h : names ≠ []) : replaced none new names = none := by
  cases names with
  | nil => exact absurd rfl h
  | cons name rest => rfl

/-- A node stays some node if it is changed further down. -/
theorem exists_replaced (node : Node) (new : Option Node) (h : names ≠ []) :
    ∃ later, some later = replaced (some node) new names := by
  cases names with
  | nil => exact absurd rfl h
  | cons name rest => cases node <;> exact ⟨_, rfl⟩

/-- Putting a node somewhere is such a change. -/
theorem some_set (node new : Node) (names : List String) :
    some (node.set new names) = replaced (some node) (some new) names := by
  induction names generalizing node with
  | nil => rfl
  | cons name rest ih =>
    cases node with
    | file content => rfl
    | directory entries =>
      rw [set, replaced_directory]
      cases hchild : Table.find? entries name with
      | some child =>
        rw [← ih child]
        rfl
      | none =>
        -- Under a new name something is put only if it is the last of the names.
        by_cases hrest : rest = []
        · subst hrest
          rfl
        · rw [replaced_none _ hrest, Table.replace, Table.erase_eq_self hchild]
          exact congrArg some (if_neg hrest)

theorem remove_nil (node : Node) : node.remove [] = node := by cases node <;> rfl

/-- A node cannot be taken out of itself. -/
theorem some_remove (node : Node) (names : List String) :
    some (node.remove names)
      = replaced (some node) (if names = [] then some node else none) names := by
  induction names generalizing node with
  | nil => rw [remove_nil, if_pos rfl, replaced]
  | cons name rest ih =>
    rw [if_neg (List.cons_ne_nil name rest)]
    cases node with
    | file content => rfl
    | directory entries =>
      rw [remove, replaced_directory]
      cases hchild : Table.find? entries name with
      | some child =>
        -- The entry itself is taken out, or something below it.
        by_cases hrest : rest = []
        · subst hrest
          rfl
        · have hinner := ih child
          rw [if_neg hrest] at hinner
          rw [← hinner]
          exact congrArg some (if_neg hrest)
      | none =>
        have hnone : replaced none none rest = none := by cases rest <;> rfl
        rw [hnone, Table.replace, Table.erase_eq_self hchild]

/-! ## What is found -/

/-- Two sequences of names are the same, or one goes on where the other ends, or they part. -/
theorem eq_or_append_or_beside (names other : List String) :
    names = other ∨ (∃ name behind, other = names ++ name :: behind)
      ∨ (∃ name behind, names = other ++ name :: behind) ∨ Beside names other := by
  -- Whichever goes on where the other ends does so by a name, unless they are the same.
  by_cases hup : names <+: other
  · obtain ⟨behind, rfl⟩ := hup
    cases behind with
    | nil => exact .inl (by simp)
    | cons name behind => exact .inr (.inl ⟨name, behind, rfl⟩)
  · by_cases hdown : other <+: names
    · obtain ⟨behind, rfl⟩ := hdown
      cases behind with
      | nil => exact .inl (by simp)
      | cons name behind => exact .inr (.inr (.inl ⟨name, behind, rfl⟩))
    · exact .inr (.inr (.inr ⟨hup, hdown⟩))

theorem Beside.symm (h : Beside names other) : Beside other names := And.symm h

/-- What lies beside the place is found as it was. -/
theorem find?_replaced_of_beside (old new : Option Node) (h : Beside names other) :
    (replaced old new names).bind (·.find? other) = old.bind (·.find? other) := by
  -- On the names as far as they are the same, which leads to entries with different names.
  induction names generalizing old other with
  | nil => exact absurd List.nil_prefix h.1
  | cons name rest ih =>
    cases other with
    | nil => exact absurd List.nil_prefix h.2
    | cons first others =>
      match old with
      | none => rfl
      | some (file content) => rfl
      | some (directory entries) =>
        rw [replaced_directory, Option.bind_some, Option.bind_some, find?_directory_cons,
          find?_directory_cons, Table.find?_replace]
        -- The same name leads on in the same entry, another one to an entry that is kept.
        split
        · next hname =>
          subst hname
          exact ih _ h.of_cons
        · rfl

/-- On the way to the place the change goes on from the node there. -/
theorem find?_replaced_append (old new : Option Node) (before : List String) (name : String)
    (behind : List String) :
    (replaced old new (before ++ name :: behind)).bind (·.find? before)
      = replaced (old.bind (·.find? before)) new (name :: behind) := by
  -- On the names in front, which lead down to the node where the change goes on.
  induction before generalizing old with
  | nil => simp
  | cons first before ih =>
    match old with
    | none => rfl
    | some (file content) => rfl
    | some (directory entries) =>
      rw [List.cons_append, replaced_directory, Option.bind_some, Option.bind_some,
        find?_directory_cons, find?_directory_cons, Table.find?_replace, if_pos rfl]
      exact ih _

/-- A change further down keeps what is there, or changes the entries of a directory. -/
theorem replaced_cons (old new : Option Node) (name : String) (rest : List String) :
    replaced old new (name :: rest) = old
      ∨ ∃ entries others, old = some (directory entries)
        ∧ replaced old new (name :: rest) = some (directory others) := by
  match old with
  | none => exact .inl rfl
  | some (file content) => exact .inl rfl
  | some (directory entries) => exact .inr ⟨entries, _, rfl, rfl⟩

theorem find?_eq_of_beside (hreplaced : some later = replaced (some node) new names)
    (h : Beside names other) : later.find? other = node.find? other := by
  have hsame := find?_replaced_of_beside (some node) new h
  rwa [← hreplaced] at hsame

/-- **What is found elsewhere.** But for the place and what is below it, nothing changes except the
entries of the directories around it. -/
theorem find?_of_replaced (hreplaced : some later = replaced (some node) new names)
    (h : ¬ names <+: other) :
    later.find? other = node.find? other
      ∨ ∃ entries others, node.find? other = some (directory entries)
        ∧ later.find? other = some (directory others) := by
  -- The other names lie at the place or below it, which is ruled out, above it, or beside it.
  rcases eq_or_append_or_beside names other with
    rfl | ⟨name, behind, rfl⟩ | ⟨name, behind, rfl⟩ | hbeside
  · exact absurd List.prefix_rfl h
  · exact absurd (List.prefix_append _ _) h
  · have habove := find?_replaced_append (some node) new other name behind
    rw [← hreplaced, Option.bind_some, Option.bind_some] at habove
    rw [habove]
    exact replaced_cons (node.find? other) new name behind
  · exact .inl (find?_eq_of_beside hreplaced hbeside)

/-! ## Changes that are not seen -/

/-- Putting what is there already changes nothing. -/
theorem replaced_same (old : Option Node) (names : List String) :
    replaced old (old.bind (·.find? names)) names = old := by
  induction names generalizing old with
  | nil => simp [replaced]
  | cons name rest ih =>
    match old with
    | none => rfl
    | some (file content) => rfl
    | some (directory entries) =>
      rw [Option.bind_some, find?_directory_cons, replaced_directory, ih, Table.replace_same]

/-- Putting something somewhere takes nothing away. -/
theorem eq_none_of_replaced {old : Option Node} (h : replaced old (some node) names = none) :
    old = none := by
  cases names with
  | nil => cases h
  | cons name rest =>
    match old with
    | none => rfl
    | some (file content) => cases h
    | some (directory entries) => cases h

/-- What was put first does not matter when something else is put in its place. -/
theorem replaced_replaced (old new : Option Node) (first : Node) (names : List String) :
    replaced (replaced old (some first) names) new names = replaced old new names := by
  -- On the names, down to the entry that is put twice.
  induction names generalizing old with
  | nil => rfl
  | cons name rest ih =>
    match old with
    | none => rfl
    | some (file content) => rfl
    | some (directory entries) =>
      rw [replaced_directory, replaced_directory, replaced_directory, Table.find?_replace,
        if_pos rfl, ih, Table.replace_replace eq_none_of_replaced]

end Node

end Syllabus
