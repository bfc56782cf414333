import Syllabus.Table

/-!
# Syllabus: files and directories

A node is a file or a directory of named nodes. The view of a node is `Node.find?`, which follows
names down from it. What is put at the end of names is found there (`find?_set_self`), and what is
taken out is not (`find?_remove_self`).
-/

namespace Syllabus

/-- A file with its bytes, or a directory with its entries by name. -/
inductive Node where
  | file (content : ByteArray)
  | directory (entries : List (String × Node))

namespace Node

def isDirectory : Node → Bool
  | directory _ => true
  | file _ => false

def find? (node : Node) : List String → Option Node
  | [] => some node
  | name :: rest =>
    match node with
    | file _ => none
    | directory entries =>
      match Table.find? entries name with
      | some child => child.find? rest
      | none => none

/-- The node with another one at the end of the names. It changes only where the names before the
last lead to a directory. -/
def set (node new : Node) : List String → Node
  | [] => new
  | name :: rest =>
    match node with
    | file content => file content
    | directory entries =>
      match Table.find? entries name with
      | some child => directory (Table.insert entries name (child.set new rest))
      | none => if rest = [] then directory (Table.insert entries name new) else directory entries

/-- The node without what the names lead to. -/
def remove (node : Node) : List String → Node
  | [] => node
  | name :: rest =>
    match node with
    | file content => file content
    | directory entries =>
      match Table.find? entries name with
      | some child =>
        if rest = [] then directory (Table.erase entries name)
        else directory (Table.insert entries name (child.remove rest))
      | none => directory entries

/-! ## What is found -/

@[simp] theorem find?_nil (node : Node) : node.find? [] = some node := by cases node <;> rfl

/-- The first name leads to an entry, and the others go on from there. -/
theorem find?_directory_cons (entries : List (String × Node)) (name : String)
    (rest : List String) :
    (directory entries).find? (name :: rest)
      = (Table.find? entries name).bind (·.find? rest) := by
  rw [find?]
  cases Table.find? entries name <;> rfl

/-- Names are followed one after the other. -/
theorem find?_append (node : Node) (before behind : List String) :
    node.find? (before ++ behind) = (node.find? before).bind (·.find? behind) := by
  -- On the names in front, from the node that they have led to so far.
  induction before generalizing node with
  | nil => simp
  | cons name rest ih =>
    cases node with
    | file content => rfl
    | directory entries =>
      rw [List.cons_append, find?_directory_cons, find?_directory_cons]
      cases Table.find? entries name with
      | none => rfl
      | some child => exact ih child

/-- What is put below an entry changes this entry alone. -/
theorem set_directory_cons {entries : List (String × Node)} {name : String} {child : Node}
    (found : Table.find? entries name = some child) (new : Node) (rest : List String) :
    (directory entries).set new (name :: rest)
      = directory (Table.insert entries name (child.set new rest)) := by
  rw [set, found]

/-- What is put at the end of names is found there, if there is a directory around it. -/
theorem find?_set_self (node new : Node) (names : List String)
    (around : names ≠ [] → ∃ entries, node.find? names.dropLast = some (directory entries)) :
    (node.set new names).find? names = some new := by
  induction names generalizing node with
  | nil => simp [set]
  | cons name rest ih =>
    obtain ⟨inside, around⟩ := around (by simp)
    cases node with
    | file content => cases rest <;> simp [find?] at around
    | directory entries =>
      -- The last name sets an entry; the others go through one that is a directory already.
      cases rest with
      | nil =>
        cases found : Table.find? entries name <;>
          simp [set, found, find?_directory_cons, Table.find?_insert]
      | cons next rest =>
        rw [List.dropLast_cons_cons, find?_directory_cons] at around
        cases found : Table.find? entries name with
        | none => simp [found] at around
        | some child =>
          have := ih child fun _ => ⟨inside, by simpa [found] using around⟩
          rw [set_directory_cons found, find?_directory_cons]
          simpa [Table.find?_insert] using this

/-- Two sequences of names part when neither goes on where the other ends. -/
def Beside (a b : List String) : Prop := ¬ a <+: b ∧ ¬ b <+: a

/-- The first name does not matter where both have it. -/
theorem Beside.of_cons {name : String} {a b : List String} (h : Beside (name :: a) (name :: b)) :
    Beside a b := by
  simpa [Beside] using h

/-- What is taken out is not found any more. -/
theorem find?_remove_self (node : Node) {names : List String} (h : names ≠ []) :
    (node.remove names).find? names = none := by
  induction names generalizing node with
  | nil => exact absurd rfl h
  | cons name rest ih =>
    cases node with
    | file content => rfl
    | directory entries =>
      cases found : Table.find? entries name with
      | none => simp [remove, found, find?_directory_cons]
      | some child =>
        by_cases last : rest = []
        · simp [remove, found, last, find?_directory_cons, Table.find?_erase]
        · simp [remove, found, last, find?_directory_cons, Table.find?_insert, ih child last]

end Node

end Syllabus
