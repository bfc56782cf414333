import Syllabus.Proofs.Files.Operations
import Syllabus.Proofs.Table

/-!
# Syllabus: directories without repeated names

A list of entries can hold a name twice, but no directory does: no operation repeats a name, so a
tree that starts without repeated names never has any.

* **`Performs.distinct`**: what operations keep.
-/

namespace Syllabus

namespace Table

variable {α : Type}

/-- Taking a name away leaves the others different. -/
theorem nodup_erase {table : Table α} (h : (names table).Nodup) (name : String) :
    (names (erase table name)).Nodup :=
  h.sublist (List.filter_sublist.map _)

theorem nodup_replace {table : Table α} (h : (names table).Nodup) (name : String)
    (entry : Option α) : (names (replace table name entry)).Nodup := by
  cases entry with
  | none => exact nodup_erase h name
  | some entry => exact nodup_insert h name entry

end Table

namespace Node

/-- Whether no directory among the nodes repeats a name. -/
def Distinct (node : Node) : Prop :=
  ∀ names entries, node.find? names = some (directory entries) → (Table.names entries).Nodup

theorem distinct_file (content : ByteArray) : (file content).Distinct := by
  intro names entries h
  cases names with
  | nil => cases h
  | cons name rest => cases h

/-- A directory is distinct if its names are different and all in it is distinct. -/
theorem distinct_directory_iff {entries : List (String × Node)} :
    (directory entries).Distinct ↔ (Table.names entries).Nodup
      ∧ ∀ name child, Table.find? entries name = some child → child.Distinct := by
  constructor
  · intro h
    refine ⟨h [] entries (find?_nil _), fun name child hchild names found hfound => ?_⟩
    refine h (name :: names) found ?_
    rw [find?_directory_cons, hchild]
    exact hfound
  · rintro ⟨hnodup, hchildren⟩ names found hfound
    -- The names lead to the directory itself, or into one of its entries.
    cases names with
    | nil =>
      rw [find?_nil] at hfound
      cases hfound
      exact hnodup
    | cons name rest =>
      rw [find?_directory_cons] at hfound
      obtain ⟨child, hchild, hrest⟩ := Option.bind_eq_some_iff.mp hfound
      exact hchildren name child hchild rest found hrest

theorem Distinct.of_entries {entries : List (String × Node)} (hnodup : (Table.names entries).Nodup)
    (h : ∀ entry ∈ entries, entry.2.Distinct) : (directory entries).Distinct :=
  distinct_directory_iff.mpr ⟨hnodup, fun _ _ hchild => h _ (Table.mem_of_find? hchild)⟩

theorem distinct_empty : (directory []).Distinct :=
  distinct_directory_iff.mpr ⟨show [].Nodup from List.nodup_nil, fun _ _ h => by cases h⟩

/-- Directories keep their names apart when an entry is changed. -/
theorem Distinct.replace {entries : List (String × Node)} {new : Option Node}
    (h : (directory entries).Distinct) (name : String) (hnew : ∀ node ∈ new, node.Distinct) :
    (directory (Table.replace entries name new)).Distinct := by
  obtain ⟨hnodup, hchildren⟩ := distinct_directory_iff.mp h
  refine distinct_directory_iff.mpr
    ⟨Table.nodup_replace hnodup name new, fun other child hchild => ?_⟩
  rw [Table.find?_replace] at hchild
  split at hchild
  · exact hnew child hchild
  · exact hchildren other child hchild

/-- Putting something distinct into a distinct node leaves it so. -/
theorem distinct_of_replaced {old new : Option Node} (hold : ∀ node ∈ old, node.Distinct)
    (hnew : ∀ node ∈ new, node.Distinct) (names : List String) :
    ∀ node ∈ replaced old new names, node.Distinct := by
  induction names generalizing old with
  | nil => exact hnew
  | cons name rest ih =>
    match old with
    | none => exact hold
    | some (file content) => exact hold
    | some (directory entries) =>
      have hentries : (directory entries).Distinct := hold _ rfl
      rintro node ⟨⟩
      have hchildren := (distinct_directory_iff.mp hentries).2 name
      exact hentries.replace name (ih hchildren)

end Node

namespace FileTree

def Distinct (tree : FileTree) : Prop := tree.root.Distinct

variable {tree later : FileTree}

/-- Putting or taking out a node without repeated names repeats none. -/
theorem LeafReplaced.distinct {location : List String} {new : Option Node}
    (h : LeafReplaced tree later location new) (htree : tree.Distinct)
    (hnew : ∀ node ∈ new, node.Distinct) : later.Distinct := by
  have hold : ∀ node ∈ some tree.root, node.Distinct := by
    rintro _ ⟨⟩
    exact htree
  exact Node.distinct_of_replaced hold hnew location later.root h.replaced.symm

theorem LeafReplaced.distinct_put {location : List String} {new : Node}
    (h : LeafReplaced tree later location (some new)) (htree : tree.Distinct)
    (hnew : new.Distinct) : later.Distinct := by
  refine h.distinct htree ?_
  rintro _ ⟨⟩
  exact hnew

theorem LeafReplaced.distinct_removed {location : List String}
    (h : LeafReplaced tree later location (if location = [] then some tree.root else none))
    (htree : tree.Distinct) : later.Distinct := by
  refine h.distinct htree fun node hnode => ?_
  split at hnode
  · cases hnode
    exact htree
  · cases hnode

/-- One operation repeats no name. -/
theorem Distinct.apply {operation : Operation} (h : tree.Distinct)
    (happly : operation.apply tree = .ok later) : later.Distinct := by
  -- One case for each operation, from what it replaces.
  cases operation with
  | create directory =>
    exact (leafReplaced_createDirectory happly).distinct_put h Node.distinct_empty
  | write path content =>
    exact (leafReplaced_writeFile happly).distinct_put h (Node.distinct_file content)
  | move source target =>
    obtain rfl | ⟨content, between, _, hremoved, hput⟩ := exists_leafReplaced_of_renameFile happly
    · exact h
    · exact hput.distinct_put (hremoved.distinct_removed h) (Node.distinct_file content)
  | remove path =>
    obtain ⟨rfl, content, hfile⟩ := eq_of_removeFile happly
    exact (leafReplaced_remove hfile).distinct_removed h

end FileTree

/-- **All operations.** No name is repeated if none was. -/
theorem Performs.distinct {allowed : Operation → Prop} {tree later : FileTree}
    (h : Performs allowed tree later) (htree : tree.Distinct) : later.Distinct := by
  induction h with
  | refl => exact htree
  | tail _ hstep ih =>
    obtain ⟨operation, _, happly⟩ := hstep
    exact ih.apply happly

end Syllabus
