import Syllabus.Proofs.Files.Distinct
import Syllabus.Template.Library

/-!
# Syllabus: directories in another order

A directory lists its entries in some order, which says nothing about what is in it. Two trees that
differ in these orders only have the same files below every directory, though in another order, and
a path leads to the same in both.

* **`Node.Reordered`**: nodes that differ in the orders of their entries.
* **`Node.Reordered.filesBelow_perm`**: the files below them are the same.
* **`FileTree.Reordered.find_eq`**: so is where paths lead to.
-/

namespace Syllabus

namespace Table

variable {α : Type}

/-- A name is looked up in the first table, and then in the other. -/
theorem find?_append (table rest : Table α) (name : String) :
    find? (table ++ rest) name = (find? table name).or (find? rest name) := by
  induction table with
  | nil => rfl
  | cons first table ih =>
    rw [List.cons_append, find?, find?, ih]
    split <;> rfl

end Table

namespace Node

variable {node between other : Node} {entries others : List (String × Node)}

/-- Whether nodes differ at most in the order in which directories list their entries: the nodes
themselves, or directories inside them. -/
inductive Reordered : Node → Node → Prop where
  | refl (node : Node) : Reordered node node
  | trans {node between other : Node} (h : Reordered node between)
      (hnext : Reordered between other) : Reordered node other
  | listed {entries others : List (String × Node)} (h : entries.Perm others) :
      Reordered (directory entries) (directory others)
  | inside {before behind : List (String × Node)} {name : String} {node other : Node}
      (h : Reordered node other) :
      Reordered (directory (before ++ (name, node) :: behind))
        (directory (before ++ (name, other) :: behind))

/-! ## The files below -/

/-- The files among entries are those below each of them. -/
theorem filesAmong_eq_flatMap (start : String) (entries : List (String × Node)) :
    filesAmong start entries
      = entries.flatMap fun entry => entry.2.filesBelow (start ++ entry.1) := by
  induction entries with
  | nil =>
    rw [filesAmong]
    rfl
  | cons entry entries ih =>
    obtain ⟨name, node⟩ := entry
    rw [filesAmong, List.flatMap_cons, ih]

/-- The order of the entries does not change which files are among them. -/
theorem filesAmong_of_perm (start : String) (h : entries.Perm others) :
    (filesAmong start entries).Perm (filesAmong start others) := by
  rw [filesAmong_eq_flatMap, filesAmong_eq_flatMap]
  exact h.flatMap_right _

/-- A change inside one entry that keeps the files below it keeps those of the directory. -/
theorem filesAmong_of_inside {before behind : List (String × Node)} {name : String}
    (start : String) (h : ∀ name, (node.filesBelow name).Perm (other.filesBelow name)) :
    (filesAmong start (before ++ (name, node) :: behind)).Perm
      (filesAmong start (before ++ (name, other) :: behind)) := by
  rw [filesAmong_eq_flatMap, filesAmong_eq_flatMap, List.flatMap_append, List.flatMap_append,
    List.flatMap_cons, List.flatMap_cons]
  exact ((h _).append_right _).append_left _

/-- A reordered node has the same files below it. -/
theorem Reordered.filesBelow_perm (h : Reordered node other) (name : String) :
    (node.filesBelow name).Perm (other.filesBelow name) := by
  induction h generalizing name with
  | refl node => exact .refl _
  | trans _ _ ih ihnext => exact (ih name).trans (ihnext name)
  | listed h =>
    rw [filesBelow, filesBelow]
    exact filesAmong_of_perm _ h
  | inside _ ih =>
    rw [filesBelow, filesBelow]
    exact filesAmong_of_inside _ ih

theorem Reordered.eq_file {content : ByteArray} (h : Reordered node other)
    (hnode : node = file content) : other = file content := by
  induction h with
  | refl node => exact hnode
  | trans _ _ ih ihnext => exact ihnext (ih hnode)
  | listed h => cases hnode
  | inside _ _ => cases hnode

/-- **A directory in another order is a directory with the same files below it.** -/
theorem Reordered.exists_directory (h : Reordered node other) (hnode : node = directory entries) :
    ∃ others, other = directory others
      ∧ ∀ start, (filesAmong start entries).Perm (filesAmong start others) := by
  -- On how the entries were reordered, one change after another.
  induction h generalizing entries with
  | refl node => exact ⟨entries, hnode, fun _ => .refl _⟩
  | trans _ _ ih ihnext =>
    obtain ⟨middle, hmiddle, hfiles⟩ := ih hnode
    obtain ⟨others, hothers, hfiles'⟩ := ihnext hmiddle
    exact ⟨others, hothers, fun start => (hfiles start).trans (hfiles' start)⟩
  | listed h =>
    cases hnode
    exact ⟨_, rfl, fun start => filesAmong_of_perm start h⟩
  | inside h _ =>
    cases hnode
    exact ⟨_, rfl, fun start => filesAmong_of_inside start h.filesBelow_perm⟩

/-! ## What is found -/

/-- The names in a distinct directory are different. -/
theorem Distinct.nodup (h : (directory entries).Distinct) : (Table.names entries).Nodup :=
  (distinct_directory_iff.mp h).1

/-- What is in a distinct directory is distinct. -/
theorem Distinct.of_mem (h : (directory entries).Distinct) {entry : String × Node}
    (hentry : entry ∈ entries) : entry.2.Distinct :=
  (distinct_directory_iff.mp h).2 entry.1 entry.2 (Table.find?_eq_some_of_mem h.nodup hentry)

/-- Reordering keeps a node distinct. -/
theorem Reordered.distinct (h : Reordered node other) (hdistinct : node.Distinct) :
    other.Distinct := by
  induction h with
  | refl node => exact hdistinct
  | trans _ _ ih ihnext => exact ihnext (ih hdistinct)
  | listed h =>
    exact .of_entries ((h.map _).nodup_iff.mp hdistinct.nodup) fun entry hentry =>
      hdistinct.of_mem (h.mem_iff.mpr hentry)
  | @inside before behind name node other _ ih =>
    -- The entry is changed inside, so the names around it stay.
    have hnames : Table.names (before ++ (name, other) :: behind)
        = Table.names (before ++ (name, node) :: behind) := by
      simp only [Table.names, List.map_append, List.map_cons]
    refine .of_entries (hnames ▸ hdistinct.nodup) fun entry hentry => ?_
    rcases List.mem_append.mp hentry with hbefore | hrest
    · exact hdistinct.of_mem (List.mem_append_left _ hbefore)
    · rcases List.mem_cons.mp hrest with rfl | hbehind
      · exact ih (hdistinct.of_mem (List.mem_append_right _ List.mem_cons_self))
      · exact hdistinct.of_mem (List.mem_append_right _ (List.mem_cons_of_mem _ hbehind))

/-- What is found is related to itself. -/
theorem rel_refl (found : Option Node) : Option.Rel Reordered found found := by
  cases found with
  | none => exact .none
  | some node => exact .some (.refl node)

/-- Two reorderings of what is found are one. -/
theorem rel_trans {first second third : Option Node} (h : Option.Rel Reordered first second)
    (hnext : Option.Rel Reordered second third) : Option.Rel Reordered first third := by
  cases h with
  | none => exact hnext
  | some h =>
    cases hnext with
    | some hnext => exact .some (h.trans hnext)

/-- **Names lead to the same**, up to the order of what is inside. -/
theorem Reordered.find? (h : Reordered node other) (hdistinct : node.Distinct)
    (names : List String) : Option.Rel Reordered (node.find? names) (other.find? names) := by
  induction h generalizing names with
  | refl node => exact rel_refl _
  | trans h _ ih ihnext =>
    exact rel_trans (ih hdistinct names) (ihnext (h.distinct hdistinct) names)
  | listed h =>
    -- In a listed directory each name is there once, wherever it stands.
    cases names with
    | nil => exact .some (.listed h)
    | cons name rest =>
      rw [find?_directory_cons, find?_directory_cons, Table.find?_of_perm hdistinct.nodup h]
      exact rel_refl _
  | @inside before behind name node other h ih =>
    have hnode : node.Distinct :=
      hdistinct.of_mem (List.mem_append_right before (List.mem_cons_self (a := (name, node))))
    cases names with
    | nil => exact .some (.inside h)
    | cons first rest =>
      rw [find?_directory_cons, find?_directory_cons, Table.find?_append, Table.find?_append,
        Table.find?, Table.find?]
      -- The name is that of the changed entry only if it comes up there first.
      cases Table.find? before first with
      | some child => exact rel_refl _
      | none =>
        by_cases hname : name = first
        · rw [if_pos hname, if_pos hname]
          exact ih hnode rest
        · rw [if_neg hname, if_neg hname]
          exact rel_refl _

/-- What names lead to in two nodes: to nothing, to the same file, or to directories with the same
files below them. -/
inductive FindCases (node other : Node) (names : List String) : Prop where
  | none (hnode : node.find? names = none) (hother : other.find? names = none)
  | file {content : ByteArray} (hnode : node.find? names = some (.file content))
      (hother : other.find? names = some (.file content))
  | directory {entries others : List (String × Node)}
      (hnode : node.find? names = some (.directory entries))
      (hother : other.find? names = some (.directory others))
      (hfiles : ∀ start, (filesAmong start entries).Perm (filesAmong start others))

/-- In both trees nothing is found, the same file, or a directory with the same files below it. -/
theorem Reordered.find?_cases (h : Reordered node other) (hdistinct : node.Distinct)
    (names : List String) : FindCases node other names := by
  have hfound := h.find? hdistinct names
  cases hnode : node.find? names with
  | none =>
    cases hother : other.find? names with
    | none => exact .none hnode hother
    | some found' =>
      rw [hnode, hother] at hfound
      cases hfound
  | some found =>
    cases hother : other.find? names with
    | none =>
      rw [hnode, hother] at hfound
      cases hfound
    | some found' =>
      rw [hnode, hother] at hfound
      cases hfound with
      | some hfound =>
        cases found with
        | file content => exact .file hnode (hother.trans (congrArg some (hfound.eq_file rfl)))
        | directory entries =>
          obtain ⟨others, rfl, hfiles⟩ := hfound.exists_directory rfl
          exact .directory hnode hother hfiles

end Node

namespace FileTree

variable {tree other : FileTree}

/-- Whether trees differ at most in the order in which their directories list their entries. -/
structure Reordered (tree other : FileTree) : Prop where
  root : tree.root.Reordered other.root
  workingDirectory : other.workingDirectory = tree.workingDirectory

namespace Reordered

variable (h : tree.Reordered other) (hdistinct : tree.Distinct)

include h hdistinct

/-- A name can be followed in both trees or in none. -/
theorem step_eq (location : List String) (name : String) :
    other.step location name = tree.step location name := by
  unfold step
  cases h.root.find?_cases hdistinct location with
  | none hnode hother => rw [hnode, hother]
  | file hnode hother => rw [hnode, hother]
  | directory hnode hother _ => rw [hnode, hother]

theorem locate_eq (path : Path) : other.locate path = tree.locate path := by
  unfold locate
  rw [h.workingDirectory, funext₂ (h.step_eq hdistinct)]

theorem contains_eq (path : Path) : other.contains path = tree.contains path := by
  unfold contains find
  rw [h.locate_eq hdistinct]
  cases tree.locate path with
  | error fault => rfl
  | ok location =>
    dsimp only [Bind.bind, Except.bind]
    cases h.root.find?_cases hdistinct location with
    | none hnode hother => rw [hnode, hother]
    | file hnode hother => rw [hnode, hother]
    | directory hnode hother _ => rw [hnode, hother]

/-- **What is read of a directory is the same**, up to the order. -/
theorem readDirectory_cases (path : Path) :
    (∃ fault, tree.readDirectory path = .error fault ∧ other.readDirectory path = .error fault)
      ∨ ∃ entries others, tree.readDirectory path = .ok entries
        ∧ other.readDirectory path = .ok others
        ∧ ∀ start, (Node.filesAmong start entries).Perm (Node.filesAmong start others) := by
  unfold readDirectory find
  rw [h.locate_eq hdistinct]
  -- The path is refused in both trees, or what it leads to has the same files below it.
  cases tree.locate path with
  | error fault => exact .inl ⟨fault, rfl, rfl⟩
  | ok location =>
    dsimp only [Bind.bind, Except.bind]
    cases h.root.find?_cases hdistinct location with
    | none hnode hother =>
      rw [hnode, hother]
      exact .inl ⟨_, rfl, rfl⟩
    | file hnode hother =>
      rw [hnode, hother]
      cases path.endsWithSlash <;> exact .inl ⟨_, rfl, rfl⟩
    | directory hnode hother hfiles =>
      rw [hnode, hother]
      exact .inr ⟨_, _, rfl, rfl, hfiles⟩

end Reordered

end FileTree

end Syllabus
