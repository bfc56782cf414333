import Syllabus.Proofs.Files.Directories
import Syllabus.Proofs.Files.Distinct
import Syllabus.Proofs.Files.Names

/-!
# Syllabus: what operations add to a file tree

New files are where operations write, and new directories where they make one. All these places are
spelled by names, so a tree in which everything has a name stays one, whatever is done to it.

* **`Performs.addsOnly`**: what is new after operations.
* **`Performs.proper`**: trees in which every entry has a name of its own.
-/

namespace Syllabus

open FileTree

variable {tree later : FileTree} {written made : List String → Prop}

namespace FileTree.AddsOnly

theorem imp {written' made' : List String → Prop} (h : AddsOnly written made tree later)
    (hwritten : ∀ place, written place → written' place)
    (hmade : ∀ place, made place → made' place) : AddsOnly written' made' tree later where
  workingDirectory := h.workingDirectory
  files place _ hfile := (h.files hfile).imp_right (hwritten place)
  directories place hplace := (h.directories hplace).imp_right (hmade place)

/-- Where only files change, these are all that can be new. -/
theorem of_changes (h : Changes written tree later)
    (hdirectories : ∀ place, later.HasDirectory place → tree.HasDirectory place) :
    AddsOnly written made tree later where
  workingDirectory := h.workingDirectory
  files place content hfile := by
    by_cases hplace : written place
    · exact .inr hplace
    · rw [h.files place hplace] at hfile
      exact .inl hfile
  directories place hplace := .inl (hdirectories place hplace)

theorem exists_of_find? (h : AddsOnly written made tree later) {place : List String} {node : Node}
    (hnode : later.root.find? place = some node) :
    (∃ before, tree.root.find? place = some before) ∨ written place ∨ made place := by
  cases node with
  | file content =>
    rcases h.files (fileAt_eq_some_iff.mpr hnode) with hold | hnew
    · exact .inl ⟨_, fileAt_eq_some_iff.mp hold⟩
    · exact .inr (.inl hnew)
  | directory entries =>
    rcases h.directories ⟨entries, hnode⟩ with ⟨others, hold⟩ | hnew
    · exact .inl ⟨_, hold⟩
    · exact .inr (.inr hnew)

end FileTree.AddsOnly

/-! ## Operations -/

theorem Operation.addsOnly_of_apply {operation : Operation}
    (h : operation.apply tree = .ok later) :
    AddsOnly (fun place => ∃ path ∈ operation.files, place = path.place tree.workingDirectory)
      (fun place => ∃ path, operation = .create path ∧ place = path.place tree.workingDirectory)
      tree later := by
  have hchanges := changes_of_apply h
  cases operation with
  | create path => exact (addsOnly_createDirectory h).mono fun place hplace => ⟨path, rfl, hplace⟩
  | write path content => exact .of_changes hchanges fun _ => hasDirectory_of_writeFile h
  | move source target => exact .of_changes hchanges fun _ => hasDirectory_of_renameFile h
  | remove path =>
    obtain ⟨rfl, _⟩ := eq_of_removeFile h
    exact addsOnly_remove tree _

/-- **What operations add.** New files are where one writes, new directories where one makes
them. -/
theorem Performs.addsOnly {allowed : Operation → Prop} (h : Performs allowed tree later)
    (hwritten : ∀ operation, allowed operation → ∀ path ∈ operation.files,
      written (path.place tree.workingDirectory))
    (hmade : ∀ path, allowed (.create path) → made (path.place tree.workingDirectory)) :
    AddsOnly written made tree later := by
  induction h with
  | refl => exact .refl written made tree
  | @tail between later _ hstep ih =>
    obtain ⟨operation, hallowed, happly⟩ := hstep
    refine ih.trans ((Operation.addsOnly_of_apply happly).imp ?_ ?_)
    · rintro _ ⟨path, hpath, rfl⟩
      rw [ih.workingDirectory]
      exact hwritten operation hallowed path hpath
    · rintro _ ⟨path, rfl, rfl⟩
      rw [ih.workingDirectory]
      exact hmade path hallowed

/-! ## Names -/

namespace Path

theorem isName_of_mem_enter {name : String} {location : List String}
    (hlocation : ∀ other ∈ location, IsName other) (hname : name ≠ "" ∧ '/' ∉ name.toList) :
    ∀ other ∈ enter location name, IsName other := by
  intro other hother
  rw [enter] at hother
  -- The name is idle, goes back up, or is added at the end.
  split at hother
  · exact hlocation other hother
  · next hself =>
    split at hother
    · exact hlocation other (List.dropLast_subset location hother)
    · next hparent =>
      rcases List.mem_append.mp hother with hold | hlast
      · exact hlocation other hold
      · rw [List.mem_singleton.mp hlast]
        exact ⟨hname.1, hname.2, hself, hparent⟩

theorem isName_of_mem_foldl_enter {names location : List String}
    (hlocation : ∀ name ∈ location, IsName name)
    (hnames : ∀ name ∈ names, name ≠ "" ∧ '/' ∉ name.toList) :
    ∀ name ∈ names.foldl enter location, IsName name := by
  -- On the names, with the location that they have led to.
  induction names generalizing location with
  | nil => exact hlocation
  | cons first names ih =>
    obtain ⟨hfirst, hrest⟩ := List.forall_mem_cons.mp hnames
    exact ih (isName_of_mem_enter hlocation hfirst) hrest

/-- A place is spelled by names. -/
theorem isName_of_mem_place {start : List String} (hstart : ∀ name ∈ start, IsName name)
    (path : Path) : ∀ name ∈ path.place start, IsName name := by
  refine isName_of_mem_foldl_enter (fun name hname => absurd hname List.not_mem_nil) ?_
  intro name hname
  -- The names are those of the working directory, or parts between slashes.
  rcases List.mem_append.mp hname with hbefore | hbehind
  · split at hbefore
    · exact absurd hbefore List.not_mem_nil
    · exact ⟨(hstart name hbefore).nonempty, (hstart name hbefore).noSlash⟩
  · obtain ⟨hpart, hnonempty⟩ := List.mem_filter.mp hbehind
    exact ⟨by simpa using hnonempty, not_mem_of_mem_fields hpart⟩

end Path

/-- Whether a tree is like one that is really there: every entry of a directory has a name, which no
other entry of this directory has. -/
structure FileTree.Proper (tree : FileTree) : Prop where
  distinct : tree.Distinct
  names : ∀ ⦃place node⦄, tree.root.find? place = some node → ∀ name ∈ place, Path.IsName name
  working : ∀ name ∈ tree.workingDirectory, Path.IsName name

/-- **Names.** Operations give names to what they add. -/
theorem Performs.proper {allowed : Operation → Prop} (h : Performs allowed tree later)
    (htree : tree.Proper) : later.Proper where
  distinct := h.distinct htree.distinct
  names place node hnode := by
    have hadds : AddsOnly (∀ name ∈ ·, Path.IsName name) (∀ name ∈ ·, Path.IsName name)
        tree later :=
      h.addsOnly (fun _ _ path _ => path.isName_of_mem_place htree.working)
        fun path _ => path.isName_of_mem_place htree.working
    -- What is there was there before, or has been written or made.
    rcases hadds.exists_of_find? hnode with ⟨before, hbefore⟩ | hnew | hnew
    · exact htree.names hbefore
    · exact hnew
    · exact hnew
  working := by
    rw [h.workingDirectory]
    exact htree.working

end Syllabus
