import Mathlib.Logic.Relation
import Syllabus.Proofs.Files.Changes

/-!
# Syllabus: the operations of an action

However an action on a file tree ends, the tree that it leaves comes from single operations that
succeeded, one after the other. So an action is told by the operations that it may perform, and what
each of these keeps is kept by the whole action.

* **`Performs`**: what is done to a tree by operations of some kind.
* **`Does`**: the actions that perform only such operations, whether they succeed or fail.
* **`Performs.changes`**, **`Performs.find?_eq`**: the files and the nodes that are kept.
-/

namespace Syllabus

open FileTree FileAction

/-- A change of a single file or directory, or of two files. -/
inductive Operation where
  | create (directory : Path)
  | write (path : Path) (content : ByteArray)
  | move (source target : Path)
  | remove (path : Path)

namespace Operation

def apply (tree : FileTree) : Operation → Except Fault FileTree
  | create directory => tree.createDirectory directory
  | write path content => tree.writeFile path content
  | move source target => tree.renameFile source target
  | remove path => tree.removeFile path

/-- The paths of the files that are changed. -/
def files : Operation → List Path
  | create _ => []
  | write path _ => [path]
  | move source target => [source, target]
  | remove path => [path]

/-- All paths whose places are changed. -/
def paths : Operation → List Path
  | create directory => [directory]
  | operation => operation.files

/-! ## What an operation keeps -/

variable {operation : Operation} {tree later : FileTree}

/-- An operation changes the files at its own paths. -/
theorem changes_of_apply (h : operation.apply tree = .ok later) :
    Changes (fun place => ∃ path ∈ operation.files, place = path.place tree.workingDirectory) tree
      later := by
  -- One case for each operation, from what it does to its places.
  cases operation with
  | create directory => exact (changes_createDirectory h).mono fun _ hnone => hnone.elim
  | write path content =>
    exact (exists_of_writeFile h).2.2.1.mono fun place hplace => ⟨path, by simp [files], hplace⟩
  | move source target =>
    obtain ⟨_, _, _, _, hchanges, _⟩ := exists_of_renameFile h
    refine hchanges.mono fun place hplace => ?_
    rcases hplace with hplace | hplace
    · exact ⟨source, by simp [files], hplace⟩
    · exact ⟨target, by simp [files], hplace⟩
  | remove path =>
    exact (changes_removeFile h).mono fun place hplace => ⟨path, by simp [files], hplace⟩

/-- A node that contains none of the paths stays as it is. -/
theorem find?_of_apply (h : operation.apply tree = .ok later) {place : List String}
    (hplace : ∀ path ∈ operation.paths, ¬ place <+: path.place tree.workingDirectory) :
    later.root.find? place = tree.root.find? place := by
  cases operation with
  | create directory =>
    exact (leafReplaced_createDirectory h).find?_eq (hplace _ (by simp [paths]))
  | write path content =>
    exact (leafReplaced_writeFile h).find?_eq (hplace _ (by simp [paths, files]))
  | move source target =>
    obtain rfl | ⟨content, between, _, hremoved, hput⟩ := exists_leafReplaced_of_renameFile h
    · rfl
    · exact (hput.find?_eq (hplace target (by simp [paths, files]))).trans
        (hremoved.find?_eq (hplace source (by simp [paths, files])))
  | remove path =>
    obtain ⟨rfl, content, hfile⟩ := eq_of_removeFile h
    exact (leafReplaced_remove hfile).find?_eq (hplace _ (by simp [paths, files]))

end Operation

/-! ## Sequences of operations -/

/-- Whether a tree comes from another one by operations of some kind. -/
def Performs (allowed : Operation → Prop) : FileTree → FileTree → Prop :=
  Relation.ReflTransGen fun tree later => ∃ operation, allowed operation
    ∧ operation.apply tree = .ok later

namespace Performs

variable {allowed others : Operation → Prop} {tree between later : FileTree}

/-- Nothing at all is done by no operation. -/
theorem refl (tree : FileTree) : Performs allowed tree tree := Relation.ReflTransGen.refl

theorem trans (h : Performs allowed tree between) (hnext : Performs allowed between later) :
    Performs allowed tree later := Relation.ReflTransGen.trans h hnext

/-- Operations of some kind are of any wider kind. -/
theorem mono (h : Performs allowed tree later)
    (hsub : ∀ operation, allowed operation → others operation) : Performs others tree later := by
  refine Relation.ReflTransGen.mono (fun _ _ hstep => ?_) _ _ h
  obtain ⟨operation, hallowed, happly⟩ := hstep
  exact ⟨operation, hsub operation hallowed, happly⟩

/-- A single operation is done by itself. -/
theorem single {operation : Operation} (hallowed : allowed operation)
    (h : operation.apply tree = .ok later) : Performs allowed tree later :=
  Relation.ReflTransGen.single ⟨operation, hallowed, h⟩

/-- The files that operations change are those at their paths. -/
theorem changes {places : List String → Prop} (h : Performs allowed tree later)
    (hplaces : ∀ operation, allowed operation → ∀ path ∈ operation.files,
      places (path.place tree.workingDirectory)) : Changes places tree later := by
  -- On the operations: their paths lead to the same places all the time.
  induction h with
  | refl => exact .refl places tree
  | tail _ hstep ih =>
    obtain ⟨operation, hallowed, happly⟩ := hstep
    refine ih.trans ((Operation.changes_of_apply happly).mono fun place hplace => ?_)
    obtain ⟨path, hpath, hplace⟩ := hplace
    rw [hplace, ih.workingDirectory]
    exact hplaces operation hallowed path hpath

/-- No operation changes the working directory. -/
theorem workingDirectory (h : Performs allowed tree later) :
    later.workingDirectory = tree.workingDirectory := by
  have hchanges : Changes (fun _ => True) tree later := h.changes fun _ _ _ _ => trivial
  exact hchanges.workingDirectory

/-- A node that contains none of the paths stays as it is, with all that it contains. -/
theorem find?_eq (h : Performs allowed tree later) {place : List String}
    (hplace : ∀ operation, allowed operation → ∀ path ∈ operation.paths,
      ¬ place <+: path.place tree.workingDirectory) :
    later.root.find? place = tree.root.find? place := by
  -- On the operations, in a working directory that stays the same.
  induction h with
  | refl => rfl
  | tail hbefore hstep ih =>
    obtain ⟨operation, hallowed, happly⟩ := hstep
    have hworking : _ = tree.workingDirectory := workingDirectory hbefore
    refine (Operation.find?_of_apply happly fun path hpath => ?_).trans ih
    rw [hworking]
    exact hplace operation hallowed path hpath

end Performs

/-- A text is held on to as long as the node in the place of its file is the same. -/
theorem FileTree.Holds.of_performs {allowed : Operation → Prop} {tree later : FileTree}
    {path : Path} {text : String} (hholds : tree.Holds path text)
    (h : Performs allowed tree later)
    (hsame : later.root.find? (path.place tree.workingDirectory)
      = tree.root.find? (path.place tree.workingDirectory)) : later.Holds path text := by
  have hchanges : Changes (fun _ => True) tree later := h.changes fun _ _ _ _ => trivial
  refine ⟨hchanges.workingDirectory ▸ hchanges.locate hholds.located, hholds.noSlash, ?_⟩
  rw [hchanges.workingDirectory, fileAt, hsame]
  exact hholds.file

/-! ## Actions -/

/-- Whether an action performs only operations of some kind, whether it succeeds or fails. -/
def Does {ε α : Type} (allowed : Operation → Prop) (action : FileAction ε α) : Prop :=
  ∀ tree, Performs allowed tree (after action tree)

namespace Does

variable {ε ε' α β : Type} {allowed others : Operation → Prop}

/-- An action that performs operations of some kind performs them of any wider kind. -/
theorem mono {action : FileAction ε α} (h : Does allowed action)
    (hsub : ∀ operation, allowed operation → others operation) : Does others action :=
  fun tree => (h tree).mono hsub

/-- To return a value is to do nothing. -/
theorem pure (value : α) : Does allowed (Pure.pure value : FileAction ε α) :=
  fun tree => .refl tree

theorem throw (e : ε) : Does allowed (throw e : FileAction ε α) :=
  fun tree => .refl tree

theorem look (f : FileTree → α) : Does allowed (FileAction.look f : FileAction ε α) :=
  fun tree => .refl tree

/-- Two actions, one after the other, do what both do. -/
theorem bind {action : FileAction ε α} {next : α → FileAction ε β} (haction : Does allowed action)
    (hnext : ∀ value, Does allowed (next value)) : Does allowed (action >>= next) :=
  fun tree => after_bind (fun _ _ _ => .trans) (haction tree) fun value between _ =>
    hnext value between

/-- A loop does what it does for each item. -/
theorem forIn {items : List α} {action : α → FileAction ε Unit}
    (h : ∀ item ∈ items, Does allowed (action item)) :
    Does allowed (ForIn.forIn items PUnit.unit fun item _ => do
      action item
      Pure.pure (ForInStep.yield PUnit.unit)) := by
  -- On the items: the action for the first one, and then the loop over the others.
  induction items with
  | nil => exact pure _
  | cons item items ih =>
    obtain ⟨hitem, hitems⟩ := List.forall_mem_cons.mp h
    simp only [List.forIn_cons, bind_assoc, pure_bind]
    exact bind hitem fun _ => ih hitems

/-- Errors that are told otherwise make no difference. -/
theorem adaptExcept {action : FileAction ε α} (h : Does allowed action) (wrap : ε → ε') :
    Does allowed (action.adaptExcept wrap : FileAction ε' α) := by
  intro tree
  have hafter := h tree
  unfold after EStateM.adaptExcept at *
  -- The error is put into other words, and the tree is left as it is.
  cases hresult : action tree with
  | error e later =>
    rw [hresult] at hafter
    exact hafter
  | ok value later =>
    rw [hresult] at hafter
    exact hafter

/-- An operation that fails does nothing. -/
theorem change (onFault : Fault → ε) {operation : Operation} (h : allowed operation) :
    Does allowed (FileAction.change onFault (operation.apply ·)) := by
  intro tree
  unfold after FileAction.change
  split
  · next later happly => exact .single h happly
  · exact .refl tree

theorem writeFile (onFault : Fault → ε) {path : Path} {content : ByteArray}
    (h : allowed (.write path content)) :
    Does allowed (FileAction.change onFault (·.writeFile path content)) :=
  change onFault h

theorem renameFile (onFault : Fault → ε) {source target : Path}
    (h : allowed (.move source target)) :
    Does allowed (FileAction.change onFault (·.renameFile source target)) :=
  change onFault h

/-- A move that fails takes away the file that was to be moved, or does nothing. -/
theorem moveInto (onFault : Fault → ε) {source target : Path}
    (hmove : allowed (.move source target))
    (hremove : allowed (.remove source)) :
    Does allowed (FileAction.moveInto onFault source target) := by
  intro tree
  unfold after FileAction.moveInto
  -- The move itself, the removal after it has failed, or neither.
  split
  · next later hrename => exact .single hmove hrename
  · split
    · next later hgone => exact .single hremove hgone
    · exact .refl tree

/-- Directories are made from the outermost missing one inwards. -/
theorem createAmong (onFault : Fault → ε) {paths : List Path}
    (h : ∀ path ∈ paths, allowed (.create path)) :
    Does allowed (FileAction.createAmong onFault paths) := by
  -- On the paths, innermost first: each is tried again after those around it.
  induction paths with
  | nil => exact throw _
  | cons path around ih =>
    obtain ⟨hpath, haround⟩ := List.forall_mem_cons.mp h
    intro tree
    unfold after
    rw [FileAction.createAmong]
    split
    · exact .refl tree
    · dsimp only
      split
      · next later hcreate => exact .single hpath hcreate
      · -- The path is missing, so the directories around it are created before another try.
        have hbetween := ih haround tree
        unfold after at hbetween
        split
        · next e between hresult =>
          rw [hresult] at hbetween
          exact hbetween
        · next between hresult =>
          rw [hresult] at hbetween
          split
          · next later hcreate => exact hbetween.trans (.single hpath hcreate)
          · split
            · exact hbetween
            · exact hbetween
      · split
        · exact .refl tree
        · exact .refl tree

/-- Creating a directory with all around it creates only these. -/
theorem createDirectories (onFault : Fault → ε) {path : Path}
    (h : ∀ around ∈ path :: path.ancestors, allowed (.create around)) :
    Does allowed (FileAction.createDirectories onFault path) :=
  createAmong onFault h

/-- The files that an action changes are those at the paths of its operations. -/
theorem keeps {action : FileAction ε α} (h : Does allowed action) {start : List String}
    {places : List String → Prop}
    (hplaces : ∀ operation, allowed operation → ∀ path ∈ operation.files,
      places (path.place start)) : Keeps start places action := by
  rintro tree rfl
  exact (h tree).changes hplaces

end Does

/-! ## Replacing files -/

/-- The operations that replace a file: directories are made, and another file is written, which is
moved over it, or removed if it cannot be moved. -/
inductive Replacing (directories : List Path) (temporary target : Path) : Operation → Prop where
  | create {directory around : Path} (hdirectory : directory ∈ directories)
      (haround : around ∈ directory :: directory.ancestors) :
      Replacing directories temporary target (.create around)
  | write (content : ByteArray) :
      Replacing directories temporary target (.write temporary content)
  | move : Replacing directories temporary target (.move temporary target)
  | remove : Replacing directories temporary target (.remove temporary)

namespace Replacing

variable {directories : List Path} {temporary target : Path} {operation : Operation}

/-- Files are only put at the temporary path and at the target. -/
theorem mem_files (h : Replacing directories temporary target operation) {path : Path}
    (hpath : path ∈ operation.files) : path = temporary ∨ path = target := by
  cases h with
  | create => cases hpath
  | write | remove => exact .inl (List.mem_singleton.mp hpath)
  | move => simpa [Operation.files] using hpath

/-- All other paths are those of the directories and of what is around them. -/
theorem mem_paths (h : Replacing directories temporary target operation) {path : Path}
    (hpath : path ∈ operation.paths) : (path = temporary ∨ path = target)
      ∨ ∃ directory ∈ directories, path ∈ directory :: directory.ancestors := by
  cases h with
  | @create directory around hdirectory haround =>
    rw [List.mem_singleton.mp hpath]
    exact .inr ⟨directory, hdirectory, haround⟩
  | write | remove => exact .inl (.inl (List.mem_singleton.mp hpath))
  | move => exact .inl (by simpa [Operation.paths, Operation.files] using hpath)

end Replacing

namespace Does

variable {ε α : Type} {directories : List Path} {temporary target : Path}

/-- The directories of the files are among what may be created. -/
theorem createAround (onFault : Fault → ε) {directory : Path} (h : directory ∈ directories) :
    Does (Replacing directories temporary target)
      (FileAction.createDirectories onFault directory) :=
  createDirectories onFault fun _ haround => .create h haround

/-- Everything but the temporary file and the target keeps what it holds. -/
theorem keeps_of_replacing {action : FileAction ε α}
    (h : Does (Replacing directories temporary target) action) {start : List String}
    {places : List String → Prop} (htemporary : places (temporary.place start))
    (htarget : places (target.place start)) : Keeps start places action := by
  refine h.keeps fun operation hoperation path hpath => ?_
  rcases hoperation.mem_files hpath with hpath | hpath
  · rw [hpath]
    exact htemporary
  · rw [hpath]
    exact htarget

end Does

end Syllabus
