import Syllabus.Proofs.Files.Ancestors
import Syllabus.Proofs.Files.Rewriting

/-!
# Syllabus: what is added to a file tree

Directories are made on the way to a path and nowhere else. Writing and moving files makes none, and
taking something out adds nothing at all. So an operation can be told by where it may leave new
files and new directories.

* **`AddsOnly`**: the trees that have nothing new but files and directories in some places.
* **`addsOnly_createDirectories`**, **`addsOnly_remove`**, **`addsOnly_of_moved`**,
  **`addsOnly_of_unmoved`**: operations that leave such trees.
* **`find_eq_ok_iff`**, **`contains_iff`**: what a path that never goes back up leads to.
-/

namespace Syllabus

/-! ## What is left of a node -/

namespace Node

/-- What is found after something has been taken out was there before, up to the entries of
directories. -/
theorem exists_of_find?_remove {node found : Node} {names other : List String}
    (h : (node.remove names).find? other = some found) :
    ∃ before, node.find? other = some before
      ∧ (found = before ∨ ∃ entries others, before = directory entries
        ∧ found = directory others) := by
  by_cases hnames : names = []
  · rw [hnames, remove_nil] at h
    exact ⟨found, h, .inl rfl⟩
  -- Nothing is found below the name, and all else is found as it was, less the entry.
  by_cases hbelow : names <+: other
  · obtain ⟨behind, rfl⟩ := hbelow
    rw [find?_append, find?_remove_self _ hnames] at h
    cases h
  rcases find?_of_replaced (some_remove node names) hbelow with
    hkept | ⟨entries, others, hentries, hothers⟩
  · exact ⟨found, hkept.symm.trans h, .inl rfl⟩
  · obtain rfl := Option.some.inj (h.symm.trans hothers)
    exact ⟨_, hentries, .inr ⟨entries, others, rfl, rfl⟩⟩

end Node

namespace FileTree

open FileAction

variable {tree between later : FileTree}

/-! ## Writing and moving -/

/-- Writing a file makes no directory. -/
theorem hasDirectory_of_writeFile {path : Path} {content : ByteArray}
    (h : tree.writeFile path content = .ok later) {place : List String}
    (hplace : later.HasDirectory place) : tree.HasDirectory place := by
  obtain ⟨_, _, _, hfile⟩ := exists_of_writeFile h
  refine (leafReplaced_writeFile h).hasDirectory ?_ hplace
  rintro rfl
  exact not_hasDirectory_of_fileAt hfile hplace

/-- Neither does moving one. -/
theorem hasDirectory_of_renameFile {source target : Path}
    (h : tree.renameFile source target = .ok later) {place : List String}
    (hplace : later.HasDirectory place) : tree.HasDirectory place := by
  obtain ⟨_, _, _, _, _, hfile⟩ := exists_of_renameFile h
  obtain ⟨content, hsource, hlocate, _, ⟨_, rfl⟩ | ⟨hmoved, htarget, rfl⟩⟩ := eq_of_renameFile h
  · exact hplace
  have hput := leafReplaced_move hsource (eq_place_of_locate hlocate).2 htarget hmoved
  have hother : place ≠ target.place tree.workingDirectory := by
    rintro rfl
    exact not_hasDirectory_of_fileAt hfile hplace
  obtain ⟨entries, hentries⟩ := hput.hasDirectory hother hplace
  -- What is left of a directory after the file has been taken out was a directory.
  obtain ⟨before, hbefore, rfl | ⟨others, _, rfl, _⟩⟩ := Node.exists_of_find?_remove hentries
  · exact ⟨entries, hbefore⟩
  · exact ⟨others, hbefore⟩

/-! ## What is new -/

/-- Whether a tree has nothing that another one has not, but for files and directories at some
places. -/
structure AddsOnly (written made : List String → Prop) (tree later : FileTree) : Prop where
  workingDirectory : later.workingDirectory = tree.workingDirectory
  files : ∀ ⦃place content⦄, later.fileAt place = some content →
    tree.fileAt place = some content ∨ written place
  directories : ∀ ⦃place⦄, later.HasDirectory place → tree.HasDirectory place ∨ made place

variable {written made others : List String → Prop}

namespace AddsOnly

theorem refl (written made : List String → Prop) (tree : FileTree) :
    AddsOnly written made tree tree :=
  ⟨rfl, fun _ _ h => .inl h, fun _ h => .inl h⟩

theorem trans (h : AddsOnly written made tree between)
    (hnext : AddsOnly written made between later) : AddsOnly written made tree later where
  workingDirectory := hnext.workingDirectory.trans h.workingDirectory
  files _ _ hfile := by
    rcases hnext.files hfile with hbetween | hwritten
    · exact h.files hbetween
    · exact .inr hwritten
  directories _ hplace := by
    rcases hnext.directories hplace with hbetween | hmade
    · exact h.directories hbetween
    · exact .inr hmade

theorem mono (h : AddsOnly written made tree later) (hsub : ∀ place, made place → others place) :
    AddsOnly written others tree later where
  workingDirectory := h.workingDirectory
  files := h.files
  directories place hplace := (h.directories hplace).imp_right (hsub place)

end AddsOnly

theorem addsOnly_createDirectory {path : Path} (h : tree.createDirectory path = .ok later) :
    AddsOnly written (· = path.place tree.workingDirectory) tree later where
  workingDirectory := (changes_createDirectory h).workingDirectory
  files place content hfile := by
    rw [(changes_createDirectory h).files place fun hnone => hnone] at hfile
    exact .inl hfile
  directories place hplace := by
    by_cases hsame : place = path.place tree.workingDirectory
    · exact .inr hsame
    · exact .inl ((leafReplaced_createDirectory h).hasDirectory hsame hplace)

/-- Directories that are made one inside the other are those of the paths. -/
theorem addsOnly_createAmong {ε : Type} (onFault : Fault → ε) (paths : List Path)
    (tree : FileTree) :
    AddsOnly written (fun place => ∃ path ∈ paths, place = path.place tree.workingDirectory) tree
      (after (createAmong onFault paths) tree) := by
  -- On the paths, each of which is tried before and after those around it.
  induction paths generalizing tree with
  | nil => exact .refl _ _ tree
  | cons path around ih =>
    unfold after
    rw [createAmong]
    split
    · exact .refl _ _ tree
    · dsimp only
      split
      · next later hcreate =>
        exact (addsOnly_createDirectory hcreate).mono fun place hplace =>
          ⟨path, List.mem_cons_self, hplace⟩
      · -- What is made around it is among the paths as well.
        have haround := (ih tree).mono fun place
            (hplace : ∃ other ∈ around, place = other.place tree.workingDirectory) =>
          hplace.imp fun other hother => And.imp_left (List.Mem.tail path) hother
        unfold after at haround
        split
        · next e between hresult =>
          rw [hresult] at haround
          exact haround
        · next between hresult =>
          rw [hresult] at haround
          split
          · next later hcreate =>
            have hlast : AddsOnly written _ between later := addsOnly_createDirectory hcreate
            rw [show between.workingDirectory = tree.workingDirectory from
              haround.workingDirectory] at hlast
            exact haround.trans (hlast.mono fun place hplace =>
              ⟨path, List.mem_cons_self, hplace⟩)
          · split
            · exact haround
            · exact haround
      · split
        · exact .refl _ _ tree
        · exact .refl _ _ tree

/-- **Making directories.** They are on the way to the path. -/
theorem addsOnly_createDirectories {ε : Type} (onFault : Fault → ε) {path : Path}
    (hparent : ".." ∉ path.names) (tree : FileTree) :
    AddsOnly written (· <+: path.place tree.workingDirectory) tree
      (after (createDirectories onFault path) tree) := by
  refine (addsOnly_createAmong onFault (path :: path.ancestors) tree).mono ?_
  rintro place ⟨other, hother, rfl⟩
  rcases List.mem_cons.mp hother with rfl | hmem
  · exact List.prefix_rfl
  · exact (Path.place_ancestor hparent hmem _).1

/-- Taking something out leaves what else there was. -/
theorem addsOnly_remove (tree : FileTree) (names : List String) :
    AddsOnly written made tree { tree with root := tree.root.remove names } where
  workingDirectory := rfl
  files place content hfile := by
    rw [fileAt_eq_some_iff] at hfile ⊢
    obtain ⟨before, hbefore, rfl | ⟨_, _, _, hdirectory⟩⟩ := Node.exists_of_find?_remove hfile
    · exact .inl hbefore
    · cases hdirectory
  directories place hplace := by
    obtain ⟨entries, hentries⟩ := hplace
    obtain ⟨before, hbefore, rfl | ⟨others, _, rfl, _⟩⟩ := Node.exists_of_find?_remove hentries
    · exact .inl ⟨entries, hbefore⟩
    · exact .inl ⟨others, hbefore⟩

/-- **A file that is moved into place.** It is all that is new. -/
theorem addsOnly_of_moved {source target : Path} {content : ByteArray}
    (hother : target.place tree.workingDirectory ≠ source.place tree.workingDirectory)
    (hwrite : tree.writeFile source content = .ok between)
    (hmove : between.renameFile source target = .ok later) :
    AddsOnly (· = target.place tree.workingDirectory) made tree later := by
  obtain ⟨_, _, hwritten, _⟩ := exists_of_writeFile hwrite
  obtain ⟨_, _, _, _, hmoved, _⟩ := exists_of_renameFile hmove
  rw [← hwritten.workingDirectory] at hother
  have hgone := fileAt_eq_none (find?_source_of_renameFile hmove hother)
  rw [hwritten.workingDirectory] at hgone hmoved
  refine ⟨hmoved.workingDirectory.trans hwritten.workingDirectory, fun place found hfile => ?_,
    fun place hdirectory => ?_⟩
  · -- The file that was written first is not where it was any more.
    have hsource : place ≠ source.place tree.workingDirectory := by
      rintro rfl
      rw [hgone] at hfile
      cases hfile
    by_cases htarget : place = target.place tree.workingDirectory
    · exact .inr htarget
    · rw [hmoved.files place (not_or.mpr ⟨hsource, htarget⟩), hwritten.files place hsource] at hfile
      exact .inl hfile
  · exact .inl (hasDirectory_of_writeFile hwrite (hasDirectory_of_renameFile hmove hdirectory))

/-- What has just been written can be taken out. -/
theorem removeFile_of_writeFile {path : Path} {content : ByteArray}
    (h : tree.writeFile path content = .ok later) :
    later.removeFile path = .ok { later with
      root := later.root.remove (path.place later.workingDirectory) } := by
  obtain ⟨hlocate, hslash, hchanges, hfile⟩ := exists_of_writeFile h
  rw [← hchanges.workingDirectory] at hlocate hfile
  have hfind := find_eq_file_iff.mpr ⟨hchanges.locate (hchanges.workingDirectory ▸ hlocate),
    fileAt_eq_some_iff.mp hfile, hslash⟩
  rw [removeFile, hfind]
  rfl

/-- What is left of a file that has been written but cannot be moved. -/
theorem eq_of_unmoved {ε : Type} {onFault : Fault → ε} {source target : Path}
    {content : ByteArray} {e : ε} (hplace : source.place tree.workingDirectory ≠ [])
    (hwrite : tree.writeFile source content = .ok between)
    (hmove : moveInto onFault source target between = .error e later) :
    later = { tree with root := tree.root.remove (source.place tree.workingDirectory) } := by
  have hremove := removeFile_of_writeFile hwrite
  unfold moveInto at hmove
  split at hmove
  · cases hmove
  · rw [hremove] at hmove
    cases hmove
    obtain ⟨rfl, _⟩ := eq_of_writeFile hwrite
    dsimp only
    rw [Node.remove_set _ _ hplace]

/-- **A file that cannot be moved.** It is taken out again, and nothing is new. -/
theorem addsOnly_of_unmoved {ε : Type} {onFault : Fault → ε} {source target : Path}
    {content : ByteArray} {e : ε} (hplace : source.place tree.workingDirectory ≠ [])
    (hwrite : tree.writeFile source content = .ok between)
    (hmove : moveInto onFault source target between = .error e later) :
    AddsOnly written made tree later := by
  rw [eq_of_unmoved hplace hwrite hmove]
  exact addsOnly_remove tree _

/-! ## What is there -/

end FileTree

namespace Path

/-- The names that a path follows from the root. -/
def way (start : List String) (path : Path) : List String :=
  (if path.isAbsolute then [] else start) ++ path.names

/-- Whether a path could be followed if there were directories all the way. -/
structure Passable (start : List String) (path : Path) : Prop where
  nonempty : path.text ≠ ""
  noZero : path.text.toList.contains '\x00' = false
  short : path.text.utf8ByteSize ≤ FileTree.maxPathBytes
  shortNames : ∀ name ∈ path.way start,
    name = "." ∨ name = ".." ∨ name.utf8ByteSize ≤ FileTree.maxNameBytes

theorem prefix_foldl_enter {names : List String} (hparent : ".." ∉ names) (start : List String) :
    start <+: names.foldl enter start := by
  induction names generalizing start with
  | nil => exact List.prefix_rfl
  | cons name names ih =>
    rw [List.mem_cons, not_or] at hparent
    refine List.IsPrefix.trans ?_ (ih hparent.2 (enter start name))
    have hname : name ≠ ".." := fun hsame => hparent.1 hsame.symm
    rw [enter, if_neg hname]
    split
    · exact List.prefix_rfl
    · exact List.prefix_append _ _

end Path

namespace FileTree

variable {tree : FileTree}

theorem shortNames_of_foldlM {names start location : List String}
    (h : names.foldlM tree.step start = .ok location) :
    ∀ name ∈ names, name = "." ∨ name = ".." ∨ name.utf8ByteSize ≤ maxNameBytes := by
  induction names generalizing start with
  | nil => exact fun name hname => absurd hname List.not_mem_nil
  | cons name names ih =>
    rw [List.foldlM_cons] at h
    obtain ⟨next, hnext, h⟩ := exists_of_bind_eq_ok h
    exact List.forall_mem_cons.mpr ⟨(step_eq_ok_iff.mp hnext).2.2, ih h⟩

theorem passable_of_locate {path : Path} {location : List String}
    (h : tree.locate path = .ok location) : path.Passable tree.workingDirectory := by
  obtain ⟨hnonempty, hzero, hlong, hfollow⟩ := locate_eq_ok_iff.mp h
  exact ⟨hnonempty, hzero, hlong, shortNames_of_foldlM hfollow⟩

/-- Names that never lead back up can be followed if there is a directory before the last. -/
theorem foldlM_step_eq_ok {names start : List String} {last : String}
    (hparent : ".." ∉ names ++ [last])
    (hshort : ∀ name ∈ names ++ [last],
      name = "." ∨ name = ".." ∨ name.utf8ByteSize ≤ maxNameBytes)
    (hdirectory : tree.HasDirectory (names.foldl Path.enter start)) :
    (names ++ [last]).foldlM tree.step start
      = .ok ((names ++ [last]).foldl Path.enter start) := by
  -- On the names before the last, each of which leads into a directory.
  induction names generalizing start with
  | nil =>
    have hstep : tree.step start last = .ok (Path.enter start last) :=
      step_eq_ok_iff.mpr ⟨hdirectory, rfl, hshort last (by simp)⟩
    simp [hstep]
  | cons name names ih =>
    rw [List.cons_append, List.mem_cons, not_or] at hparent
    obtain ⟨hname, hrest⟩ := List.forall_mem_cons.mp hshort
    have hnames : ".." ∉ name :: names := by
      rw [List.mem_cons, not_or]
      exact ⟨hparent.1, fun hmem => hparent.2 (List.mem_append_left _ hmem)⟩
    -- The location is on the way to the directory before the last name.
    have hstart := hdirectory.of_prefix (Path.prefix_foldl_enter hnames start)
    have hstep : tree.step start name = .ok (Path.enter start name) :=
      step_eq_ok_iff.mpr ⟨hstart, rfl, hname⟩
    rw [List.cons_append, List.foldlM_cons, hstep]
    exact ih hparent.2 hrest hdirectory

/-- **What is found.** A path that never goes back up leads to the node in its place, if there is
one and the path can be followed at all. -/
theorem find_eq_ok_iff {path : Path} (hpath : path.Descends)
    (hway : ".." ∉ path.way tree.workingDirectory) {location : List String} {node : Node} :
    tree.find path = .ok (location, node) ↔ path.Passable tree.workingDirectory
      ∧ location = path.place tree.workingDirectory ∧ tree.root.find? location = some node := by
  obtain ⟨before, last, hfields, hlast⟩ := hpath.exists_last
  obtain ⟨hnames, hplace⟩ := Path.place_of_last hfields hlast tree.workingDirectory
  constructor
  · intro hfind
    obtain ⟨hlocate, hnode⟩ := of_find hfind
    exact ⟨passable_of_locate hlocate, (eq_place_of_locate hlocate).1, hnode⟩
  · rintro ⟨hpassable, rfl, hnode⟩
    -- What is found lies in a directory, so the names up to it can be followed.
    have hdirectory : tree.HasDirectory (((if path.isAbsolute then [] else tree.workingDirectory)
        ++ before.filter (· ≠ "")).foldl Path.enter []) := by
      rw [hplace] at hnode
      exact hasDirectory_of_append hnode
    have hshort := hpassable.shortNames
    rw [Path.way, hnames, ← List.append_assoc] at hway hshort
    have hlocate : tree.locate path = .ok (path.place tree.workingDirectory) := by
      refine locate_eq_ok_iff.mpr
        ⟨hpassable.nonempty, hpassable.noZero, hpassable.short, ?_⟩
      rw [Path.place, hnames, ← List.append_assoc]
      exact foldlM_step_eq_ok hway hshort hdirectory
    rw [find, hlocate]
    dsimp only [Bind.bind, Except.bind]
    rw [hnode]
    cases node with
    | file content => simp [hpath.noSlash]
    | directory entries => rfl

/-- **What is there.** Such a path leads to something if there is something in its place. -/
theorem contains_iff {path : Path} (hpath : path.Descends)
    (hway : ".." ∉ path.way tree.workingDirectory) :
    tree.contains path = true ↔ path.Passable tree.workingDirectory
      ∧ ∃ node, tree.root.find? (path.place tree.workingDirectory) = some node := by
  constructor
  · intro h
    obtain ⟨location, node, hfind⟩ := exists_of_contains h
    obtain ⟨hpassable, rfl, hnode⟩ := (find_eq_ok_iff hpath hway).mp hfind
    exact ⟨hpassable, node, hnode⟩
  · rintro ⟨hpassable, node, hnode⟩
    exact contains_of_find ((find_eq_ok_iff hpath hway).mpr ⟨hpassable, rfl, hnode⟩)

/-- Where the same node is in the place of a path, the path leads to the same. -/
theorem find_of_find?_eq {later : FileTree} {path : Path} (hpath : path.Descends)
    (hway : ".." ∉ path.way tree.workingDirectory)
    (hworking : later.workingDirectory = tree.workingDirectory)
    (hsame : later.root.find? (path.place tree.workingDirectory)
      = tree.root.find? (path.place tree.workingDirectory)) {found : List String × Node} :
    later.find path = .ok found ↔ tree.find path = .ok found := by
  obtain ⟨location, node⟩ := found
  have hlater : ".." ∉ path.way later.workingDirectory := hworking ▸ hway
  rw [find_eq_ok_iff hpath hway, find_eq_ok_iff hpath hlater, hworking]
  refine and_congr_right fun _ => and_congr_right fun hlocation => ?_
  rw [hlocation, hsame]

end FileTree

end Syllabus
