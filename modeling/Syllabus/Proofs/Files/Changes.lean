import Syllabus.Proofs.Action
import Syllabus.Proofs.Files.Places

/-!
# Syllabus: what operations on a file tree change

An operation can be told by the places whose files it may change. Everything else it leaves: the
files at all other places, the directories, and the working directory. So paths lead where they led,
and what holds of a file goes on to hold until its own place is changed.

* **`Changes`**: the frame of an operation, which composes.
* **`LeafReplaced`**: one file or directory put somewhere or taken out, which every operation comes
  down to: `leafReplaced_createDirectory`, `leafReplaced_writeFile`, `leafReplaced_remove` and
  `exists_leafReplaced_of_renameFile`.
* **`Keeps`**: the frame of an action, whether it succeeds or fails.
-/

namespace Syllabus

namespace FileTree

/-- Whether only files at some places may have changed. -/
structure Changes (places : List String → Prop) (tree later : FileTree) : Prop where
  workingDirectory : later.workingDirectory = tree.workingDirectory
  directories : ∀ place, tree.HasDirectory place → later.HasDirectory place
  files : ∀ place, ¬ places place → later.fileAt place = tree.fileAt place

namespace Changes

variable {places others : List String → Prop} {tree next later : FileTree}

/-- Where nothing is done nothing changes. -/
theorem refl (places : List String → Prop) (tree : FileTree) : Changes places tree tree :=
  ⟨rfl, fun _ h => h, fun _ _ => rfl⟩

/-- Changes at the same places, one after the other, are changes at these places. -/
theorem trans (h : Changes places tree next) (hnext : Changes places next later) :
    Changes places tree later where
  workingDirectory := hnext.workingDirectory.trans h.workingDirectory
  directories place hplace := hnext.directories place (h.directories place hplace)
  files place hplace := (hnext.files place hplace).trans (h.files place hplace)

/-- What may have changed at some places only may have changed at more of them. -/
theorem mono (h : Changes places tree later) (hsub : ∀ place, places place → others place) :
    Changes others tree later where
  workingDirectory := h.workingDirectory
  directories := h.directories
  files place hplace := h.files place fun hin => hplace (hsub place hin)

/-- All paths lead to where they led before. -/
theorem locate (h : Changes places tree later) {path : Path} {location : List String}
    (hlocate : tree.locate path = .ok location) : later.locate path = .ok location :=
  locate_of_directories h.workingDirectory h.directories hlocate

end Changes

/-! ## Single operations -/

/-- Below what is no directory there is nothing. -/
theorem find?_below_eq_none {tree : FileTree} {location : List String}
    (h : ¬ tree.HasDirectory location) (name : String) (behind : List String) :
    tree.root.find? (location ++ name :: behind) = none := by
  cases hfound : tree.root.find? (location ++ name :: behind) with
  | none => rfl
  | some node => exact absurd (hasDirectory_of_append hfound) h

/-- Whether only what is at a place has been replaced in a tree: no directory was there, and there
is nothing below what has come there. -/
structure LeafReplaced (tree later : FileTree) (location : List String) (new : Option Node) :
    Prop where
  workingDirectory : later.workingDirectory = tree.workingDirectory
  replaced : some later.root = Node.replaced (some tree.root) new location
  noDirectory : ¬ tree.HasDirectory location
  there : later.root.find? location = new
  leaf : ∀ node ∈ new, ∀ name behind, node.find? (name :: behind) = none

/-- A node with nothing below it that is put where there is no directory. -/
theorem leafReplaced_set {tree : FileTree} {location : List String} {new : Node}
    (haround : location ≠ [] → tree.HasDirectory location.dropLast)
    (hold : ¬ tree.HasDirectory location)
    (hnew : ∀ name behind, new.find? (name :: behind) = none) :
    LeafReplaced tree { tree with root := tree.root.set new location } location (some new) where
  workingDirectory := rfl
  replaced := Node.some_set tree.root new location
  noDirectory := hold
  there := Node.find?_set_self _ _ _ haround
  leaf := by
    rintro _ ⟨⟩
    exact hnew

/-- A file that is taken out. Only the root itself is never taken out. -/
theorem leafReplaced_remove {tree : FileTree} {location : List String} {content : ByteArray}
    (hfile : tree.root.find? location = some (.file content)) :
    LeafReplaced tree { tree with root := tree.root.remove location } location
      (if location = [] then some tree.root else none) where
  workingDirectory := rfl
  replaced := Node.some_remove tree.root location
  noDirectory := not_hasDirectory_of_fileAt (fileAt_eq_some_iff.mpr hfile)
  there := by
    split
    · next hroot => rw [hroot, Node.remove_nil, Node.find?_nil]
    · next hinside => exact Node.find?_remove_self _ hinside
  leaf node hnode name behind := by
    -- The root cannot be taken out; anywhere else nothing is left.
    split at hnode
    · next hroot =>
      cases hnode
      rw [hroot, Node.find?_nil] at hfile
      rw [Option.some.inj hfile]
      rfl
    · cases hnode

namespace LeafReplaced

variable {tree later : FileTree} {location place : List String} {new : Option Node}

theorem nothingBelow (h : LeafReplaced tree later location new) (name : String)
    (behind : List String) : later.root.find? (location ++ name :: behind) = none := by
  rw [Node.find?_append, h.there]
  exact Option.bind_eq_none_iff.mpr fun node hnode => h.leaf node hnode name behind

/-- At other places there is what there was, but for what is in the directories. -/
theorem find?_cases (h : LeafReplaced tree later location new) (hplace : place ≠ location) :
    later.root.find? place = tree.root.find? place
      ∨ ∃ entries others, tree.root.find? place = some (.directory entries)
        ∧ later.root.find? place = some (.directory others) := by
  -- Below the place there is nothing before and after.
  by_cases hbelow : location <+: place
  · obtain ⟨behind, rfl⟩ := hbelow
    cases behind with
    | nil => exact absurd (List.append_nil location) hplace
    | cons name behind =>
      exact .inl ((h.nothingBelow name behind).trans
        (find?_below_eq_none h.noDirectory name behind).symm)
  · exact Node.find?_of_replaced h.replaced hbelow

/-- All nodes stay that do not contain the place. -/
theorem find?_eq (h : LeafReplaced tree later location new) (hplace : ¬ place <+: location) :
    later.root.find? place = tree.root.find? place := by
  -- The other node is below the place or beside it.
  rcases Node.eq_or_append_or_beside location place with
    rfl | ⟨name, behind, rfl⟩ | ⟨name, behind, rfl⟩ | hbeside
  · exact absurd List.prefix_rfl hplace
  · -- Nothing lies below, neither before nor after.
    rw [h.nothingBelow, find?_below_eq_none h.noDirectory]
  · exact absurd (List.prefix_append _ _) hplace
  · exact Node.find?_eq_of_beside h.replaced hbeside

/-- The change is one of that place. -/
theorem changes (h : LeafReplaced tree later location new) : Changes (· = location) tree later where
  workingDirectory := h.workingDirectory
  directories place hdirectory := by
    -- The place itself was no directory.
    have hplace : place ≠ location := by
      rintro rfl
      exact h.noDirectory hdirectory
    rcases h.find?_cases hplace with hkept | ⟨_, others, _, hothers⟩
    · obtain ⟨entries, hentries⟩ := hdirectory
      exact ⟨entries, hkept.trans hentries⟩
    · exact ⟨others, hothers⟩
  files place hplace := by
    rcases h.find?_cases hplace with hkept | ⟨entries, others, hentries, hothers⟩
    · simp only [fileAt, hkept]
    · simp only [fileAt, hentries, hothers]

/-- It makes no directory anywhere else. -/
theorem hasDirectory (h : LeafReplaced tree later location new) (hplace : place ≠ location)
    (hlater : later.HasDirectory place) : tree.HasDirectory place := by
  -- The node is kept, or it was a directory with other entries.
  rcases h.find?_cases hplace with hkept | ⟨entries, _, hentries, _⟩
  · obtain ⟨entries, hentries⟩ := hlater
    exact ⟨entries, hkept.symm.trans hentries⟩
  · exact ⟨entries, hentries⟩

end LeafReplaced

/-- A file that is put where no directory is, once another one has been taken out. -/
theorem leafReplaced_move {tree : FileTree} {old location : List String} {content : ByteArray}
    (hfile : tree.root.find? old = some (.file content))
    (haround : location ≠ [] → tree.HasDirectory location.dropLast)
    (htarget : ¬ tree.HasDirectory location) (hmoved : location ≠ old) :
    LeafReplaced { tree with root := tree.root.remove old }
      { tree with root := (tree.root.remove old).set (.file content) location } location
      (some (.file content)) := by
  have hremoved := leafReplaced_remove hfile
  -- Taking out the old file has not made a directory of the new place.
  exact leafReplaced_set (fun hnonempty => hremoved.changes.directories _ (haround hnonempty))
    (mt (hremoved.hasDirectory hmoved) htarget) fun _ _ => rfl

/-! ## Operations on paths -/

/-- A path leads to a file just if the file is in its place and the path is not written as a
directory's. -/
theorem find_eq_file_iff {tree : FileTree} {path : Path} {location : List String}
    {content : ByteArray} :
    tree.find path = .ok (location, .file content)
      ↔ tree.locate path = .ok location ∧ tree.root.find? location = some (.file content)
        ∧ path.endsWithSlash = false := by
  constructor
  · intro h
    obtain ⟨found, hfound, h⟩ := exists_of_bind_eq_ok h
    split at h
    · cases h
    · next hfile =>
      split at h
      · cases h
      · next hslash =>
        cases h
        exact ⟨hfound, hfile, by simpa using hslash⟩
    · cases h
  · rintro ⟨hlocate, hfile, hslash⟩
    -- The path is followed, and then there is the file.
    rw [find, hlocate]
    dsimp only [Bind.bind, Except.bind]
    rw [hfile]
    dsimp only
    rw [hslash]
    rfl

/-- What a path leads to is in its place. -/
theorem of_find {tree : FileTree} {path : Path} {location : List String} {node : Node}
    (h : tree.find path = .ok (location, node)) :
    tree.locate path = .ok location ∧ tree.root.find? location = some node := by
  obtain ⟨found, hfound, h⟩ := exists_of_bind_eq_ok h
  split at h
  · cases h
  · next hnode =>
    split at h
    · cases h
    · cases h
      exact ⟨hfound, hnode⟩
  · next hnode =>
    cases h
    exact ⟨hfound, hnode⟩

/-- A path leads to a directory that is in its place, however it is written. -/
theorem find_of_directory {tree : FileTree} {path : Path} {location : List String}
    {entries : List (String × Node)} (hlocate : tree.locate path = .ok location)
    (hnode : tree.root.find? location = some (.directory entries)) :
    tree.find path = .ok (location, .directory entries) := by
  rw [find, hlocate]
  dsimp only [Bind.bind, Except.bind]
  rw [hnode]

/-- Where a path leads to something, it leads to some node. -/
theorem exists_of_contains {tree : FileTree} {path : Path} (h : tree.contains path = true) :
    ∃ location node, tree.find path = .ok (location, node) := by
  unfold contains at h
  cases hfind : tree.find path with
  | error fault =>
    rw [hfind] at h
    cases h
  | ok found => exact ⟨found.1, found.2, rfl⟩

theorem contains_of_find {tree : FileTree} {path : Path} {found : List String × Node}
    (h : tree.find path = .ok found) : tree.contains path = true := by
  rw [contains, h]

/-- What making a directory has made of the tree. -/
theorem eq_of_createDirectory {tree later : FileTree} {path : Path}
    (h : tree.createDirectory path = .ok later) :
    later = { tree with root := tree.root.set (.directory []) (path.place tree.workingDirectory) }
      ∧ tree.root.find? (path.place tree.workingDirectory) = none
      ∧ tree.locate path = .ok (path.place tree.workingDirectory) := by
  obtain ⟨location, hlocate, h⟩ := exists_of_bind_eq_ok h
  obtain ⟨rfl, _⟩ := eq_place_of_locate hlocate
  split at h
  · cases h
  · next hnone =>
    cases h
    exact ⟨rfl, hnone, hlocate⟩

/-- Making a directory puts an empty one where there was nothing. -/
theorem leafReplaced_createDirectory {tree later : FileTree} {path : Path}
    (h : tree.createDirectory path = .ok later) :
    LeafReplaced tree later (path.place tree.workingDirectory) (some (.directory [])) := by
  obtain ⟨rfl, hnone, hlocate⟩ := eq_of_createDirectory h
  refine leafReplaced_set (eq_place_of_locate hlocate).2 ?_ fun _ _ => rfl
  -- Nothing was there, so no directory either.
  rintro ⟨entries, hentries⟩
  rw [hnone] at hentries
  cases hentries

/-- Creating a directory changes no file. -/
theorem changes_createDirectory {tree later : FileTree} {path : Path}
    (h : tree.createDirectory path = .ok later) : Changes (fun _ => False) tree later := by
  have hchanges := (leafReplaced_createDirectory h).changes
  refine ⟨hchanges.workingDirectory, hchanges.directories, fun place _ => ?_⟩
  by_cases hplace : place = path.place tree.workingDirectory
  · -- A directory is no file, neither before, when there is nothing, nor after.
    rw [hplace, fileAt, fileAt, (leafReplaced_createDirectory h).there,
      (eq_of_createDirectory h).2.1]
  · exact hchanges.files place hplace

/-- What a write that succeeds has made of the tree. -/
theorem eq_of_writeFile {tree later : FileTree} {path : Path} {content : ByteArray}
    (h : tree.writeFile path content = .ok later) :
    later = { tree with root := tree.root.set (.file content) (path.place tree.workingDirectory) }
      ∧ ¬ tree.HasDirectory (path.place tree.workingDirectory)
      ∧ tree.locate path = .ok (path.place tree.workingDirectory)
      ∧ path.endsWithSlash = false := by
  obtain ⟨location, hlocate, h⟩ := exists_of_bind_eq_ok h
  obtain ⟨rfl, _⟩ := eq_place_of_locate hlocate
  split at h
  · cases h
  · next hfile =>
    split at h
    · cases h
    · next hslash =>
      cases h
      refine ⟨rfl, ?_, hlocate, by simpa using hslash⟩
      -- There was a file in the place.
      rintro ⟨entries, hentries⟩
      simp [hfile] at hentries
  · next hnone =>
    split at h
    · cases h
    · next hslash =>
      cases h
      refine ⟨rfl, ?_, hlocate, by simpa using hslash⟩
      -- There was nothing in the place.
      rintro ⟨entries, hentries⟩
      simp [hnone] at hentries

/-- Writing a file puts it where no directory was. -/
theorem leafReplaced_writeFile {tree later : FileTree} {path : Path} {content : ByteArray}
    (h : tree.writeFile path content = .ok later) :
    LeafReplaced tree later (path.place tree.workingDirectory) (some (.file content)) := by
  obtain ⟨rfl, hold, hlocate, _⟩ := eq_of_writeFile h
  exact leafReplaced_set (eq_place_of_locate hlocate).2 hold fun _ _ => rfl

theorem exists_of_writeFile {tree later : FileTree} {path : Path} {content : ByteArray}
    (h : tree.writeFile path content = .ok later) :
    tree.locate path = .ok (path.place tree.workingDirectory) ∧ path.endsWithSlash = false
      ∧ Changes (· = path.place tree.workingDirectory) tree later
      ∧ later.fileAt (path.place tree.workingDirectory) = some content := by
  obtain ⟨_, _, hlocate, hslash⟩ := eq_of_writeFile h
  have hput := leafReplaced_writeFile h
  exact ⟨hlocate, hslash, hput.changes, fileAt_eq_some_iff.mpr hput.there⟩

/-- What taking out a file has made of the tree. -/
theorem eq_of_removeFile {tree later : FileTree} {path : Path}
    (h : tree.removeFile path = .ok later) :
    later = { tree with root := tree.root.remove (path.place tree.workingDirectory) }
      ∧ ∃ content, tree.root.find? (path.place tree.workingDirectory) = some (.file content) := by
  obtain ⟨⟨location, node⟩, hfind, h⟩ := exists_of_bind_eq_ok h
  cases node with
  | directory entries => cases h
  | file content =>
    cases h
    obtain ⟨hlocate, hfile, _⟩ := find_eq_file_iff.mp hfind
    obtain ⟨rfl, _⟩ := eq_place_of_locate hlocate
    exact ⟨rfl, content, hfile⟩

/-- Taking out a file changes its own place only. -/
theorem changes_removeFile {tree later : FileTree} {path : Path}
    (h : tree.removeFile path = .ok later) :
    Changes (· = path.place tree.workingDirectory) tree later := by
  obtain ⟨rfl, content, hfile⟩ := eq_of_removeFile h
  exact (leafReplaced_remove hfile).changes

/-- What a move that succeeds has made of the tree. A file that is moved to its own place stays as
it is. -/
theorem eq_of_renameFile {tree later : FileTree} {source target : Path}
    (h : tree.renameFile source target = .ok later) :
    ∃ content, tree.root.find? (source.place tree.workingDirectory) = some (.file content)
      ∧ tree.locate target = .ok (target.place tree.workingDirectory)
      ∧ target.endsWithSlash = false
      ∧ (target.place tree.workingDirectory = source.place tree.workingDirectory ∧ later = tree
        ∨ target.place tree.workingDirectory ≠ source.place tree.workingDirectory
          ∧ ¬ tree.HasDirectory (target.place tree.workingDirectory)
          ∧ later = { tree with
            root := (tree.root.remove (source.place tree.workingDirectory)).set (.file content)
              (target.place tree.workingDirectory) }) := by
  obtain ⟨⟨old, node⟩, hfind, h⟩ := exists_of_bind_eq_ok h
  cases node with
  | directory entries => cases h
  | file content =>
    obtain ⟨hsource, hfile, _⟩ := find_eq_file_iff.mp hfind
    obtain ⟨rfl, _⟩ := eq_place_of_locate hsource
    obtain ⟨location, hlocate, h⟩ := exists_of_bind_eq_ok h
    obtain ⟨rfl, _⟩ := eq_place_of_locate hlocate
    -- The target must not be a directory, nor be written as one.
    refine ⟨content, hfile, hlocate, ?_⟩
    split at h
    · cases h
    · split at h
      · cases h
      · next htarget =>
        split at h
        · cases h
        · next hslash =>
          refine ⟨by simpa using hslash, ?_⟩
          split at h
          · next hsame =>
            cases h
            exact .inl ⟨hsame, rfl⟩
          · next hmoved =>
            cases h
            exact .inr ⟨hmoved, fun ⟨entries, hentries⟩ => htarget entries hentries, rfl⟩

/-- A file that is moved elsewhere is taken out first and then put where it goes. -/
theorem exists_leafReplaced_of_renameFile {tree later : FileTree} {source target : Path}
    (h : tree.renameFile source target = .ok later) :
    later = tree ∨ ∃ content between,
      tree.root.find? (source.place tree.workingDirectory) = some (.file content)
        ∧ LeafReplaced tree between (source.place tree.workingDirectory)
          (if source.place tree.workingDirectory = [] then some tree.root else none)
        ∧ LeafReplaced between later (target.place tree.workingDirectory)
          (some (.file content)) := by
  obtain ⟨content, hfile, hlocate, _, ⟨_, rfl⟩ | ⟨hmoved, htarget, rfl⟩⟩ := eq_of_renameFile h
  · exact .inl rfl
  · exact .inr ⟨content, _, hfile, leafReplaced_remove hfile,
      leafReplaced_move hfile (eq_place_of_locate hlocate).2 htarget hmoved⟩

/-- Moving a file changes the places that it is moved from and to. There it is, then. -/
theorem exists_of_renameFile {tree later : FileTree} {source target : Path}
    (h : tree.renameFile source target = .ok later) :
    ∃ content, tree.fileAt (source.place tree.workingDirectory) = some content
      ∧ tree.locate target = .ok (target.place tree.workingDirectory)
      ∧ target.endsWithSlash = false
      ∧ Changes (fun place => place = source.place tree.workingDirectory
        ∨ place = target.place tree.workingDirectory) tree later
      ∧ later.fileAt (target.place tree.workingDirectory) = some content := by
  obtain ⟨content, hfile, hlocate, hslash, hresult⟩ := eq_of_renameFile h
  refine ⟨content, fileAt_eq_some_iff.mpr hfile, hlocate, hslash, ?_⟩
  -- A file that is moved to its own place is there already.
  rcases hresult with ⟨hsame, rfl⟩ | ⟨hmoved, htarget, rfl⟩
  · exact ⟨.refl _ _, hsame ▸ fileAt_eq_some_iff.mpr hfile⟩
  · have hremoved := leafReplaced_remove hfile
    have hput := leafReplaced_move hfile (eq_place_of_locate hlocate).2 htarget hmoved
    refine ⟨?_, fileAt_eq_some_iff.mpr hput.there⟩
    exact (hremoved.changes.mono fun _ h => .inl h).trans (hput.changes.mono fun _ h => .inr h)

end FileTree

/-! ## Texts of files -/

namespace FileTree

/-- Whether a path leads to a file with that text. -/
structure Holds (tree : FileTree) (path : Path) (text : String) : Prop where
  located : tree.locate path = .ok (path.place tree.workingDirectory)
  noSlash : path.endsWithSlash = false
  file : tree.fileAt (path.place tree.workingDirectory) = some text.toUTF8

theorem fromUTF8?_toUTF8 (text : String) : String.fromUTF8? text.toUTF8 = some text := by
  have hvalid : text.toUTF8.IsValidUTF8 := text.isValidUTF8
  unfold String.fromUTF8?
  -- The bytes of a text are valid.
  rw [dif_pos hvalid]
  rfl

/-- A text that is read is that of the file that the path leads to. -/
theorem exists_find_of_readText {tree : FileTree} {path : Path} {text : String}
    (h : tree.readText path = .ok text) :
    ∃ content, tree.find path = .ok (path.place tree.workingDirectory, .file content)
      ∧ String.fromUTF8? content = some text := by
  obtain ⟨⟨location, node⟩, hfind, h⟩ := exists_of_bind_eq_ok h
  cases node with
  | directory entries => cases h
  | file content =>
    obtain ⟨hlocate, _⟩ := find_eq_file_iff.mp hfind
    obtain ⟨rfl, _⟩ := eq_place_of_locate hlocate
    refine ⟨content, hfind, ?_⟩
    -- Bytes that are no text are not read.
    cases htext : String.fromUTF8? content with
    | none =>
      simp only [htext] at h
      cases h
    | some found =>
      simp only [htext] at h
      cases h
      rfl

theorem exists_of_readText {tree : FileTree} {path : Path} {text : String}
    (h : tree.readText path = .ok text) :
    ∃ content, tree.fileAt (path.place tree.workingDirectory) = some content
      ∧ String.fromUTF8? content = some text := by
  obtain ⟨content, hfind, htext⟩ := exists_find_of_readText h
  obtain ⟨_, hfile, _⟩ := find_eq_file_iff.mp hfind
  exact ⟨content, fileAt_eq_some_iff.mpr hfile, htext⟩

/-- A file is found where it was, if it was not changed. -/
theorem find_of_changes {tree later : FileTree} {places : List String → Prop} {path : Path}
    {location : List String} {content : ByteArray} (hchanges : Changes places tree later)
    (h : tree.find path = .ok (location, .file content)) (hplace : ¬ places location) :
    later.find path = .ok (location, .file content) := by
  obtain ⟨hlocate, hfile, hslash⟩ := find_eq_file_iff.mp h
  refine find_eq_file_iff.mpr ⟨hchanges.locate hlocate, ?_, hslash⟩
  rw [← fileAt_eq_some_iff, hchanges.files location hplace, fileAt_eq_some_iff]
  exact hfile

/-- What is there stays, if there still is a file where files have been changed. -/
theorem contains_of_changes {tree later : FileTree} {places : List String → Prop} {path : Path}
    (hchanges : Changes places tree later) (h : tree.contains path = true)
    (hfile : places (path.place tree.workingDirectory) →
      ∃ content, later.fileAt (path.place tree.workingDirectory) = some content) :
    later.contains path = true := by
  obtain ⟨location, node, hfind⟩ := exists_of_contains h
  obtain ⟨hlocate, hnode⟩ := of_find hfind
  obtain ⟨rfl, _⟩ := eq_place_of_locate hlocate
  -- A directory stays in any case; a file may have been changed to another one.
  cases node with
  | directory entries =>
    obtain ⟨others, hothers⟩ := hchanges.directories _ ⟨entries, hnode⟩
    exact contains_of_find (find_of_directory (hchanges.locate hlocate) hothers)
  | file content =>
    by_cases hplace : places (path.place tree.workingDirectory)
    · obtain ⟨_, _, hslash⟩ := find_eq_file_iff.mp hfind
      obtain ⟨new, hnew⟩ := hfile hplace
      exact contains_of_find (find_eq_file_iff.mpr
        ⟨hchanges.locate hlocate, fileAt_eq_some_iff.mp hnew, hslash⟩)
    · exact contains_of_find (find_of_changes hchanges hfind hplace)

namespace Holds

variable {tree later : FileTree} {path : Path} {text : String}

theorem find (h : tree.Holds path text) :
    tree.find path = .ok (path.place tree.workingDirectory, .file text.toUTF8) :=
  find_eq_file_iff.mpr ⟨h.located, fileAt_eq_some_iff.mp h.file, h.noSlash⟩

theorem readText (h : tree.Holds path text) : tree.readText path = .ok text := by
  rw [FileTree.readText, h.find]
  dsimp only [Bind.bind, Except.bind]
  rw [fromUTF8?_toUTF8]

theorem contains (h : tree.Holds path text) : tree.contains path = true := by
  rw [FileTree.contains, h.find]

/-- A file holds its text until its own place is changed. -/
theorem of_changes {places : List String → Prop} (h : tree.Holds path text)
    (hchanges : Changes places tree later)
    (hplace : ¬ places (path.place tree.workingDirectory)) : later.Holds path text := by
  refine ⟨?_, h.noSlash, ?_⟩
  · rw [hchanges.workingDirectory]
    exact hchanges.locate h.located
  · rw [hchanges.workingDirectory, hchanges.files _ hplace]
    exact h.file

end Holds

/-- A file that has been moved to a path holds the text that it held. -/
theorem holds_of_renameFile {tree later : FileTree} {source target : Path} {text : String}
    (h : tree.renameFile source target = .ok later)
    (hsource : tree.fileAt (source.place tree.workingDirectory) = some text.toUTF8) :
    later.Holds target text := by
  -- What was at the source is the content that arrives.
  obtain ⟨content, hcontent, hlocate, hslash, hchanges, hfile⟩ := exists_of_renameFile h
  rw [hsource, Option.some.injEq] at hcontent
  subst hcontent
  refine ⟨?_, hslash, ?_⟩
  · rw [hchanges.workingDirectory]
    exact hchanges.locate hlocate
  · rw [hchanges.workingDirectory]
    exact hfile

end FileTree

/-! ## Actions -/

namespace FileAction

export Action (bind_ok bind_error exists_of_bind_eq_ok of_bind_eq_error)

/-- A move that succeeds is one of the tree, with nothing to clear away. -/
theorem renameFile_of_moveInto {ε : Type} {onFault : Fault → ε} {source target : Path}
    {tree later : FileTree} {value : Unit}
    (h : moveInto onFault source target tree = .ok value later) :
    tree.renameFile source target = .ok later := by
  unfold moveInto at h
  split at h
  · next hrename =>
    cases h
    exact hrename
  · split at h
    · cases h
    · cases h

theorem moveInto_ok {ε : Type} {onFault : Fault → ε} {source target : Path} {tree later : FileTree}
    (h : tree.renameFile source target = .ok later) :
    moveInto onFault source target tree = .ok () later := by
  unfold moveInto
  rw [h]

/-- A move that fails takes away the file that was to be moved at most. -/
theorem changes_of_moveInto_error {ε : Type} {onFault : Fault → ε} {source target : Path}
    {tree later : FileTree} {e : ε} (h : moveInto onFault source target tree = .error e later) :
    FileTree.Changes (· = source.place tree.workingDirectory) tree later := by
  unfold moveInto at h
  split at h
  · cases h
  · -- The file is cleared away, unless that fails too.
    split at h
    · next hremove =>
      cases h
      exact FileTree.changes_removeFile hremove
    · cases h
      exact .refl _ tree

/-- A change that the tree allows succeeds. -/
theorem change_ok {ε : Type} {onFault : Fault → ε} {f : FileTree → Except Fault FileTree}
    {tree later : FileTree} (h : f tree = .ok later) : change onFault f tree = .ok () later := by
  unfold change
  simp only [h]

/-- A change that the tree does not allow leaves it as it is. -/
theorem change_error {ε : Type} {onFault : Fault → ε} {f : FileTree → Except Fault FileTree}
    {tree : FileTree} {fault : Fault} (h : f tree = .error fault) :
    change onFault f tree = .error (onFault fault) tree := by
  unfold change
  simp only [h]

/-- If a change succeeds, the tree allows it. -/
theorem eq_ok_of_change {ε : Type} {onFault : Fault → ε} {f : FileTree → Except Fault FileTree}
    {tree later : FileTree} {value : Unit} (h : change onFault f tree = .ok value later) :
    f tree = .ok later := by
  unfold change at h
  split at h
  · next hchange =>
    cases h
    exact hchange
  · cases h

/-- If a change fails, the tree is left, and the error is that of its fault. -/
theorem of_change_eq_error {ε : Type} {onFault : Fault → ε} {f : FileTree → Except Fault FileTree}
    {tree later : FileTree} {e : ε} (h : change onFault f tree = .error e later) :
    later = tree ∧ ∃ fault, f tree = .error fault ∧ e = onFault fault := by
  unfold change at h
  split at h
  · cases h
  · next fault hchange =>
    cases h
    exact ⟨rfl, fault, hchange, rfl⟩

/-- Errors that are told otherwise make no difference to what succeeds. -/
theorem eq_ok_of_adaptExcept {ε ε' α : Type} {wrap : ε → ε'} {action : FileAction ε α}
    {tree later : FileTree} {value : α}
    (h : EStateM.adaptExcept wrap action tree = .ok value later) :
    action tree = .ok value later := by
  unfold EStateM.adaptExcept at h
  split at h
  · cases h
  · next hresult =>
    cases h
    exact hresult

theorem adaptExcept_ok {ε ε' α : Type} {wrap : ε → ε'} {action : FileAction ε α}
    {tree later : FileTree} {value : α} (h : action tree = .ok value later) :
    EStateM.adaptExcept wrap action tree = .ok value later := by
  unfold EStateM.adaptExcept
  rw [h]

/-- An error that is told otherwise has a cause. -/
theorem exists_of_adaptExcept_error {ε ε' α : Type} {wrap : ε → ε'} {action : FileAction ε α}
    {tree later : FileTree} {e : ε'}
    (h : EStateM.adaptExcept wrap action tree = .error e later) :
    ∃ cause, action tree = .error cause later := by
  unfold EStateM.adaptExcept at h
  split at h
  · next cause _ hresult =>
    cases h
    exact ⟨cause, hresult⟩
  · cases h

/-- The tree of a result, whether it is one of success or of failure. -/
def treeOf {ε α : Type} : EStateM.Result ε FileTree α → FileTree
  | .ok _ tree => tree
  | .error _ tree => tree

/-- The value of a result, if it is one of success. -/
def valueOf {ε α : Type} : EStateM.Result ε FileTree α → Option α
  | .ok value _ => some value
  | .error _ _ => none

/-- The tree that an action leaves. -/
def after {ε α : Type} (action : FileAction ε α) (tree : FileTree) : FileTree :=
  treeOf (action tree)

/-- What an action leaves when it succeeds. -/
theorem after_of_ok {ε α : Type} {action : FileAction ε α} {tree later : FileTree} {value : α}
    (h : action tree = .ok value later) : after action tree = later :=
  congrArg treeOf h

/-- What an action leaves when it fails. -/
theorem after_of_error {ε α : Type} {action : FileAction ε α} {tree later : FileTree} {e : ε}
    (h : action tree = .error e later) : after action tree = later :=
  congrArg treeOf h

/-- An action that has a value succeeds. Unlike results, values can be compared. -/
theorem eq_ok_of_valueOf {ε α : Type} {action : FileAction ε α} {tree : FileTree} {value : α}
    (h : valueOf (action tree) = some value) : action tree = .ok value (after action tree) := by
  unfold after
  cases hresult : action tree with
  | ok found later =>
    rw [hresult] at h
    cases h
    rfl
  | error e later =>
    rw [hresult] at h
    cases h

theorem exists_error_of_valueOf {ε α : Type} {action : FileAction ε α} {tree : FileTree}
    (h : valueOf (action tree) = none) : ∃ e, action tree = .error e (after action tree) := by
  unfold after
  cases hresult : action tree with
  | ok found later =>
    rw [hresult] at h
    cases h
  | error e later => exact ⟨e, rfl⟩

/-- Where the first action succeeds, the second one leaves the tree. -/
theorem after_bind_of_ok {ε α β : Type} {action : FileAction ε α} {next : α → FileAction ε β}
    {tree between : FileTree} {value : α} (h : action tree = .ok value between) :
    after (action >>= next) tree = after (next value) between :=
  congrArg treeOf (bind_ok h)

/-- Where the first action fails, the tree is the one that it leaves. -/
theorem after_bind_of_error {ε α β : Type} {action : FileAction ε α} {next : α → FileAction ε β}
    {tree later : FileTree} {e : ε} (h : action tree = .error e later) :
    after (action >>= next) tree = later :=
  after_of_error (bind_error h)

/-- **Two actions, one after the other.** A transitive relation between the tree before and the tree
after holds of both together, if it holds of the first one and of the second one from where the first
has led. -/
theorem after_bind {ε α β : Type} {relation : FileTree → FileTree → Prop}
    (htrans : ∀ ⦃first second third⦄, relation first second → relation second third →
      relation first third)
    {action : FileAction ε α} {next : α → FileAction ε β} {tree : FileTree}
    (haction : relation tree (after action tree))
    (hnext : ∀ value between, relation tree between →
      relation between (after (next value) between)) :
    relation tree (after (action >>= next) tree) := by
  cases hresult : action tree with
  | error e between =>
    -- The second action is not reached.
    rw [after_of_error hresult] at haction
    rw [after_bind_of_error hresult]
    exact haction
  | ok value between =>
    rw [after_of_ok hresult] at haction
    rw [after_bind_of_ok hresult]
    exact htrans haction (hnext value between haction)

/-- Making something of the result leaves the tree. -/
theorem after_bind_pure {ε α β : Type} (action : FileAction ε α) (f : α → β) (tree : FileTree) :
    after (action >>= fun value => pure (f value)) tree = after action tree := by
  unfold after
  cases h : action tree with
  | ok value later => exact after_bind_of_ok h
  | error e later => exact after_bind_of_error h

/-- Whether an action that starts in the working directory changes files at some places only. -/
def Keeps {ε α : Type} (start : List String) (places : List String → Prop)
    (action : FileAction ε α) : Prop :=
  ∀ ⦃tree⦄, tree.workingDirectory = start → FileTree.Changes places tree (after action tree)

/-- An action that succeeds changes the files that it may change. -/
theorem changes_of_ok {ε α : Type} {places : List String → Prop} {action : FileAction ε α}
    {tree later : FileTree} {value : α} (haction : Keeps tree.workingDirectory places action)
    (h : action tree = .ok value later) : FileTree.Changes places tree later := by
  have hchanges := haction rfl
  rwa [after_of_ok h] at hchanges

theorem changes_of_error {ε α : Type} {places : List String → Prop} {action : FileAction ε α}
    {tree later : FileTree} {e : ε} (haction : Keeps tree.workingDirectory places action)
    (h : action tree = .error e later) : FileTree.Changes places tree later := by
  have hchanges := haction rfl
  rwa [after_of_error h] at hchanges

namespace Keeps

variable {ε α β : Type} {start : List String} {places others : List String → Prop}

/-- An action that changes some places only may be allowed more of them. -/
theorem mono {action : FileAction ε α} (h : Keeps start places action)
    (hsub : ∀ place, places place → others place) : Keeps start others action :=
  fun _ hstart => (h hstart).mono hsub

/-- Two actions that change files at some places only do so together. -/
theorem bind {action : FileAction ε α} {next : α → FileAction ε β}
    (haction : Keeps start places action) (hnext : ∀ value, Keeps start places (next value)) :
    Keeps start places (action >>= next) := by
  intro tree hstart
  refine after_bind (fun _ _ _ => .trans) (haction hstart) fun value between hfirst => ?_
  -- The second action starts in the same working directory as the first.
  exact hnext value (hfirst.workingDirectory.trans hstart)

end Keeps

end FileAction

end Syllabus
