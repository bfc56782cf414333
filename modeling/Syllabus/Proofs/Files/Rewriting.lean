import Syllabus.Proofs.Files.Changes
import Syllabus.Proofs.Table

/-!
# Syllabus: writing what is there already

A file that is written anew with the text that it has leaves the tree as it was: entry by entry, and
not only as far as looking at it goes. This holds as well if the text is written to a file beside it
first, which is then moved over it. Nor is anything changed by making directories that are there.

* **`renameFile_of_fresh`**, **`renameFile_of_same`**: the way by a file beside it.
* **`isMade_of_createDirectories`**, **`createDirectories_of_isMade`**: making directories again.
-/

namespace Syllabus

/-! ## Nodes -/

namespace Node

/-- What is found at a place can be put there without a change. -/
theorem set_same {node found : Node} {names : List String} (h : node.find? names = some found) :
    node.set found names = node := by
  have hsame := replaced_same (some node) names
  rw [Option.bind_some, h, ← some_set] at hsame
  exact Option.some.inj hsame

/-- Taking out what has just been put somewhere takes out what was there. -/
theorem remove_set (node new : Node) {names : List String} (h : names ≠ []) :
    (node.set new names).remove names = node.remove names := by
  refine Option.some.inj ?_
  rw [some_remove, some_remove, some_set, if_neg h, if_neg h, replaced_replaced]

/-- Where nothing is there is nothing to take out. -/
theorem remove_eq_self {node : Node} {names : List String} (h : node.find? names = none) :
    node.remove names = node := by
  have hnames : names ≠ [] := by
    rintro rfl
    rw [find?_nil] at h
    cases h
  have hsame := replaced_same (some node) names
  rw [Option.bind_some, h] at hsame
  refine Option.some.inj ?_
  rw [some_remove, if_neg hnames, hsame]

end Node

/-! ## Trees -/

namespace FileTree

open FileAction

variable {tree between later : FileTree} {source target : Path} {content : ByteArray}

/-- Where nothing is yet, a file can be written. -/
theorem exists_writeFile_of_missing {path : Path} {location : List String}
    (hlocate : tree.locate path = .ok location) (hmissing : tree.root.find? location = none)
    (hslash : path.endsWithSlash = false) (content : ByteArray) :
    ∃ later, tree.writeFile path content = .ok later := by
  refine ⟨{ tree with root := tree.root.set (.file content) location }, ?_⟩
  rw [writeFile, hlocate]
  dsimp only [Bind.bind, Except.bind]
  rw [hmissing, hslash]
  rfl

theorem fileAt_eq_none {place : List String} (h : tree.root.find? place = none) :
    tree.fileAt place = none := by
  rw [fileAt, h]

/-- What is neither a file nor a directory is nothing. -/
theorem find?_eq_none {place : List String} (hfile : tree.fileAt place = none)
    (hdirectory : ¬ tree.HasDirectory place) : tree.root.find? place = none := by
  cases hfound : tree.root.find? place with
  | none => rfl
  | some node =>
    cases node with
    | file content =>
      rw [fileAt_eq_some_iff.mpr hfound] at hfile
      cases hfile
    | directory entries => exact absurd ⟨entries, hfound⟩ hdirectory

/-- Moving a file to another place, with the tree that this makes. -/
theorem renameFile_eq
    (hsource : tree.find source = .ok (source.place tree.workingDirectory, .file content))
    (htarget : tree.locate target = .ok (target.place tree.workingDirectory))
    (hname : endsInName target = true) (hslash : target.endsWithSlash = false)
    (hdirectory : ¬ tree.HasDirectory (target.place tree.workingDirectory))
    (hmoved : target.place tree.workingDirectory ≠ source.place tree.workingDirectory) :
    tree.renameFile source target = .ok { tree with
      root := (tree.root.remove (source.place tree.workingDirectory)).set (.file content)
        (target.place tree.workingDirectory) } := by
  rw [renameFile, hsource]
  dsimp only [Bind.bind, Except.bind]
  rw [htarget]
  dsimp only
  rw [hname, hslash, if_neg hmoved]
  -- The refusals in turn, none of which applies: the target is busy, a directory, or no name.
  split
  · next hbusy => cases hbusy
  · split
    · next entries hentries => exact absurd ⟨entries, hentries⟩ hdirectory
    · split
      · next hbusy => cases hbusy
      · rfl

/-- A file that has been written can be moved to where nothing is. -/
theorem exists_renameFile_of_missing (hwrite : tree.writeFile source content = .ok between)
    (htarget : tree.locate target = .ok (target.place tree.workingDirectory))
    (hmissing : tree.root.find? (target.place tree.workingDirectory) = none)
    (hname : endsInName target = true) (hslash : target.endsWithSlash = false)
    (hbeside : Node.Beside (source.place tree.workingDirectory)
      (target.place tree.workingDirectory)) :
    ∃ later, between.renameFile source target = .ok later := by
  obtain ⟨hsource, hsourceSlash, hchanges, hfile⟩ := exists_of_writeFile hwrite
  have hkept := Node.find?_eq_of_beside (leafReplaced_writeFile hwrite).replaced hbeside
  have hnone := hkept.trans hmissing
  -- What is beside the source is not changed by writing it, so the target is still missing.
  obtain ⟨rfl, _⟩ := eq_of_writeFile hwrite
  refine ⟨_, renameFile_eq (find_eq_file_iff.mpr ⟨hchanges.locate hsource,
    fileAt_eq_some_iff.mp hfile, hsourceSlash⟩) (hchanges.locate htarget) hname hslash ?_ ?_⟩
  · rintro ⟨entries, hentries⟩
    rw [hnone] at hentries
    cases hentries
  · intro hsame
    exact hbeside.1 (hsame ▸ List.prefix_rfl)

/-- A file that has been written can be moved over another one. -/
theorem renameFile_over {old : ByteArray}
    (htarget : tree.find target = .ok (target.place tree.workingDirectory, .file old))
    (hname : endsInName target = true)
    (hmoved : target.place tree.workingDirectory ≠ source.place tree.workingDirectory)
    (hwrite : tree.writeFile source content = .ok between) :
    between.renameFile source target = .ok { between with
      root := (between.root.remove (source.place tree.workingDirectory)).set (.file content)
        (target.place tree.workingDirectory) } := by
  obtain ⟨hsource, hslash, hchanges, hfile⟩ := exists_of_writeFile hwrite
  obtain ⟨hlocate, hold, htargetSlash⟩ :=
    find_eq_file_iff.mp (find_of_changes hchanges htarget hmoved)
  have hworking := hchanges.workingDirectory
  rw [← hworking] at hsource hfile hlocate hold hmoved ⊢
  -- The target holds its old content until the end, so it is no directory.
  exact renameFile_eq (find_eq_file_iff.mpr ⟨hchanges.locate (hworking ▸ hsource),
    fileAt_eq_some_iff.mp hfile, hslash⟩) hlocate hname htargetSlash
    (not_hasDirectory_of_fileAt (fileAt_eq_some_iff.mpr hold)) hmoved

/-- A file that is written beside another one, and then moved over it, has taken its place. -/
theorem renameFile_of_fresh {old : String} (hholds : tree.Holds target old)
    (hname : endsInName target = true)
    (hfresh : tree.fileAt (source.place tree.workingDirectory) = none)
    (hwrite : tree.writeFile source content = .ok between) :
    between.renameFile source target = .ok { tree with
      root := tree.root.set (.file content) (target.place tree.workingDirectory) } := by
  have hmoved : target.place tree.workingDirectory ≠ source.place tree.workingDirectory := by
    intro hsame
    rw [← hsame, hholds.file] at hfresh
    cases hfresh
  have hrename := renameFile_over hholds.find hname hmoved hwrite
  obtain ⟨rfl, hdirectory, _⟩ := eq_of_writeFile hwrite
  have hmissing := find?_eq_none hfresh hdirectory
  have hnonempty : source.place tree.workingDirectory ≠ [] := by
    intro hroot
    rw [hroot, Node.find?_nil] at hmissing
    cases hmissing
  -- The source was made for this, so taking it away leaves nothing behind.
  rw [hrename]
  dsimp only
  rw [Node.remove_set _ _ hnonempty, Node.remove_eq_self hmissing]

/-- **Writing what is there already.** A text that is written to a new file, which is then moved
over a file with that text, leaves the tree as it was. -/
theorem renameFile_of_same {text : String} (hholds : tree.Holds target text)
    (hname : endsInName target = true)
    (hfresh : tree.fileAt (source.place tree.workingDirectory) = none)
    (hwrite : tree.writeFile source text.toUTF8 = .ok between) :
    between.renameFile source target = .ok tree := by
  rw [renameFile_of_fresh hholds hname hfresh hwrite,
    Node.set_same (fileAt_eq_some_iff.mp hholds.file)]

/-- A file and the place that it is moved to lie beside each other: what is below a file is nothing,
and what is above it is a directory. -/
theorem beside_of_renameFile (h : tree.renameFile source target = .ok later)
    (hmoved : target.place tree.workingDirectory ≠ source.place tree.workingDirectory) :
    Node.Beside (target.place tree.workingDirectory) (source.place tree.workingDirectory) := by
  obtain ⟨content, hfile, hlocate, _, hresult⟩ := eq_of_renameFile h
  obtain ⟨_, htarget, _⟩ := hresult.resolve_left fun hsame => hmoved hsame.1
  have hsource := not_hasDirectory_of_fileAt (fileAt_eq_some_iff.mpr hfile)
  -- A file is neither around another place nor a directory, which leaves only one beside the other.
  rcases Node.eq_or_append_or_beside (target.place tree.workingDirectory)
      (source.place tree.workingDirectory) with hsame | ⟨name, behind, hbelow⟩ |
    ⟨name, behind, habove⟩ | hbeside
  · exact absurd hsame hmoved
  · rw [hbelow] at hfile
    exact absurd (hasDirectory_of_append hfile) htarget
  · have haround := (eq_place_of_locate hlocate).2 (by simp [habove])
    refine absurd ?_ hsource
    obtain ⟨inner, last, hinner⟩ : ∃ inner last, name :: behind = inner ++ [last] :=
      ⟨_, _, (List.dropLast_concat_getLast (List.cons_ne_nil name behind)).symm⟩
    rw [habove, hinner, ← List.append_assoc, List.dropLast_concat] at haround
    exact haround.of_prefix (List.prefix_append _ _)
  · exact hbeside

/-- A file that is moved to another place is not where it was any more. -/
theorem find?_source_of_renameFile (h : tree.renameFile source target = .ok later)
    (hmoved : target.place tree.workingDirectory ≠ source.place tree.workingDirectory) :
    later.root.find? (source.place tree.workingDirectory) = none := by
  have hbeside := beside_of_renameFile h hmoved
  have hnonempty : source.place tree.workingDirectory ≠ [] := by
    intro hempty
    exact hbeside.2 (hempty ▸ List.nil_prefix)
  obtain ⟨content, _, _, _, hresult⟩ := eq_of_renameFile h
  rcases hresult with ⟨hsame, _⟩ | ⟨_, _, rfl⟩
  · exact absurd hsame hmoved
  · exact (Node.find?_eq_of_beside (Node.some_set _ _ _) hbeside).trans
      (Node.find?_remove_self _ hnonempty)

/-! ## Directories that are there already -/

/-- A path leads to a directory just if it can be followed to one. -/
theorem isDirectory_iff {path : Path} : tree.isDirectory path = true
    ↔ tree.locate path = .ok (path.place tree.workingDirectory)
      ∧ tree.HasDirectory (path.place tree.workingDirectory) := by
  constructor
  · intro h
    unfold isDirectory at h
    cases hfind : tree.find path with
    | error fault =>
      rw [hfind] at h
      cases h
    | ok found =>
      obtain ⟨location, node⟩ := found
      obtain ⟨hlocate, hnode⟩ := of_find hfind
      obtain ⟨rfl, _⟩ := eq_place_of_locate hlocate
      cases node with
      | file content =>
        rw [hfind] at h
        cases h
      | directory entries => exact ⟨hlocate, entries, hnode⟩
  · rintro ⟨hlocate, entries, hentries⟩
    rw [isDirectory, find_of_directory hlocate hentries]
    rfl

/-- Whether there is nothing to do to make a directory. The empty path is never made. -/
def IsMade (tree : FileTree) (path : Path) : Prop := path.text = "" ∨ tree.isDirectory path = true

/-- A directory that is made stays so while only files change. -/
theorem IsMade.of_changes {places : List String → Prop} {path : Path} (h : tree.IsMade path)
    (hchanges : Changes places tree later) : later.IsMade path := by
  refine h.imp_right fun hdirectory => ?_
  obtain ⟨hlocate, hplace⟩ := isDirectory_iff.mp hdirectory
  refine isDirectory_iff.mpr ?_
  rw [hchanges.workingDirectory]
  exact ⟨hchanges.locate hlocate, hchanges.directories _ hplace⟩

/-- What has been created is a directory. -/
theorem isDirectory_of_createDirectory {path : Path} (h : tree.createDirectory path = .ok later) :
    later.isDirectory path = true := by
  have hchanges := changes_createDirectory h
  refine isDirectory_iff.mpr ?_
  rw [hchanges.workingDirectory]
  exact ⟨hchanges.locate (eq_of_createDirectory h).2.2, [], (leafReplaced_createDirectory h).there⟩

/-- Creating a directory with all around it makes it. -/
theorem isMade_of_createDirectories {ε : Type} {onFault : Fault → ε} {path : Path} {value : Unit}
    (h : createDirectories onFault path tree = .ok value later) : later.IsMade path := by
  unfold createDirectories at h
  rw [createAmong] at h
  split at h
  · next hempty => exact .inl hempty
  · have hlast {between : FileTree} {fault : Fault}
        (h : (if between.isDirectory path then EStateM.Result.ok () between
          else .error (onFault fault) between) = .ok value later) : later.IsMade path := by
      split at h
      · next hthere =>
        cases h
        exact .inr hthere
      · cases h
    -- It is created at once, or after those around it, or it was there all along.
    dsimp only at h
    split at h
    · next hcreate =>
      cases h
      exact .inr (isDirectory_of_createDirectory hcreate)
    · split at h
      · cases h
      · split at h
        · next hcreate =>
          cases h
          exact .inr (isDirectory_of_createDirectory hcreate)
        · exact hlast h
    · exact hlast h

/-- Creating a directory that is made changes nothing. -/
theorem createDirectories_of_isMade {ε : Type} (onFault : Fault → ε) {path : Path}
    (h : tree.IsMade path) : createDirectories onFault path tree = .ok () tree := by
  unfold createDirectories
  rw [createAmong]
  split
  · rfl
  · next hsome =>
    have hdirectory := h.resolve_left hsome
    obtain ⟨hlocate, entries, hentries⟩ := isDirectory_iff.mp hdirectory
    have hcreate : tree.createDirectory path = .error .alreadyExists := by
      rw [createDirectory, hlocate]
      dsimp only [Bind.bind, Except.bind]
      rw [hentries]
    dsimp only
    rw [hcreate]
    simp only [hdirectory, if_true]

end FileTree

end Syllabus
