import Syllabus.Proofs.Files.NewDirectories
import Syllabus.Proofs.Files.Spelling
import Syllabus.Proofs.Store.Upserts

/-!
# Syllabus: programs that are saved whole or not at all

A program that is saved is in its file, the temporary file beside it is gone, and nothing else is
new but directories on the way. Saving can fail before the temporary file is written, and then the
tree is as it was, unless a path is too long to be followed. Or it fails when this file is moved,
which a directory in the place of the program's file is the only reason for. Then the temporary
file is left.

* **`hasDirectory_of_unmoved`**: why a file cannot be moved to a place beside it.
* **`FailedSave`**, **`WholeSave`**: what is left if a program has not been saved, and if it has.
* **`save_leaves`**: saving a program, and putting a course into one.
-/

namespace Syllabus

open FileTree FileAction

/-! ## A name in a directory -/

namespace Path

variable {directory : Path} {name file : String}

theorem IsName.isIdle_eq_false (hname : IsName name) : isIdle name = false := by
  simp [isIdle, hname.nonempty, hname.notSelf]

/-- A name in a directory without detours descends. -/
theorem Descends.div (hdirectory : ".." ∉ directory.names) (hname : IsName name) :
    (directory / name).Descends where
  noParent := by
    rw [names_div directory hname.nonempty hname.noSlash]
    simp [hdirectory, hname.notParent.symm]
  last := by
    obtain ⟨before, hbefore⟩ := exists_fields_div directory
    exact ⟨before, name, hbefore name hname.noSlash, hname.isIdle_eq_false⟩

/-- A name in a directory is not written as a directory. -/
theorem endsWithSlash_div (directory : Path) (hname : IsName name) :
    (directory / name).endsWithSlash = false := by
  have hnonempty : name.toList ≠ [] := fun hnil =>
    hname.nonempty (String.toList_eq_nil_iff.mp hnil)
  rw [endsWithSlash, beq_eq_false_iff_ne, text_div directory hname.noSlash, String.toList_append,
    List.getLast?_append_of_ne_nil _ hnonempty]
  exact fun hlast => hname.noSlash (List.mem_of_getLast? hlast)

/-- A path that ends in a name is the directory that its parts lead into. -/
theorem directoryOfParts_fields {path : Path} {before : List String} {last : String}
    (hfields : Text.fields '/' path.text = before ++ [last]) (hidle : isIdle last = false) :
    directoryOfParts (Text.fields '/' path.text) = path := by
  rw [hfields]
  rcases parts_of_last hfields hidle with ⟨hpath, rfl⟩ | ⟨first, others, hpath, rfl⟩
  · exact hpath.symm
  · simp [directoryOfParts, hidle, hpath]

/-- Around a name in a directory that is written as a name itself is this directory, and what is
around that. -/
theorem ancestors_div_div (hname : IsName name) (hfile : IsName file) :
    (directory / name / file).ancestors = (directory / name) :: (directory / name).ancestors := by
  obtain ⟨before, hbefore⟩ := exists_fields_div directory
  have hdirectory := directoryOfParts_fields (hbefore name hname.noSlash) hname.isIdle_eq_false
  -- A slash stands between the name and what is inside it.
  have htext : (directory / name / file).text.toList
      = (directory / name).text.toList ++ '/' :: file.toList := by
    have hlead : (directory / name).lead = directory.lead ++ lead ⟨name⟩ :=
      lead_join directory (isAbsolute_of_noSlash hname.noSlash)
    rw [text_div _ hfile.noSlash, hlead, lead_of_noSlash hname.nonempty hname.noSlash,
      text_div _ hname.noSlash]
    simp
  have hinside : Text.fields '/' (directory / name / file).text
      = Text.fields '/' (directory / name).text ++ [file] := by
    rw [Text.fields, htext, List.splitOn_append_cons_self, List.splitOn_eq_singleton hfile.noSlash,
      List.map_append, Text.fields]
    simp
  rw [ancestors, ancestors, hinside]
  -- The last part is the file, so what is around it starts with the named directory.
  cases hfields : Text.fields '/' (directory / name).text with
  | nil => simp [hbefore name hname.noSlash] at hfields
  | cons first rest =>
    rw [hfields, directoryOfParts] at hdirectory
    simp [ancestorsOfParts, hfile.isIdle_eq_false, hdirectory]

/-- The directory of a file in it is the named one. -/
theorem parent?_div_div (hname : IsName name) (hfile : IsName file) :
    (directory / name / file).parent? = some (directory / name) := by
  rw [parent?, ancestors_div_div hname hfile]
  rfl

end Path

namespace FileTree

variable {tree between : FileTree} {directory : Path} {name other : String}

/-- A name is followed from where the directory leads to, if there is a directory and neither the
name nor the whole path is too long. -/
theorem locate_div_of_directory (hname : Path.IsName name)
    (hzero : (directory / name).text.toList.contains '\x00' = false)
    (hshort : name.utf8ByteSize ≤ maxNameBytes)
    (hlong : (directory / name).text.utf8ByteSize ≤ maxPathBytes) {around : List String}
    (haround : ((if directory.isAbsolute then [] else tree.workingDirectory)
      ++ directory.names).foldlM tree.step [] = .ok around)
    (hdirectory : tree.HasDirectory around) :
    tree.locate (directory / name) = .ok (around ++ [name]) := by
  have hstep : tree.step around name = .ok (around ++ [name]) := by
    refine step_eq_ok_iff.mpr ⟨hdirectory, ?_, .inr (.inr hshort)⟩
    rw [Path.enter, if_neg hname.notSelf, if_neg hname.notParent]
  refine locate_eq_ok_iff.mpr ⟨Path.text_div_ne_empty _ hname, hzero, hlong, ?_⟩
  rw [Path.isAbsolute_div _ hname.noSlash, Path.names_div _ hname.nonempty hname.noSlash,
    ← List.append_assoc, List.foldlM_append, haround]
  simp [Bind.bind, Except.bind, hstep]
  rfl

/-- If a name in a directory can be followed, so can a name that is no longer. -/
theorem locate_div_of_shorter (hname : Path.IsName name) (hother : Path.IsName other)
    (hzero : name.toList.contains '\x00' = false) (hshort : name.utf8ByteSize ≤ other.utf8ByteSize)
    {location : List String} (h : tree.locate (directory / other) = .ok location) :
    tree.locate (directory / name) = .ok ((directory / name).place tree.workingDirectory) := by
  obtain ⟨_, hzeros, hlong, hfollow⟩ := locate_eq_ok_iff.mp h
  rw [Path.text_div _ hother.noSlash] at hzeros hlong
  rw [String.toList_append, List.contains_append, Bool.or_eq_false_iff] at hzeros
  rw [String.utf8ByteSize_append] at hlong
  rw [Path.isAbsolute_div _ hother.noSlash, Path.names_div _ hother.nonempty hother.noSlash,
    ← List.append_assoc, List.foldlM_append] at hfollow
  -- Both names are entered from the same location.
  obtain ⟨around, haround, hlast⟩ := exists_of_bind_eq_ok hfollow
  rw [List.foldlM_cons] at hlast
  obtain ⟨next, hnext, _⟩ := exists_of_bind_eq_ok hlast
  obtain ⟨hdirectory, _, hbytes⟩ := step_eq_ok_iff.mp hnext
  have hbytes := (hbytes.resolve_left hother.notSelf).resolve_left hother.notParent
  have hlocate : tree.locate (directory / name) = .ok (around ++ [name]) := by
    refine locate_div_of_directory hname ?_ (hshort.trans hbytes) ?_ haround hdirectory
    · rw [Path.text_div _ hname.noSlash, String.toList_append, List.contains_append, hzeros.1,
        hzero]
      rfl
    · rw [Path.text_div _ hname.noSlash, String.utf8ByteSize_append]
      omega
  rw [hlocate, (eq_place_of_locate hlocate).1]

/-- **Why a file cannot be moved.** A file that has been written can be moved to a shorter name
beside it, unless there is a directory. -/
theorem hasDirectory_of_unmoved (hname : Path.IsName name) (hother : Path.IsName other)
    (hzero : name.toList.contains '\x00' = false) (hshort : name.utf8ByteSize ≤ other.utf8ByteSize)
    (hdiffer : name ≠ other) {content : ByteArray} {fault : Fault}
    (hwrite : tree.writeFile (directory / other) content = .ok between)
    (hmove : between.renameFile (directory / other) (directory / name) = .error fault) :
    between.HasDirectory ((directory / name).place tree.workingDirectory) := by
  obtain ⟨hlocate, hslash, hchanges, hfile⟩ := exists_of_writeFile hwrite
  have hsource := hchanges.locate hlocate
  rw [← hchanges.workingDirectory] at hsource hfile ⊢
  -- If nothing were in the way, the file would be moved.
  by_contra hnone
  have htarget := locate_div_of_shorter hname hother hzero hshort hsource
  have hmoved : (directory / name).place between.workingDirectory
      ≠ (directory / other).place between.workingDirectory := by
    rw [Path.place_div _ _ hname, Path.place_div _ _ hother]
    simpa using hdiffer
  have hrename := renameFile_eq
    (find_eq_file_iff.mpr ⟨hsource, fileAt_eq_some_iff.mp hfile, hslash⟩)
    htarget (Path.endsInName_div _ hname) (Path.endsWithSlash_div _ hname) hnone hmoved
  rw [hmove] at hrename
  cases hrename

end FileTree

namespace Store

variable {home : Path} {key : String} {program : Program} {course : Course}
  {tree created later : FileTree}

/-! ## The directory of a program -/

/-- Makes the directory of a program, if it is not there. -/
def prepare (home : Path) (key : String) : FileAction StoreError Unit := fun tree =>
  if tree.contains (programDirectory home key) then .ok () tree
  else FileAction.createDirectories .io (programDirectory home key) tree

/-- Saving is preparing the directory and then replacing the file. -/
theorem save_eq_prepare (home : Path) (key : String) (program : Program) :
    save home key program = prepare home key >>= fun _ => replace home key program := by
  funext tree
  -- The directory is there already, or it is created.
  cases hthere : tree.contains (programDirectory home key) with
  | true =>
    have hprepare : prepare home key tree = .ok () tree := by simp [prepare, hthere]
    rw [save_of_contains hthere, FileAction.bind_ok hprepare]
  | false =>
    have hprepare : prepare home key tree
        = FileAction.createDirectories .io (programDirectory home key) tree := by
      simp [prepare, hthere]
    rw [save_of_missing hthere]
    cases hcreate : FileAction.createDirectories StoreError.io (programDirectory home key) tree with
    | ok _ created =>
      rw [FileAction.bind_ok hcreate, FileAction.bind_ok (hprepare.trans hcreate)]
    | error e created =>
      rw [FileAction.bind_error hcreate, FileAction.bind_error (hprepare.trans hcreate)]

/-- Whether a place is that of the directory of a program, or of one of those around it. -/
def OnTheWay (home : Path) (key : String) (start place : List String) : Prop :=
  ∃ path ∈ programDirectory home key :: (programDirectory home key).ancestors,
    place = path.place start

/-- Preparing adds directories on the way to the program and nothing else. -/
theorem addsOnly_prepare {written : List String → Prop} (home : Path) (key : String)
    (tree : FileTree) :
    AddsOnly written (OnTheWay home key tree.workingDirectory) tree
      (after (prepare home key) tree) := by
  unfold after prepare
  split
  · exact .refl _ _ tree
  · exact addsOnly_createAmong _ _ tree

theorem keeps_prepare {places : List String → Prop} (home : Path) (key : String)
    (start : List String) : Keeps start places (prepare home key) := by
  intro tree hstart
  unfold after prepare
  split
  · exact .refl _ tree
  · exact keeps_createDirectories _ _ hstart

/-- What a program is written to before it is moved lies beside it. -/
theorem temporaryFile_eq (home : Path) (key : String) :
    temporaryFile home key = ⟨(programFile home key).text ++ ".tmp"⟩ := by
  have hname : s!"{programFileName}.tmp" = programFileName ++ ".tmp" := by decide
  apply congrArg Path.mk
  rw [hname]
  show (programDirectory home key / (programFileName ++ ".tmp")).text = _
  rw [programFile, Path.text_div _ (by decide), Path.text_div _ (by decide), String.append_assoc]

/-- There is no detour in the directory of a program if there is none in the home. -/
theorem noParent_programDirectory (hhome : ".." ∉ home.names) (hkey : Path.IsName key) :
    ".." ∉ (programDirectory home key).names := by
  rw [programDirectory, Path.names_div _ hkey.nonempty hkey.noSlash, programs,
    Path.names_div _ (by decide) (by decide), root, Path.names_div _ (by decide) (by decide)]
  simp [hhome, hkey.notParent.symm]

/-- The directory is made only if there is a place for both files in it. -/
theorem madeAround_prepare (hhome : ".." ∉ home.names) (hkey : Path.IsName key)
    (hpassable : (temporaryFile home key).Passable tree.workingDirectory) :
    MadeAround [temporaryFile home key, programFile home key] tree (prepare home key tree) := by
  rw [temporaryFile_eq] at hpassable ⊢
  unfold prepare
  split
  · exact .kept
  · exact madeAround_createDirectories _
      (Path.Descends.div (noParent_programDirectory hhome hkey) isName_programFileName)
      ⟨by decide, by decide, by decide⟩ (Path.parent?_div_div hkey isName_programFileName) hpassable

/-! ## Failures -/

/-- A program whose directory is there is not written at all, or cannot be moved. -/
theorem of_replace_error {e : StoreError} (h : replace home key program tree = .error e later) :
    later = tree ∧ (∀ written,
        tree.writeFile (temporaryFile home key) (encode program).toUTF8 ≠ .ok written)
      ∨ tree.writeFile (temporaryFile home key) (encode program).toUTF8 = .ok later
        ∧ later.HasDirectory ((programFile home key).place tree.workingDirectory) := by
  rcases of_bind_eq_error h with hwrite | ⟨_, written, hwrite, hmove⟩
  · obtain ⟨rfl, fault, hfault, _⟩ := of_change_eq_error hwrite
    exact .inl ⟨rfl, fun written hwritten => by cases hfault.symm.trans hwritten⟩
  · obtain ⟨rfl, fault, hfault, _⟩ := of_change_eq_error hmove
    replace hwrite := eq_ok_of_change hwrite
    exact .inr ⟨hwrite, hasDirectory_of_unmoved isName_programFileName isName_temporaryFileName
      (by decide) (by decide) (by decide) hwrite hfault⟩

/-- What is left if a program has not been saved. -/
structure FailedSave (home : Path) (key : String) (program : Program) (tree later : FileTree) :
    Prop where
  /-- No file is changed but the temporary one, and no directory is taken away. -/
  changes : Changes (· = (temporaryFile home key).place tree.workingDirectory) tree later
  /-- The temporary file has been written only if a directory is in the place of the program. -/
  temporary : later.fileAt ((temporaryFile home key).place tree.workingDirectory)
      = tree.fileAt ((temporaryFile home key).place tree.workingDirectory)
    ∨ later.fileAt ((temporaryFile home key).place tree.workingDirectory)
        = some (encode program).toUTF8
      ∧ later.HasDirectory ((programFile home key).place tree.workingDirectory)
  made : ∀ ⦃place⦄, later.HasDirectory place →
    tree.HasDirectory place ∨ OnTheWay home key tree.workingDirectory place
  /-- There is nothing new but the temporary file if it could be there at all. -/
  whole : ".." ∉ home.names → (temporaryFile home key).Passable tree.workingDirectory →
    later = tree ∨ tree.HasDirectory ((programFile home key).place tree.workingDirectory)
      ∧ tree.writeFile (temporaryFile home key) (encode program).toUTF8 = .ok later

/-- Before the temporary file is written, nothing is left but directories. -/
theorem FailedSave.of_prepare (h : after (prepare home key) tree = later)
    (hwhole : ".." ∉ home.names → (temporaryFile home key).Passable tree.workingDirectory →
      later = tree) : FailedSave home key program tree later where
  changes := h ▸ keeps_prepare home key _ rfl
  temporary := .inl ((h ▸ keeps_prepare home key _ rfl :
    Changes (fun _ => False) tree later).files _ fun hnone => hnone)
  made _ hplace := (h ▸ addsOnly_prepare home key tree :
    AddsOnly (fun _ => False) _ tree later).directories hplace
  whole hhome hpassable := .inl (hwhole hhome hpassable)

/-- A temporary file that has been written is left, and a directory is in the place of the
program. -/
theorem FailedSave.of_unmoved (hprepare : prepare home key tree = .ok () created)
    (hwrite : created.writeFile (temporaryFile home key) (encode program).toUTF8 = .ok later)
    (hdirectory : later.HasDirectory ((programFile home key).place created.workingDirectory))
    (hwhole : ".." ∉ home.names → (temporaryFile home key).Passable tree.workingDirectory →
      created = tree) : FailedSave home key program tree later := by
  have hcreated : Changes (· = (temporaryFile home key).place tree.workingDirectory) tree created :=
    changes_of_ok (keeps_prepare home key _) hprepare
  have hadds : AddsOnly (fun _ => False) _ tree _ := addsOnly_prepare home key tree
  rw [after_of_ok hprepare] at hadds
  obtain ⟨_, _, hwritten, hfile⟩ := exists_of_writeFile hwrite
  rw [hcreated.workingDirectory] at hwritten hfile hdirectory
  refine ⟨hcreated.trans hwritten, .inr ⟨hfile, hdirectory⟩, fun place hplace =>
    hadds.directories (hasDirectory_of_writeFile hwrite hplace), fun hhome hpassable => ?_⟩
  obtain rfl := hwhole hhome hpassable
  exact .inr ⟨hasDirectory_of_writeFile hwrite hdirectory, hwrite⟩

/-- A save that fails has been stopped while it prepared, or when it moved the file. -/
theorem failedSave_of_error (hkey : Path.IsName key) {e : StoreError}
    (h : save home key program tree = .error e later) :
    FailedSave home key program tree later := by
  rw [save_eq_prepare] at h
  have hmade : ".." ∉ home.names → (temporaryFile home key).Passable tree.workingDirectory →
      MadeAround _ tree (prepare home key tree) := fun hhome => madeAround_prepare hhome hkey
  rcases of_bind_eq_error h with hprepare | ⟨_, created, hprepare, hreplace⟩
  · refine .of_prepare (after_of_error hprepare) fun hhome hpassable => ?_
    have hwhole := hmade hhome hpassable
    rw [hprepare] at hwhole
    cases hwhole
    rfl
  · rw [hprepare] at hmade
    rcases of_replace_error hreplace with ⟨rfl, hunwritten⟩ | ⟨hwrite, hdirectory⟩
    · refine .of_prepare (after_of_ok hprepare) fun hhome hpassable => ?_
      cases hmade hhome hpassable with
      | kept => rfl
      | made hmissing =>
        -- Nothing is in the way of the temporary file.
        obtain ⟨hlocate, hnone⟩ := hmissing (temporaryFile home key) (by simp)
        obtain ⟨written, hwritten⟩ := exists_writeFile_of_missing hlocate hnone
          (Path.endsWithSlash_div _ isName_temporaryFileName) (encode program).toUTF8
        exact absurd hwritten (hunwritten written)
    · exact .of_unmoved hprepare hwrite hdirectory fun hhome hpassable => by
        cases hmade hhome hpassable with
        | kept => rfl
        | made hmissing =>
          -- Nothing is in the way of the program either.
          obtain ⟨_, hnone⟩ := hmissing (programFile home key) (by simp)
          obtain ⟨entries, hentries⟩ := hasDirectory_of_writeFile hwrite hdirectory
          rw [hnone] at hentries
          cases hentries

/-! ## Programs that are saved -/

/-- What is left if a program has been saved. -/
structure WholeSave (home : Path) (key : String) (program : Program) (tree later : FileTree) :
    Prop where
  holds : later.Holds (programFile home key) (encode program)
  gone : later.root.find? ((temporaryFile home key).place tree.workingDirectory) = none
  /-- All other files are as they were, and no directory is taken away. -/
  changes : Changes (OwnFile home key tree.workingDirectory) tree later
  made : ∀ ⦃place⦄, later.HasDirectory place →
    tree.HasDirectory place ∨ OnTheWay home key tree.workingDirectory place

/-- A save that succeeds has replaced the whole file. -/
theorem wholeSave_of_ok {value : Unit} (h : save home key program tree = .ok value later) :
    WholeSave home key program tree later := by
  have hkeeps : Keeps tree.workingDirectory (OwnFile home key tree.workingDirectory)
      (save home key program) :=
    (does_save home key program).keeps_of_replacing (.inr rfl) (.inl rfl)
  have hchanges := changes_of_ok hkeeps h
  have hsaved := saved h
  refine ⟨hsaved.holds, hchanges.workingDirectory ▸ hsaved.moved, hchanges, fun place hplace => ?_⟩
  rw [save_eq_prepare] at h
  obtain ⟨_, created, hprepare, h⟩ := FileAction.exists_of_bind_eq_ok h
  obtain ⟨_, written, hwrite, hmove⟩ := FileAction.exists_of_bind_eq_ok h
  have hadds : AddsOnly (fun _ => False) _ tree _ := addsOnly_prepare home key tree
  rw [after_of_ok hprepare] at hadds
  -- Neither writing nor moving makes a directory.
  exact hadds.directories (hasDirectory_of_writeFile (eq_ok_of_change hwrite)
    (hasDirectory_of_renameFile (eq_ok_of_change hmove) hplace))

/-! ## Whatever comes of it -/

/-- A directory in the place of a program cannot be read. -/
theorem load_of_directory
    (hlocate : tree.locate (programFile home key)
      = .ok ((programFile home key).place tree.workingDirectory))
    (hdirectory : tree.HasDirectory ((programFile home key).place tree.workingDirectory)) :
    load tree home key = .error (.io .isADirectory) := by
  obtain ⟨entries, hentries⟩ := hdirectory
  have hfind := find_of_directory hlocate hentries
  have hread : tree.readText (programFile home key) = .error .isADirectory := by
    rw [FileTree.readText, hfind]
    rfl
  unfold load readProgram
  simp only [contains_of_find hfind, if_true, hread]

/-- Putting a course fails before anything is done, or when the program is saved, where none was or
one could be read. -/
theorem of_upsert_error {e : StoreError} (h : upsert home key course tree = .error e later) :
    later = tree ∨ (∀ fault, load tree home key ≠ .error (.io fault))
      ∧ ∃ program, save home key program tree = .error e later := by
  have hsaved {before : Program} (h : (save home key (before.putLeveled course)
      >>= fun _ => pure (before.putLeveled course)) tree = .error e later) :
      ∃ program, save home key program tree = .error e later := by
    rcases of_bind_eq_error h with hsave | ⟨_, _, _, hpure⟩
    · exact ⟨_, hsave⟩
    · cases hpure
  -- With a program, without one, or with one that cannot be read.
  cases hload : load tree home key with
  | ok before =>
    rw [upsert_of_load hload] at h
    exact .inr ⟨fun _ => nofun, hsaved h⟩
  | error cause =>
    by_cases hother : ∀ path, cause ≠ .programNotFound path
    · rw [upsert_of_error hload hother] at h
      cases h
      exact .inl rfl
    · push Not at hother
      obtain ⟨path, rfl⟩ := hother
      rw [upsert_of_notFound hload] at h
      exact .inr ⟨fun _ => nofun, hsaved h⟩

/-- What is left if a course has not been put into a program. Where a file could be in the place of
the temporary file, this is nothing: a directory in the place of the program is noticed before. -/
theorem of_failedUpsert (hkey : Path.IsName key) {e : StoreError}
    (h : upsert home key course tree = .error e later) :
    (later = tree ∨ ∃ program, FailedSave home key program tree later)
      ∧ (".." ∉ home.names → (temporaryFile home key).Passable tree.workingDirectory →
        later = tree) := by
  rcases of_upsert_error h with rfl | ⟨hload, program, hsave⟩
  · exact ⟨.inl rfl, fun _ _ => rfl⟩
  have hfailed := failedSave_of_error hkey hsave
  refine ⟨.inr ⟨program, hfailed⟩, fun hhome hpassable => ?_⟩
  rcases hfailed.whole hhome hpassable with hsame | ⟨hdirectory, hwrite⟩
  · exact hsame
  · obtain ⟨_, _, hlocate, _⟩ := eq_of_writeFile hwrite
    have htarget := locate_div_of_shorter isName_programFileName isName_temporaryFileName
      (by decide) (by decide) hlocate
    exact absurd (load_of_directory htarget hdirectory) (hload _)

/-- **What saving leaves.** A program that has been saved is in its file, and the temporary file is
gone. A program that has not been saved leaves the tree as it was; but the temporary file is left
if a directory is in the place of the program, and directories are made in vain if no file can be in
the place of the temporary file. Putting a course into a program never leaves the temporary file. -/
theorem save_leaves (hkey : Path.IsName key) :
    (∀ {home program tree e later}, save home key program tree = .error e later →
      FailedSave home key program tree later)
      ∧ (∀ {home program tree later}, save home key program tree = .ok () later →
        WholeSave home key program tree later)
      ∧ (∀ {home course tree e later}, upsert home key course tree = .error e later →
        (later = tree ∨ ∃ program, FailedSave home key program tree later)
          ∧ (".." ∉ home.names → (temporaryFile home key).Passable tree.workingDirectory →
            later = tree))
      ∧ ∀ {home course program tree later}, upsert home key course tree = .ok program later →
        WholeSave home key program tree later := by
  refine ⟨failedSave_of_error hkey, wholeSave_of_ok, of_failedUpsert hkey, fun h => ?_⟩
  obtain ⟨_, _, _, hsave⟩ := exists_of_upsert h
  exact wholeSave_of_ok hsave

namespace DirectoryInTheWay

/-! A directory is where the file of a program would be, and that of another program is empty. -/

def atHome : Path := ⟨"home"⟩

def start : FileTree where
  root := .directory [("home", .directory [(".coursebook", .directory [("programs", .directory
    [("k", .directory [("program.yaml", .directory [])]), ("m", .directory [])])])])]

def empty : Program := .named "K"

def tones : Course := { id := 7, name := "Tones" }

/-- The program with the directory in its way is not saved, and the other one is. -/
theorem outcomes : valueOf (save atHome "k" empty start) = none
    ∧ valueOf (save atHome "m" empty start) = some ()
    ∧ valueOf (upsert atHome "k" tones start) = none := by
  decide +kernel

/-- The directories up to the temporary file are there. -/
theorem passable : (temporaryFile atHome "k").Passable start.workingDirectory :=
  ⟨by decide, by decide, by decide, by decide⟩

/-- What the theorem says of the failed save, of the whole one, and of the program that cannot be
read. -/
theorem leaves_start : Path.IsName "k" ∧ Path.IsName "m"
    ∧ FailedSave atHome "k" empty start (after (save atHome "k" empty) start)
    ∧ WholeSave atHome "m" empty start (after (save atHome "m" empty) start)
    ∧ after (upsert atHome "k" tones) start = start := by
  obtain ⟨hfailed, hsaved, hunput⟩ := outcomes
  obtain ⟨_, hsave⟩ := exists_error_of_valueOf hfailed
  obtain ⟨_, hupsert⟩ := exists_error_of_valueOf hunput
  refine ⟨by decide, by decide, (save_leaves (by decide)).1 hsave, ?_, ?_⟩
  · exact (save_leaves (by decide)).2.1 (eq_ok_of_valueOf hsaved)
  · exact ((save_leaves (by decide)).2.2.1 hupsert).2 (by decide) passable

/-- The temporary file was not there, and is left with the program when this cannot be saved. -/
theorem temporaryFile_left : start.contains (temporaryFile atHome "k") = false
    ∧ ∃ e later, save atHome "k" empty start = .error e later
      ∧ later.readText (temporaryFile atHome "k") = .ok (encode empty) := by
  refine ⟨by decide, ?_⟩
  obtain ⟨e, herror⟩ := exists_error_of_valueOf outcomes.1
  refine ⟨e, _, herror, eq_ok_of_toOption ?_⟩
  decide +kernel

end DirectoryInTheWay

end Store

end Syllabus
