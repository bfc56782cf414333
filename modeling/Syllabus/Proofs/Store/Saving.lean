import Syllabus.Proofs.Files.Names
import Syllabus.Proofs.Files.Rewriting
import Syllabus.Proofs.Site.SiteFiles

/-!
# Syllabus: saving programs

A program is saved in two files of its own: the one that holds it, and one beside it that is moved
over it. No other program has these files, and no site. Saving what is stored already leaves the
tree as it is.

* **`not_ownFile_of_other`**, **`not_ownFile_of_siteFile`**: whose files they are not.
* **`saved`**, **`save_of_holds`**: saving, and saving again.
* **`exists_fault_of_save`**: why saving fails.
-/

namespace Syllabus.Store

open FileTree FileAction

/-! ## The files of a program -/

/-- The file that a program is written to before it is moved into place. -/
def temporaryFile (home : Path) (key : String) : Path :=
  programDirectory home key / s!"{programFileName}.tmp"

/-- The file of a program has a proper name. -/
theorem isName_programFileName : Path.IsName programFileName := by decide

theorem isName_temporaryFileName : Path.IsName s!"{programFileName}.tmp" := by decide

/-- Whether a place is that of a file that storing a program changes. -/
def OwnFile (home : Path) (key : String) (start place : List String) : Prop :=
  place = (programFile home key).place start ∨ place = (temporaryFile home key).place start

section Places

variable {home : Path} {key other : String} {place : List String}

theorem place_programFile (start : List String) (home : Path) (hkey : Path.IsName key) :
    (programFile home key).place start = (programs home).place start ++ [key, programFileName] := by
  rw [programFile, Path.place_div start _ isName_programFileName, programDirectory,
    Path.place_div start _ hkey, List.append_assoc]
  rfl

theorem place_temporaryFile (start : List String) (home : Path) (hkey : Path.IsName key) :
    (temporaryFile home key).place start
      = (programs home).place start ++ [key, s!"{programFileName}.tmp"] := by
  rw [temporaryFile, Path.place_div start _ isName_temporaryFileName, programDirectory,
    Path.place_div start _ hkey, List.append_assoc]
  rfl

/-- A program's own files are these two. -/
theorem exists_of_ownFile {start : List String} (hkey : Path.IsName key)
    (h : OwnFile home key start place) :
    ∃ name ∈ [programFileName, s!"{programFileName}.tmp"],
      place = (programs home).place start ++ [key, name] := by
  rcases h with h | h
  · exact ⟨_, List.mem_cons_self, h.trans (place_programFile start home hkey)⟩
  · exact ⟨_, by simp, h.trans (place_temporaryFile start home hkey)⟩

/-- The files of one program are not those of another one. -/
theorem not_ownFile_of_other {start : List String} (hkey : Path.IsName key)
    (hname : Path.IsName other) (hother : other ≠ key) (h : OwnFile home other start place) :
    ¬ OwnFile home key start place := by
  intro hown
  obtain ⟨name, _, rfl⟩ := exists_of_ownFile hname h
  obtain ⟨name', _, hsame⟩ := exists_of_ownFile hkey hown
  -- Both places have the key right behind the directory of all programs.
  have hnames := List.append_cancel_left hsame
  exact hother (List.cons.inj hnames).1

/-- The files of sites are not those of programs. -/
theorem not_ownFile_of_siteFile {start : List String} (hkey : Path.IsName key)
    (h : SiteFile place) : ¬ OwnFile home key start place := by
  intro hown
  obtain ⟨ending, hending, before, last, rfl, hsuffix⟩ := h
  obtain ⟨name, hname, hsame⟩ := exists_of_ownFile hkey hown
  rw [List.append_cons (programs home |>.place start)] at hsame
  obtain ⟨_, rfl⟩ := List.append_singleton_inj.mp hsame
  -- Neither name has an ending of a site's files.
  have hnone : ∀ name ∈ [programFileName, s!"{programFileName}.tmp"], ∀ ending ∈ siteEndings,
      ¬ ending.toList <:+ name.toList := by decide
  exact hnone _ hname _ hending hsuffix

theorem place_temporaryFile_ne (start : List String) (home : Path) (key : String) :
    (programFile home key).place start ≠ (temporaryFile home key).place start := by
  intro hsame
  -- One place would be that of a program and of a temporary file.
  have hprogram := of_programFile start (programDirectory home key)
  rw [show (programDirectory home key / programFileName).place start = _ from hsame] at hprogram
  cases FileKind.eq_of_endsIn hprogram (of_programTemporary start (programDirectory home key))

end Places

/-! ## Saving -/

variable {home : Path} {key : String} {program : Program} {tree later : FileTree}

/-- Writes the file of a program anew, in a directory that is there. -/
def replace (home : Path) (key : String) (program : Program) : FileAction StoreError Unit := do
  FileAction.change .io (·.writeFile (temporaryFile home key) (encode program).toUTF8)
  FileAction.change .io (·.renameFile (temporaryFile home key) (programFile home key))

/-- Where the directory is there, saving replaces the file. -/
theorem save_of_contains (h : tree.contains (programDirectory home key) = true) :
    save home key program tree = replace home key program tree := by
  refine (FileAction.bind_ok rfl).trans ?_
  simp only [h]
  rfl

/-- Where the directory is missing, it is created first. -/
theorem save_of_missing (h : tree.contains (programDirectory home key) = false) :
    save home key program tree
      = (FileAction.createDirectories .io (programDirectory home key)
        >>= fun _ => replace home key program) tree := by
  refine (FileAction.bind_ok rfl).trans ?_
  simp only [h]
  rfl

/-- Whether a program is stored as saving it leaves it. -/
structure Saved (home : Path) (key : String) (program : Program) (tree : FileTree) : Prop where
  holds : tree.Holds (programFile home key) (encode program)
  moved : tree.root.find? ((temporaryFile home key).place tree.workingDirectory) = none
  located : tree.locate (temporaryFile home key)
    = .ok ((temporaryFile home key).place tree.workingDirectory)
  noSlash : (temporaryFile home key).endsWithSlash = false

/-- Saving is writing the file anew, once its directory is there. -/
theorem exists_of_save {value : Unit} (h : save home key program tree = .ok value later) :
    ∃ created, replace home key program created = .ok value later := by
  cases hthere : tree.contains (programDirectory home key) with
  | true => exact ⟨tree, (save_of_contains hthere).symm.trans h⟩
  | false =>
    rw [save_of_missing hthere] at h
    obtain ⟨_, created, _, h⟩ := FileAction.exists_of_bind_eq_ok h
    exact ⟨created, h⟩

/-- A save that succeeds has saved the program. -/
theorem saved {value : Unit} (h : save home key program tree = .ok value later) :
    Saved home key program later := by
  obtain ⟨created, h⟩ := exists_of_save h
  obtain ⟨_, between, hwrite, hmove⟩ := FileAction.exists_of_bind_eq_ok h
  replace hwrite := eq_ok_of_change hwrite
  replace hmove := eq_ok_of_change hmove
  obtain ⟨hlocate, hslash, hwritten, _⟩ := exists_of_writeFile hwrite
  obtain ⟨hholds, hchanges⟩ := holds_of_replace hwrite hmove
  -- The file that was moved is gone, and its path leads where it did before.
  refine ⟨hholds, ?_, ?_, hslash⟩
  · rw [hchanges.workingDirectory, ← hwritten.workingDirectory]
    exact find?_source_of_renameFile hmove (place_temporaryFile_ne _ home key)
  · rw [hchanges.workingDirectory]
    exact hchanges.locate hlocate

/-- Saving what is stored already leaves the tree as it is, also if it fails. -/
theorem save_of_holds (hkey : Path.IsName key)
    (hholds : tree.Holds (programFile home key) (encode program))
    (hfresh : tree.fileAt ((temporaryFile home key).place tree.workingDirectory) = none) :
    save home key program tree
      = match tree.writeFile (temporaryFile home key) (encode program).toUTF8 with
        | .ok _ => .ok () tree
        | .error fault => .error (.io fault) tree := by
  -- The program is in its directory, so the directory is there.
  have hdirectory : tree.contains (programDirectory home key) = true :=
    contains_of_located isName_programFileName (Path.text_div_ne_empty _ hkey) hholds.located
  rw [save_of_contains hdirectory]
  cases hwrite : tree.writeFile (temporaryFile home key) (encode program).toUTF8 with
  | error fault => exact FileAction.bind_error (change_error hwrite)
  | ok between =>
    -- The file is moved over one with the same content, which takes both changes back.
    have hmove := renameFile_of_same hholds (Path.endsInName_div _ isName_programFileName) hfresh
      hwrite
    have hfirst : FileAction.change StoreError.io
        (·.writeFile (temporaryFile home key) (encode program).toUTF8) tree = .ok () between :=
      change_ok hwrite
    have hsecond : FileAction.change StoreError.io
        (·.renameFile (temporaryFile home key) (programFile home key)) between = .ok () tree :=
      change_ok hmove
    exact (FileAction.bind_ok hfirst).trans hsecond

/-- What has been saved can be saved again. -/
theorem Saved.save_eq (hkey : Path.IsName key) (h : Saved home key program tree) :
    save home key program tree = .ok () tree := by
  -- The place of the temporary file is free, so it can be written again.
  obtain ⟨between, hwrite⟩ := exists_writeFile_of_missing h.located h.moved h.noSlash
    (encode program).toUTF8
  rw [save_of_holds hkey h.holds (fileAt_eq_none h.moved), hwrite]

/-! ## Failures -/

/-- Creating directories fails with a fault of one of them. -/
theorem exists_fault_of_createAmong {ε : Type} {onFault : Fault → ε} {paths : List Path} {e : ε}
    (h : FileAction.createAmong onFault paths tree = .error e later) :
    ∃ fault, e = onFault fault := by
  -- On the paths, in the order in which they are tried.
  induction paths generalizing tree with
  | nil =>
    cases h
    exact ⟨_, rfl⟩
  | cons path around ih =>
    rw [FileAction.createAmong] at h
    split at h
    · cases h
    · dsimp only at h
      split at h
      · cases h
      · -- The directories around it are created first, which can fail on its own.
        split at h
        · next hfirst =>
          cases h
          exact ih hfirst
        · split at h
          · cases h
          · split at h
            · cases h
            · cases h
              exact ⟨_, rfl⟩
      · split at h
        · cases h
        · cases h
          exact ⟨_, rfl⟩

/-- Saving fails for nothing but a fault of the files. -/
theorem exists_fault_of_save {e : StoreError} (h : save home key program tree = .error e later) :
    ∃ fault, e = .io fault := by
  -- Both changes of the replacement fail with what the files say.
  have hreplace {created : FileTree} (h : replace home key program created = .error e later) :
      ∃ fault, e = .io fault := by
    rcases of_bind_eq_error h with hwrite | ⟨_, _, _, hmove⟩
    · obtain ⟨_, fault, _, he⟩ := of_change_eq_error hwrite
      exact ⟨fault, he⟩
    · obtain ⟨_, fault, _, he⟩ := of_change_eq_error hmove
      exact ⟨fault, he⟩
  -- The directory may have to be created first, which fails in the same way.
  cases hthere : tree.contains (programDirectory home key) with
  | true =>
    rw [save_of_contains hthere] at h
    exact hreplace h
  | false =>
    rw [save_of_missing hthere] at h
    rcases of_bind_eq_error h with hcreate | ⟨_, _, _, h⟩
    · exact exists_fault_of_createAmong hcreate
    · exact hreplace h

end Syllabus.Store
