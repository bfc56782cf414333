import Syllabus.Proofs.Files.Operations
import Syllabus.Proofs.Site.FileKinds

/-!
# Syllabus: what writing does

Storing a program changes a program file and a temporary file, saving a ledger the ledger and a
temporary file, writing a page the page and a temporary file. A write that fails leaves what it was
to replace.

* **`keeps_save`**, **`keeps_upsert`**: storing programs.
* **`holds_of_saveLedger`**, **`changes_of_saveLedger_error`**: the outcomes of saving a ledger.
* **`pageOutcome`**: the outcomes of writing a page; **`writePage_ok`** and
  **`changes_of_writePage_error`** say what they are for the files of other kinds.
-/

namespace Syllabus

open FileTree FileAction

variable {start : List String}

/-! ## Programs -/

/-- Whether a place is that of a program or of a temporary file. -/
def StoreFile (place : List String) : Prop :=
  FileKind.program.Of place ∨ FileKind.temporary.Of place

/-- Creating directories keeps all files. -/
theorem keeps_createDirectories {ε : Type} {places : List String → Prop} (onFault : Fault → ε)
    (directory : Path) : Keeps start places (createDirectories onFault directory) := by
  have hdoes : Does (fun operation => ∃ around, operation = .create around)
      (createDirectories onFault directory) :=
    .createDirectories onFault fun around _ => ⟨around, rfl⟩
  refine hdoes.keeps fun operation hoperation path hpath => ?_
  obtain ⟨around, rfl⟩ := hoperation
  cases hpath

/-- The operations that store a program. -/
def Store.storing (home : Path) (key : String) : Operation → Prop :=
  Replacing [Store.programDirectory home key]
    (Store.programDirectory home key / s!"{Store.programFileName}.tmp") (Store.programFile home key)

section Store

variable (home : Path) (key : String)

/-- Saving a program only puts its file in place. -/
theorem does_save (program : Program) :
    Does (Store.storing home key) (Store.save home key program) := by
  have hreplace : Does (Store.storing home key) (do
      FileAction.change StoreError.io (·.writeFile
        (Store.programDirectory home key / s!"{Store.programFileName}.tmp")
        (Store.encode program).toUTF8)
      FileAction.change StoreError.io (·.renameFile
        (Store.programDirectory home key / s!"{Store.programFileName}.tmp")
        (Store.programFile home key))) :=
    .bind (.writeFile _ (.write _)) fun _ => .renameFile _ .move
  refine .bind (.look _) fun isThere => ?_
  -- The directory is created if it is not there.
  cases isThere with
  | true => exact hreplace
  | false => exact .bind (.createAround _ (List.mem_singleton_self _)) fun _ => hreplace

/-- Adding a course does no more than saving the program. -/
theorem does_upsert (course : Course) :
    Does (Store.storing home key) (Store.upsert home key course) := by
  have hsave (program : Program) : Does (Store.storing home key) (do
      Store.save home key ((program.putCourse course).withCourseLevel)
      return (program.putCourse course).withCourseLevel) :=
    .bind (does_save home key _) fun _ => .pure _
  refine .bind (.look _) fun stored => ?_
  cases stored with
  | ok program => exact hsave program
  | error e =>
    -- Only a program that is missing is made anew; any other failure is handed on.
    cases e with
    | programNotFound path => exact hsave _
    | io fault | malformed path | homeNotFound => exact .throw _

end Store

theorem keeps_save (home : Path) (key : String) (program : Program) :
    Keeps start StoreFile (Store.save home key program) :=
  (does_save home key program).keeps_of_replacing (.inr (of_programTemporary start _))
    (.inl (of_programFile start _))

theorem keeps_upsert (home : Path) (key : String) (course : Course) :
    Keeps start StoreFile (Store.upsert home key course) :=
  (does_upsert home key course).keeps_of_replacing (.inr (of_programTemporary start _))
    (.inl (of_programFile start _))

/-! ## Replacing files -/

/-- A text that is written to a temporary file and moved into place is held there. -/
theorem holds_of_replace {tree between later : FileTree} {temporary target : Path} {text : String}
    (hwrite : tree.writeFile temporary text.toUTF8 = .ok between)
    (hmove : between.renameFile temporary target = .ok later) :
    later.Holds target text
      ∧ Changes (fun place => place = target.place tree.workingDirectory
        ∨ place = temporary.place tree.workingDirectory) tree later := by
  obtain ⟨_, _, hwritten, hfile⟩ := exists_of_writeFile hwrite
  rw [← hwritten.workingDirectory] at hfile
  refine ⟨holds_of_renameFile hmove hfile, ?_⟩
  obtain ⟨_, _, _, _, hmoved, _⟩ := exists_of_renameFile hmove
  rw [hwritten.workingDirectory] at hmoved
  exact (hwritten.mono fun _ h => .inr h).trans (hmoved.mono fun _ h => h.symm)

/-- A file that is written to be moved into place, but cannot be moved, is all that changes. -/
theorem changes_of_replace_error {ε : Type} {onWrite onMove : Fault → ε} {temporary target : Path}
    {content : ByteArray} {tree between later : FileTree} {value : Unit} {e : ε}
    (hwrite : FileAction.change onWrite (·.writeFile temporary content) tree = .ok value between)
    (hmove : moveInto onMove temporary target between = .error e later) :
    Changes (· = temporary.place tree.workingDirectory) tree later := by
  obtain ⟨_, _, hwritten, _⟩ := exists_of_writeFile (eq_ok_of_change hwrite)
  have hmoved := changes_of_moveInto_error hmove
  rw [hwritten.workingDirectory] at hmoved
  exact hwritten.trans hmoved

/-! ## Ledgers -/

/-- A ledger that has been saved is held in its file. -/
theorem holds_of_saveLedger {home : Path} {key : String} {ledger : Ledger}
    {tree later : FileTree} {value : Unit}
    (h : Ledger.save home key ledger tree = .ok value later) :
    later.Holds (Ledger.file home key) ledger.encode
      ∧ Changes (fun place => place = (Ledger.file home key).place tree.workingDirectory
        ∨ FileKind.temporary.Of place) tree later := by
  unfold Ledger.save at h
  cases hparent : (Ledger.file home key).parent? with
  | none =>
    simp only [hparent] at h
    cases h
  | some directory =>
    simp only [hparent] at h
    obtain ⟨_, created, hcreate, h⟩ := FileAction.exists_of_bind_eq_ok h
    obtain ⟨_, written, hwrite, h⟩ := FileAction.exists_of_bind_eq_ok h
    have hcreated : Changes (fun _ => False) tree created :=
      changes_of_ok (keeps_createDirectories _ directory) hcreate
    obtain ⟨hholds, hreplaced⟩ :=
      holds_of_replace (eq_ok_of_change hwrite) (renameFile_of_moveInto h)
    -- The directories are created first, which changes no file and not where paths lead.
    rw [hcreated.workingDirectory] at hreplaced
    refine ⟨hholds, (hcreated.mono fun _ h => h.elim).trans (hreplaced.mono ?_)⟩
    intro place hplace
    rcases hplace with hplace | hplace
    · exact .inl hplace
    · rw [hplace]
      exact .inr (of_ledgerTemporary _ home key)

/-- A ledger that is not saved may leave its temporary file behind, and nothing else. -/
theorem changes_of_saveLedger_error {home : Path} {key : String} {ledger : Ledger}
    {tree later : FileTree} {e : LedgerError}
    (h : Ledger.save home key ledger tree = .error e later) :
    Changes FileKind.temporary.Of tree later := by
  unfold Ledger.save at h
  cases hparent : (Ledger.file home key).parent? with
  | none =>
    simp only [hparent] at h
    cases h
    exact .refl _ tree
  | some directory =>
    simp only [hparent] at h
    -- The directories fail, or the file in them does.
    rcases of_bind_eq_error h with hcreate | ⟨_, created, hcreate, h⟩
    · exact changes_of_error (keeps_createDirectories _ directory) hcreate
    · have hcreated : Changes FileKind.temporary.Of tree created :=
        changes_of_ok (keeps_createDirectories _ directory) hcreate
      rcases of_bind_eq_error h with hwrite | ⟨_, written, hwrite, h⟩
      · rw [(of_change_eq_error hwrite).1]
        exact hcreated
      · refine hcreated.trans ((changes_of_replace_error hwrite h).mono fun place hplace => ?_)
        rw [hplace]
        exact of_ledgerTemporary _ home key

/-! ## Pages -/

namespace Site

/-- The digest that is kept for a page. -/
def pageDigest (content : String) : String := Digest.ofText (pageText content)

/-- Whether the digest that is kept for a page is that of its text, and something is there. -/
def IsCurrent (path : Path) (content : String) (digests : Digests) (tree : FileTree) : Prop :=
  digests.find? path.text = some (pageDigest content) ∧ tree.contains path = true

instance (path : Path) (content : String) (digests : Digests) (tree : FileTree) :
    Decidable (IsCurrent path content digests tree) := by
  unfold IsCurrent
  infer_instance

/-- Creates the directories of a page and of its temporary file. -/
def createAround (path : Path) : FileAction SiteError Unit := do
  for directory in [path.parent?, (temporaryPath path).parent?].filterMap id do
    FileAction.createDirectories (.io directory) directory

/-- The operations that write a page. -/
def writing (path : Path) : Operation → Prop :=
  Replacing ([path.parent?, (temporaryPath path).parent?].filterMap id) (temporaryPath path) path

/-- Nothing is done but to make the directories that the page and its temporary file lead into. -/
theorem does_createAround (path : Path) :
    Does (fun operation => ∃ directory ∈ [path.parent?, (temporaryPath path).parent?].filterMap id,
      ∃ around ∈ directory :: directory.ancestors, operation = .create around)
      (createAround path) :=
  .bind (.forIn fun directory hdirectory => .createDirectories _ fun around haround =>
    ⟨directory, hdirectory, around, haround, rfl⟩) fun _ => .pure _

/-- Creating the directory of a page keeps all files. -/
theorem keeps_createAround (path : Path) :
    Keeps start (fun _ => False) (createAround path) := by
  refine (does_createAround path).keeps fun operation hoperation path hpath => ?_
  obtain ⟨_, _, around, _, rfl⟩ := hoperation
  cases hpath

/-- How writing a page ends: with nothing to do or to be done, with the page moved into place, or
with the first operation that fails. -/
inductive PageOutcome (path : Path) (content : String) (digests : Digests) (dryRun : Bool)
    (tree : FileTree) : EStateM.Result SiteError FileTree (PageWrite × Digests) → Prop where
  | unchanged (hcurrent : IsCurrent path content digests tree) :
      PageOutcome path content digests dryRun tree (.ok (⟨.unchanged, path⟩, digests) tree)
  | wouldWrite (hstale : ¬ IsCurrent path content digests tree) (hdry : dryRun = true) :
      PageOutcome path content digests dryRun tree (.ok (⟨.wouldWrite, path⟩, digests) tree)
  | written {created filled later : FileTree} (hstale : ¬ IsCurrent path content digests tree)
      (hdry : dryRun = false) (hcreate : createAround path tree = .ok () created)
      (hwrite : created.writeFile (temporaryPath path) (pageText content).toUTF8 = .ok filled)
      (hmove : filled.renameFile (temporaryPath path) path = .ok later) :
      PageOutcome path content digests dryRun tree
        (.ok (⟨.written, path⟩, digests.insert path.text (pageDigest content)) later)
  | uncreated {later : FileTree} {e : SiteError} (hdry : dryRun = false)
      (hcreate : createAround path tree = .error e later) :
      PageOutcome path content digests dryRun tree (.error e later)
  | unfilled {created : FileTree} {e : SiteError} {fault : Fault} (hdry : dryRun = false)
      (hcreate : createAround path tree = .ok () created)
      (hwrite : created.writeFile (temporaryPath path) (pageText content).toUTF8 = .error fault) :
      PageOutcome path content digests dryRun tree (.error e created)
  | unmoved {created filled later : FileTree} {e : SiteError} (hdry : dryRun = false)
      (hcreate : createAround path tree = .ok () created)
      (hwrite : created.writeFile (temporaryPath path) (pageText content).toUTF8 = .ok filled)
      (hmove : moveInto (.io path) (temporaryPath path) path filled = .error e later) :
      PageOutcome path content digests dryRun tree (.error e later)

/-- Writing a page is looking whether it is current, and then writing it out. -/
theorem writePage_eq (path : Path) (content : String) (digests : Digests) (dryRun : Bool)
    (tree : FileTree) :
    writePage path content digests dryRun tree
      = if IsCurrent path content digests tree then .ok (⟨.unchanged, path⟩, digests) tree
        else if dryRun then .ok (⟨.wouldWrite, path⟩, digests) tree
        else (do
          createAround path
          FileAction.change (.io (temporaryPath path))
            (·.writeFile (temporaryPath path) (pageText content).toUTF8)
          moveInto (.io path) (temporaryPath path) path
          return (⟨.written, path⟩, digests.insert path.text (pageDigest content)) :
            FileAction SiteError (PageWrite × Digests)) tree := by
  unfold writePage
  refine (FileAction.bind_ok rfl).trans ?_
  by_cases hcurrent : IsCurrent path content digests tree
  · rw [if_pos hcurrent, if_pos (by simpa [IsCurrent, pageDigest] using hcurrent)]
    rfl
  · rw [if_neg hcurrent, if_neg (by simpa [IsCurrent, pageDigest] using hcurrent)]
    split
    · rfl
    · rw [createAround, bind_assoc]
      rfl

/-- **Writing a page.** -/
theorem pageOutcome (path : Path) (content : String) (digests : Digests) (dryRun : Bool)
    (tree : FileTree) :
    PageOutcome path content digests dryRun tree (writePage path content digests dryRun tree) := by
  rw [writePage_eq]
  -- A current page is passed over; then come the steps of writing one, each of which can fail.
  split
  · next hcurrent => exact .unchanged hcurrent
  next hstale =>
  cases dryRun with
  | true => exact .wouldWrite hstale rfl
  | false =>
    rw [if_neg Bool.false_ne_true]
    cases hcreate : createAround path tree with
    | error e later =>
      rw [FileAction.bind_error hcreate]
      exact .uncreated rfl hcreate
    | ok _ created =>
      rw [FileAction.bind_ok hcreate]
      cases hwrite : created.writeFile (temporaryPath path) (pageText content).toUTF8 with
      | error fault =>
        rw [FileAction.bind_error (change_error hwrite)]
        exact .unfilled rfl hcreate hwrite
      | ok filled =>
        rw [FileAction.bind_ok (change_ok hwrite)]
        cases hmove : moveInto (SiteError.io path) (temporaryPath path) path filled with
        | error e later =>
          rw [FileAction.bind_error hmove]
          exact .unmoved rfl hcreate hwrite hmove
        | ok _ later =>
          rw [FileAction.bind_ok hmove]
          exact .written hstale rfl hcreate hwrite (renameFile_of_moveInto hmove)

/-- Writing a page only puts its file in place. -/
theorem does_writePage (path : Path) (content : String) (digests : Digests) (dryRun : Bool) :
    Does (writing path) (writePage path content digests dryRun) := by
  refine .bind (.look _) fun isThere => ?_
  dsimp only
  split
  · exact .pure _
  · split
    · exact .pure _
    · refine .bind (.forIn fun directory hdirectory => .createAround _ hdirectory) fun _ => ?_
      refine .bind (.writeFile _ (.write _)) fun _ => ?_
      exact .bind (.moveInto _ .move .remove) fun _ => .pure _

/-- What has happened when a page has been written or passed over. -/
inductive PageWritten (path : Path) (content : String) (digests : Digests) (dryRun : Bool)
    (tree : FileTree) : PageWrite → Digests → FileTree → Prop where
  | unchanged (hdigest : digests.find? path.text = some (pageDigest content)) :
      PageWritten path content digests dryRun tree ⟨.unchanged, path⟩ digests tree
  | wouldWrite (hdry : dryRun = true) :
      PageWritten path content digests dryRun tree ⟨.wouldWrite, path⟩ digests tree
  | written {later : FileTree} (hdry : dryRun = false)
      (hholds : later.Holds path (pageText content))
      (hchanges : Changes (fun place => place = path.place tree.workingDirectory
        ∨ FileKind.temporary.Of place) tree later) :
      PageWritten path content digests dryRun tree ⟨.written, path⟩
        (digests.insert path.text (pageDigest content)) later

/-- What is known of a page that has been written or passed over. -/
theorem writePage_ok {path : Path} {content : String} {digests digests' : Digests} {dryRun : Bool}
    {tree later : FileTree} {write : PageWrite}
    (h : writePage path content digests dryRun tree = .ok (write, digests') later) :
    PageWritten path content digests dryRun tree write digests' later := by
  have houtcome := pageOutcome path content digests dryRun tree
  rw [h] at houtcome
  cases houtcome with
  | unchanged hcurrent => exact .unchanged hcurrent.1
  | wouldWrite _ hdry => exact .wouldWrite hdry
  | @written created _ _ _ hdry hcreate hwrite hmove =>
    have hcreated : Changes (fun _ => False) tree created :=
      changes_of_ok (keeps_createAround path) hcreate
    -- The temporary file was written and moved, so the page has its text now.
    obtain ⟨hholds, hreplaced⟩ := holds_of_replace hwrite hmove
    rw [hcreated.workingDirectory] at hreplaced
    refine .written hdry hholds ?_
    refine (hcreated.mono fun _ h => h.elim).trans (hreplaced.mono ?_)
    intro place hplace
    rcases hplace with hplace | hplace
    · exact .inl hplace
    · rw [hplace]
      exact .inr (of_temporaryPath _ path)

/-- A page that cannot be written leaves all files but the temporary one. -/
theorem changesTemporary_of_writePage_error {path : Path} {content : String} {digests : Digests}
    {dryRun : Bool} {tree later : FileTree} {e : SiteError}
    (h : writePage path content digests dryRun tree = .error e later) :
    Changes (· = (temporaryPath path).place tree.workingDirectory) tree later := by
  have hcreated {created : FileTree} (hcreate : createAround path tree = .ok () created) :
      Changes (· = (temporaryPath path).place tree.workingDirectory) tree created :=
    (changes_of_ok (keeps_createAround path) hcreate).mono fun _ h => h.elim
  have houtcome := pageOutcome path content digests dryRun tree
  rw [h] at houtcome
  cases houtcome with
  | uncreated _ hcreate =>
    -- Nothing has been written yet.
    exact (changes_of_error (keeps_createAround path) hcreate).mono fun _ h => h.elim
  | unfilled _ hcreate => exact hcreated hcreate
  | unmoved _ hcreate hwrite hmove =>
    have hwrite' : FileAction.change (SiteError.io (temporaryPath path))
        (·.writeFile (temporaryPath path) (pageText content).toUTF8) _ = .ok () _ :=
      change_ok hwrite
    have hreplaced := changes_of_replace_error hwrite' hmove
    rw [(hcreated hcreate).workingDirectory] at hreplaced
    exact (hcreated hcreate).trans hreplaced

/-- A page that cannot be written leaves what was in its place. -/
theorem changes_of_writePage_error {path : Path} {content : String} {digests : Digests}
    {dryRun : Bool} {tree later : FileTree} {e : SiteError}
    (h : writePage path content digests dryRun tree = .error e later) :
    Changes FileKind.temporary.Of tree later := by
  refine (changesTemporary_of_writePage_error h).mono fun place hplace => ?_
  rw [hplace]
  exact of_temporaryPath _ path

end Site

end Syllabus
