import Syllabus.Proofs.Files.NewDirectories
import Syllabus.Proofs.Site.KeptDigests

/-!
# Syllabus: pages that are written whole or not at all

A page that is written is there with all of its text, and of the way it came there nothing is left
but directories around it. A page that cannot be written leaves the tree as it was, but for a file
in the place of its temporary file, which may be lost. Directories are made only if the temporary
file can be written in them: if they are new they are empty, so nothing can be in its way, nor in
that of the page. The exception is a page whose temporary file no path can lead to, as its name is
too long: then directories are made in vain.

* **`WholeWrite`**, **`FailedWrite`**: what is left if a page has been written, and if it has not.
* **`removed_of_writePage_error`**, **`made_of_not_passable`**: the tree that a failure leaves.
* **`writePage_whole`**: writing a page, whatever comes of it.
-/

namespace Syllabus.Site

open FileTree FileAction

variable {path : Path} {tree later : FileTree} {content : String} {digests : Digests}
  {dryRun : Bool}

/-! ## The directory of a page -/

/-- The page and its temporary file lie in one directory, so this is made once. -/
theorem createAround_eq (hpath : path.Descends) {directory : Path}
    (hdirectory : path.parent? = some directory) (tree : FileTree) :
    createAround path tree = createDirectories (.io directory) directory tree := by
  have htemporary : (temporaryPath path).parent? = some directory :=
    (hpath.parent?_append isEnding_temporaryPath).trans hdirectory
  have htwice : createAround path = (do
      createDirectories (SiteError.io directory) directory
      createDirectories (SiteError.io directory) directory) := by
    simp [createAround, hdirectory, htemporary]
  -- The second time all of them are there.
  rw [htwice]
  cases hresult : createDirectories (SiteError.io directory) directory tree with
  | error e between => exact FileAction.bind_error hresult
  | ok _ between =>
    rw [FileAction.bind_ok hresult]
    exact createDirectories_of_isMade _ (isMade_of_createDirectories hresult)

/-- Where a file could be in the place of the temporary file: either nothing is made for the page,
or there is a place for both files, and nothing in it. -/
inductive AroundMade (path : Path) (tree : FileTree) :
    EStateM.Result SiteError FileTree Unit → Prop where
  | failed {e : SiteError} : AroundMade path tree (.error e tree)
  | kept : AroundMade path tree (.ok () tree)
  | made {later : FileTree}
      (hmissing : ∀ file ∈ [temporaryPath path, path],
        later.locate file = .ok (file.place later.workingDirectory)
          ∧ later.root.find? (file.place later.workingDirectory) = none) :
      AroundMade path tree (.ok () later)

/-- The directories around a page are made, or nothing is. -/
theorem aroundMade_createAround (hpath : path.Descends)
    (hpassable : (temporaryPath path).Passable tree.workingDirectory) :
    AroundMade path tree (createAround path tree) := by
  obtain ⟨before, last, hfields, hidle⟩ := hpath.last
  obtain ⟨directory, hdirectory⟩ : ∃ directory, path.parent? = some directory :=
    ⟨_, Path.parent?_of_last hfields hidle⟩
  have hmade := madeAround_createDirectories (SiteError.io directory) hpath isEnding_temporaryPath
    hdirectory hpassable
  rw [createAround_eq hpath hdirectory]
  generalize createDirectories (SiteError.io directory) directory tree = result at hmade ⊢
  cases hmade with
  | failed => exact .failed
  | kept => exact .kept
  | made hmissing => exact .made hmissing

/-! ## Failures -/

/-- **The tree that a failure leaves.** If a file could be in the place of the temporary file, it is
the tree as it was, or without this file. -/
theorem removed_of_writePage_error (hpath : path.Descends)
    (hpassable : (temporaryPath path).Passable tree.workingDirectory) {e : SiteError}
    (h : writePage path content digests dryRun tree = .error e later) :
    later = tree ∨ ∃ bytes,
      tree.fileAt ((temporaryPath path).place tree.workingDirectory) = some bytes
        ∧ later = { tree with
          root := tree.root.remove ((temporaryPath path).place tree.workingDirectory) } := by
  have hmade := aroundMade_createAround hpath hpassable
  have htemporary := descends_temporaryPath hpath
  have houtcome := pageOutcome path content digests dryRun tree
  rw [h] at houtcome
  cases houtcome with
  | uncreated _ hcreate =>
    rw [hcreate] at hmade
    cases hmade
    exact .inl rfl
  | unfilled _ hcreate hwrite =>
    rw [hcreate] at hmade
    cases hmade with
    | kept => exact .inl rfl
    | made hmissing =>
      -- Nothing is in the way of the temporary file.
      obtain ⟨hlocate, hnone⟩ := hmissing (temporaryPath path) (by simp)
      obtain ⟨filled, hfilled⟩ := exists_writeFile_of_missing hlocate hnone htemporary.noSlash _
      rw [hfilled] at hwrite
      cases hwrite
  | @unmoved created filled _ _ _ hcreate hwrite hmove =>
    rw [hcreate] at hmade
    cases hmade with
    | kept =>
      have hlater := eq_of_unmoved (place_temporaryPath_ne_nil hpath _) hwrite hmove
      obtain ⟨_, hdirectory, _⟩ := eq_of_writeFile hwrite
      cases hfile : tree.fileAt ((temporaryPath path).place tree.workingDirectory) with
      | none =>
        rw [Node.remove_eq_self (find?_eq_none hfile hdirectory)] at hlater
        exact .inl hlater
      | some bytes => exact .inr ⟨bytes, rfl, hlater⟩
    | made hmissing =>
      -- Nothing is in the way of the page either.
      obtain ⟨hlocate, hnone⟩ := hmissing path (by simp)
      have hbeside := beside_temporaryPath hpath created.workingDirectory
      obtain ⟨moved, hmoved⟩ := exists_renameFile_of_missing hwrite hlocate hnone hpath.endsInName
        hpath.noSlash hbeside.symm
      unfold moveInto at hmove
      rw [hmoved] at hmove
      cases hmove

/-- **Directories that are made in vain.** If no file can be in the place of the temporary file,
they are left when the page cannot be written. -/
theorem made_of_not_passable (hstale : ¬ IsCurrent path content digests tree)
    (hlong : ¬ (temporaryPath path).Passable tree.workingDirectory)
    (hcreate : createAround path tree = .ok () later) :
    ∃ e, writePage path content digests false tree = .error e later := by
  have hworking := (changes_of_ok (keeps_createAround path) hcreate).workingDirectory
  have hunwritable {filled : FileTree}
      (hwrite : later.writeFile (temporaryPath path) (pageText content).toUTF8 = .ok filled) :
      False := by
    obtain ⟨_, _, hlocate, _⟩ := eq_of_writeFile hwrite
    exact hlong (hworking ▸ passable_of_locate hlocate)
  have houtcome := pageOutcome path content digests false tree
  generalize writePage path content digests false tree = result at houtcome ⊢
  -- Of all outcomes only a temporary file that cannot be written is left.
  cases houtcome with
  | unchanged hcurrent => exact absurd hcurrent hstale
  | wouldWrite _ hdry => cases hdry
  | written _ _ hcreate' hwrite =>
    rw [hcreate] at hcreate'
    cases hcreate'
    exact (hunwritable hwrite).elim
  | uncreated _ hcreate' =>
    rw [hcreate] at hcreate'
    cases hcreate'
  | unfilled _ hcreate' =>
    rw [hcreate] at hcreate'
    cases hcreate'
    exact ⟨_, rfl⟩
  | unmoved _ hcreate' hwrite =>
    rw [hcreate] at hcreate'
    cases hcreate'
    exact (hunwritable hwrite).elim

/-- What a page that cannot be written leaves. -/
structure FailedWrite (path : Path) (tree later : FileTree) : Prop where
  /-- No file is changed but the temporary one, and no directory is taken away. -/
  changes : Changes (· = (temporaryPath path).place tree.workingDirectory) tree later
  temporary : later.fileAt ((temporaryPath path).place tree.workingDirectory) = none
    ∨ later.fileAt ((temporaryPath path).place tree.workingDirectory)
      = tree.fileAt ((temporaryPath path).place tree.workingDirectory)
  /-- New directories are on the way to the page. -/
  made : ∀ ⦃place⦄, later.HasDirectory place →
    tree.HasDirectory place ∨ place <+: (path.place tree.workingDirectory).dropLast
  /-- There is nothing new at all if a file could be in the place of the temporary file. -/
  whole : (temporaryPath path).Passable tree.workingDirectory → later = tree ∨ ∃ bytes,
    tree.fileAt ((temporaryPath path).place tree.workingDirectory) = some bytes
      ∧ later = { tree with
        root := tree.root.remove ((temporaryPath path).place tree.workingDirectory) }

/-- What a page that is not written leaves behind. -/
theorem failedWrite_of_error (hpath : path.Descends) {e : SiteError}
    (h : writePage path content digests dryRun tree = .error e later) :
    FailedWrite path tree later where
  changes := changesTemporary_of_writePage_error h
  temporary := by
    have hcreated {result : EStateM.Result SiteError FileTree Unit}
        (hresult : createAround path tree = result) :
        (treeOf result).fileAt ((temporaryPath path).place tree.workingDirectory)
          = tree.fileAt ((temporaryPath path).place tree.workingDirectory) := by
      rw [← hresult]
      exact (keeps_createAround path rfl).files _ fun hnone => hnone
    have houtcome := pageOutcome path content digests dryRun tree
    rw [h] at houtcome
    -- The directories fail, the temporary file cannot be written, or it cannot be moved.
    cases houtcome with
    | uncreated _ hcreate => exact .inr (hcreated hcreate)
    | unfilled _ hcreate => exact .inr (hcreated hcreate)
    | @unmoved created filled _ _ _ hcreate hwrite hmove =>
      have hplace := place_temporaryPath_ne_nil hpath created.workingDirectory
      have hworking := (changes_of_ok (keeps_createAround path) hcreate).workingDirectory
      rw [eq_of_unmoved hplace hwrite hmove, ← hworking]
      exact .inl (fileAt_eq_none (Node.find?_remove_self _ hplace))
  made _ hplace := by
    have hadds : AddsOnly (fun _ => False) _ tree later := addsOnly_of_writePage_error hpath h
    exact hadds.directories hplace
  whole hpassable := removed_of_writePage_error hpath hpassable h

/-! ## Pages that are written -/

/-- What a page that has been written leaves. -/
structure WholeWrite (path : Path) (content : String) (state later : PageState) : Prop where
  holds : later.tree.Holds path (pageText content)
  gone : later.tree.root.find? ((temporaryPath path).place state.tree.workingDirectory) = none
  /-- All other files are as they were. -/
  changes : Changes (fun place => place = path.place state.tree.workingDirectory
    ∨ place = (temporaryPath path).place state.tree.workingDirectory) state.tree later.tree
  /-- The directories on the way to the page are those that may be new. -/
  directories : ∀ place, later.tree.HasDirectory place ↔ state.tree.HasDirectory place
    ∨ place <+: (path.place state.tree.workingDirectory).dropLast
  digests : ∀ name, later.digests.find? name
    = if path.text = name then some (pageDigest content) else state.digests.find? name

/-- What a page that is written leaves behind. -/
theorem wholeWrite_of_written (hpath : path.Descends) {state : PageState}
    {created filled : FileTree} (hcreate : createAround path state.tree = .ok () created)
    (hwrite : created.writeFile (temporaryPath path) (pageText content).toUTF8 = .ok filled)
    (hmove : filled.renameFile (temporaryPath path) path = .ok later)
    (hadds : AddsOnly (· = path.place state.tree.workingDirectory)
      (· <+: (path.place state.tree.workingDirectory).dropLast) state.tree later) :
    WholeWrite path content state
      ⟨later, state.digests.insert path.text (pageDigest content)⟩ := by
  have hcreated := changes_of_ok (keeps_createAround path) hcreate
  obtain ⟨_, _, hfilled, _⟩ := exists_of_writeFile hwrite
  obtain ⟨hholds, hreplaced⟩ := holds_of_replace hwrite hmove
  have hchanges := (hcreated.mono fun _ hnone => hnone.elim).trans hreplaced
  have hworking := hcreated.workingDirectory
  rw [hworking] at hchanges
  refine ⟨hholds, ?_, hchanges, fun place => ⟨fun hplace => hadds.directories hplace, ?_⟩,
    fun name => Table.find?_insert state.digests path.text name (pageDigest content)⟩
  · have hgone := find?_source_of_renameFile hmove (place_ne_temporaryPath hpath _)
    rwa [hfilled.workingDirectory, hworking] at hgone
  · rintro (hplace | hplace)
    · exact hchanges.directories place hplace
    · -- The page lies in a directory, and so does this one.
      have haround := (eq_place_of_locate hholds.located).2
      rw [hchanges.workingDirectory] at haround
      have hdirectory := haround fun hroot =>
        hpath.not_around state.tree.workingDirectory (hroot ▸ List.nil_prefix)
      exact hdirectory.of_prefix hplace

/-! ## Whatever comes of it -/

/-- What is left of a state, by how writing a page ends. -/
inductive PageEnd (path : Path) (content : String) (state later : PageState) :
    EStateM.Result SiteError FileTree (PageWrite × Digests) → Prop where
  | failed {e : SiteError} {tree : FileTree} (hdigests : later.digests = state.digests)
      (hfailed : FailedWrite path state.tree later.tree) :
      PageEnd path content state later (.error e tree)
  | passed {outcome : Outcome} {digests : Digests} {tree : FileTree}
      (houtcome : outcome ≠ .written) (hsame : later = state) :
      PageEnd path content state later (.ok (⟨outcome, path⟩, digests) tree)
  | written {digests : Digests} {tree : FileTree} (hwhole : WholeWrite path content state later) :
      PageEnd path content state later (.ok (⟨.written, path⟩, digests) tree)

/-- **Writing a page.** A page that cannot be written leaves the digests, all other files and all
directories, and makes none if a file can be in the place of its temporary file. A page that is
passed over changes nothing. A page that has been written is there, with its digest, and its
temporary file is not. -/
theorem writePage_whole (hpath : path.Descends) (content : String) (dryRun : Bool)
    (state : PageState) :
    PageEnd path content state ((PageStep.write path content dryRun).apply state)
      (writePage path content state.digests dryRun state.tree) := by
  have hadds := addsOnly_writePage hpath content state.digests dryRun state.tree
  have houtcome := pageOutcome path content state.digests dryRun state.tree
  rw [PageStep.apply]
  cases hresult : writePage path content state.digests dryRun state.tree with
  | error e after => exact .failed rfl (failedWrite_of_error hpath hresult)
  | ok value after =>
    rw [after_of_ok hresult] at hadds
    rw [hresult] at houtcome
    cases houtcome with
    | unchanged | wouldWrite => exact .passed (by decide) rfl
    | written _ _ hcreate hwrite hmove =>
      exact .written (wholeWrite_of_written hpath hcreate hwrite hmove hadds)

namespace TakenPlace

/-! A page for which a directory is made, and one in whose place there is a directory. -/

def start : FileTree where
  root := .directory [("taken", .directory []), ("taken.coursebook.tmp", .file "old".toUTF8)]

def page : Path := ⟨"new/page"⟩

def taken : Path := ⟨"taken"⟩

/-- The first page is written, and the other fails at the directory in its place. -/
theorem written_and_failed : page.Descends ∧ taken.Descends
    ∧ (valueOf (writePage page "a\r\n" [] false start)).map (·.1) = some ⟨.written, page⟩
    ∧ WholeWrite page "a\r\n" ⟨start, []⟩ ((PageStep.write page "a\r\n" false).apply ⟨start, []⟩)
    ∧ valueOf (writePage taken "b" [] false start) = none
    ∧ (temporaryPath taken).Passable start.workingDirectory
    ∧ FailedWrite taken start ((PageStep.write taken "b" false).apply ⟨start, []⟩).tree := by
  have hpage : page.Descends := ⟨by decide, ["new"], "page", by decide, by decide⟩
  have htaken : taken.Descends := ⟨by decide, [], "taken", by decide, by decide⟩
  have hpassable : (temporaryPath taken).Passable start.workingDirectory :=
    ⟨by decide, by decide, by decide, by decide⟩
  have hwritten : (valueOf (writePage page "a\r\n" [] false start)).map (·.1)
      = some ⟨.written, page⟩ := by decide +kernel
  have hfailed : valueOf (writePage taken "b" [] false start) = none := by decide +kernel
  have hwhole := writePage_whole hpage "a\r\n" false ⟨start, []⟩
  have hleft := writePage_whole htaken "b" false ⟨start, []⟩
  obtain ⟨⟨write, digests⟩, hvalue, rfl⟩ := Option.map_eq_some_iff.mp hwritten
  obtain ⟨e, herror⟩ := exists_error_of_valueOf hfailed
  rw [eq_ok_of_valueOf hvalue] at hwhole
  rw [herror] at hleft
  refine ⟨hpage, htaken, hwritten, ?_, hfailed, hpassable, ?_⟩
  · cases hwhole with
    | passed houtcome => exact absurd rfl houtcome
    | written hwhole => exact hwhole
  · cases hleft with
    | failed _ hfailed => exact hfailed

end TakenPlace

namespace LongName

/-! A name may be short enough for a page, and too long for its temporary file. -/

def name : String := String.ofList (List.replicate 250 'x')

def page : Path := ⟨"new/" ++ name⟩

def start : FileTree := {}

/-- The name is long, but not too long. -/
theorem of_name : Path.isIdle name = false ∧ name ≠ ".." ∧ name.utf8ByteSize = 250 := by
  decide +kernel

/-- The path has the long name as its last part. -/
theorem fields_page : Text.fields '/' page.text = ["new"] ++ [name] := by
  have hslash : '/' ∉ name.toList := by
    have hnone (n : Nat) : '/' ∉ List.replicate n 'x' := by simp [List.mem_replicate]
    unfold name
    rw [String.toList_ofList]
    exact hnone 250
  have hnew : Text.fields '/' "new/" = ["new"] ++ [""] := by decide
  have hfields := Path.fields_append hnew hslash
  rwa [String.empty_append] at hfields

theorem names_page : page.names = ["new", name] := by
  have hname : name ≠ "" := by
    intro hempty
    have hidle := of_name.1
    rw [hempty] at hidle
    cases hidle
  rw [Path.names, fields_page]
  simp [hname]

theorem descends_page : page.Descends where
  noParent := by
    rw [names_page]
    simp [of_name.2.1.symm]
  last := ⟨["new"], name, fields_page, of_name.1⟩

/-- With its ending the temporary file's name is too long. -/
theorem not_passable : ¬ (temporaryPath page).Passable start.workingDirectory := by
  intro hpassable
  have hsize : (name ++ ".coursebook.tmp").utf8ByteSize = 265 := by
    rw [String.utf8ByteSize_append, of_name.2.2]
    decide
  have hfields : Text.fields '/' (temporaryPath page).text
      = ["new"] ++ [name ++ ".coursebook.tmp"] := Path.fields_append fields_page (by decide)
  have hmem : name ++ ".coursebook.tmp" ∈ (temporaryPath page).way start.workingDirectory := by
    have hname : name ++ ".coursebook.tmp" ≠ "" := by
      intro hempty
      rw [hempty] at hsize
      cases hsize
    rw [Path.way, Path.names, hfields]
    simp [hname]
  rcases hpassable.shortNames _ hmem with hself | hparent | hshort
  · rw [hself] at hsize
    cases hsize
  · rw [hparent] at hsize
    cases hsize
  · rw [hsize] at hshort
    exact absurd hshort (by decide)

/-- The directory of the page is made all the same. -/
theorem createAround_page : createAround page start
      = .ok () (after (createDirectories (SiteError.io ⟨"new"⟩) ⟨"new"⟩) start)
    ∧ (after (createDirectories (SiteError.io ⟨"new"⟩) ⟨"new"⟩) start).isDirectory ⟨"new"⟩
      = true := by
  have hparent : page.parent? = some ⟨"new"⟩ :=
    (Path.parent?_of_last fields_page of_name.1).trans (by decide)
  rw [createAround_eq descends_page hparent]
  exact ⟨eq_ok_of_valueOf (by decide), by decide⟩

/-- The directory of the page has been made, though the page cannot be written. -/
theorem leaves_directory : page.Descends ∧ page.names = ["new", name] ∧ name.utf8ByteSize = 250
    ∧ start.isDirectory ⟨"new"⟩ = false
    ∧ ∃ e later, writePage page "c" [] false start = .error e later
      ∧ later.isDirectory ⟨"new"⟩ = true := by
  obtain ⟨hcreate, hdirectory⟩ := createAround_page
  have hstale : ¬ IsCurrent page "c" [] start := fun hcurrent => by cases hcurrent.1
  obtain ⟨e, herror⟩ := made_of_not_passable hstale not_passable hcreate
  exact ⟨descends_page, names_page, of_name.2.2, by decide, e, _, herror, hdirectory⟩

end LongName

end Syllabus.Site
