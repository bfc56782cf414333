import Syllabus.Proofs.Files.NewDirectories
import Syllabus.Proofs.Site.LedgerTruth
import Syllabus.Proofs.Site.PagesApart
import Syllabus.Proofs.Site.Repetition

/-!
# Syllabus: runs that fail

A run for a program looks at the templates, the program and its ledger, and renders all pages,
before it changes anything. What it does then can only fail at a file or directory: at a page, or
behind all pages at the ledger. A page is left as it was or is written whole. Saving the ledger
fails without a trace where there is a ledger already, and where there is none all pages have been
written.

* **`raises_finish`**: the errors of a run that has its pages.
* **`Ledger.eq_of_save_error`**: a ledger that cannot be saved where there is one.
* **`left_of_finish_error`**: what is left of the pages.
* **`undamaged_of_make_error`**: runs that fail, for whatever reason.
* **`LedgerInTheWay.ledger_differs`**: a directory that is left in place of a ledger.
-/

namespace Syllabus

open FileTree FileAction

/-! ## Errors of files -/

/-- Whether an error is that of a file or a directory. -/
def SiteError.IsIo (e : SiteError) : Prop := ∃ path fault, e = .io path fault

section Raises

variable {ε : Type} {allowed : ε → Prop} {onFault : Fault → ε}

/-- A change fails with the error made of its fault. -/
theorem raises_change (h : ∀ fault, allowed (onFault fault))
    (f : FileTree → Except Fault FileTree) : Action.Raises allowed (change onFault f) := by
  intro tree e later herror
  obtain ⟨_, fault, _, rfl⟩ := of_change_eq_error herror
  exact h fault

/-- Moving a file fails with the error made of its fault, whether or not the temporary one can be
taken away again. -/
theorem raises_moveInto (h : ∀ fault, allowed (onFault fault)) (source target : Path) :
    Action.Raises allowed (moveInto onFault source target) := by
  intro tree e later herror
  unfold moveInto at herror
  split at herror
  · cases herror
  · split at herror
    · cases herror
      exact h _
    · cases herror
      exact h _

theorem raises_createAmong (h : ∀ fault, allowed (onFault fault)) (paths : List Path) :
    Action.Raises allowed (createAmong onFault paths) := by
  -- On the paths: the error is that of this path or of one around it.
  induction paths with
  | nil => exact .throw (h _)
  | cons path around ih =>
    intro tree e later herror
    have hlast {between : FileTree} {fault : Fault}
        (herror : (if between.isDirectory path then EStateM.Result.ok () between
          else .error (onFault fault) between) = .error e later) : allowed e := by
      split at herror
      · cases herror
      · cases herror
        exact h fault
    rw [createAmong] at herror
    split at herror
    · cases herror
    dsimp only at herror
    split at herror
    · cases herror
    · split at herror
      · next hfailed =>
        cases herror
        exact ih hfailed
      · split at herror
        · cases herror
        · exact hlast herror
    · exact hlast herror

theorem raises_createDirectories (h : ∀ fault, allowed (onFault fault)) (path : Path) :
    Action.Raises allowed (createDirectories onFault path) :=
  raises_createAmong h _

end Raises

/-- Saving a ledger fails only for faults of files. -/
theorem raises_saveLedger (home : Path) (key : String) (ledger : Ledger) :
    Action.Raises (fun e => ∃ path fault, e = .io path fault) (Ledger.save home key ledger) := by
  unfold Ledger.save
  dsimp only
  split
  · exact .throw ⟨_, _, rfl⟩
  · refine .bind (raises_createDirectories (fun fault => ⟨_, fault, rfl⟩) _) fun _ => ?_
    exact .bind (raises_change (fun fault => ⟨_, fault, rfl⟩) _) fun _ =>
      raises_moveInto (fun fault => ⟨_, fault, rfl⟩) _ _

namespace Site

theorem raises_writePage (path : Path) (content : String) (digests : Digests) (dryRun : Bool) :
    Action.Raises SiteError.IsIo (writePage path content digests dryRun) := by
  refine .bind (fun tree e later h => by cases h) fun isThere => ?_
  dsimp only
  split
  · exact .pure _
  · split
    · exact .pure _
    · refine .bind (.forIn fun directory _ =>
        raises_createDirectories (fun fault => ⟨_, fault, rfl⟩) directory) fun _ => ?_
      refine .bind (raises_change (fun fault => ⟨_, fault, rfl⟩) _) fun _ => ?_
      exact .bind (raises_moveInto (fun fault => ⟨_, fault, rfl⟩) _ _) fun _ => .pure _

theorem raises_writePages (dryRun : Bool) (pages : List (Path × String)) (digests : Digests) :
    Action.Raises SiteError.IsIo (writePages dryRun pages digests) := by
  induction pages generalizing digests with
  | nil => exact .pure _
  | cons page rest ih =>
    exact .bind (raises_writePage page.1 page.2 digests dryRun) fun _ =>
      .bind (ih _) fun _ => .pure _

/-- What has been found is finished unless there is something wrong with a file. -/
theorem raises_finish (making : Making) (pages : List (Path × String)) (digests : Digests) :
    Action.Raises SiteError.IsIo (making.finish pages digests) := by
  refine .bind (raises_writePages making.dryRun pages digests) fun written => ?_
  have hsave : Action.Raises SiteError.IsIo ((Ledger.save making.home making.key
      { syncedAt := making.now, digests := written.2 }).adaptExcept SiteError.ofLedger) := by
    refine (raises_saveLedger _ _ _).adaptExcept ?_
    rintro _ ⟨path, fault, rfl⟩
    exact ⟨path, fault, rfl⟩
  dsimp only
  split
  · exact .bind hsave fun _ => .pure _
  · exact .pure _

end Site

/-! ## Ledgers that cannot be saved -/

namespace Ledger

variable {home : Path} {key : String} {ledger : Ledger} {tree later : FileTree} {e : LedgerError}

/-- A ledger that is loaded is in its file, or it is empty and there is nothing. -/
theorem of_load {now : Instant} {found : Ledger} (h : load now tree home key = .ok found) :
    tree.contains (file home key) = false ∧ found.digests = []
      ∨ ∃ content, tree.find (file home key)
        = .ok ((file home key).place tree.workingDirectory, .file content) := by
  unfold load at h
  dsimp only at h
  split at h
  · next hmissing =>
    cases h
    exact .inl ⟨by simpa using hmissing, rfl⟩
  · split at h
    · cases h
    · next hread =>
      obtain ⟨content, hfind, _⟩ := exists_find_of_readText hread
      exact .inr ⟨content, hfind⟩

/-- What is there but cannot be read is no ledger. -/
theorem load_of_unreadable (now : Instant) {fault : Fault}
    (hthere : tree.contains (file home key) = true)
    (hread : tree.readText (file home key) = .error fault) :
    load now tree home key = .error (.io (file home key) fault) := by
  unfold load
  simp only [hthere, hread]
  rfl

/-- Where there is a ledger already, it is moved over if the new one can be written at all. -/
theorem eq_of_save_error {location : List String} {content : ByteArray}
    (hfind : tree.find (file home key) = .ok (location, .file content))
    (h : save home key ledger tree = .error e later) : later = tree := by
  have hending := FileKind.isEnding_ending .ledger
  have hsuffix := suffix_ledger home key
  obtain ⟨hlocate, _⟩ := find_eq_file_iff.mp hfind
  obtain ⟨rfl, _⟩ := eq_place_of_locate hlocate
  obtain ⟨before, last, hfields, hlast⟩ := Path.exists_fields hending hsuffix
  have hname := Path.ne_of_ending hending hlast
  have hidle : Path.isIdle last = false := by simp [Path.isIdle, hname]
  unfold save at h
  cases hparent : (file home key).parent? with
  | none =>
    simp only [hparent] at h
    cases h
    rfl
  | some directory =>
    simp only [hparent] at h
    have hmade := isMade_parent hfields hidle hlocate hparent
    rw [FileAction.bind_ok (createDirectories_of_isMade _ hmade)] at h
    rcases of_bind_eq_error h with hwrite | ⟨_, written, hwrite, hmove⟩
    · exact (of_change_eq_error hwrite).1
    · -- The ledger is a file, so nothing keeps the new one from being moved over it.
      have hmoved := renameFile_over hfind (endsInName_of_suffix hending hsuffix)
        (place_ledger_ne_temporary _ home key) (eq_ok_of_change hwrite)
      unfold moveInto at hmove
      rw [hmoved] at hmove
      cases hmove

/-- The directories that are left when a ledger cannot be saved lie on the way to it. -/
theorem hasDirectory_of_save_error (hparent : ".." ∉ (file home key).names)
    (h : save home key ledger tree = .error e later) {place : List String}
    (hplace : later.HasDirectory place) :
    tree.HasDirectory place ∨ place <+: ((file home key).place tree.workingDirectory).dropLast := by
  have hdescends : (file home key).Descends :=
    .of_suffix (FileKind.isEnding_ending .ledger) (suffix_ledger home key) hparent
  unfold save at h
  cases hdirectory : (file home key).parent? with
  | none =>
    simp only [hdirectory] at h
    cases h
    exact .inl hplace
  | some directory =>
    simp only [hdirectory] at h
    obtain ⟨haround, hnames⟩ := hdescends.place_parent hdirectory tree.workingDirectory
    have hcreated : AddsOnly (fun _ => False) _ tree _ :=
      addsOnly_createDirectories (LedgerError.io directory) hnames tree
    rw [haround] at hcreated
    rcases of_bind_eq_error h with hcreate | ⟨_, created, hcreate, h⟩
    · rw [after_of_error hcreate] at hcreated
      exact hcreated.directories hplace
    rw [after_of_ok hcreate] at hcreated
    -- The temporary file cannot be written, or it cannot be moved, and no directory comes of
    -- either.
    rcases of_bind_eq_error h with hwrite | ⟨_, written, hwrite, hmove⟩
    · rw [(of_change_eq_error hwrite).1] at hplace
      exact hcreated.directories hplace
    · have hroot : ((file home key).withExtension "json.tmp").place created.workingDirectory
          ≠ [] := by
        obtain ⟨before, last, htemporary, _⟩ := of_ledgerTemporary created.workingDirectory home key
        rw [htemporary]
        exact List.append_ne_nil_of_right_ne_nil _ (List.cons_ne_nil _ _)
      have hmoved : AddsOnly (fun _ => False) (fun _ => False) created later :=
        addsOnly_of_unmoved hroot (eq_ok_of_change hwrite) hmove
      exact hcreated.directories ((hmoved.directories hplace).resolve_right id)

end Ledger

/-! ## What is left of a run -/

namespace Site

section Failed

variable {home : Path} {key : String} {options : SiteOptions} {pages : List (Path × String)}
  {digests : Digests} {tree later : FileTree} {e : SiteError}

/-- The pages that a run for a program sets out to write, where they can be rendered. -/
def outputs (home : Path) (key : String) (options : SiteOptions) (tree : FileTree) :
    List (Path × String) :=
  let pages? : Option (List (Path × String)) := do
    let library ← (Template.Library.load tree options.templates).toOption
    let program ← (Store.load tree home key).toOption
    (library.renderSite program (options.out.getD (Store.siteDirectory home key))).toOption
  pages?.getD []

/-- The outputs are the pages that are rendered. -/
theorem outputs_eq {library : Template.Library} {program : Program}
    (hlibrary : Template.Library.load tree options.templates = .ok library)
    (hprogram : Store.load tree home key = .ok program)
    (hpages : library.renderSite program (options.out.getD (Store.siteDirectory home key))
      = .ok pages) : outputs home key options tree = pages := by
  rw [outputs, hlibrary, hprogram]
  simp only [Except.toOption, Option.bind_eq_bind, Option.bind_some]
  rw [hpages]
  rfl

/-- What a run that fails leaves of a program, its ledger and its pages. -/
structure Undamaged (home : Path) (key : String) (pages : List (Path × String))
    (tree later : FileTree) : Prop where
  /-- The path of the program leads to what it led to. -/
  program : ∀ found, later.find (Store.programFile home key) = .ok found
    ↔ tree.find (Store.programFile home key) = .ok found
  /-- The path of the ledger does so if it led to anything. -/
  ledger : ∀ ⦃found⦄, tree.find (Ledger.file home key) = .ok found →
    later.find (Ledger.file home key) = .ok found
  /-- There is the same file in the place of the ledger, or none as before. -/
  ledgerFile : later.fileAt ((Ledger.file home key).place tree.workingDirectory)
    = tree.fileAt ((Ledger.file home key).place tree.workingDirectory)
  /-- A path of the ledger that led to nothing does so still, if it does not go back up and no page
  lies below it. -/
  noLedger : (∀ page ∈ pages, ".." ∉ page.1.way tree.workingDirectory) →
    ".." ∉ (Ledger.file home key).way tree.workingDirectory →
    (∀ page ∈ pages, ¬ (Ledger.file home key).place tree.workingDirectory
      <+: page.1.place tree.workingDirectory) →
    tree.contains (Ledger.file home key) = false → later.contains (Ledger.file home key) = false
  /-- Pages apart lead to what they led to, or have been written whole. -/
  pages : (∀ page ∈ pages, ".." ∉ page.1.way tree.workingDirectory) →
    (pages.map (·.1)).Pairwise (Apart tree.workingDirectory) →
    ∀ page ∈ pages, (∀ found, later.find page.1 = .ok found ↔ tree.find page.1 = .ok found)
      ∨ later.Holds page.1 (pageText page.2)

theorem Undamaged.refl (home : Path) (key : String) (pages : List (Path × String))
    (tree : FileTree) : Undamaged home key pages tree tree where
  program _ := Iff.rfl
  ledger _ hfind := hfind
  ledgerFile := rfl
  noLedger _ _ _ hmissing := hmissing
  pages _ _ _ _ := .inl fun _ => Iff.rfl

/-- The page is as it was, or as it has been rendered. -/
theorem Left.find_or_holds {page : Path × String} (h : Left page tree later)
    (houtput : IsOutput tree.workingDirectory page.1)
    (hworking : later.workingDirectory = tree.workingDirectory) :
    (∀ found, later.find page.1 = .ok found ↔ tree.find page.1 = .ok found)
      ∨ later.Holds page.1 (pageText page.2) := by
  cases h with
  | kept hsame =>
    exact .inl fun _ => find_of_find?_eq houtput.descends houtput.noParent hworking hsame
  | written hholds => exact .inr hholds

section Making

variable {making : Making}

/-- The directories that are left of a making lie on the way to its pages and to its ledger. -/
theorem hasDirectory_of_finish_error (hpages : ∀ page ∈ pages, page.1.Descends)
    (hledger : ".." ∉ (Ledger.file making.home making.key).names)
    (h : making.finish pages digests tree = .error e later) {place : List String}
    (hplace : later.HasDirectory place) :
    (tree.HasDirectory place
        ∨ ∃ page ∈ pages, place <+: (page.1.place tree.workingDirectory).dropLast)
      ∨ place <+: ((Ledger.file making.home making.key).place tree.workingDirectory).dropLast := by
  rcases of_finish_error h with hwrite | ⟨_, writes, digests', between, cause, hwrite, hsave⟩
  · rw [← after_of_error hwrite] at hplace
    exact .inl (hasDirectory_of_writePages hpages digests hplace)
  · have hworking := (performs_writePages making.dryRun pages digests tree).workingDirectory
    rw [after_of_ok hwrite] at hworking
    rcases Ledger.hasDirectory_of_save_error hledger hsave hplace with hbetween | haround
    · rw [← after_of_ok hwrite] at hbetween
      exact .inl (hasDirectory_of_writePages hpages digests hbetween)
    · exact .inr (hworking ▸ haround)

/-- The pages of a making that fails are left as they were, or have been written whole. -/
theorem left_of_finish_error {found : Ledger}
    (hload : Ledger.load making.now tree making.home making.key = .ok found)
    (houtput : ∀ page ∈ pages, IsOutput tree.workingDirectory page.1)
    (hapart : (pages.map (·.1)).Pairwise (Apart tree.workingDirectory))
    (h : making.finish pages found.digests tree = .error e later) :
    ∀ page ∈ pages, Left page tree later := by
  intro page hpage
  have hleft := left_of_writePages houtput hapart found.digests making.dryRun page hpage
  rcases of_finish_error h with hwrite | ⟨hdry, writes, digests', between, cause, hwrite, hsave⟩
  · rw [after_of_error hwrite] at hleft
    exact hleft
  rw [after_of_ok hwrite] at hleft
  have hpages : Changes _ tree (after (writePages making.dryRun pages found.digests) tree) :=
    changes_writePages fun page hpage => (houtput page hpage).isPage
  rw [after_of_ok hwrite] at hpages
  rcases Ledger.of_load hload with ⟨_, hempty⟩ | ⟨content, hfind⟩
  · -- Without a ledger all pages have been written, and the files of pages are not changed again.
    rw [hempty, hdry] at hwrite
    have hholds := holds_of_writePages houtput hapart (fun _ _ => rfl) hwrite page hpage
    refine .written (hholds.of_changes (changes_of_saveLedger_error hsave) fun htemporary => ?_)
    rw [hpages.workingDirectory] at htemporary
    cases FileKind.eq_of_endsIn htemporary (houtput page hpage).isPage
  · -- Where there is a ledger nothing is left of saving it.
    have hbetween := find_of_changes hpages hfind
      ((of_ledger _ _ _).not_or (by decide))
    rw [Ledger.eq_of_save_error hbetween hsave]
    exact hleft

/-- Where the path of the ledger led to nothing, nothing comes to be but a directory around a
page. -/
theorem contains_of_finish_error (hpages : ∀ page ∈ pages, page.1.Descends)
    (hbelow : ∀ page ∈ pages, ¬ (Ledger.file making.home making.key).place tree.workingDirectory
      <+: page.1.place tree.workingDirectory)
    (hway : ".." ∉ (Ledger.file making.home making.key).way tree.workingDirectory)
    (hchanges : Changes (fun place => FileKind.page.Of place ∨ FileKind.temporary.Of place) tree
      later)
    (h : making.finish pages digests tree = .error e later)
    (hthere : later.contains (Ledger.file making.home making.key) = true) :
    tree.contains (Ledger.file making.home making.key) = true := by
  have hnames : ".." ∉ (Ledger.file making.home making.key).names :=
    fun hname => hway (List.mem_append_right _ hname)
  have hdescends : (Ledger.file making.home making.key).Descends :=
    .of_suffix (FileKind.isEnding_ending .ledger) (suffix_ledger _ _) hnames
  have hworking := hchanges.workingDirectory
  obtain ⟨hpassable, hnode⟩ := (contains_iff hdescends (hworking ▸ hway)).mp hthere
  rw [hworking] at hpassable hnode
  refine (contains_iff hdescends hway).mpr ⟨hpassable, exists_find?_iff.mpr ?_⟩
  -- What is at the ledger's path is a directory that some page has needed, or the file from before.
  rcases exists_find?_iff.mp hnode with hdirectory | ⟨content, hcontent⟩
  · rcases hasDirectory_of_finish_error hpages hnames h hdirectory with
      (hold | ⟨page, hpage, haround⟩) | haround
    · exact .inl hold
    · exact absurd (haround.trans (List.dropLast_prefix _)) (hbelow page hpage)
    · exact absurd haround (hdescends.not_around _)
  · rw [hchanges.files _ ((of_ledger _ _ _).not_or (by decide))] at hcontent
    exact .inr ⟨content, hcontent⟩

/-- **One site.** A making that fails when it has its pages damages nothing. -/
theorem undamaged_of_perform_error (hfound : making.found? tree = some (pages, digests))
    (h : making.perform tree = .error e later) :
    Undamaged making.home making.key pages tree later := by
  have hchanges := changes_of_perform_error h
  have hfinish := (perform_of_found? hfound).symm.trans h
  obtain ⟨⟨program, hprogram, hpages⟩, found, hload, rfl⟩ := exists_of_found? hfound
  have houtput (hway : ∀ page ∈ pages, ".." ∉ page.1.way tree.workingDirectory) :
      ∀ page ∈ pages, IsOutput tree.workingDirectory page.1 :=
    fun page hpage => isOutput_of_page hpages hpage (hway page hpage)
  have hledger : ¬ (FileKind.page.Of _ ∨ FileKind.temporary.Of _) :=
    (of_ledger tree.workingDirectory making.home making.key).not_or (by decide)
  -- The program, the ledger that was there, its file, a ledger that was missing, and the pages.
  refine ⟨fun place => ?_, fun place hfind => ?_, hchanges.files _ hledger,
    fun hway hledgerWay hbelow hmissing => ?_, fun hway hapart page hpage => ?_⟩
  · obtain ⟨content, hfind⟩ := Store.exists_of_load hprogram
    have hfile := of_programFile tree.workingDirectory
      (Store.programDirectory making.home making.key)
    rw [hfind, find_of_changes hchanges hfind (hfile.not_or (by decide))]
  · rcases Ledger.of_load hload with ⟨hmissing, _⟩ | ⟨content, hthere⟩
    · rw [contains_of_find hfind] at hmissing
      cases hmissing
    · rw [← hfind, hthere]
      exact find_of_changes hchanges hthere hledger
  · rw [Bool.eq_false_iff] at hmissing ⊢
    exact fun hthere => hmissing (contains_of_finish_error
      (fun page hpage => (houtput hway page hpage).descends) hbelow hledgerWay hchanges hfinish
      hthere)
  · exact (left_of_finish_error hload (houtput hway) hapart hfinish page hpage).find_or_holds
      (houtput hway page hpage) hchanges.workingDirectory

end Making

/-- **Runs that fail.** A run for a program that fails for any other reason than a file or directory
that cannot be read or changed leaves the tree as it was. And any run that fails leaves the program
and its ledger, and of each of its pages what was there before or the whole page, as long as the
pages never go back up and lie apart. -/
theorem undamaged_of_make_error {now : Instant}
    (h : make now home key options tree = .error e later) :
    (¬ e.IsIo → later = tree)
      ∧ Undamaged home key (outputs home key options tree) tree later := by
  have hsame (hlater : later = tree) : (¬ e.IsIo → later = tree)
      ∧ Undamaged home key (outputs home key options tree) tree later :=
    ⟨fun _ => hlater, hlater ▸ .refl _ _ _ _⟩
  -- Without templates nothing has been done.
  cases hlibrary : Template.Library.load tree options.templates with
  | error cause =>
    rw [make_error hlibrary] at h
    cases h
    exact hsame rfl
  | ok library =>
    rw [make_ok hlibrary] at h
    rcases perform_eq _ tree with ⟨_, _, hperform⟩ | ⟨pages, digests, hfound, hperform⟩
    · rw [h] at hperform
      cases hperform
      exact hsame rfl
    · obtain ⟨⟨program, hprogram, hpages⟩, _⟩ := exists_of_found? hfound
      have hundamaged := undamaged_of_perform_error hfound h
      rw [outputs_eq hlibrary hprogram hpages]
      exact ⟨fun hother => absurd (raises_finish _ _ _ (hperform.symm.trans h)) hother, hundamaged⟩

end Failed

namespace FailedRun

open SharedDirectory

/-- The second run has moved the page of the program, and has left the directory in the place of the
page of the course. -/
theorem undamaged_afterFailure : ∃ e,
    make noon ⟨"home"⟩ "a" (options "second") obstructed = .error e afterFailure
      ∧ (¬ e.IsIo → afterFailure = obstructed)
      ∧ Undamaged ⟨"home"⟩ "a" [(page, "two"), (lessonPage, "")] obstructed afterFailure
      ∧ (∀ path ∈ [page, lessonPage], ".." ∉ path.way obstructed.workingDirectory)
      ∧ [page, lessonPage].Pairwise (Apart obstructed.workingDirectory) := by
  obtain ⟨e, hperform⟩ := perform_second
  have hlibrary : Template.Library.load obstructed (options "second").templates
      = .ok (plainLibrary "two") := load_plain of_obstructed.2.1 (by decide)
  have hmake := (make_ok hlibrary noon ⟨"home"⟩ "a").trans hperform
  have hworking := changes_obstruct.workingDirectory.trans workingDirectory_afterFirst
  obtain ⟨hsame, hundamaged⟩ := undamaged_of_make_error hmake
  rw [outputs_eq hlibrary of_obstructed.1 renderSite_second] at hundamaged
  rw [hworking]
  exact ⟨e, hmake, hsame, hundamaged, by decide, List.pairwise_pair.mpr ⟨by decide, by decide⟩⟩

end FailedRun

/-! ## A site in place of the ledger -/

namespace LedgerInTheWay

open SharedDirectory (noon)
open PageForTemplates (start program of_start)
open Template (builtInPages)

/-- The site is made in a directory with the name of the ledger. -/
def site : Path := ⟨"home/.coursebook/hashes/k.json"⟩

def options : SiteOptions where
  out := some site

/-- Makes the site with the built-in templates. -/
@[irreducible] def finish : FileAction SiteError SiteReport :=
  Making.finish ⟨{}, noon, ⟨"home"⟩, "k", site, false⟩ (builtInPages program site) []

@[irreducible] def left : FileTree := after finish start

/-- The page cannot be written, and the directory for it has been made at the ledger's path. -/
theorem of_left : valueOf (finish start) = none
    ∧ left.contains (Ledger.file ⟨"home"⟩ "k") = true
    ∧ left.readText (Ledger.file ⟨"home"⟩ "k") = .error .isADirectory
    ∧ (builtInPages program site).map (·.1) = [site / "Course.html"] := by
  decide +kernel

theorem finish_start : ∃ e, finish start = .error e left := by
  unfold left
  exact exists_error_of_valueOf of_left.1

/-- The page is written to its directory, over which the ledger cannot be moved then. There was no
ledger, and now there is something that is none. -/
theorem ledger_differs : Ledger.file ⟨"home"⟩ "k" = site
    ∧ ∃ e, make noon ⟨"home"⟩ "k" options start = .error e left
      ∧ e.IsIo
      ∧ (outputs ⟨"home"⟩ "k" options start).map (·.1) = [site / "Course.html"]
      ∧ ".." ∉ (site / "Course.html").way start.workingDirectory
      ∧ start.contains (Ledger.file ⟨"home"⟩ "k") = false
      ∧ left.contains (Ledger.file ⟨"home"⟩ "k") = true
      ∧ Ledger.load noon start ⟨"home"⟩ "k" = .ok { syncedAt := noon }
      ∧ Ledger.load noon left ⟨"home"⟩ "k"
        = .error (.io (Ledger.file ⟨"home"⟩ "k") .isADirectory) := by
  obtain ⟨_, hthere, hread, hpaths⟩ := of_left
  obtain ⟨hprogram, _, hmissing, _⟩ := of_start
  obtain ⟨library, hload, hrender⟩ := Template.exists_builtIn
  have hlibrary : Template.Library.load start options.templates = .ok library := hload start
  have hpages : library.renderSite program (options.out.getD (Store.siteDirectory ⟨"home"⟩ "k"))
      = .ok (builtInPages program site) := hrender program site
  have hempty := load_of_missing noon hmissing
  have hfound := @found?_eq ⟨library, noon, ⟨"home"⟩, "k", site, false⟩ start _ program _ hprogram
    (hrender program site) hempty
  obtain ⟨e, hfinish⟩ := finish_start
  unfold finish at hfinish
  refine ⟨by decide, e, ?_, raises_finish _ _ _ hfinish, ?_, by decide, hmissing, hthere, hempty,
    Ledger.load_of_unreadable noon hthere hread⟩
  · exact (make_ok hlibrary noon ⟨"home"⟩ "k").trans ((perform_of_found? hfound).trans hfinish)
  · rw [outputs_eq hlibrary hprogram hpages]
    exact hpaths

end LedgerInTheWay

end Site

end Syllabus
