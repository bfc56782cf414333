import Syllabus.Proofs.LastItem
import Syllabus.Proofs.Site.LedgerText
import Syllabus.Proofs.Site.PageWrites

/-!
# Syllabus: logs of pages

A log has the pages that have been moved into place, in the order of the moves. What is in a place
is the last page of the log there. What a ledger says of a path is the digest of the last page of
the log that was moved to the path, among those whose digests were saved in it.

* **`PagesHeld`**: the pages of a log are where it says.
* **`Accounted`**: the digests of a ledger are those of pages of a log.
* **`KeptByMoves.writePages`**, **`find?_of_writePages`**: both when pages are written.
-/

namespace Syllabus.Site

open FileTree FileAction

/-- A text for a path, and the place of the ledger that its digest goes to. -/
structure Rendering where
  ledger : List String
  path : Path
  text : String

/-- A page that has been moved into place. It is recorded if the ledger was saved behind it. -/
structure PageEvent extends Rendering where
  recorded : Bool

/-- The last page that was moved to a place. -/
def lastAt (start file : List String) (log : List PageEvent) : Option PageEvent :=
  log.findRev? fun event => event.path.place start = file

/-- The last page that was moved to a path and is recorded in a ledger. -/
def lastRecorded (ledger : List String) (path : Path) (log : List PageEvent) : Option PageEvent :=
  log.findRev? fun event => event.ledger = ledger ∧ event.path = path ∧ event.recorded

/-- The last text for a path. -/
def lastRendered (path : Path) (renderings : List Rendering) : Option Rendering :=
  renderings.findRev? (·.path = path)

section Log

variable {start file ledger : List String} {path : Path} {log : List PageEvent} {event : PageEvent}

/-- The last event in a place is the last of all, if it is there. -/
theorem lastAt_concat (start file : List String) (log : List PageEvent) (event : PageEvent) :
    lastAt start file (log ++ [event])
      = if event.path.place start = file then some event else lastAt start file log := by
  rw [lastAt, findRev?_append]
  by_cases hplace : event.path.place start = file
  · simp [List.findRev?, hplace]
  · simp [List.findRev?, hplace, lastAt]

theorem place_of_lastAt (h : lastAt start file log = some event) :
    event.path.place start = file := by
  have hfile := of_findRev? h
  exact of_decide_eq_true hfile

/-- Where a page was moved to last, the place is that of a page. -/
theorem isPage_of_lastAt (h : lastAt start file log = some event)
    (hpages : ∀ event ∈ log, FileKind.page.Of (event.path.place start)) : FileKind.page.Of file :=
  place_of_lastAt h ▸ hpages event (mem_of_findRev? h)

/-- What is recorded last belongs to the ledger and to the path. -/
theorem of_lastRecorded (h : lastRecorded ledger path log = some event) :
    event.ledger = ledger ∧ event.path = path ∧ event.recorded = true := by
  have hrecorded := of_findRev? h
  exact of_decide_eq_true hrecorded

/-- A page that is in its place is the one recorded last, if it is recorded at all. -/
theorem lastRecorded_of_lastAt (h : lastAt start (path.place start) log = some event)
    (hledger : event.ledger = ledger) (hpath : event.path = path)
    (hrecorded : event.recorded = true) : lastRecorded ledger path log = some event := by
  refine findRev?_of_imp h (decide_eq_true ⟨hledger, hpath, hrecorded⟩) fun other hother => ?_
  obtain ⟨_, hother, _⟩ := of_decide_eq_true hother
  rw [hother]
  exact decide_eq_true rfl

/-- Where a page is recorded for a path, there is a page in the place of the path. -/
theorem exists_lastAt (h : lastRecorded ledger path log = some event) (start : List String) :
    ∃ last, lastAt start (path.place start) log = some last := by
  rw [← Option.isSome_iff_exists, Option.isSome_iff_ne_none, lastAt, Ne, findRev?_eq_none_iff]
  intro hnone
  refine hnone event (mem_of_findRev? h) ?_
  rw [(of_lastRecorded h).2.1]
  exact decide_eq_true rfl

end Log

/-! ## Pages in their places -/

/-- What holds of a log and a tree, and goes on to hold when a page is moved into place and put
behind the log, and whatever is done to files that are no pages. -/
structure KeptByMoves (start : List String) (kept : List PageEvent → FileTree → Prop) : Prop where
  of_changes : ∀ {log tree later places}, kept log tree → Changes places tree later →
    (∀ place, places place → ¬ FileKind.page.Of place) → kept log later
  append : ∀ {log tree later}, kept log tree → ∀ event : PageEvent,
    FileKind.page.Of (event.path.place start) → later.Holds event.path event.text →
    Changes (fun place => place = event.path.place tree.workingDirectory
      ∨ FileKind.temporary.Of place) tree later → kept (log ++ [event]) later

/-- Whether the last pages of a log are in their places. -/
structure PagesHeld (start : List String) (log : List PageEvent) (tree : FileTree) : Prop where
  workingDirectory : tree.workingDirectory = start
  isPage : ∀ event ∈ log, FileKind.page.Of (event.path.place start)
  held : ∀ ⦃file event⦄, lastAt start file log = some event → tree.Holds event.path event.text

namespace PagesHeld

variable {start : List String} {log : List PageEvent} {tree later : FileTree}

/-- Changes to files that are no pages keep them held. -/
theorem of_changes {places : List String → Prop} (h : PagesHeld start log tree)
    (hchanges : Changes places tree later)
    (hplaces : ∀ place, places place → ¬ FileKind.page.Of place) : PagesHeld start log later where
  workingDirectory := hchanges.workingDirectory.trans h.workingDirectory
  isPage := h.isPage
  held file event hlast := by
    refine (h.held hlast).of_changes hchanges fun hplace => hplaces _ hplace ?_
    rw [h.workingDirectory]
    exact h.isPage event (mem_of_findRev? hlast)

/-- A page takes the place of those that were there before, and of no others. -/
theorem append (h : PagesHeld start log tree) (event : PageEvent)
    (hpage : FileKind.page.Of (event.path.place start)) (hholds : later.Holds event.path event.text)
    (hchanges : Changes (fun place => place = event.path.place tree.workingDirectory
      ∨ FileKind.temporary.Of place) tree later) : PagesHeld start (log ++ [event]) later where
  workingDirectory := hchanges.workingDirectory.trans h.workingDirectory
  isPage := List.forall_mem_append.mpr ⟨h.isPage, List.forall_mem_singleton.mpr hpage⟩
  held file other hlast := by
    rw [lastAt_concat] at hlast
    split at hlast
    · -- The new page is what was moved here last.
      cases hlast
      exact hholds
    · next hfile =>
      -- The page here is an older one, and the new one has gone somewhere else.
      refine (h.held hlast).of_changes hchanges ?_
      rw [h.workingDirectory, place_of_lastAt hlast]
      rintro (hsame | htemporary)
      · exact hfile hsame.symm
      · cases FileKind.eq_of_endsIn htemporary (isPage_of_lastAt hlast h.isPage)

theorem keptByMoves (start : List String) : KeptByMoves start (PagesHeld start) where
  of_changes := of_changes
  append := append

end PagesHeld

/-! ## Writing pages -/

/-- The pages that are moved into place when pages are written, with the texts that they get. -/
def movedPages (dryRun : Bool) : List (Path × String) → Digests → FileTree → List (Path × String)
  | [], _, _ => []
  | (path, content) :: rest, digests, tree =>
    match writePage path content digests dryRun tree with
    | .error _ _ => []
    | .ok (write, digests) later =>
      if write.outcome = .written then
        (path, pageText content) :: movedPages dryRun rest digests later
      else movedPages dryRun rest digests later

/-- A page that has been moved into place, as it stands in a log. -/
def pageEvent (ledger : List String) (recorded : Bool) (page : Path × String) : PageEvent :=
  { ledger, path := page.1, text := page.2, recorded }

section Cons

variable {dryRun : Bool} {path : Path} {content : String} {rest : List (Path × String)}
  {digests digests' : Digests} {tree later : FileTree}

/-- The first page is moved if it is written, and then the others. -/
theorem movedPages_cons_of_ok {write : PageWrite}
    (h : writePage path content digests dryRun tree = .ok (write, digests') later) :
    movedPages dryRun ((path, content) :: rest) digests tree
      = (if write.outcome = .written then [(path, pageText content)] else [])
        ++ movedPages dryRun rest digests' later := by
  rw [movedPages, h]
  show (if write.outcome = .written then _ else _) = _
  split
  · rfl
  · rfl

/-- The other pages are written to the tree that the first one leaves. -/
theorem after_writePages_cons_of_ok {write : PageWrite}
    (h : writePage path content digests dryRun tree = .ok (write, digests') later) :
    after (writePages dryRun ((path, content) :: rest) digests) tree
      = after (writePages dryRun rest digests') later := by
  rw [writePages, after_bind_of_ok h]
  exact after_bind_pure (writePages dryRun rest digests')
    (fun behind : List PageWrite × Digests => (write :: behind.1, behind.2)) later

/-- Where all are written, each is. -/
theorem exists_of_writePages_cons {writes : List PageWrite}
    (h : writePages dryRun ((path, content) :: rest) digests tree = .ok (writes, digests') later) :
    ∃ write between middle behind,
      writePage path content digests dryRun tree = .ok (write, between) middle
        ∧ writePages dryRun rest between middle = .ok (behind, digests') later
        ∧ writes = write :: behind := by
  rw [writePages] at h
  obtain ⟨⟨write, between⟩, middle, hwrite, h⟩ := FileAction.exists_of_bind_eq_ok h
  obtain ⟨⟨behind, _⟩, _, hrest, h⟩ := FileAction.exists_of_bind_eq_ok h
  cases h
  exact ⟨write, between, middle, behind, hwrite, hrest, rfl⟩

end Cons

variable {dryRun : Bool} {pages : List (Path × String)} {digests digests' : Digests}
  {tree later : FileTree} {writes : List PageWrite}

/-- When pages are written, those that have been moved into place go to the log, whether all of them
can be written or not. -/
theorem KeptByMoves.writePages {start : List String} {kept : List PageEvent → FileTree → Prop}
    (hmoves : KeptByMoves start kept) {log : List PageEvent} (ledger : List String)
    (recorded : Bool) (h : kept log tree)
    (hpages : ∀ page ∈ pages, FileKind.page.Of (page.1.place start)) :
    kept (log ++ (movedPages dryRun pages digests tree).map (pageEvent ledger recorded))
      (after (writePages dryRun pages digests) tree) := by
  -- On the pages, with the log and the tree that those before have left.
  induction pages generalizing digests tree log with
  | nil =>
    rw [movedPages, List.map_nil, List.append_nil]
    exact h
  | cons page rest ih =>
    obtain ⟨path, content⟩ := page
    obtain ⟨hpage, hrest⟩ := List.forall_mem_cons.mp hpages
    cases hwrite : writePage path content digests dryRun tree with
    | error e later =>
      rw [movedPages, hwrite, Site.writePages, after_bind_of_error hwrite]
      simp only [List.map_nil, List.append_nil]
      -- A page that cannot be written leaves nothing but a temporary file.
      refine hmoves.of_changes h (changes_of_writePage_error hwrite)
        fun place htemporary hpage => ?_
      have hkind := FileKind.eq_of_endsIn htemporary hpage
      cases hkind
    | ok value later =>
      obtain ⟨write, digests'⟩ := value
      rw [movedPages_cons_of_ok hwrite, after_writePages_cons_of_ok hwrite, List.map_append,
        ← List.append_assoc]
      -- The first page has gone to the log, and the others are written to a tree that it describes.
      refine ih ?_ hrest
      cases writePage_ok hwrite with
      | unchanged hdigest => simpa using h
      | wouldWrite hdry => simpa using h
      | written hdry hholds hchanges =>
        exact hmoves.append h (pageEvent ledger recorded (path, pageText content)) hpage hholds
          hchanges

/-- Only pages that are to be written are moved. -/
theorem mem_paths_of_movedPages {page : Path × String}
    (h : page ∈ movedPages dryRun pages digests tree) : page.1 ∈ pages.map (·.1) := by
  induction pages generalizing digests tree with
  | nil => cases h
  | cons first rest ih =>
    obtain ⟨path, content⟩ := first
    rw [List.map_cons]
    cases hwrite : writePage path content digests dryRun tree with
    | error e later =>
      rw [movedPages, hwrite] at h
      cases h
    | ok value later =>
      obtain ⟨write, digests'⟩ := value
      rw [movedPages_cons_of_ok hwrite] at h
      -- The page was moved first, or later.
      rcases List.mem_append.mp h with hfirst | hrest
      · split at hfirst
        · rw [List.mem_singleton.mp hfirst]
          exact List.mem_cons_self
        · cases hfirst
      · exact .tail _ (ih hrest)

/-- Where there is no page for a path, none is moved to it. -/
theorem findRev?_movedPages_eq_none {path : Path}
    (h : pages.findRev? (·.1 = path) = none) :
    (movedPages dryRun pages digests tree).findRev? (·.1 = path) = none := by
  rw [findRev?_eq_none_iff] at h ⊢
  intro page hpage hpath
  obtain ⟨other, hother, hsame⟩ := List.mem_map.mp (mem_paths_of_movedPages hpage)
  exact h other hother (decide_eq_true (hsame.trans (of_decide_eq_true hpath)))

/-- A dry run moves nothing into place. -/
theorem movedPages_dryRun (pages : List (Path × String)) (digests : Digests) (tree : FileTree) :
    movedPages true pages digests tree = [] := by
  induction pages generalizing digests tree with
  | nil => rfl
  | cons page rest ih =>
    obtain ⟨path, content⟩ := page
    cases hwrite : writePage path content digests true tree with
    | error e later => rw [movedPages, hwrite]
    | ok value later =>
      obtain ⟨write, digests'⟩ := value
      rw [movedPages_cons_of_ok hwrite, ih]
      -- Nothing is written in a dry run.
      cases writePage_ok hwrite with
      | unchanged hdigest => rfl
      | wouldWrite hdry => rfl
      | written hdry => cases hdry

/-- Writing pages leaves all files but pages and temporary files, also if it fails. -/
theorem changes_writePages
    (hpages : ∀ page ∈ pages, FileKind.page.Of (page.1.place tree.workingDirectory)) :
    Changes (fun place => FileKind.page.Of place ∨ FileKind.temporary.Of place) tree
      (after (writePages dryRun pages digests) tree) := by
  -- On the pages, in a working directory that stays the same.
  induction pages generalizing digests tree with
  | nil => exact .refl _ tree
  | cons page rest ih =>
    obtain ⟨path, content⟩ := page
    obtain ⟨hpage, hrest⟩ := List.forall_mem_cons.mp hpages
    cases hwrite : writePage path content digests dryRun tree with
    | error e later =>
      rw [writePages, after_bind_of_error hwrite]
      exact (changes_of_writePage_error hwrite).mono fun _ htemporary => .inr htemporary
    | ok value later =>
      obtain ⟨write, digests'⟩ := value
      rw [after_writePages_cons_of_ok hwrite]
      cases writePage_ok hwrite with
      | unchanged | wouldWrite => exact ih hrest
      | written hdry hholds hchanges =>
        have hfirst : Changes (fun place => FileKind.page.Of place ∨ FileKind.temporary.Of place)
            tree later := by
          refine hchanges.mono fun place hplace => hplace.imp_left fun hsame => ?_
          rw [hsame]
          exact hpage
        -- The places of the other pages are still those of their paths.
        rw [← hchanges.workingDirectory] at hrest
        exact hfirst.trans (ih hrest)

/-- Each page is reported, in order. -/
theorem paths_of_writePages
    (h : writePages dryRun pages digests tree = .ok (writes, digests') later) :
    writes.map (·.path) = pages.map (·.1) := by
  induction pages generalizing digests tree writes with
  | nil =>
    cases h
    rfl
  | cons page rest ih =>
    obtain ⟨path, content⟩ := page
    obtain ⟨write, between, middle, behind, hwrite, hrest, rfl⟩ := exists_of_writePages_cons h
    rw [List.map_cons, List.map_cons, ih hrest]
    cases writePage_ok hwrite <;> rfl

/-- Each path keeps one digest. -/
theorem nodup_of_writePages
    (h : writePages dryRun pages digests tree = .ok (writes, digests') later)
    (hnodup : (Table.names digests).Nodup) : (Table.names digests').Nodup := by
  induction pages generalizing digests tree writes with
  | nil =>
    cases h
    exact hnodup
  | cons page rest ih =>
    obtain ⟨path, content⟩ := page
    obtain ⟨write, between, middle, behind, hwrite, hrest, rfl⟩ := exists_of_writePages_cons h
    refine ih hrest ?_
    cases writePage_ok hwrite with
    | unchanged | wouldWrite => exact hnodup
    | written => exact Table.nodup_insert hnodup _ _

/-- The digest of a path is that of the last page moved to it, or the one that was there before. -/
theorem find?_of_writePages
    (h : writePages dryRun pages digests tree = .ok (writes, digests') later)
    (path : Path) :
    digests'.find? path.text
      = (((movedPages dryRun pages digests tree).findRev? (·.1 = path)).map (Digest.ofText ·.2)).or
        (digests.find? path.text) := by
  -- On the pages: the digest is that of the last one moved to the path, or the one from before.
  induction pages generalizing digests tree writes with
  | nil =>
    cases h
    rfl
  | cons page rest ih =>
    obtain ⟨first, content⟩ := page
    obtain ⟨write, between, middle, behind, hwrite, hrest, rfl⟩ := exists_of_writePages_cons h
    rw [ih hrest, movedPages_cons_of_ok hwrite, findRev?_append, Option.map_or, Option.or_assoc]
    congr 1
    cases writePage_ok hwrite with
    | unchanged | wouldWrite => rfl
    | written =>
      rw [Table.find?_insert]
      by_cases hpath : first = path
      · simp [hpath, pageDigest]
      · -- Digests are kept by the texts of paths, and different paths have different texts.
        have htext : first.text ≠ path.text := fun hsame => hpath (congrArg Path.mk hsame)
        simp [hpath, htext]

/-- When pages have been written, the digest of a path is that of the last page for it, no matter
whether that was moved into place or was there. -/
theorem find?_of_rendered (h : writePages false pages digests tree = .ok (writes, digests') later)
    (path : Path) :
    digests'.find? path.text
      = ((pages.findRev? (·.1 = path)).map (pageDigest ·.2)).or (digests.find? path.text) := by
  -- On the pages: now also a page that is passed over counts.
  induction pages generalizing digests tree writes with
  | nil =>
    cases h
    rfl
  | cons page rest ih =>
    obtain ⟨first, content⟩ := page
    obtain ⟨write, between, middle, behind, hwrite, hrest, rfl⟩ := exists_of_writePages_cons h
    rw [ih hrest, ← List.singleton_append, findRev?_append, Option.map_or, Option.or_assoc]
    congr 1
    by_cases hpath : first = path
    · subst hpath
      -- Passed over: the digest that was kept is that of the page.
      cases writePage_ok hwrite with
      | unchanged hdigest => simp [hdigest]
      | wouldWrite hdry => cases hdry
      | written => simp [Table.find?_insert]
    · have htext : first.text ≠ path.text := fun hsame => hpath (congrArg Path.mk hsame)
      cases writePage_ok hwrite with
      | unchanged | wouldWrite => simp [hpath]
      | written => simp [Table.find?_insert, hpath, htext]

/-! ## Digests -/

/-- Whether digests are those of pages that a log has last among the recorded ones. -/
structure Accounted (ledger : List String) (log : List PageEvent) (digests : Digests) : Prop where
  nodup : (Table.names digests).Nodup
  exists_event : ∀ ⦃path digest⦄, digests.find? (Path.text path) = some digest →
    ∃ event, lastRecorded ledger path log = some event ∧ Digest.ofText event.text = digest

/-- Whether what is in the place of a ledger is a ledger with such digests. -/
def LedgerKept (ledger : List String) (log : List PageEvent) (tree : FileTree) : Prop :=
  ∀ ⦃content⦄, tree.fileAt ledger = some content →
    ∃ kept : Ledger, content = kept.encode.toUTF8 ∧ Accounted ledger log kept.digests

section Accounted

variable {ledger : List String} {log : List PageEvent}

/-- No digests are accounted for by anything. -/
theorem accounted_nil (ledger : List String) (log : List PageEvent) : Accounted ledger log [] :=
  ⟨List.nodup_nil, fun _ _ h => by cases h⟩

/-- A ledger that is not there is empty. -/
theorem load_of_missing {home : Path} {key : String} (now : Instant)
    (h : tree.contains (Ledger.file home key) = false) :
    Ledger.load now tree home key = .ok { syncedAt := now } := by
  unfold Ledger.load
  simp only [h]
  rfl

/-- A ledger that is held in its file is loaded, if its instant can be read. -/
theorem load_of_holds {home : Path} {key : String} {saved : Ledger} (now : Instant)
    {syncedAt : Instant} (h : tree.Holds (Ledger.file home key) saved.encode)
    (hinstant : Instant.ofString? saved.syncedAt.text = some syncedAt) :
    Ledger.load now tree home key
      = .ok { syncedAt, digests := Table.insertAll [] saved.digests } := by
  unfold Ledger.load
  simp only [h.contains, h.readText, Ledger.decode?_encode, hinstant]
  rfl

/-- The digests that are loaded are among those that were saved. -/
theorem accounted_of_load {now : Instant} {home : Path} {key : String} {found : Ledger}
    (hplace : (Ledger.file home key).place tree.workingDirectory = ledger)
    (hkept : LedgerKept ledger log tree) (h : Ledger.load now tree home key = .ok found) :
    Accounted ledger log found.digests := by
  simp only [Ledger.load] at h
  -- The ledger is missing, cannot be read, or is read back.
  split at h
  · cases h
    exact accounted_nil ledger log
  · split at h
    · cases h
    · next text hread =>
      split at h
      · next decoded hdecode =>
        cases h
        -- The text that is decoded is what the ledger in this place was saved as.
        obtain ⟨content, hfile, htext⟩ := exists_of_readText hread
        rw [hplace] at hfile
        obtain ⟨kept, rfl, hnodup, hrecorded⟩ := hkept hfile
        rw [fromUTF8?_toUTF8, Option.some.injEq] at htext
        rw [← htext] at hdecode
        have hdigests := Ledger.digests_of_decode?_encode hdecode
        have hempty : (Table.names ([] : Digests)).Nodup := List.nodup_nil
        refine ⟨hdigests ▸ Table.nodup_insertAll hempty _, fun path digest hfind => ?_⟩
        rw [hdigests, Table.find?_insertAll hnodup, Table.find?, Option.or_none] at hfind
        exact hrecorded hfind
      · cases h

/-- Pages that are moved for another ledger, or are not recorded, are passed over. -/
theorem lastRecorded_append_of_foreign {other : List String} {recorded : Bool}
    (hforeign : other ≠ ledger ∨ recorded = false) (moved : List (Path × String)) (path : Path) :
    lastRecorded ledger path (log ++ moved.map (pageEvent other recorded))
      = lastRecorded ledger path log := by
  have hnone : lastRecorded ledger path (moved.map (pageEvent other recorded)) = none := by
    rw [lastRecorded, findRev?_eq_none_iff]
    intro event hevent
    obtain ⟨page, _, rfl⟩ := List.mem_map.mp hevent
    rcases hforeign with hother | hlost
    · simp [pageEvent, hother]
    · simp [pageEvent, hlost]
  rw [lastRecorded, findRev?_append]
  exact congrArg (Option.or · _) hnone

/-- Pages that are recorded now come after those from before. -/
theorem lastRecorded_append_own (moved : List (Path × String)) (path : Path) :
    lastRecorded ledger path (log ++ moved.map (pageEvent ledger true))
      = ((moved.findRev? (·.1 = path)).map (pageEvent ledger true)).or
        (lastRecorded ledger path log) := by
  rw [lastRecorded, findRev?_append]
  congr 1
  -- Of the own pages that are recorded, only the path decides.
  have hpath : (fun event : PageEvent =>
      decide (event.ledger = ledger ∧ event.path = path ∧ event.recorded)) ∘ pageEvent ledger true
        = fun page => decide (page.1 = path) := by
    funext page
    exact decide_eq_decide.mpr (by simp [pageEvent])
  rw [findRev?_map, hpath]

/-- The digests that are kept after pages have been written are again accounted for, once they are
saved. -/
theorem Accounted.writePages (h : Accounted ledger log digests)
    (hwrite : writePages dryRun pages digests tree = .ok (writes, digests') later) :
    Accounted ledger
      (log ++ (movedPages dryRun pages digests tree).map (pageEvent ledger true)) digests' where
  nodup := nodup_of_writePages hwrite h.nodup
  exists_event path digest hfind := by
    rw [find?_of_writePages hwrite, Option.or_eq_some_iff] at hfind
    rw [lastRecorded_append_own]
    rcases hfind with hmoved | ⟨hnone, hold⟩
    · obtain ⟨page, hpage, hdigest⟩ := Option.map_eq_some_iff.mp hmoved
      refine ⟨pageEvent ledger true page, ?_, hdigest⟩
      rw [hpage]
      rfl
    · rw [Option.map_eq_none_iff] at hnone
      rw [hnone]
      exact h.exists_event hold

end Accounted

end Syllabus.Site
