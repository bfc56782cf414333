import Syllabus.Proofs.Site.PageLog

/-!
# Syllabus: making one site

Making a site fails before anything is changed, or behind some of the pages, or at the ledger; or it
succeeds. In each case the pages are where a log of them says, and what the ledgers say is accounted
for by the log, if both was so before.

* **`performed`**: the outcomes of making a site.
* **`Kept.perform`**: the pages and the ledgers after it.
-/

namespace Syllabus.Site

open FileTree FileAction

/-! ## Making one site -/

/-- The making of one site. -/
structure Making where
  library : Template.Library
  now : Instant
  home : Path
  key : String
  site : Path
  dryRun : Bool

namespace Making

variable (making : Making) (tree : FileTree)

/-- Making a site keeps what is kept of the pages and of the ledger. -/
def perform : FileAction SiteError SiteReport :=
  makeWith making.library making.now making.home making.key making.site making.dryRun

/-- The pages and the digests that a making starts from. -/
def found? : Option (List (Path × String) × Digests) := do
  let program ← (Store.load tree making.home making.key).toOption
  let pages ← (making.library.renderSite program making.site).toOption
  let ledger ← (Ledger.load making.now tree making.home making.key).toOption
  some (pages, ledger.digests)

/-- What is left to do with the pages and the digests. -/
def finish (pages : List (Path × String)) (digests : Digests) :
    FileAction SiteError SiteReport := do
  let (writes, digests) ← writePages making.dryRun pages digests
  if !making.dryRun then
    (Ledger.save making.home making.key { syncedAt := making.now, digests }).adaptExcept .ofLedger
  return { program := making.key, site := making.site, writes }

/-- The place of the ledger. -/
def ledger : List String := (Ledger.file making.home making.key).place tree.workingDirectory

/-- Whether the making succeeds. -/
def succeeds : Bool :=
  match making.perform tree with
  | .ok _ _ => true
  | .error _ _ => false

/-- The pages that are moved into place. They are recorded if the making succeeds. -/
def events : List PageEvent :=
  match making.found? tree with
  | none => []
  | some (pages, digests) =>
    (movedPages making.dryRun pages digests tree).map
      (pageEvent (making.ledger tree) (making.succeeds tree))

/-- The texts that are rendered, whether they are written or not. -/
def renderings : List Rendering :=
  match making.found? tree with
  | none => []
  | some (pages, _) =>
    pages.map fun (path, content) => ⟨making.ledger tree, path, pageText content⟩

end Making

variable {making : Making} {tree later : FileTree} {pages : List (Path × String)}
  {digests : Digests}

/-- A result of the tree is used without changing it. -/
theorem lift_bind {ε α β : Type} (wrap : ε → SiteError) (f : FileTree → Except ε α)
    (next : α → FileAction SiteError β) (tree : FileTree) :
    (lift wrap f >>= next) tree
      = match f tree with
        | .ok value => next value tree
        | .error e => .error (wrap e) tree := by
  change EStateM.bind (lift wrap f) next tree = _
  unfold EStateM.bind lift
  cases f tree <;> rfl

/-- A making fails before it changes anything, or it goes on with its pages and digests. -/
theorem perform_eq (making : Making) (tree : FileTree) :
    (∃ e, making.found? tree = none ∧ making.perform tree = .error e tree)
      ∨ ∃ pages digests, making.found? tree = some (pages, digests)
        ∧ making.perform tree = making.finish pages digests tree := by
  have hperform : making.perform tree = makeWith making.library making.now making.home making.key
      making.site making.dryRun tree := rfl
  unfold makeWith at hperform
  rw [lift_bind] at hperform
  unfold Making.found?
  -- The program, its pages and the ledger are found one after the other.
  cases hprogram : Store.load tree making.home making.key with
  | error e =>
    rw [hprogram] at hperform
    exact .inl ⟨_, rfl, hperform⟩
  | ok program =>
    rw [hprogram] at hperform
    dsimp only at hperform
    rw [lift_bind] at hperform
    dsimp only [Except.toOption, Option.bind_eq_bind, Option.bind_some]
    cases hpages : making.library.renderSite program making.site with
    | error e =>
      rw [hpages] at hperform
      exact .inl ⟨_, rfl, hperform⟩
    | ok pages =>
      rw [hpages] at hperform
      dsimp only at hperform
      rw [lift_bind] at hperform
      cases hledger : Ledger.load making.now tree making.home making.key with
      | error e =>
        rw [hledger] at hperform
        exact .inl ⟨_, rfl, hperform⟩
      | ok ledger =>
        rw [hledger] at hperform
        exact .inr ⟨pages, ledger.digests, rfl, hperform⟩

/-- Making a site is finishing the pages that have been found. -/
theorem perform_of_found? (h : making.found? tree = some (pages, digests)) :
    making.perform tree = making.finish pages digests tree := by
  rcases perform_eq making tree with ⟨e, hnone, _⟩ | ⟨_, _, hfound, hperform⟩
  · rw [h] at hnone
    cases hnone
  · rw [h] at hfound
    cases hfound
    exact hperform

/-- To finish is to write the pages and to save their digests. -/
theorem exists_of_finish {report : SiteReport} (hdry : making.dryRun = false)
    (h : making.finish pages digests tree = .ok report later) :
    ∃ writes digests' between, writePages false pages digests tree = .ok (writes, digests') between
      ∧ Ledger.save making.home making.key ⟨making.now, digests'⟩ between = .ok () later
      ∧ report = ⟨making.key, making.site, writes⟩ := by
  obtain ⟨⟨writes, digests'⟩, between, hwrite, h⟩ := FileAction.exists_of_bind_eq_ok h
  rw [hdry] at hwrite
  simp only [hdry] at h
  obtain ⟨_, saved, hsave, h⟩ := FileAction.exists_of_bind_eq_ok h
  cases h
  exact ⟨writes, digests', between, hwrite, eq_ok_of_adaptExcept hsave, rfl⟩

/-- What cannot be finished has failed at a page, or behind all pages at the ledger. -/
theorem of_finish_error {e : SiteError} (h : making.finish pages digests tree = .error e later) :
    writePages making.dryRun pages digests tree = .error e later
      ∨ making.dryRun = false ∧ ∃ writes digests' between cause,
        writePages making.dryRun pages digests tree = .ok (writes, digests') between
          ∧ Ledger.save making.home making.key ⟨making.now, digests'⟩ between
            = .error cause later := by
  rcases of_bind_eq_error h with hwrite | ⟨⟨writes, digests'⟩, between, hwrite, h⟩
  · exact .inl hwrite
  -- Only a full run saves the ledger.
  cases hdry : making.dryRun with
  | true =>
    simp only [hdry] at h
    cases h
  | false =>
    simp only [hdry] at h
    rcases of_bind_eq_error h with hsave | ⟨_, _, _, h⟩
    · obtain ⟨cause, hsave⟩ := exists_of_adaptExcept_error hsave
      exact .inr ⟨rfl, writes, digests', between, cause, hdry ▸ hwrite, hsave⟩
    · cases h

/-- A making that succeeds and is no dry run has saved the digests of the pages it has written. -/
theorem exists_of_perform {making : Making} {report : SiteReport} (hdry : making.dryRun = false)
    (h : making.perform tree = .ok report later) :
    ∃ pages first digests writes between, making.found? tree = some (pages, first)
      ∧ writePages false pages first tree = .ok (writes, digests) between
      ∧ Ledger.save making.home making.key ⟨making.now, digests⟩ between = .ok () later
      ∧ report = ⟨making.key, making.site, writes⟩ := by
  rcases perform_eq making tree with ⟨e, _, hperform⟩ | ⟨pages, first, hfound, hperform⟩
  · rw [h] at hperform
    cases hperform
  · obtain ⟨writes, digests, between, hwrite, hsave, hreport⟩ :=
      exists_of_finish hdry (hperform.symm.trans h)
    exact ⟨pages, first, digests, writes, between, hfound, hwrite, hsave, hreport⟩

/-- What has happened when the making of a site is over. -/
inductive Performed (making : Making) (tree : FileTree) :
    EStateM.Result SiteError FileTree SiteReport → Prop where
  | refused (e : SiteError) (hfound : making.found? tree = none) :
      Performed making tree (.error e tree)
  | failed {pages : List (Path × String)} {digests : Digests} {later : FileTree} (e : SiteError)
      (hfound : making.found? tree = some (pages, digests))
      (hchanges : Changes FileKind.temporary.Of
        (after (writePages making.dryRun pages digests) tree) later) :
      Performed making tree (.error e later)
  | previewed {pages : List (Path × String)} {digests digests' : Digests}
      {writes : List PageWrite} {later : FileTree}
      (hfound : making.found? tree = some (pages, digests)) (hdry : making.dryRun = true)
      (hwrite : writePages making.dryRun pages digests tree = .ok (writes, digests') later) :
      Performed making tree (.ok ⟨making.key, making.site, writes⟩ later)
  | finished {pages : List (Path × String)} {digests digests' : Digests}
      {writes : List PageWrite} {between later : FileTree}
      (hfound : making.found? tree = some (pages, digests)) (hdry : making.dryRun = false)
      (hwrite : writePages making.dryRun pages digests tree = .ok (writes, digests') between)
      (hholds : later.Holds (Ledger.file making.home making.key)
        (Ledger.encode ⟨making.now, digests'⟩))
      (hchanges : Changes (fun place =>
        place = (Ledger.file making.home making.key).place between.workingDirectory
          ∨ FileKind.temporary.Of place) between later) :
      Performed making tree (.ok ⟨making.key, making.site, writes⟩ later)

/-- **Making a site.** It fails at once, or with all pages written that came before the failure. Or
it succeeds, and unless the run is dry, the ledger has been saved. -/
theorem performed (making : Making) (tree : FileTree) :
    Performed making tree (making.perform tree) := by
  rcases perform_eq making tree with ⟨e, hfound, hperform⟩ | ⟨pages, digests, hfound, hperform⟩
  · rw [hperform]
    exact .refused e hfound
  rw [hperform]
  cases hfinish : making.finish pages digests tree with
  | error e later =>
    refine .failed e hfound ?_
    -- The pages have failed, or only the ledger has.
    rcases of_finish_error hfinish with hwrite | ⟨_, _, _, _, _, hwrite, hsave⟩
    · rw [after_of_error hwrite]
      exact .refl _ later
    · rw [after_of_ok hwrite]
      exact changes_of_saveLedger_error hsave
  | ok report later =>
    cases hdry : making.dryRun with
    | true =>
      obtain ⟨⟨writes, digests'⟩, between, hwrite, h⟩ := FileAction.exists_of_bind_eq_ok hfinish
      simp only [hdry] at h
      cases h
      exact .previewed hfound hdry hwrite
    | false =>
      obtain ⟨writes, digests', between, hwrite, hsave, rfl⟩ := exists_of_finish hdry hfinish
      obtain ⟨hholds, hchanges⟩ := holds_of_saveLedger hsave
      exact .finished hfound hdry (hdry ▸ hwrite) hholds hchanges

/-! ## What is kept -/

/-- Whether the pages, and the ledger in a place, are as a log has them. -/
structure Kept (start ledger : List String) (log : List PageEvent) (tree : FileTree) : Prop where
  pages : PagesHeld start log tree
  ledgerKept : LedgerKept ledger log tree

/-- The ledger is kept while neither its file nor what it records changes. -/
theorem LedgerKept.of_same {ledger : List String} {log log' : List PageEvent}
    (h : LedgerKept ledger log tree) (hfile : later.fileAt ledger = tree.fileAt ledger)
    (hlog : ∀ path, lastRecorded ledger path log' = lastRecorded ledger path log) :
    LedgerKept ledger log' later := by
  intro content hcontent
  rw [hfile] at hcontent
  obtain ⟨kept, hkept, hnodup, hexists⟩ := h hcontent
  refine ⟨kept, hkept, hnodup, fun path digest hfind => ?_⟩
  -- What was accounted for is accounted for by the longer log as well.
  rw [hlog]
  exact hexists hfind

/-- What has been loaded and rendered is found. -/
theorem found?_eq {program : Program} {ledger : Ledger}
    (hprogram : Store.load tree making.home making.key = .ok program)
    (hpages : making.library.renderSite program making.site = .ok pages)
    (hledger : Ledger.load making.now tree making.home making.key = .ok ledger) :
    making.found? tree = some (pages, ledger.digests) := by
  unfold Making.found?
  rw [hprogram]
  show ((making.library.renderSite program making.site).toOption >>= _) = _
  rw [hpages]
  show ((Ledger.load making.now tree making.home making.key).toOption >>= _) = _
  rw [hledger]
  rfl

theorem exists_of_found? (h : making.found? tree = some (pages, digests)) :
    (∃ program, Store.load tree making.home making.key = .ok program
        ∧ making.library.renderSite program making.site = .ok pages)
      ∧ ∃ found, Ledger.load making.now tree making.home making.key = .ok found
        ∧ digests = found.digests := by
  obtain ⟨program, hprogram, h⟩ := Option.bind_eq_some_iff.mp h
  obtain ⟨_, hpages, h⟩ := Option.bind_eq_some_iff.mp h
  obtain ⟨ledger, hledger, h⟩ := Option.bind_eq_some_iff.mp h
  cases h
  exact ⟨⟨program, eq_ok_of_toOption hprogram, eq_ok_of_toOption hpages⟩, ledger,
    eq_ok_of_toOption hledger, rfl⟩

/-- Where nothing is found no page is moved. -/
theorem events_eq_nil (h : making.found? tree = none) : making.events tree = [] := by
  unfold Making.events
  rw [h]

/-- The events are the pages that are moved. -/
theorem events_eq (h : making.found? tree = some (pages, digests)) :
    making.events tree = (movedPages making.dryRun pages digests tree).map
      (pageEvent (making.ledger tree) (making.succeeds tree)) := by
  unfold Making.events
  rw [h]

/-- The renderings are the pages that are found. -/
theorem renderings_eq (h : making.found? tree = some (pages, digests)) :
    making.renderings tree
      = pages.map fun page => ⟨making.ledger tree, page.1, pageText page.2⟩ := by
  unfold Making.renderings
  rw [h]

/-- A making that returns a report succeeds. -/
theorem succeeds_of_ok {report : SiteReport} (h : making.perform tree = .ok report later) :
    making.succeeds tree = true := by
  unfold Making.succeeds
  rw [h]

/-- A making that returns an error does not succeed. -/
theorem succeeds_of_error {e : SiteError} (h : making.perform tree = .error e later) :
    making.succeeds tree = false := by
  unfold Making.succeeds
  rw [h]

/-- The pages of a making are pages, wherever the site is. -/
theorem changes_of_found? (h : making.found? tree = some (pages, digests)) :
    Changes (fun place => FileKind.page.Of place ∨ FileKind.temporary.Of place) tree
      (after (writePages making.dryRun pages digests) tree) := by
  obtain ⟨⟨program, _, hpages⟩, _⟩ := exists_of_found? h
  exact changes_writePages fun page hpage => of_page _ hpages hpage

/-- A making changes its pages, its ledger and temporary files, whether it succeeds or fails. -/
theorem changes_perform (making : Making) (tree : FileTree) :
    Changes (fun place => (FileKind.page.Of place ∨ FileKind.temporary.Of place)
      ∨ place = making.ledger tree) tree (after making.perform tree) := by
  have houtcome := performed making tree
  unfold after
  cases hresult : making.perform tree with
  | error e later =>
    rw [hresult] at houtcome
    cases houtcome with
    | refused _ hfound => exact .refl _ tree
    | failed _ hfound hchanges =>
      have hpages := changes_of_found? hfound
      exact (hpages.trans (hchanges.mono fun _ h => .inr h)).mono fun _ h => .inl h
  | ok report later =>
    rw [hresult] at houtcome
    cases houtcome with
    | previewed hfound hdry hwrite =>
      have hpages := changes_of_found? hfound
      rw [after_of_ok hwrite] at hpages
      exact hpages.mono fun _ h => .inl h
    | @finished _ _ _ _ between _ hfound hdry hwrite hholds hchanges =>
      have hpages := changes_of_found? hfound
      rw [after_of_ok hwrite] at hpages
      -- The place of the ledger does not change while the pages are written.
      rw [show between.workingDirectory = tree.workingDirectory from hpages.workingDirectory]
        at hchanges
      refine (hpages.mono fun _ h => .inl h).trans (hchanges.mono fun place hplace => ?_)
      rcases hplace with hledger | htemporary
      · exact .inr hledger
      · exact .inl (.inr htemporary)

/-- A making keeps what moving pages keeps. -/
theorem KeptByMoves.perform {start : List String} {kept : List PageEvent → FileTree → Prop}
    (hmoves : KeptByMoves start kept) {log : List PageEvent} (h : kept log tree)
    (making : Making) : kept (log ++ making.events tree) (after making.perform tree) := by
  have hwritten {pages : List (Path × String)} {digests : Digests}
      (hfound : making.found? tree = some (pages, digests)) :
      kept (log ++ making.events tree)
        (after (Site.writePages making.dryRun pages digests) tree) := by
    obtain ⟨⟨program, _, hpages⟩, _⟩ := exists_of_found? hfound
    rw [events_eq hfound]
    exact hmoves.writePages _ _ h fun page hpage => of_page start hpages hpage
  -- Whatever comes of it, only the ledger is changed behind the pages.
  have houtcome := performed making tree
  unfold after
  cases hresult : making.perform tree with
  | error e later =>
    rw [hresult] at houtcome
    cases houtcome with
    | refused _ hfound =>
      rw [events_eq_nil hfound, List.append_nil]
      exact h
    | failed _ hfound hchanges =>
      refine hmoves.of_changes (hwritten hfound) hchanges fun place htemporary hpage => ?_
      cases FileKind.eq_of_endsIn htemporary hpage
  | ok report later =>
    rw [hresult] at houtcome
    cases houtcome with
    | previewed hfound hdry hwrite =>
      have hheld := hwritten hfound
      rwa [after_of_ok hwrite] at hheld
    | finished hfound hdry hwrite hholds hchanges =>
      have hheld := hwritten hfound
      rw [after_of_ok hwrite] at hheld
      -- The ledger and its temporary file are no pages.
      refine hmoves.of_changes hheld hchanges fun place hplace hpage => ?_
      rcases hplace with rfl | htemporary
      · cases FileKind.eq_of_endsIn (of_ledger _ _ _) hpage
      · cases FileKind.eq_of_endsIn htemporary hpage

namespace Kept

variable {start ledger : List String} {log : List PageEvent}

/-- Writing pages leaves the ledgers. -/
theorem fileAt_of_writePages (hledger : FileKind.ledger.Of ledger)
    (hfound : making.found? tree = some (pages, digests)) :
    (after (writePages making.dryRun pages digests) tree).fileAt ledger = tree.fileAt ledger :=
  (changes_of_found? hfound).files ledger (hledger.not_or (by decide))

/-- A making keeps a ledger: its own, because what it saves is accounted for, and any other, because
it does not touch it. -/
theorem ledger_perform (hledger : FileKind.ledger.Of ledger) (h : LedgerKept ledger log tree)
    (making : Making) :
    LedgerKept ledger (log ++ making.events tree) (after making.perform tree) := by
  have houtcome := performed making tree
  unfold after
  cases hresult : making.perform tree with
  | error e later =>
    rw [hresult] at houtcome
    cases houtcome with
    | refused _ hfound =>
      rw [events_eq_nil hfound, List.append_nil]
      exact h
    | failed _ hfound hchanges =>
      -- The pages that were moved before the failure are in the log, but not recorded.
      rw [events_eq hfound, succeeds_of_error hresult]
      refine h.of_same ?_ (lastRecorded_append_of_foreign (.inr rfl) _)
      show later.fileAt ledger = _
      rw [hchanges.files ledger fun htemporary => ?_, fileAt_of_writePages hledger hfound]
      cases FileKind.eq_of_endsIn htemporary hledger
  | ok report later =>
    rw [hresult] at houtcome
    cases houtcome with
    | previewed hfound hdry hwrite =>
      -- A dry run moves no page and saves no ledger.
      rw [events_eq hfound, hdry, movedPages_dryRun, List.map_nil, List.append_nil]
      have hfile := fileAt_of_writePages hledger hfound
      rw [after_of_ok hwrite] at hfile
      exact h.of_same hfile fun _ => rfl
    | @finished _ digests digests' _ between _ hfound hdry hwrite hholds hchanges =>
      have hworking := (changes_of_found? hfound).workingDirectory
      have hbetween := fileAt_of_writePages hledger hfound
      rw [after_of_ok hwrite] at hworking hbetween
      have hfile := hholds.file
      rw [hchanges.workingDirectory] at hfile
      rw [show between.workingDirectory = tree.workingDirectory from hworking] at hfile hchanges
      rw [events_eq hfound, succeeds_of_ok hresult]
      -- Its own ledger is what it has just saved; any other ledger is as it was.
      by_cases hown : making.ledger tree = ledger
      · intro content hcontent
        obtain ⟨_, found, hload, rfl⟩ := exists_of_found? hfound
        rw [treeOf, ← hown, show later.fileAt (making.ledger tree) = _ from hfile,
          Option.some.injEq] at hcontent
        refine ⟨_, hcontent.symm, ?_⟩
        rw [hown]
        exact (accounted_of_load hown h hload).writePages hwrite
      · refine h.of_same ?_ (lastRecorded_append_of_foreign (.inl hown) _)
        refine Eq.trans (hchanges.files ledger ?_) hbetween
        rintro (hplace | htemporary)
        · exact hown hplace.symm
        · cases FileKind.eq_of_endsIn htemporary hledger

theorem perform (hledger : FileKind.ledger.Of ledger) (h : Kept start ledger log tree)
    (making : Making) :
    Kept start ledger (log ++ making.events tree) (after making.perform tree) :=
  ⟨(PagesHeld.keptByMoves start).perform h.pages making,
    ledger_perform hledger h.ledgerKept making⟩

end Kept

end Syllabus.Site
