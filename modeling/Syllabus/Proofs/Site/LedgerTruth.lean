import Syllabus.Proofs.Site.UpToDate

/-!
# Syllabus: what ledgers say of files

A ledger has the digests of the pages that were last moved into place by runs that went on to save
it. A run that fails behind some of its pages has moved these pages without saving the ledger, so
that the ledger still has the digests of the pages before them.

* **`digest_of_rendered`**: what is in the place of a path that a ledger has a digest for.
* **`FailedRun.digest_differs`**: a ledger that is left behind by a run that fails.
-/

namespace Syllabus.Site

open FileTree FileAction

/-! ## Pages that may be gone -/

/-- Whether the last pages of a log are in their places, as far as there is any file. -/
structure PagesSeen (start : List String) (log : List PageEvent) (tree : FileTree) : Prop where
  workingDirectory : tree.workingDirectory = start
  isPage : ∀ event ∈ log, FileKind.page.Of (event.path.place start)
  seen : ∀ ⦃file event content⦄, lastAt start file log = some event →
    tree.fileAt file = some content → content = event.text.toUTF8

/-- Whether no file has become another one, as far as a ledger and the pages of a log go. Files may
have been taken away, and anything may have happened to all others and to the directories. -/
structure Undisturbed (start ledger : List String) (log : List PageEvent)
    (tree later : FileTree) : Prop where
  workingDirectory : later.workingDirectory = tree.workingDirectory
  ledger : ∀ ⦃content⦄, later.fileAt ledger = some content → tree.fileAt ledger = some content
  pages : ∀ event ∈ log, ∀ ⦃content⦄, later.fileAt (event.path.place start) = some content →
    tree.fileAt (event.path.place start) = some content

namespace PagesSeen

variable {start ledger : List String} {log : List PageEvent} {tree later : FileTree}

/-- What leaves the ledgers alone leaves the pages seen. -/
theorem of_undisturbed (h : PagesSeen start log tree)
    (hundisturbed : Undisturbed start ledger log tree later) : PagesSeen start log later where
  workingDirectory := hundisturbed.workingDirectory.trans h.workingDirectory
  isPage := h.isPage
  seen file event content hlast hfile := by
    -- Of the place nothing but the last event matters.
    have hplace := place_of_lastAt hlast
    subst hplace
    exact h.seen hlast (hundisturbed.pages event (mem_of_findRev? hlast) hfile)

/-- Changes to files that are no pages leave them seen. -/
theorem of_changes {places : List String → Prop} (h : PagesSeen start log tree)
    (hchanges : Changes places tree later)
    (hplaces : ∀ place, places place → ¬ FileKind.page.Of place) : PagesSeen start log later where
  workingDirectory := hchanges.workingDirectory.trans h.workingDirectory
  isPage := h.isPage
  seen file event content hlast hfile := by
    -- Every place in the log is that of a page, so the changes pass it by.
    have hpage := isPage_of_lastAt hlast h.isPage
    rw [hchanges.files file fun hplace => hplaces file hplace hpage] at hfile
    exact h.seen hlast hfile

/-- A page that is moved into its place is seen there. -/
theorem append (h : PagesSeen start log tree) (event : PageEvent)
    (hpage : FileKind.page.Of (event.path.place start)) (hholds : later.Holds event.path event.text)
    (hchanges : Changes (fun place => place = event.path.place tree.workingDirectory
      ∨ FileKind.temporary.Of place) tree later) : PagesSeen start (log ++ [event]) later where
  workingDirectory := hchanges.workingDirectory.trans h.workingDirectory
  isPage := List.forall_mem_append.mpr ⟨h.isPage, List.forall_mem_singleton.mpr hpage⟩
  seen file other content hlast hfile := by
    rw [lastAt_concat] at hlast
    split at hlast
    · next hplace =>
      -- The file is the new page.
      cases hlast
      have hnew := hholds.file
      rw [hchanges.workingDirectory, h.workingDirectory, hplace, hfile] at hnew
      exact Option.some.inj hnew
    · next hplace =>
      rw [hchanges.files file ?_] at hfile
      · exact h.seen hlast hfile
      · rw [h.workingDirectory]
        rintro (hsame | htemporary)
        · exact hplace hsame.symm
        · cases FileKind.eq_of_endsIn htemporary (isPage_of_lastAt hlast h.isPage)

theorem keptByMoves (start : List String) : KeptByMoves start (PagesSeen start) where
  of_changes := of_changes
  append := append

/-- Pages that are in their places are seen there. -/
theorem of_held (h : PagesHeld start log tree) : PagesSeen start log tree where
  workingDirectory := h.workingDirectory
  isPage := h.isPage
  seen file event content hlast hfile := by
    have hheld := (h.held hlast).file
    rw [h.workingDirectory, place_of_lastAt hlast, hfile] at hheld
    exact Option.some.inj hheld

end PagesSeen

/-- What is done to other files than ledgers and pages disturbs nothing. -/
theorem Undisturbed.of_changes {start ledger : List String} {log : List PageEvent}
    {tree later : FileTree} {places : List String → Prop} (hchanges : Changes places tree later)
    (hledger : ¬ places ledger)
    (hpages : ∀ event ∈ log, ¬ places (event.path.place start)) :
    Undisturbed start ledger log tree later where
  workingDirectory := hchanges.workingDirectory
  ledger _ hcontent := hchanges.files ledger hledger ▸ hcontent
  pages event hevent _ hcontent := hchanges.files _ (hpages event hevent) ▸ hcontent

/-- Whether the pages that are there, and the ledger in a place, are as a log has them. -/
structure Told (start ledger : List String) (log : List PageEvent) (tree : FileTree) : Prop where
  pages : PagesSeen start log tree
  ledgerKept : LedgerKept ledger log tree

namespace Told

variable {start ledger : List String} {log : List PageEvent} {tree later : FileTree}

/-- What is kept is told, too: nothing has been taken away yet. -/
theorem of_kept (h : Kept start ledger log tree) : Told start ledger log tree where
  pages := .of_held h.pages
  ledgerKept := h.ledgerKept

/-- What leaves the ledger alone keeps what it tells. -/
theorem of_undisturbed (h : Told start ledger log tree)
    (hundisturbed : Undisturbed start ledger log tree later) : Told start ledger log later where
  pages := h.pages.of_undisturbed hundisturbed
  ledgerKept _ hcontent := h.ledgerKept (hundisturbed.ledger hcontent)

/-- Making a site keeps what a ledger tells, with what happens added to the log. -/
theorem perform (hledger : FileKind.ledger.Of ledger) (h : Told start ledger log tree)
    (making : Making) :
    Told start ledger (log ++ making.events tree) (after making.perform tree) :=
  ⟨(PagesSeen.keptByMoves start).perform h.pages making,
    Kept.ledger_perform hledger h.ledgerKept making⟩

end Told

/-- A making that fails leaves every ledger, its own as well. -/
theorem changes_of_perform_error {making : Making} {tree later : FileTree} {e : SiteError}
    (h : making.perform tree = .error e later) :
    Changes (fun place => FileKind.page.Of place ∨ FileKind.temporary.Of place) tree later := by
  have houtcome := performed making tree
  rw [h] at houtcome
  cases houtcome with
  | refused => exact .refl _ tree
  | failed _ hfound hchanges =>
    exact (changes_of_found? hfound).trans (hchanges.mono fun _ htemporary => .inr htemporary)

/-! ## Runs for one program -/

/-- Making the site of a program is the run for this program. -/
theorem after_make (now : Instant) (home : Path) (key : String) (options : SiteOptions)
    (tree : FileTree) :
    after (make now home key options) tree
      = (Step.run now home (.program key) options).apply tree :=
  (after_bind_pure _ (fun report => [report]) tree).symm

/-- Runs that make the site of one program in one directory, one after the other, where there was no
ledger of the program before. Each may succeed or fail, with a time and templates of its own. In
between the ledger and the pages are not disturbed, whatever else happens. -/
inductive Rendered (home : Path) (key : String) (out : Option Path) (start : FileTree) :
    List PageEvent → FileTree → Prop where
  | fresh (h : start.fileAt ((Ledger.file home key).place start.workingDirectory) = none) :
      Rendered home key out start [] start
  | run {log : List PageEvent} {tree : FileTree} (h : Rendered home key out start log tree)
      (now : Instant) (templates : Option Path) :
      Rendered home key out start
        (log ++ (Step.run now home (.program key) { out, templates }).events tree)
        (after (make now home key { out, templates }) tree)
  | between {log : List PageEvent} {tree later : FileTree}
      (h : Rendered home key out start log tree)
      (hundisturbed : Undisturbed start.workingDirectory
        ((Ledger.file home key).place start.workingDirectory) log tree later) :
      Rendered home key out start log later

/-- What happens while a site is made belongs to its ledger. -/
theorem ledger_of_mem_making {making : Making} {tree : FileTree} {event : PageEvent}
    (h : event ∈ making.events tree) : event.ledger = making.ledger tree := by
  unfold Making.events at h
  split at h
  · cases h
  · obtain ⟨page, _, hpage⟩ := List.mem_map.mp h
    rw [← hpage, pageEvent]

/-- One site yields what it yields from the tree. -/
theorem gather_singleton {α : Type} (yield : Making → FileTree → List α) (making : Making)
    (tree : FileTree) : gather yield [making] tree = yield making tree := by
  cases hresult : making.perform tree with
  | error e later => exact gather_cons_of_error yield hresult
  | ok report later => exact (gather_cons_of_ok yield hresult).trans (List.append_nil _)

/-- A run for one program comes to nothing, or it makes the site of this program. -/
theorem makings_program (now : Instant) (home : Path) (key : String) (options : SiteOptions)
    (tree : FileTree) :
    makings now home (.program key) options tree = []
      ∨ ∃ making : Making, makings now home (.program key) options tree = [making]
        ∧ making.home = home ∧ making.key = key := by
  unfold makings
  -- Templates that cannot be loaded leave nothing to make.
  cases Template.Library.load tree options.templates with
  | error e => exact .inl rfl
  | ok library => exact .inr ⟨_, rfl, rfl, rfl⟩

/-- The pages that a run for one program moves are recorded in its ledger, if at all. -/
theorem ledger_of_mem_events {now : Instant} {home : Path} {key : String} {options : SiteOptions}
    {tree : FileTree} {event : PageEvent}
    (h : event ∈ (Step.run now home (.program key) options).events tree) :
    event.ledger = (Ledger.file home key).place tree.workingDirectory := by
  rw [Step.events] at h
  rcases makings_program now home key options tree with hnone | ⟨making, hone, hhome, hkey⟩
  · rw [hnone] at h
    cases h
  · rw [hone, gather_singleton] at h
    rw [ledger_of_mem_making h, Making.ledger, hhome, hkey]

namespace Rendered

variable {home : Path} {key : String} {out : Option Path} {start final : FileTree}
  {log : List PageEvent}

/-- Runs keep the pages and the ledger as the log has them, and so does what is done in between. -/
theorem told (h : Rendered home key out start log final) :
    Told start.workingDirectory ((Ledger.file home key).place start.workingDirectory) log final := by
  have hledger := of_ledger start.workingDirectory home key
  -- On how the tree has come about: runs and what is done between them.
  induction h with
  | fresh hfresh => exact .of_kept (.of_fresh hfresh)
  | run _ now templates ih =>
    rw [after_make]
    exact kept_run (fun h making => h.perform hledger making) ih now home (.program key) _
  | between _ hundisturbed ih => exact ih.of_undisturbed hundisturbed

/-- All that happens belongs to the one ledger. -/
theorem ledger_eq (h : Rendered home key out start log final) :
    ∀ event ∈ log, event.ledger = (Ledger.file home key).place start.workingDirectory := by
  induction h with
  | fresh => exact fun _ hevent => absurd hevent List.not_mem_nil
  | run h now templates ih =>
    -- The last run adds its own events, which all belong to the ledger of the program.
    refine List.forall_mem_append.mpr ⟨ih, fun event hevent => ?_⟩
    rw [ledger_of_mem_events hevent, h.told.pages.workingDirectory]
  | between _ _ ih => exact ih

end Rendered

/-- **What a ledger says.** When runs have made the site of a program, successfully or not, a digest
that its ledger has for a path is that of the page that was last moved to the path by a run that
went on to save the ledger; and a file in the place of the path is the page that was last moved
there at all. So the digest is that of the file, if the last page in this place was moved under the
path as it is written, by a run that did not fail behind it. -/
theorem digest_of_rendered {home : Path} {key : String} {out : Option Path}
    {start final : FileTree} {log : List PageEvent} (h : Rendered home key out start log final)
    {now : Instant} {found : Ledger} (hload : Ledger.load now final home key = .ok found)
    {path : Path} {digest : String} (hdigest : found.digests.find? path.text = some digest)
    {content : ByteArray}
    (hfile : final.fileAt (path.place start.workingDirectory) = some content) :
    ∃ recorded last,
      lastRecorded ((Ledger.file home key).place start.workingDirectory) path log = some recorded
        ∧ digest = Digest.ofText recorded.text
        ∧ lastAt start.workingDirectory (path.place start.workingDirectory) log = some last
        ∧ content = last.text.toUTF8
        ∧ (last.path = path → last.recorded = true → digest = Digest.ofBytes content) := by
  obtain ⟨hpages, hkept⟩ := h.told
  have hplace : (Ledger.file home key).place final.workingDirectory
      = (Ledger.file home key).place start.workingDirectory := by rw [hpages.workingDirectory]
  obtain ⟨recorded, hrecorded, htext⟩ :=
    (accounted_of_load hplace hkept hload).exists_event hdigest
  obtain ⟨last, hlast⟩ := exists_lastAt hrecorded start.workingDirectory
  have hcontent := hpages.seen hlast hfile
  refine ⟨recorded, last, hrecorded, htext.symm, hlast, hcontent, fun hpath hsaved => ?_⟩
  -- The page in the place is the recorded one.
  have hsame := lastRecorded_of_lastAt hlast (h.ledger_eq last (mem_of_findRev? hlast)) hpath hsaved
  rw [hrecorded, Option.some.injEq] at hsame
  rw [← htext, hsame, hcontent]
  rfl

/-! ## A run that fails -/

namespace FailedRun

open SharedDirectory Template

/-- The place of the ledger. -/
def ledgerPlace : List String := (Ledger.file ⟨"home"⟩ "a").place start.workingDirectory

/-- The page that is moved by the first run. -/
def event : PageEvent := pageEvent ledgerPlace true (page, "one")

/-- The page that is moved by the second run, which fails behind it. -/
def lostEvent : PageEvent := pageEvent ledgerPlace false (page, "two")

/-- The first run of the program writes its page. -/
theorem rendered_first : Rendered ⟨"home"⟩ "a" (some ⟨"o"⟩) start [event] afterFirst := by
  -- There is no ledger yet.
  have hfresh : start.fileAt ((Ledger.file ⟨"home"⟩ "a").place start.workingDirectory) = none := by
    decide
  have hstart : Rendered ⟨"home"⟩ "a" (some ⟨"o"⟩) start [] start := .fresh hfresh
  have hrun := hstart.run noon (some ⟨"first"⟩)
  have hevents : (step "a" "first").events start = [event] := by
    refine (runs_first.events_gather finish_first).trans ?_
    rw [of_start.2.2.2.1]
    rfl
  have hafter : (step "a" "first").apply start = afterFirst :=
    after_of_ok (runs_first.run_eq finish_first)
  rw [after_make] at hrun
  -- Both the log and the tree are those of a step, as computed above.
  change Rendered _ _ _ _ ([] ++ (step "a" "first").events start)
    ((step "a" "first").apply start) at hrun
  rw [hevents, hafter] at hrun
  exact hrun

/-- The ledger that the first run saves is loaded as it was saved. -/
theorem load_of_kept {tree : FileTree} (h : tree.Holds (Ledger.file ⟨"home"⟩ "a")
      (Ledger.encode ⟨noon, SharedDirectory.kept⟩)) :
    Ledger.load noon tree ⟨"home"⟩ "a" = .ok ⟨noon, SharedDirectory.kept⟩ :=
  load_of_holds noon h ofString?_noon

/-- A course with one page. -/
def course : Course where
  fileName := some "x"
  name := "C"
  lessons := [{ id := 1, name := "L", pages := [{ id := 1 }] }]

def withCourse : Program := { name := "A", courses := [course] }

def lessonPage : Path := ⟨"o/x/Lesson_1.html"⟩

/-- The course is put into the program, and a directory stands in the place of its page. -/
def obstruct : FileAction StoreError Unit := do
  Store.save ⟨"home"⟩ "a" withCourse
  FileAction.createDirectories .io lessonPage

@[irreducible] def obstructed : FileTree := after obstruct afterFirst

/-- What is left to do for the second run, with other templates. -/
@[irreducible] def finishSecond : FileAction SiteError SiteReport :=
  (making "a" "two").finish [(page, "two"), (lessonPage, "")] SharedDirectory.kept

@[irreducible] def afterFailure : FileTree := after finishSecond obstructed

/-- Between the runs the program gets a course, and a directory is put where the page of its lesson
goes. -/
theorem of_obstructed : Store.load obstructed ⟨"home"⟩ "a" = .ok withCourse
    ∧ Library.readTexts obstructed ⟨"second"⟩ = .ok [(programName, "two"), (pageName, "")]
    ∧ movedPages false [(page, "two"), (lessonPage, "")] SharedDirectory.kept obstructed
      = [(page, "two")] := by
  decide +kernel

/-- The second run fails at the page of the lesson, after it has moved that of the program. -/
theorem of_afterFailure : valueOf (finishSecond obstructed) = none
    ∧ afterFailure.fileAt ["o", "Course.html"] = some "two".toUTF8 := by
  decide +kernel

/-- What comes between the runs changes no file of the site. -/
theorem changes_obstruct : Changes StoreFile afterFirst obstructed := by
  -- Storing the course keeps to the files of the program, and a directory is no file.
  have hkeeps : Keeps afterFirst.workingDirectory StoreFile obstruct :=
    .bind (keeps_save _ _ _) fun _ => keeps_createDirectories _ _
  have hchanges := hkeeps rfl
  unfold obstructed
  exact hchanges

theorem rendered_obstructed :
    Rendered ⟨"home"⟩ "a" (some ⟨"o"⟩) start [event] obstructed := by
  -- Nothing that stores programs changes a ledger or a page.
  refine rendered_first.between (.of_changes changes_obstruct ?_ fun other hother => ?_)
  · exact (of_ledger _ _ _).not_or (by decide)
  · exact (rendered_first.told.pages.isPage other hother).not_or (by decide)

theorem holds_obstructed :
    obstructed.Holds (Ledger.file ⟨"home"⟩ "a") (Ledger.encode ⟨noon, SharedDirectory.kept⟩) :=
  holds_first.of_changes changes_obstruct ((of_ledger _ _ _).not_or (by decide))

/-- The second site has the page of the program and one of a lesson. -/
theorem renderSite_second : (plainLibrary "two").renderSite withCourse ⟨"o"⟩
    = .ok [(page, "two"), (lessonPage, "")] :=
  (renderSite_plain "two" withCourse ⟨"o"⟩).trans (by decide)

/-- The second run finds these pages and the digests of the first run. -/
theorem found?_second : (making "a" "two").found? obstructed
    = some ([(page, "two"), (lessonPage, "")], SharedDirectory.kept) := by
  have hfound : (making "a" "two").found? obstructed
      = some (_, (Ledger.mk noon SharedDirectory.kept).digests) :=
    Site.found?_eq of_obstructed.1 renderSite_second (load_of_kept holds_obstructed)
  exact hfound

/-- The second run fails, as it cannot write the page of the lesson. -/
theorem perform_second :
    ∃ e, (making "a" "two").perform obstructed = .error e afterFailure := by
  have hfinish : (making "a" "two").perform obstructed = finishSecond obstructed := by
    unfold finishSecond
    exact perform_of_found? found?_second
  rw [hfinish]
  unfold afterFailure after
  -- It leaves no report, so it cannot have succeeded.
  cases hresult : finishSecond obstructed with
  | error e later => exact ⟨e, rfl⟩
  | ok report later =>
    have hfailed := of_afterFailure.1
    rw [hresult] at hfailed
    cases hfailed

/-- The second run has moved the page of the program all the same. -/
theorem events_second : (making "a" "two").events obstructed = [lostEvent] := by
  obtain ⟨e, hperform⟩ := perform_second
  have hplace : (making "a" "two").ledger obstructed = ledgerPlace := by
    unfold Making.ledger ledgerPlace
    rw [changes_obstruct.workingDirectory, workingDirectory_afterFirst]
    rfl
  -- The first page is moved before the failure, and the failure leaves it unrecorded.
  rw [events_eq found?_second, succeeds_of_error hperform, hplace]
  exact congrArg _ of_obstructed.2.2

/-- The second run fails at the page of the course, behind the page of the program. -/
theorem rendered_afterFailure :
    Rendered ⟨"home"⟩ "a" (some ⟨"o"⟩) start [event, lostEvent] afterFailure := by
  obtain ⟨e, hperform⟩ := perform_second
  have hmakings : makings noon ⟨"home"⟩ (.program "a") (options "second") obstructed
      = [making "a" "two"] := by
    unfold makings
    rw [show Library.load obstructed (options "second").templates = .ok (plainLibrary "two") from
      load_plain of_obstructed.2.1 (by decide)]
    rfl
  have hevents : (step "a" "second").events obstructed = [lostEvent] := by
    refine (congrArg (gather Making.events · obstructed) hmakings).trans ?_
    rw [gather_singleton, events_second]
  -- The run is the making of its one site, which fails.
  have hafter : (step "a" "second").apply obstructed = afterFailure := by
    rcases Site.run_eq noon ⟨"home"⟩ (.program "a") (options "second") obstructed with
      ⟨_, hnone, _⟩ | hrun
    · rw [hmakings] at hnone
      cases hnone
    · rw [hmakings] at hrun
      exact after_of_error (hrun.trans (FileAction.bind_error hperform))
  have hrun := rendered_obstructed.run noon (some ⟨"second"⟩)
  rw [after_make] at hrun
  change Rendered _ _ _ _ ([event] ++ (step "a" "second").events obstructed)
    ((step "a" "second").apply obstructed) at hrun
  rw [hevents, hafter] at hrun
  exact hrun

/-- The ledger is still the one that the first run saved. -/
theorem holds_afterFailure :
    afterFailure.Holds (Ledger.file ⟨"home"⟩ "a") (Ledger.encode ⟨noon, SharedDirectory.kept⟩) := by
  obtain ⟨e, hperform⟩ := perform_second
  exact holds_obstructed.of_changes (changes_of_perform_error hperform)
    ((of_ledger _ _ _).not_or (by decide))

/-- The digest of the first page, in the ledger after either run. -/
theorem find?_kept : SharedDirectory.kept.find? page.text = some (Digest.ofText "one") := by
  have htext : pageText "one" = "one" := by decide
  rw [← htext]
  rfl

/-- After the first run the recorded page is the one in its place, so that the ledger says the
truth about it. After the run that fails the recorded page is still the first one, while the one in
the place is the second. -/
theorem digest_of_bothRuns :
    (∃ found content, Ledger.load noon afterFirst ⟨"home"⟩ "a" = .ok found
      ∧ found.digests.find? page.text = some (Digest.ofText "one")
      ∧ afterFirst.fileAt (page.place start.workingDirectory) = some content
      ∧ Digest.ofText "one" = Digest.ofBytes content)
    ∧ ∃ found content recorded last, Ledger.load noon afterFailure ⟨"home"⟩ "a" = .ok found
      ∧ found.digests.find? page.text = some (Digest.ofText "one")
      ∧ afterFailure.fileAt (page.place start.workingDirectory) = some content
      ∧ lastRecorded ledgerPlace page [event, lostEvent] = some recorded
      ∧ Digest.ofText "one" = Digest.ofText recorded.text
      ∧ lastAt start.workingDirectory (page.place start.workingDirectory) [event, lostEvent]
        = some last
      ∧ content = last.text.toUTF8
      ∧ recorded = event ∧ last = lostEvent := by
  constructor
  · have hload := load_of_kept holds_first
    have hfile : afterFirst.fileAt (page.place start.workingDirectory) = some "one".toUTF8 := by
      decide +kernel
    -- There is only one event, so it is the last one.
    obtain ⟨_, last, _, _, hlast, _, htrue⟩ :=
      digest_of_rendered rendered_first hload find?_kept hfile
    have hlast : last = event := List.mem_singleton.mp (mem_of_findRev? hlast)
    subst hlast
    exact ⟨_, _, hload, find?_kept, hfile, htrue rfl rfl⟩
  · have hload := load_of_kept holds_afterFailure
    obtain ⟨recorded, last, hrecorded, hdigest, hlast, hcontent, _⟩ :=
      digest_of_rendered rendered_afterFailure hload find?_kept of_afterFailure.2
    refine ⟨_, _, recorded, last, hload, find?_kept, of_afterFailure.2, hrecorded, hdigest, hlast,
      hcontent, ?_, ?_⟩
    · -- Of the two events the first is the only one that is recorded.
      exact Option.some.inj (hrecorded.symm.trans rfl)
    · exact Option.some.inj (hlast.symm.trans rfl)

/-- The page of the program has been moved by the run that failed, and the ledger has the digest of
the page before it. -/
theorem digest_differs :
    ∃ log found content, Rendered ⟨"home"⟩ "a" (some ⟨"o"⟩) start log afterFailure
      ∧ Ledger.load noon afterFailure ⟨"home"⟩ "a" = .ok found
      ∧ found.digests.find? page.text = some (Digest.ofText "one")
      ∧ afterFailure.fileAt (page.place start.workingDirectory) = some content
      ∧ Digest.ofText "one" ≠ Digest.ofBytes content := by
  refine ⟨[event, lostEvent], ⟨noon, SharedDirectory.kept⟩, "two".toUTF8, rendered_afterFailure,
    load_of_kept holds_afterFailure, find?_kept, of_afterFailure.2, digests_differ⟩

end FailedRun

end Syllabus.Site
