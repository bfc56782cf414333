import Syllabus.Proofs.Site.History
import Syllabus.Proofs.Template.SourceText
import Syllabus.Proofs.Template.Libraries
import Syllabus.Proofs.Template.TreeRendering

/-!
# Syllabus: sites that are up to date

A run passes over a page if the ledger of its program has the digest of its text for its path and
there is something at the path. So a page that is passed over is up to date as long as the pages in
its place were moved there for that ledger and under that path. Programs that share a directory do
not know of each other's pages.

* **`readText_of_run`**: what a run leaves in its site.
-/

namespace Syllabus.Site

open FileTree FileAction

/-! ## Texts and records -/

/-- Whether the last texts for the paths are recorded in a ledger, as far as they belong there. -/
def Traced (ledger : List String) (log : List PageEvent) (renderings : List Rendering) : Prop :=
  ∀ ⦃path rendering⦄, lastRendered path renderings = some rendering → rendering.ledger = ledger →
    ∃ event, lastRecorded ledger path log = some event
      ∧ Digest.ofText event.text = Digest.ofText rendering.text

namespace Traced

variable {ledger : List String} {log : List PageEvent} {renderings : List Rendering}
  {tree later : FileTree}

/-- What a making renders is recorded when it has succeeded, whether it was written or passed over,
and what it does not render stays as it was. -/
theorem perform {making : Making} {report : SiteReport} (h : Traced ledger log renderings)
    (hkept : LedgerKept ledger log tree) (hdry : making.dryRun = false)
    (hresult : making.perform tree = .ok report later) :
    Traced ledger (log ++ making.events tree) (renderings ++ making.renderings tree) := by
  have houtcome := performed making tree
  rw [hresult] at houtcome
  cases houtcome with
  | previewed hfound hpreview hwrite =>
    rw [hdry] at hpreview
    -- A dry run is excluded, so the ledger has been saved.
    cases hpreview
  | @finished pages digests digests' writes between _ hfound _ hwrite hholds hchanges =>
    obtain ⟨_, found, hload, rfl⟩ := exists_of_found? hfound
    rw [events_eq hfound, succeeds_of_ok hresult, renderings_eq hfound]
    intro path rendering hlast hown
    rw [lastRendered, findRev?_append, Option.or_eq_some_iff, findRev?_map,
      Option.map_eq_some_iff, Option.map_eq_none_iff] at hlast
    rcases hlast with ⟨page, hpage, rfl⟩ | ⟨hnone, hold⟩
    · -- Rendered now: the ledger says the digest of this text, and is accounted for.
      have hplace : making.ledger tree = ledger := hown
      rw [hplace]
      have haccounted := (accounted_of_load hplace hkept hload).writePages hwrite
      rw [hdry] at hwrite
      have hdigest := find?_of_rendered hwrite path
      rw [show pages.findRev? (fun page => page.1 = path) = some page from hpage] at hdigest
      exact haccounted.exists_event hdigest
    · -- Not rendered now: what was recorded before is still the last.
      obtain ⟨event, hevent, hdigest⟩ := h hold hown
      refine ⟨event, ?_, hdigest⟩
      rw [← hevent]
      by_cases hplace : making.ledger tree = ledger
      · rw [hplace, lastRecorded_append_own, findRev?_movedPages_eq_none hnone]
        rfl
      · exact lastRecorded_append_of_foreign (.inl hplace) _ path

/-- Making one site after the other keeps the ledger traced. -/
theorem performAll {start : List String} {makings : List Making} {reports : List SiteReport}
    (hledger : FileKind.ledger.Of ledger) (h : Traced ledger log renderings)
    (hkept : Kept start ledger log tree) (hdry : ∀ making ∈ makings, making.dryRun = false)
    (hresult : Site.performAll makings tree = .ok reports later) :
    Traced ledger (log ++ gather Making.events makings tree)
      (renderings ++ gather Making.renderings makings tree) := by
  -- On the sites: each ledger accounts for the pages that have been recorded before it.
  induction makings generalizing log renderings tree reports with
  | nil =>
    show Traced ledger (log ++ []) (renderings ++ [])
    rw [List.append_nil, List.append_nil]
    exact h
  | cons making rest ih =>
    obtain ⟨report, between, hfirst, hresult⟩ := FileAction.exists_of_bind_eq_ok hresult
    obtain ⟨behind, _, hrest, hresult⟩ := FileAction.exists_of_bind_eq_ok hresult
    cases hresult
    obtain ⟨hmaking, hothers⟩ := List.forall_mem_cons.mp hdry
    have hnext := hkept.perform hledger making
    rw [after_of_ok hfirst] at hnext
    rw [gather_cons_of_ok _ hfirst, gather_cons_of_ok _ hfirst, ← List.append_assoc,
      ← List.append_assoc]
    exact ih (h.perform hkept.ledgerKept hmaking hfirst) hnext hothers hrest

end Traced

/-- Each path that a making reports has been rendered. -/
theorem exists_rendering_of_perform {making : Making} {tree later : FileTree} {report : SiteReport}
    (h : making.perform tree = .ok report later) {write : PageWrite}
    (hwrite : write ∈ report.writes) :
    ∃ rendering ∈ making.renderings tree, rendering.path = write.path := by
  have hrendered {pages : List (Path × String)} {digests digests' : Digests}
      {writes : List PageWrite} {between : FileTree}
      (hfound : making.found? tree = some (pages, digests))
      (hpages : writePages making.dryRun pages digests tree = .ok (writes, digests') between)
      (hwrite : write ∈ writes) :
      ∃ rendering ∈ making.renderings tree, rendering.path = write.path := by
    have hpath := List.mem_map_of_mem (f := (·.path)) hwrite
    rw [paths_of_writePages hpages] at hpath
    obtain ⟨page, hpage, hsame⟩ := List.mem_map.mp hpath
    rw [renderings_eq hfound]
    exact ⟨_, List.mem_map_of_mem hpage, hsame⟩
  -- In a dry run and in a full one the pages are the rendered ones.
  have houtcome := performed making tree
  rw [h] at houtcome
  cases houtcome with
  | previewed hfound _ hpages => exact hrendered hfound hpages hwrite
  | finished hfound _ hpages => exact hrendered hfound hpages hwrite

/-- Each path that is reported has been rendered for a ledger. -/
theorem exists_rendering {makings : List Making} {tree later : FileTree}
    {reports : List SiteReport} (h : performAll makings tree = .ok reports later)
    {report : SiteReport} (hreport : report ∈ reports) {write : PageWrite}
    (hwrite : write ∈ report.writes) :
    ∃ rendering ∈ gather Making.renderings makings tree, rendering.path = write.path := by
  -- On the sites: a report is that of the first or of one behind it.
  induction makings generalizing tree reports with
  | nil =>
    cases h
    cases hreport
  | cons making rest ih =>
    obtain ⟨first, between, hfirst, h⟩ := FileAction.exists_of_bind_eq_ok h
    obtain ⟨behind, _, hrest, h⟩ := FileAction.exists_of_bind_eq_ok h
    cases h
    rw [gather_cons_of_ok _ hfirst]
    rcases List.mem_cons.mp hreport with rfl | hbehind
    · obtain ⟨rendering, hmem, hpath⟩ := exists_rendering_of_perform hfirst hwrite
      exact ⟨rendering, List.mem_append_left _ hmem, hpath⟩
    · obtain ⟨rendering, hmem, hpath⟩ := ih hrest hbehind
      exact ⟨rendering, List.mem_append_right _ hmem, hpath⟩

/-- The places of ledgers are such by their names. -/
theorem of_mem_renderings {makings : List Making} {tree : FileTree} {rendering : Rendering}
    (h : rendering ∈ gather Making.renderings makings tree) :
    FileKind.ledger.Of rendering.ledger := by
  -- On the sites, up to the first one that fails.
  induction makings generalizing tree with
  | nil => cases h
  | cons making rest ih =>
    have hfirst (hmem : rendering ∈ making.renderings tree) :
        FileKind.ledger.Of rendering.ledger := by
      unfold Making.renderings at hmem
      split at hmem
      · cases hmem
      · obtain ⟨page, _, rfl⟩ := List.mem_map.mp hmem
        exact of_ledger _ _ _
    cases hresult : making.perform tree with
    | error e later =>
      rw [gather_cons_of_error _ hresult] at h
      exact hfirst h
    | ok report later =>
      rw [gather_cons_of_ok _ hresult] at h
      rcases List.mem_append.mp h with hmem | hmem
      · exact hfirst hmem
      · exact ih hmem

/-- All sites of a run are dry runs, or none is. -/
theorem dryRun_of_mem_makings {now : Instant} {home : Path} {scope : Scope}
    {options : SiteOptions} {tree : FileTree} {making : Making}
    (h : making ∈ makings now home scope options tree) : making.dryRun = options.dryRun := by
  unfold makings at h
  split at h
  · cases h
  · split at h
    · rw [List.mem_singleton.mp h]
    · split at h
      · cases h
      · obtain ⟨key, _, rfl⟩ := List.mem_map.mp h
        rfl

/-- Whether a text of a log that has the digest of a text is that text. -/
def Distinguished (log : List PageEvent) (text : String) : Prop :=
  ∀ event ∈ log, Digest.ofText event.text = Digest.ofText text → event.text = text

/-- The last page in the place of a path is there. It is what is recorded last for the path if it
was moved there under the path as it is written, for the same ledger, and is recorded. -/
theorem Kept.exists_last {start ledger : List String} {log : List PageEvent} {tree : FileTree}
    {path : Path} {event : PageEvent} (h : Kept start ledger log tree)
    (hrecorded : lastRecorded ledger path log = some event) :
    ∃ last, lastAt start (path.place start) log = some last ∧ tree.Holds last.path last.text
      ∧ (last.ledger = ledger → last.path = path → last.recorded = true → last = event) := by
  obtain ⟨last, hlast⟩ := exists_lastAt hrecorded start
  refine ⟨last, hlast, h.pages.held hlast, fun hledger hpath hkept => ?_⟩
  have hsame := lastRecorded_of_lastAt hlast hledger hpath hkept
  exact Option.some.inj (hsame.symm.trans hrecorded)

section Run

variable {tree final : FileTree} {now : Instant} {home : Path} {scope : Scope}
  {options : SiteOptions} {reports : List SiteReport}

/-- A run that succeeds makes its sites. -/
theorem performAll_of_run (hrun : run now home scope options tree = .ok reports final) :
    performAll (makings now home scope options tree) tree = .ok reports final := by
  rcases run_eq now home scope options tree with ⟨e, _, herror⟩ | hperform
  · rw [hrun] at herror
    cases herror
  · rw [← hperform]
    exact hrun

/-- Each path that a run reports has a last text. -/
theorem exists_lastRendered (hrun : run now home scope options tree = .ok reports final)
    {report : SiteReport} (hreport : report ∈ reports) {write : PageWrite}
    (hwrite : write ∈ report.writes) :
    ∃ rendering, lastRendered write.path
      (gather Making.renderings (makings now home scope options tree) tree) = some rendering := by
  obtain ⟨other, hother, hpath⟩ := exists_rendering (performAll_of_run hrun) hreport hwrite
  rw [← Option.isSome_iff_exists, Option.isSome_iff_ne_none, lastRendered, Ne,
    findRev?_eq_none_iff]
  exact fun hnone => hnone other hother (decide_eq_true hpath)

/-- From a tree that is as a log has it, a run has the last text for a path recorded. -/
theorem Kept.exists_recorded {start : List String} {log : List PageEvent} {path : Path}
    {rendering : Rendering} (h : Kept start rendering.ledger log tree)
    (hdry : options.dryRun = false)
    (hrun : Site.run now home scope options tree = .ok reports final)
    (hrendering : lastRendered path
      (gather Making.renderings (makings now home scope options tree) tree) = some rendering) :
    Kept start rendering.ledger
        (log ++ gather Making.events (makings now home scope options tree) tree) final
      ∧ ∃ event, lastRecorded rendering.ledger path
          (log ++ gather Making.events (makings now home scope options tree) tree) = some event
        ∧ Digest.ofText event.text = Digest.ofText rendering.text := by
  have hledger := of_mem_renderings (mem_of_findRev? hrendering)
  have hafter := h.run hledger now home scope options
  rw [after_of_ok hrun] at hafter
  -- Only what this run renders is to be traced, so the log before it is taken with no texts.
  have hnothing : Traced rendering.ledger log [] := fun _ _ hnone => by cases hnone
  have htraced := hnothing.performAll hledger h
    (fun making hmaking => (dryRun_of_mem_makings hmaking).trans hdry) (performAll_of_run hrun)
  exact ⟨hafter, htraced hrendering rfl⟩

end Run

/-! ## Sites after runs -/

/-- **What a run leaves in its site.** Whatever steps are taken from a tree, with a run at their end
that changes files and succeeds: every path that it reports was rendered for a ledger. If that
ledger was made on the way, then in the place of the path there is the last page that was moved
there in all these steps. If this was done for the same ledger, under the path as it is written, and
recorded, the path holds the last text that the run rendered for it, as far as digests tell texts
apart. -/
theorem readText_of_run {start final : FileTree} {steps : List Step} {now : Instant} {home : Path}
    {scope : Scope} {options : SiteOptions} {reports : List SiteReport} {report : SiteReport}
    {write : PageWrite} (hdry : options.dryRun = false)
    (hrun : run now home scope options (treeAfter steps start) = .ok reports final)
    (hreport : report ∈ reports) (hwrite : write ∈ report.writes) :
    ∃ rendering, lastRendered write.path
        (gather Making.renderings (makings now home scope options (treeAfter steps start))
          (treeAfter steps start)) = some rendering
      ∧ (start.fileAt rendering.ledger = none →
        ∃ last, lastAt start.workingDirectory (write.path.place start.workingDirectory)
            (history (steps ++ [.run now home scope options]) start) = some last
          ∧ final.fileAt (write.path.place start.workingDirectory) = some last.text.toUTF8
          ∧ (last.ledger = rendering.ledger → last.path = write.path → last.recorded = true →
            Distinguished (history (steps ++ [.run now home scope options]) start)
              rendering.text →
            final.readText write.path = .ok rendering.text)) := by
  obtain ⟨rendering, hrendering⟩ := exists_lastRendered hrun hreport hwrite
  refine ⟨rendering, hrendering, fun hfresh => ?_⟩
  have hledger := of_mem_renderings (mem_of_findRev? hrendering)
  have hkept := (Kept.of_fresh hfresh).foldl hledger steps
  -- The history of all steps is that of the first ones and then that of the run.
  have hlog : history (steps ++ [.run now home scope options]) start
      = ([] ++ history steps start) ++ gather Making.events
        (makings now home scope options (treeAfter steps start)) (treeAfter steps start) := by
    rw [history_append, List.nil_append]
    exact congrArg (_ ++ ·) (List.append_nil _)
  obtain ⟨hafter, event, hevent, hdigest⟩ := hkept.exists_recorded hdry hrun hrendering
  rw [← hlog] at hafter hevent
  obtain ⟨last, hlast, hholds, hsame⟩ := hafter.exists_last hevent
  refine ⟨last, hlast, ?_, fun hlastLedger hpath hrecorded hdistinguished => ?_⟩
  · have hfile := hholds.file
    rwa [hafter.pages.workingDirectory, place_of_lastAt hlast] at hfile
  · -- The page in the place is the recorded one, and its digest is that of the rendered text.
    obtain rfl := hsame hlastLedger hpath hrecorded
    rw [← hdistinguished last (mem_of_findRev? hevent) hdigest, ← hpath]
    exact hholds.readText

/-! ## A shared directory -/

section Plain

open Template

/-- Templates without directives: the page of a program is the text, and other pages are empty. -/
def plainLibrary (text : String) : Library :=
  ⟨[(programName, ⟨programName, text, []⟩), (pageName, ⟨pageName, "", []⟩)]⟩

/-- A directory with a template without commands and an empty one is a plain library. -/
theorem load_plain {tree : FileTree} {directory : Path} {text : String}
    (hread : Library.readTexts tree directory = .ok [(programName, text), (pageName, "")])
    (hfree : ¬ openMarker <:+: text.toList) :
    Library.load tree (some directory) = .ok (plainLibrary text) := by
  unfold Library.load
  simp only [hread]
  exact Library.ofTexts_pair (parse_of_free hfree) (parse_of_free (by decide))

/-- Whatever the program, its course page has the text and the pages of lessons are empty. -/
theorem renderSite_plain (text : String) (program : Program) (site : Path) :
    (plainLibrary text).renderSite program site
      = .ok ((site / "Course.html", text) :: Library.lessonPages program site fun _ _ _ => "") :=
  Library.renderSite_of_render (Library.render_of_get rfl (renderText_of_plain _ _ _))
    fun _ _ _ => Library.render_of_get rfl (renderText_of_plain _ _ _)

end Plain

namespace SharedDirectory

/-- A directory of such templates. -/
def templates (text : String) : Node :=
  .directory [("course.html.tpl", .file text.toUTF8), ("lesson.html.tpl", .file "".toUTF8)]

/-- The directory of a program without courses. -/
def program (name : String) : Node :=
  .directory [("program.yaml", .file ("name: " ++ name).toUTF8)]

/-- Two programs, and two directories of templates. -/
def start : FileTree where
  root := .directory
    [("first", templates "one"), ("second", templates "two"),
      ("home", .directory [(".coursebook", .directory [("programs",
        .directory [("a", program "A"), ("b", program "B")])])])]

/-- The site goes to one directory whatever the program is. -/
def options (directory : String) : SiteOptions where
  out := some ⟨"o"⟩
  templates := some ⟨directory⟩

def noon : Instant := ⟨⟨2024, 1, 1, by decide⟩, 43200, 0⟩

def step (key directory : String) : Step :=
  .run noon ⟨"home"⟩ (.program key) (options directory)

def page : Path := ⟨"o/Course.html"⟩

def making (key text : String) : Making :=
  ⟨plainLibrary text, noon, ⟨"home"⟩, key, ⟨"o"⟩, false⟩

/-- Makes the site with the text for the page. -/
@[irreducible] def finish (key text : String) (digests : Digests) :
    FileAction SiteError SiteReport :=
  (making key text).finish [(page, text)] digests

/-- What a run with these templates makes of a tree. -/
structure Runs (key directory text : String) (digests : Digests) (tree : FileTree) : Prop where
  makings_eq : makings noon ⟨"home"⟩ (.program key) (options directory) tree = [making key text]
  found?_eq : (making key text).found? tree = some ([(page, text)], digests)

namespace Runs

variable {key directory text name : String} {digests : Digests} {tree later : FileTree}
  {report : SiteReport}

/-- What is read before a site is made is what its run starts from. -/
theorem of_loads {found : Ledger} (hprogram : Store.load tree ⟨"home"⟩ key = .ok (.named name))
    (htemplates : Template.Library.readTexts tree ⟨directory⟩
      = .ok [(Template.programName, text), (Template.pageName, "")])
    (hledger : Ledger.load noon tree ⟨"home"⟩ key = .ok found)
    (hfree : ¬ Template.openMarker <:+: text.toList) :
    Runs key directory text found.digests tree where
  makings_eq := by
    unfold makings
    rw [show Template.Library.load tree (options directory).templates = .ok (plainLibrary text) from
      load_plain htemplates hfree]
    rfl
  found?_eq := Site.found?_eq hprogram (renderSite_plain text (.named name) ⟨"o"⟩) hledger

/-- Making the site finishes its pages. -/
theorem perform_eq (h : Runs key directory text digests tree) :
    (making key text).perform tree = finish key text digests tree := by
  unfold finish
  exact perform_of_found? h.found?_eq

theorem run_eq (h : Runs key directory text digests tree)
    (hfinish : finish key text digests tree = .ok report later) :
    run noon ⟨"home"⟩ (.program key) (options directory) tree = .ok [report] later := by
  rcases Site.run_eq noon ⟨"home"⟩ (.program key) (options directory) tree with
    ⟨e, hnone, _⟩ | hrun
  · rw [h.makings_eq] at hnone
    cases hnone
  · rw [hrun, h.makings_eq]
    exact bind_ok (h.perform_eq.trans hfinish)

/-- The history of such a run has the pages that are moved. -/
theorem events_gather (h : Runs key directory text digests tree)
    (hfinish : finish key text digests tree = .ok report later) :
    gather Making.events (makings noon ⟨"home"⟩ (.program key) (options directory) tree) tree
      = (movedPages false [(page, text)] digests tree).map
        (pageEvent ((making key text).ledger tree) true) := by
  have hperform := h.perform_eq.trans hfinish
  rw [h.makings_eq, gather_cons_of_ok _ hperform, events_eq h.found?_eq, succeeds_of_ok hperform]
  exact List.append_nil _

/-- The only rendering of such a run is that of the page. -/
theorem renderings_gather (h : Runs key directory text digests tree)
    (hfinish : finish key text digests tree = .ok report later) :
    gather Making.renderings (makings noon ⟨"home"⟩ (.program key) (options directory) tree) tree
      = [⟨(making key text).ledger tree, page, pageText text⟩] := by
  rw [h.makings_eq, gather_cons_of_ok _ (h.perform_eq.trans hfinish), renderings_eq h.found?_eq]
  rfl

/-- The steps behind such a run go on from the tree it leaves. -/
theorem treeAfter_cons (h : Runs key directory text digests tree)
    (hfinish : finish key text digests tree = .ok report later) (steps : List Step) :
    treeAfter (step key directory :: steps) tree = treeAfter steps later := by
  have hrun := h.run_eq hfinish
  show treeAfter steps (after (run noon ⟨"home"⟩ (.program key) (options directory)) tree) = _
  rw [after_of_ok hrun]

theorem history_cons (h : Runs key directory text digests tree)
    (hfinish : finish key text digests tree = .ok report later) (steps : List Step) :
    history (step key directory :: steps) tree
      = (movedPages false [(page, text)] digests tree).map
        (pageEvent ((making key text).ledger tree) true) ++ history steps later := by
  have htree := h.treeAfter_cons hfinish []
  rw [history, show (step key directory).apply tree = later from htree]
  exact congrArg (· ++ _) (h.events_gather hfinish)

end Runs

/-! The first program is made into a site, then the second one, and the first one again. -/

@[irreducible] def afterFirst : FileTree := after (finish "a" "one" []) start

@[irreducible] def afterSecond : FileTree := after (finish "b" "two" []) afterFirst

/-- Before the first run: there is no ledger yet, and the page is written. -/
theorem of_start : start.contains (Ledger.file ⟨"home"⟩ "a") = false
    ∧ Store.load start ⟨"home"⟩ "a" = .ok (.named "A")
    ∧ Template.Library.readTexts start ⟨"first"⟩
      = .ok [(Template.programName, "one"), (Template.pageName, "")]
    ∧ movedPages false [(page, "one")] [] start = [(page, "one")]
    ∧ valueOf (finish "a" "one" [] start) = some ⟨"a", ⟨"o"⟩, [⟨.written, page⟩]⟩ := by
  decide +kernel

/-- After it: the other program has no ledger, and its page replaces the first one. -/
theorem of_afterFirst : afterFirst.contains (Ledger.file ⟨"home"⟩ "b") = false
    ∧ Store.load afterFirst ⟨"home"⟩ "b" = .ok (.named "B")
    ∧ Template.Library.readTexts afterFirst ⟨"second"⟩
      = .ok [(Template.programName, "two"), (Template.pageName, "")]
    ∧ movedPages false [(page, "two")] [] afterFirst = [(page, "two")]
    ∧ valueOf (finish "b" "two" [] afterFirst) = some ⟨"b", ⟨"o"⟩, [⟨.written, page⟩]⟩
    ∧ afterFirst.workingDirectory = [] := by
  decide +kernel

/-- The digests that the first program has kept. -/
def kept : Digests := [(page.text, pageDigest "one")]

/-- After both: the ledger of the first program still says the digest of its own text. -/
theorem of_afterSecond : Store.load afterSecond ⟨"home"⟩ "a" = .ok (.named "A")
    ∧ Template.Library.readTexts afterSecond ⟨"first"⟩
      = .ok [(Template.programName, "one"), (Template.pageName, "")]
    ∧ valueOf (finish "a" "one" kept afterSecond) = some ⟨"a", ⟨"o"⟩, [⟨.unchanged, page⟩]⟩
    ∧ (after (finish "a" "one" kept) afterSecond).readText page = .ok "two" := by
  decide +kernel

/-- The two texts have different digests. -/
theorem digests_differ : Digest.ofText "one" ≠ Digest.ofText "two" := by decide +kernel

/-- The instant of the runs is read back from its text. -/
theorem ofString?_noon : Instant.ofString? noon.text = some noon := by decide +kernel

theorem finish_first :
    finish "a" "one" [] start = .ok ⟨"a", ⟨"o"⟩, [⟨.written, page⟩]⟩ afterFirst := by
  unfold afterFirst
  exact eq_ok_of_valueOf of_start.2.2.2.2

theorem finish_second :
    finish "b" "two" [] afterFirst = .ok ⟨"b", ⟨"o"⟩, [⟨.written, page⟩]⟩ afterSecond := by
  unfold afterSecond
  exact eq_ok_of_valueOf of_afterFirst.2.2.2.2.1

/-- The first program is loaded from the start. -/
theorem runs_first : Runs "a" "first" "one" [] start := by
  obtain ⟨hmissing, hprogram, htemplates, _⟩ := of_start
  exact .of_loads hprogram htemplates (load_of_missing noon hmissing) (by decide)

/-- The second one is loaded after the first run. -/
theorem runs_second : Runs "b" "second" "two" [] afterFirst := by
  obtain ⟨hmissing, hprogram, htemplates, _⟩ := of_afterFirst
  exact .of_loads hprogram htemplates (load_of_missing noon hmissing) (by decide)

/-- The first step leaves the tree of the first run. -/
theorem treeAfter_first : treeAfter [step "a" "first"] start = afterFirst :=
  runs_first.treeAfter_cons finish_first []

theorem workingDirectory_afterFirst : afterFirst.workingDirectory = [] := of_afterFirst.2.2.2.2.2

/-- The page of the second program is up to date when it has been made. -/
theorem readText_second :
    ∃ final, run noon ⟨"home"⟩ (.program "b") (options "second")
        (treeAfter [step "a" "first"] start) = .ok [⟨"b", ⟨"o"⟩, [⟨.written, page⟩]⟩] final
      ∧ final.readText page = .ok "two" := by
  have hrun := runs_second.run_eq finish_second
  have htext : pageText "two" = "two" := by decide
  have hhistory : history ([step "a" "first"] ++ [step "b" "second"]) start
      = [pageEvent ((making "a" "one").ledger start) true (page, "one"),
        pageEvent ((making "b" "two").ledger afterFirst) true (page, "two")] := by
    rw [List.singleton_append, runs_first.history_cons finish_first,
      runs_second.history_cons finish_second, of_start.2.2.2.1, of_afterFirst.2.2.2.1]
    rfl
  rw [← treeAfter_first] at hrun
  refine ⟨afterSecond, hrun, ?_⟩
  -- Every hypothesis of the theorem is now evaluated for these two runs.
  obtain ⟨rendering, hrendering, hread⟩ :=
    readText_of_run rfl hrun List.mem_cons_self List.mem_cons_self
  rw [treeAfter_first, runs_second.renderings_gather finish_second, htext] at hrendering
  have hsame : rendering = ⟨(making "b" "two").ledger afterFirst, page, "two"⟩ :=
    List.mem_singleton.mp (mem_of_findRev? hrendering)
  rw [hsame] at hread
  have hfresh : start.fileAt ((making "b" "two").ledger afterFirst) = none := by
    unfold Making.ledger
    rw [workingDirectory_afterFirst]
    decide
  obtain ⟨last, hlast, _, hread⟩ := hread hfresh
  rw [show history ([step "a" "first"] ++ [.run noon ⟨"home"⟩ (.program "b") (options "second")])
    start = _ from hhistory] at hlast hread
  -- Both programs have their page in the one place, and the second came later.
  have hsecond : last = pageEvent ((making "b" "two").ledger afterFirst) true (page, "two") := by
    rw [lastAt, ← List.singleton_append, findRev?_append, Option.or_eq_some_iff] at hlast
    rcases hlast with hlast | ⟨hnone, _⟩
    · exact List.mem_singleton.mp (mem_of_findRev? hlast)
    · rw [findRev?_eq_none_iff] at hnone
      exact absurd (decide_eq_true rfl) (hnone _ List.mem_cons_self)
  rw [hsecond] at hread
  refine hread rfl rfl rfl fun event hevent hdigest => ?_
  rcases List.mem_cons.mp hevent with rfl | hevent
  · exact absurd hdigest digests_differ
  · rw [List.mem_singleton.mp hevent]
    rfl

/-- The ledger of the first program has the digest of its page. -/
theorem holds_first : afterFirst.Holds (Ledger.file ⟨"home"⟩ "a") (Ledger.encode ⟨noon, kept⟩) := by
  have houtcome := performed (making "a" "one") start
  rw [runs_first.perform_eq, finish_first] at houtcome
  cases houtcome with
  | previewed _ hdry => cases hdry
  | finished hfound _ hwrite hholds =>
    rw [runs_first.found?_eq] at hfound
    cases hfound
    obtain ⟨write, between, middle, behind, hpage, hrest, _⟩ := exists_of_writePages_cons hwrite
    -- The only page was written, so its digest is the one that was saved.
    cases hrest
    cases writePage_ok hpage with
    | unchanged hdigest => cases hdigest
    | wouldWrite hdry => cases hdry
    | written => exact hholds

/-- The ledger of the first program outlasts the making of the second one. -/
theorem holds_kept : afterSecond.Holds (Ledger.file ⟨"home"⟩ "a") (Ledger.encode ⟨noon, kept⟩) := by
  have hchanges := changes_perform (making "b" "two") afterFirst
  rw [after_of_ok (runs_second.perform_eq.trans finish_second)] at hchanges
  refine holds_first.of_changes hchanges ?_
  have hledger := of_ledger afterFirst.workingDirectory ⟨"home"⟩ "a"
  rintro (hpage | hplace)
  · exact hledger.not_or (by decide) hpage
  · unfold Making.ledger at hplace
    rw [workingDirectory_afterFirst] at hplace
    revert hplace
    decide

/-- The first program is loaded again after both runs. -/
theorem runs_third : Runs "a" "first" "one" kept afterSecond := by
  obtain ⟨hprogram, htemplates, _⟩ := of_afterSecond
  exact .of_loads hprogram htemplates (load_of_holds noon holds_kept ofString?_noon) (by decide)

theorem finish_third : finish "a" "one" kept afterSecond
    = .ok ⟨"a", ⟨"o"⟩, [⟨.unchanged, page⟩]⟩ (after (finish "a" "one" kept) afterSecond) :=
  eq_ok_of_valueOf of_afterSecond.2.2.1

/-- Of a directory that two programs share, the first one passes over the page of the second as its
own: the page is reported as unchanged, but what it holds is not what was rendered. -/
theorem readText_unchanged :
    ∃ final, run noon ⟨"home"⟩ (.program "a") (options "first")
        (treeAfter [step "a" "first", step "b" "second"] start)
          = .ok [⟨"a", ⟨"o"⟩, [⟨.unchanged, page⟩]⟩] final
      ∧ (lastRendered page (gather Making.renderings
          (makings noon ⟨"home"⟩ (.program "a") (options "first")
            (treeAfter [step "a" "first", step "b" "second"] start))
          (treeAfter [step "a" "first", step "b" "second"] start))).map (·.text) = some "one"
      ∧ final.readText page = .ok "two"
      ∧ Digest.ofText "one" ≠ Digest.ofText "two" := by
  have htree : treeAfter [step "a" "first", step "b" "second"] start = afterSecond := by
    rw [runs_first.treeAfter_cons finish_first]
    exact runs_second.treeAfter_cons finish_second []
  have htext : pageText "one" = "one" := by decide
  refine ⟨after (finish "a" "one" kept) afterSecond, ?_, ?_, of_afterSecond.2.2.2, digests_differ⟩
  · rw [htree]
    exact runs_third.run_eq finish_third
  · rw [htree, runs_third.renderings_gather finish_third, htext]
    rfl

end SharedDirectory

end Syllabus.Site
