import Syllabus.Proofs.Site.PageAdditions
import Syllabus.Proofs.Site.UpToDate

/-!
# Syllabus: previews

A dry run tells of each page whether it is current, and leaves the tree as it is. A run that writes
decides page by page, each time with the tree and the digests that the pages before have left. It
decides the same as long as the pages are apart: no page that is written has another one looked at
differently.

* **`after_run_dryRun`**: dry runs change nothing.
* **`looksSame_of_writePage`**: what is left to later pages.
* **`dryRun_foresees`**: a dry run foresees what a run that succeeds does.
-/

namespace Syllabus

open FileTree FileAction

/-! ## Reports -/

/-- What a dry run says in place of an outcome. -/
def Outcome.preview : Outcome → Outcome
  | written | wouldWrite => wouldWrite
  | unchanged => unchanged

def PageWrite.preview (write : PageWrite) : PageWrite :=
  { write with outcome := write.outcome.preview }

def SiteReport.preview (report : SiteReport) : SiteReport :=
  { report with writes := report.writes.map PageWrite.preview }

namespace Site

/-! ## Dry runs -/

/-- What a dry run says of a page. -/
def foreseen (digests : Digests) (tree : FileTree) (page : Path × String) : PageWrite :=
  ⟨if IsCurrent page.1 page.2 digests tree then .unchanged else .wouldWrite, page.1⟩

/-- In a dry run a page is only compared. -/
theorem writePage_dryRun (path : Path) (content : String) (digests : Digests) (tree : FileTree) :
    writePage path content digests true tree
      = .ok (foreseen digests tree (path, content), digests) tree := by
  rw [writePage_eq, foreseen]
  split
  · rfl
  · rfl

theorem writePages_dryRun (pages : List (Path × String)) (digests : Digests) (tree : FileTree) :
    writePages true pages digests tree = .ok (pages.map (foreseen digests tree), digests) tree := by
  induction pages with
  | nil => rfl
  | cons page rest ih =>
    obtain ⟨path, content⟩ := page
    rw [writePages, bind_ok (writePage_dryRun path content digests tree)]
    exact bind_ok ih

/-- In a dry run a site is made without saving a ledger. -/
theorem finish_dryRun {making : Making} (hdry : making.dryRun = true)
    (pages : List (Path × String)) (digests : Digests) (tree : FileTree) :
    making.finish pages digests tree
      = .ok ⟨making.key, making.site, pages.map (foreseen digests tree)⟩ tree := by
  rw [Making.finish, hdry, bind_ok (writePages_dryRun pages digests tree)]
  rfl

theorem after_perform_dryRun {making : Making} (hdry : making.dryRun = true) (tree : FileTree) :
    after making.perform tree = tree := by
  rcases perform_eq making tree with ⟨e, _, hperform⟩ | ⟨pages, digests, _, hperform⟩
  · exact after_of_error hperform
  · rw [finish_dryRun hdry] at hperform
    exact after_of_ok hperform

theorem after_performAll_dryRun {makings : List Making}
    (hdry : ∀ making ∈ makings, making.dryRun = true) (tree : FileTree) :
    after (performAll makings) tree = tree := by
  induction makings with
  | nil => rfl
  | cons making rest ih =>
    obtain ⟨hfirst, hrest⟩ := List.forall_mem_cons.mp hdry
    have hsame := after_perform_dryRun hfirst tree
    cases hresult : making.perform tree with
    | error e later =>
      rw [after_of_error hresult] at hsame
      exact (after_bind_of_error hresult).trans hsame
    | ok report later =>
      rw [after_of_ok hresult] at hsame
      rw [after_performAll_cons_of_ok hresult, hsame]
      exact ih hrest

/-- **Dry runs.** They leave the tree as it is, whether they succeed or fail. -/
theorem after_run_dryRun (now : Instant) (home : Path) (scope : Scope) {options : SiteOptions}
    (hdry : options.dryRun = true) (tree : FileTree) :
    after (run now home scope options) tree = tree := by
  rcases run_eq now home scope options tree with ⟨e, _, hrun⟩ | hrun
  · exact after_of_error hrun
  · unfold after
    rw [hrun]
    exact after_performAll_dryRun
      (fun making hmaking => (dryRun_of_mem_makings hmaking).trans hdry) tree

/-! ## What a run starts from -/

/-- Only when a ledger was written may have to be replaced by the time at which it is read. -/
theorem digests_of_decode? (now now' : Instant) (text : String) :
    (Ledger.decode? now text).map (·.digests) = (Ledger.decode? now' text).map (·.digests) := by
  unfold Ledger.decode?
  cases Json.Raw.read? text.toList with
  | none => rfl
  | some raw =>
    simp only [Option.bind_eq_bind, Option.bind_some]
    cases raw.fields? ["synced_at", "files"] with
    | none => rfl
    | some entries =>
      simp only [Option.bind_some]
      -- The instant is used only where the ledger has none of its own.
      split
      · next syncedAt digests =>
        cases syncedAt with
        | none =>
          simp only [orElse?, Option.bind_some, Option.map_bind]
          rfl
        | some entry => rfl
      · rfl

/-- The digests of a ledger do not depend on the time at which it is loaded. -/
theorem digests_of_load (now now' : Instant) (tree : FileTree) (home : Path) (key : String) :
    (Ledger.load now tree home key).toOption.map (·.digests)
      = (Ledger.load now' tree home key).toOption.map (·.digests) := by
  unfold Ledger.load
  dsimp only
  split
  · rfl
  · split
    · rfl
    · next text _ =>
      have hdecode := digests_of_decode? now now' text
      cases hnow : Ledger.decode? now text with
      | none =>
        rw [hnow, Option.map_none, eq_comm, Option.map_eq_none_iff] at hdecode
        rw [hdecode]
      | some found =>
        rw [hnow, Option.map_some, eq_comm, Option.map_eq_some_iff] at hdecode
        obtain ⟨found', hfound', hdigests⟩ := hdecode
        rw [hfound']
        exact congrArg some hdigests.symm

/-- Neither do the pages and digests that a making starts from, or whether the run is dry. -/
theorem found?_preview (making : Making) (now : Instant) (dryRun : Bool) (tree : FileTree) :
    Making.found? { making with now, dryRun } tree = making.found? tree := by
  have hdigests := digests_of_load now making.now tree making.home making.key
  -- Of the ledger only the digests are found, which do not depend on the instant.
  have hfound (making : Making) : making.found? tree
      = (Store.load tree making.home making.key).toOption.bind fun program =>
        (making.library.renderSite program making.site).toOption.bind fun pages =>
        ((Ledger.load making.now tree making.home making.key).toOption.map (·.digests)).map
          fun digests => (pages, digests) := by
    unfold Making.found?
    simp only [Option.bind_eq_bind, Option.map_map]
    congr 1
    funext program
    congr 1
    funext pages
    cases (Ledger.load making.now tree making.home making.key).toOption <;> rfl
  rw [hfound, hfound]
  dsimp only
  rw [hdigests]

/-! ## Pages apart -/

/-- Whether a page leads to its place by names alone. -/
structure IsOutput (start : List String) (path : Path) : Prop where
  isPage : FileKind.page.Of (path.place start)
  descends : path.Descends
  noParent : ".." ∉ path.way start

/-- The pages of a program lead to their places so, unless they go back up. -/
theorem isOutput_of_page {start : List String} {library : Template.Library} {program : Program}
    {site : Path} {pages : List (Path × String)} (h : library.renderSite program site = .ok pages)
    {page : Path × String} (hpage : page ∈ pages) (hway : ".." ∉ page.1.way start) :
    IsOutput start page.1 where
  isPage := of_page start h hpage
  descends := .of_suffix (FileKind.isEnding_ending .page) (suffix_page h hpage)
    fun hname => hway (List.mem_append_right _ hname)
  noParent := hway

/-- Whether a page is there depends only on what is at its place. -/
theorem contains_eq_of_find? {path : Path} {tree later : FileTree}
    (hpath : IsOutput tree.workingDirectory path)
    (hworking : later.workingDirectory = tree.workingDirectory)
    (hfound : (∃ node, later.root.find? (path.place tree.workingDirectory) = some node)
      ↔ ∃ node, tree.root.find? (path.place tree.workingDirectory) = some node) :
    later.contains path = tree.contains path := by
  have hway : ".." ∉ path.way later.workingDirectory := hworking ▸ hpath.noParent
  have hlater := contains_iff hpath.descends hway
  rw [hworking, hfound, ← contains_iff hpath.descends hpath.noParent] at hlater
  exact Bool.eq_iff_iff.mpr hlater

/-- What is at a place is a directory or a file. -/
theorem exists_find?_iff {tree : FileTree} {place : List String} :
    (∃ node, tree.root.find? place = some node)
      ↔ tree.HasDirectory place ∨ ∃ content, tree.fileAt place = some content := by
  constructor
  · rintro ⟨node, hnode⟩
    cases node with
    | file content => exact .inr ⟨content, fileAt_eq_some_iff.mpr hnode⟩
    | directory entries => exact .inl ⟨entries, hnode⟩
  · rintro (⟨entries, hentries⟩ | ⟨content, hcontent⟩)
    · exact ⟨_, hentries⟩
    · exact ⟨_, fileAt_eq_some_iff.mp hcontent⟩

/-- **What is left to other pages.** A page that has been written has not changed what a page apart
from it is compared to. -/
theorem looksSame_of_writePage {path other : Path} {content : String} {digests digests' : Digests}
    {dryRun : Bool} {tree later : FileTree} {write : PageWrite}
    (hpath : IsOutput tree.workingDirectory path) (hother : IsOutput tree.workingDirectory other)
    (hbeside : Node.Beside (path.place tree.workingDirectory) (other.place tree.workingDirectory))
    (h : writePage path content digests dryRun tree = .ok (write, digests') later) :
    digests'.find? other.text = digests.find? other.text
      ∧ later.contains other = tree.contains other := by
  have hadds := addsOnly_writePage hpath.descends content digests dryRun tree
  rw [after_of_ok h] at hadds
  cases writePage_ok h with
  | unchanged | wouldWrite => exact ⟨rfl, rfl⟩
  | written hdry hholds hchanges =>
    have hplace : other.place tree.workingDirectory ≠ path.place tree.workingDirectory := by
      intro hsame
      exact hbeside.1 (hsame ▸ List.prefix_rfl)
    have htext : path.text ≠ other.text := by
      intro hsame
      exact hplace (congrArg (fun text => Path.place tree.workingDirectory ⟨text⟩) hsame.symm)
    have hkept : later.fileAt (other.place tree.workingDirectory)
        = tree.fileAt (other.place tree.workingDirectory) := by
      refine hchanges.files _ (not_or.mpr ⟨hplace, fun htemporary => ?_⟩)
      cases FileKind.eq_of_endsIn htemporary hother.isPage
    refine ⟨by rw [Table.find?_insert, if_neg htext], contains_eq_of_find? hother
      hchanges.workingDirectory ?_⟩
    -- No directory is made for the page where the other one lies.
    have hdirectory : later.HasDirectory (other.place tree.workingDirectory)
        ↔ tree.HasDirectory (other.place tree.workingDirectory) := by
      refine ⟨fun hnew => ?_, hchanges.directories _⟩
      rcases hadds.directories hnew with hold | haround
      · exact hold
      · exact absurd (haround.trans (List.dropLast_prefix _)) hbeside.2
    rw [exists_find?_iff, exists_find?_iff, hdirectory, hkept]

/-- Whether paths lead to places apart. -/
def Apart (start : List String) (path other : Path) : Prop :=
  Node.Beside (path.place start) (other.place start)

/-- **All pages.** What became of them is what was to be foreseen before the first was written. -/
theorem foreseen_of_writePages {pages : List (Path × String)} {digests digests' first : Digests}
    {tree later start : FileTree} {writes : List PageWrite}
    (h : writePages false pages digests tree = .ok (writes, digests') later)
    (houtput : ∀ page ∈ pages, IsOutput tree.workingDirectory page.1)
    (hapart : (pages.map (·.1)).Pairwise (Apart tree.workingDirectory))
    (hsame : ∀ page ∈ pages, digests.find? page.1.text = first.find? page.1.text
      ∧ tree.contains page.1 = start.contains page.1) :
    pages.map (foreseen first start) = writes.map PageWrite.preview := by
  -- On the pages: those written so far do not change how the others look.
  induction pages generalizing digests tree writes with
  | nil =>
    cases h
    rfl
  | cons page rest ih =>
    obtain ⟨path, content⟩ := page
    obtain ⟨write, between, middle, behind, hwrite, hrest, rfl⟩ := exists_of_writePages_cons h
    obtain ⟨hpath, houtput⟩ := List.forall_mem_cons.mp houtput
    obtain ⟨hlooks, hsame⟩ := List.forall_mem_cons.mp hsame
    rw [List.map_cons, List.pairwise_cons] at hapart
    have hworking : middle.workingDirectory = tree.workingDirectory := by
      have hadds := addsOnly_writePage hpath.descends content digests false tree
      rw [after_of_ok hwrite] at hadds
      exact hadds.workingDirectory
    rw [List.map_cons, List.map_cons]
    congr 1
    · -- The first page is compared to what the dry run compares it to.
      have hcurrent : IsCurrent path content first start ↔ IsCurrent path content digests tree := by
        rw [IsCurrent, IsCurrent, hlooks.1, hlooks.2]
      have houtcome := pageOutcome path content digests false tree
      rw [hwrite] at houtcome
      cases houtcome with
      | unchanged hthere =>
        unfold foreseen
        dsimp only
        rw [if_pos (hcurrent.mpr hthere)]
        rfl
      | wouldWrite _ hdry => cases hdry
      | written hstale =>
        unfold foreseen
        dsimp only
        rw [if_neg (mt hcurrent.mp hstale)]
        rfl
    · refine ih hrest (hworking ▸ houtput) (hworking ▸ hapart.2) fun page hpage => ?_
      obtain ⟨hdigest, hcontains⟩ := looksSame_of_writePage hpath (houtput page hpage)
        (hapart.1 _ (List.mem_map_of_mem hpage)) hwrite
      obtain ⟨hdigest', hcontains'⟩ := hsame page hpage
      exact ⟨hdigest.trans hdigest', hcontains.trans hcontains'⟩

/-! ## Runs -/

/-- **One site.** If it can be made, with its pages apart, a dry run foresees what becomes of
them. -/
theorem perform_dryRun {making : Making} {tree later : FileTree} {report : SiteReport}
    (hdry : making.dryRun = false) (h : making.perform tree = .ok report later)
    (hparent : ∀ write ∈ report.writes, ".." ∉ write.path.way tree.workingDirectory)
    (hapart : (report.writes.map (·.path)).Pairwise (Apart tree.workingDirectory))
    (now : Instant) :
    Making.perform { making with now, dryRun := true } tree = .ok report.preview tree := by
  obtain ⟨pages, digests, _, writes, between, hfound, hwrite, _, rfl⟩ := exists_of_perform hdry h
  have hpaths := paths_of_writePages hwrite
  obtain ⟨⟨program, _, hpages⟩, _⟩ := exists_of_found? hfound
  have houtput : ∀ page ∈ pages, IsOutput tree.workingDirectory page.1 := by
    intro page hpage
    have hmem : page.1 ∈ writes.map (·.path) := hpaths ▸ List.mem_map_of_mem hpage
    obtain ⟨write, hmem, hpath⟩ := List.mem_map.mp hmem
    exact isOutput_of_page hpages hpage (hpath ▸ hparent write hmem)
  have hforeseen := foreseen_of_writePages hwrite houtput (hpaths ▸ hapart)
    fun page _ => ⟨rfl, rfl⟩
  have hfound' := (found?_preview making now true tree).trans hfound
  rw [perform_of_found? hfound', finish_dryRun rfl, hforeseen]
  rfl

/-- **Previews.** A dry run leaves the tree as it is. If a run from the same tree succeeds whose
pages never go back up and lie apart, the dry run succeeds as well and has the same reports, but
for saying of each page that was written that it would be. -/
theorem dryRun_foresees (now now' : Instant) (home : Path) (key : String) (options : SiteOptions)
    (tree : FileTree) :
    after (run now' home (.program key) { options with dryRun := true }) tree = tree
      ∧ ∀ reports later,
        run now home (.program key) { options with dryRun := false } tree = .ok reports later →
        (∀ report ∈ reports, ∀ write ∈ report.writes,
          ".." ∉ write.path.way tree.workingDirectory) →
        (∀ report ∈ reports,
          (report.writes.map (·.path)).Pairwise (Apart tree.workingDirectory)) →
        run now' home (.program key) { options with dryRun := true } tree
          = .ok (reports.map SiteReport.preview) tree := by
  refine ⟨after_run_dryRun now' home _ rfl tree, fun reports later hrun hparent hapart => ?_⟩
  -- The templates are the same for both runs.
  cases hlibrary : Template.Library.load tree options.templates with
  | error e =>
    have hreal : Template.Library.load tree
      { options with dryRun := false : SiteOptions }.templates = .error e := hlibrary
    rw [run_error hreal] at hrun
    cases hrun
  | ok library =>
    have hreal : Template.Library.load tree
      { options with dryRun := false : SiteOptions }.templates = .ok library := hlibrary
    have hdry : Template.Library.load tree
      { options with dryRun := true : SiteOptions }.templates = .ok library := hlibrary
    rw [run_program hreal] at hrun
    rw [run_program hdry]
    obtain ⟨report, between, hperform, hrun⟩ := FileAction.exists_of_bind_eq_ok hrun
    cases hrun
    have hreport := List.mem_singleton_self report
    exact bind_ok (perform_dryRun rfl hperform (hparent _ hreport) (hapart _ hreport) now')

/-! ## A site that is partly current -/

namespace PartlyCurrent

open Template
open SharedDirectory (noon options making page templates)

/-- A course whose lesson has two pages. -/
def course : Course where
  fileName := some "x"
  name := "C"
  lessons := [{ id := 1, name := "L", pages := [{ id := 1 }, { id := 2 }] }]

def program : Program where
  name := "A"
  courses := [course]

/-- A text that the program is read from. -/
def programText : String :=
  "\x7bname: A, courses: [\x7bfile_name: x, name: C, lessons: "
  ++ "[\x7bid: 1, name: L, pages: [\x7bid: 1\x7d, \x7bid: 2\x7d]\x7d]\x7d]\x7d"

def firstPage : Path := ⟨"o/x/Lesson_1.html"⟩

def secondPage : Path := ⟨"o/x/Lesson_2.html"⟩

/-- The digests of an earlier run, which has had another text for the first page of the lesson. -/
def kept : Digests := [(page.text, pageDigest "one"), (firstPage.text, pageDigest "old")]

/-- The store has the program and its ledger. -/
def store : Node := .directory
  [("programs", .directory [("a", .directory [("program.yaml", .file programText.toUTF8)])]),
    ("hashes", .directory [("a.json", .file (Ledger.encode ⟨noon, kept⟩).toUTF8)])]

/-- The page of the program is current, the first page of the lesson is stale, and the second one is
missing. -/
def site : Node := .directory
  [("Course.html", .file "one".toUTF8), ("x", .directory [("Lesson_1.html", .file "old".toUTF8)])]

def start : FileTree where
  root := .directory
    [("first", templates "one"), ("home", .directory [(".coursebook", store)]), ("o", site)]

/-- Makes the site. -/
@[irreducible] def finish : FileAction SiteError SiteReport :=
  (making "a" "one").finish [(page, "one"), (firstPage, ""), (secondPage, "")] kept

@[irreducible] def made : FileTree := after finish start

def report : SiteReport :=
  ⟨"a", ⟨"o"⟩, [⟨.unchanged, page⟩, ⟨.written, firstPage⟩, ⟨.written, secondPage⟩]⟩

/-- The program and its templates are there, and the site is made from them. -/
theorem of_start : Store.load start ⟨"home"⟩ "a" = .ok program
    ∧ Library.readTexts start ⟨"first"⟩ = .ok [(programName, "one"), (pageName, "")]
    ∧ valueOf (finish start) = some report := by
  decide +kernel

/-- The ledger is there too, with the digests of two pages. -/
theorem holds_kept :
    start.Holds (Ledger.file ⟨"home"⟩ "a") (Ledger.encode ⟨noon, kept⟩) where
  located := eq_ok_of_toOption (by decide)
  noSlash := by decide
  file := rfl

/-- The run passes over the page that is current and writes the other two. -/
theorem run_start : run noon ⟨"home"⟩ (.program "a") (options "first") start
    = .ok [report] made := by
  obtain ⟨hprogram, htemplates, hfinish⟩ := of_start
  have hlibrary : Library.load start (options "first").templates = .ok (plainLibrary "one") :=
    load_plain htemplates (by decide)
  have hledger : Ledger.load noon start ⟨"home"⟩ "a" = .ok ⟨noon, kept⟩ :=
    load_of_holds noon holds_kept SharedDirectory.ofString?_noon
  have hfound : (making "a" "one").found? start = some (_, (Ledger.mk noon kept).digests) :=
    found?_eq hprogram (renderSite_plain "one" program ⟨"o"⟩) hledger
  have hmade : finish start = .ok report made := by
    unfold made
    exact eq_ok_of_valueOf hfinish
  unfold finish at hmade
  rw [run_program hlibrary]
  exact bind_ok ((perform_of_found? hfound).trans hmade)

/-- What the run does could have been foreseen. -/
theorem run_start_dryRun : run noon ⟨"home"⟩ (.program "a")
      { options "first" with dryRun := true } start
    = .ok [⟨"a", ⟨"o"⟩, [⟨.unchanged, page⟩, ⟨.wouldWrite, firstPage⟩, ⟨.wouldWrite, secondPage⟩]⟩]
      start := by
  refine (dryRun_foresees noon noon ⟨"home"⟩ "a" (options "first") start).2 _ _ run_start ?_ ?_
  · decide
  · unfold Apart Node.Beside
    decide

end PartlyCurrent

end Site

end Syllabus
