import Mathlib.Data.List.Nodup
import Syllabus.Proofs.Site.Previews
import Syllabus.Proofs.Site.SiteFiles
import Syllabus.Proofs.Template.BuiltInPages
import Syllabus.Proofs.Template.TemplateFiles

/-!
# Syllabus: runs again

When a run for a program has succeeded, its ledger has the digests of all its pages, and all of them
are there. So another run passes over every page and saves the same digests again, as long as it
finds the templates that the first one has found.

* **`saveLedger_again`**: saving a ledger again changes its file and nothing else.
* **`isCurrent_of_writePages`**: pages that have been written are current.
* **`perform_again`**, **`run_again`**: what the second run does.
-/

namespace Syllabus

open FileTree FileAction

variable {home : Path} {key : String} {tree later : FileTree}

/-- The report of a run that finds all pages as the reported one has left them. -/
def SiteReport.again (report : SiteReport) : SiteReport :=
  { report with writes := report.writes.map fun write => ⟨.unchanged, write.path⟩ }

/-- Nothing is written by such a run. -/
theorem written_again (report : SiteReport) : report.again.written = 0 := by
  simp [SiteReport.written, SiteReport.again]

/-! ## What is found again -/

/-- A program that is loaded is in its file. -/
theorem Store.exists_of_load {program : Program} (h : Store.load tree home key = .ok program) :
    ∃ content, tree.find (Store.programFile home key)
      = .ok ((Store.programFile home key).place tree.workingDirectory, .file content) := by
  unfold Store.load at h
  dsimp only at h
  split at h
  · unfold Store.readProgram at h
    split at h
    · cases h
    · next hread =>
      obtain ⟨content, hfind, _⟩ := exists_find_of_readText hread
      exact ⟨content, hfind⟩
  · cases h

/-- A program is loaded as before if its file was not changed. -/
theorem Store.load_of_changes {places : List String → Prop} {program : Program}
    (hchanges : Changes places tree later)
    (hplace : ¬ places ((Store.programFile home key).place tree.workingDirectory))
    (h : Store.load tree home key = .ok program) : Store.load later home key = .ok program := by
  obtain ⟨content, hfind⟩ := Store.exists_of_load h
  have hfind' := find_of_changes hchanges hfind hplace
  rw [← h]
  unfold Store.load Store.readProgram contains readText
  dsimp only
  rw [hfind, hfind']

namespace Ledger

/-- What each step of a fold keeps, the whole fold keeps. -/
theorem kept_of_foldlM {α β : Type} {f : β → α → Option β} (kept : β → Prop)
    (hstep : ∀ value item next, kept value → f value item = some next → kept next) {items : List α}
    {first last : β} (hfirst : kept first) (h : items.foldlM f first = some last) : kept last := by
  induction items generalizing first with
  | nil =>
    cases h
    exact hfirst
  | cons item items ih =>
    rw [List.foldlM_cons] at h
    obtain ⟨next, hnext, h⟩ := Option.bind_eq_some_iff.mp h
    exact ih (hstep first item next hfirst hnext) h

/-- There is no name in an empty table. -/
theorem nodup_empty : (Table.names ([] : Digests)).Nodup := List.nodup_nil

/-- No path has two digests in a table that is read. -/
theorem nodup_of_digests? {raw : Json.Raw} {digests : Digests} (h : digests? raw = some digests) :
    (Table.names digests).Nodup := by
  cases raw with
  | object entries =>
    refine kept_of_foldlM (fun table => (Table.names table).Nodup)
      (fun table entry next htable hnext => ?_) nodup_empty h
    obtain ⟨path, _, hnext⟩ := Option.bind_eq_some_iff.mp hnext
    obtain ⟨digest, _, hnext⟩ := Option.bind_eq_some_iff.mp hnext
    cases hnext
    exact Table.nodup_insert htable path digest
  | _ => cases h

/-- A ledger that is read back has one digest for each path. -/
theorem nodup_of_decode? {now : Instant} {text : String} {found : Ledger}
    (h : decode? now text = some found) : (Table.names found.digests).Nodup := by
  obtain ⟨raw, _, h⟩ := Option.bind_eq_some_iff.mp h
  obtain ⟨entries, _, h⟩ := Option.bind_eq_some_iff.mp h
  split at h
  · next syncedAt digests _ =>
    obtain ⟨_, _, h⟩ := Option.bind_eq_some_iff.mp h
    obtain ⟨table, htable, h⟩ := Option.bind_eq_some_iff.mp h
    cases h
    -- A ledger may lack its digests.
    cases digests with
    | none =>
      cases htable
      exact nodup_empty
    | some raw => exact nodup_of_digests? htable
  · cases h

theorem nodup_of_load {now : Instant} {found : Ledger} (h : load now tree home key = .ok found) :
    (Table.names found.digests).Nodup := by
  unfold load at h
  dsimp only at h
  split at h
  · cases h
    exact nodup_empty
  · -- A ledger that is missing is empty.
    split at h
    · cases h
    · split at h
      · next hdecode =>
        cases h
        exact nodup_of_decode? hdecode
      · cases h

end Ledger

/-! ## Saving a ledger again -/

/-- A path with an ending ends in a name. -/
theorem endsInName_of_suffix {ending : String} (hending : Path.IsEnding ending) {path : Path}
    (h : ending.toList <:+ path.text.toList) : endsInName path = true := by
  obtain ⟨before, last, hfields, hlast⟩ := Path.exists_fields hending h
  exact Path.endsInName_of_last hfields (Path.ne_of_ending hending hlast)

/-- The file with a text in it, where there is a file already. -/
def FileTree.rewritten (tree : FileTree) (path : Path) (text : String) : FileTree :=
  { tree with root := tree.root.set (.file text.toUTF8) (path.place tree.workingDirectory) }

/-- **Saving again.** A ledger that has been saved can be saved again, with whatever digests, and
nothing but its file changes. -/
theorem saveLedger_again {first second : Ledger} {value : Unit}
    (h : Ledger.save home key first tree = .ok value later) :
    Ledger.save home key second later
      = .ok () (later.rewritten (Ledger.file home key) second.encode) := by
  obtain ⟨hholds, _⟩ := holds_of_saveLedger h
  unfold Ledger.save at h ⊢
  cases hparent : (Ledger.file home key).parent? with
  | none =>
    simp only [hparent] at h
    cases h
  | some directory =>
    simp only [hparent] at h ⊢
    obtain ⟨_, created, hcreate, h⟩ := FileAction.exists_of_bind_eq_ok h
    obtain ⟨_, written, hwrite, h⟩ := FileAction.exists_of_bind_eq_ok h
    replace hwrite := eq_ok_of_change hwrite
    have hmove := renameFile_of_moveInto h
    obtain ⟨hlocate, hslash, hwritten, _⟩ := exists_of_writeFile hwrite
    obtain ⟨_, _, _, _, hmoved, _⟩ := exists_of_renameFile hmove
    have hworking := hmoved.workingDirectory.trans hwritten.workingDirectory
    -- All that saving needs is there, and the file that was moved is not in the way.
    have hmade := ((isMade_of_createDirectories hcreate).of_changes hwritten).of_changes hmoved
    have hgone := find?_source_of_renameFile hmove (place_ledger_ne_temporary _ home key)
    have hlocate' := hmoved.locate (hwritten.locate hlocate)
    rw [hwritten.workingDirectory, ← hworking] at hgone
    rw [← hworking] at hlocate'
    obtain ⟨between, hagain⟩ := exists_writeFile_of_missing hlocate' hgone hslash
      second.encode.toUTF8
    have hname := endsInName_of_suffix FileKind.ledger.isEnding_ending (suffix_ledger home key)
    have hreplace := renameFile_of_fresh hholds hname (fileAt_eq_none hgone) hagain
    exact (FileAction.bind_ok (createDirectories_of_isMade _ hmade)).trans
      ((FileAction.bind_ok (change_ok hagain)).trans (moveInto_ok hreplace))

namespace Site

/-! ## Pages that have been written -/

variable {pages : List (Path × String)} {digests digests' : Digests} {writes : List PageWrite}

/-- Pages that are current are passed over. -/
theorem writePages_of_current (dryRun : Bool)
    (h : ∀ page ∈ pages, IsCurrent page.1 page.2 digests tree) :
    writePages dryRun pages digests tree
      = .ok (pages.map fun page => ⟨.unchanged, page.1⟩, digests) tree := by
  induction pages with
  | nil => rfl
  | cons page rest ih =>
    obtain ⟨hpage, hrest⟩ := List.forall_mem_cons.mp h
    have hwrite := writePage_eq page.1 page.2 digests dryRun tree
    rw [if_pos hpage] at hwrite
    rw [writePages, FileAction.bind_ok hwrite]
    exact FileAction.bind_ok (ih hrest)

/-- Writing a page leaves something in the places of all pages where something was. -/
theorem contains_of_writePage {path other : Path} {content : String} {dryRun : Bool}
    {write : PageWrite} (hother : FileKind.page.Of (other.place tree.workingDirectory))
    (h : writePage path content digests dryRun tree = .ok (write, digests') later)
    (hthere : tree.contains other = true) : later.contains other = true := by
  cases writePage_ok h with
  | unchanged | wouldWrite => exact hthere
  | written hdry hholds hchanges =>
    refine contains_of_changes hchanges hthere fun hplace => ?_
    rcases hplace with hsame | htemporary
    · have hfile := hholds.file
      rw [hchanges.workingDirectory, ← hsame] at hfile
      exact ⟨_, hfile⟩
    · cases FileKind.eq_of_endsIn htemporary hother

/-- Writing a page does not change the working directory. -/
theorem workingDirectory_of_writePage {path : Path} {content : String} {dryRun : Bool}
    {write : PageWrite}
    (h : writePage path content digests dryRun tree = .ok (write, digests') later) :
    later.workingDirectory = tree.workingDirectory := by
  cases writePage_ok h with
  | unchanged | wouldWrite => rfl
  | written hdry hholds hchanges => exact hchanges.workingDirectory

/-- When pages have been written, something is in the places of all of them, and of all other pages
where something was. -/
theorem contains_of_writePages
    (hpages : ∀ page ∈ pages, FileKind.page.Of (page.1.place tree.workingDirectory))
    (h : writePages false pages digests tree = .ok (writes, digests') later) :
    (∀ other : Path, FileKind.page.Of (other.place tree.workingDirectory) →
      tree.contains other = true → later.contains other = true)
      ∧ ∀ page ∈ pages, later.contains page.1 = true := by
  -- On the pages: what is there stays there while the others are written.
  induction pages generalizing digests tree writes with
  | nil =>
    cases h
    exact ⟨fun _ _ hthere => hthere, nofun⟩
  | cons page rest ih =>
    obtain ⟨path, content⟩ := page
    obtain ⟨hpage, hrest⟩ := List.forall_mem_cons.mp hpages
    obtain ⟨write, between, middle, behind, hwrite, hwrites, _⟩ := exists_of_writePages_cons h
    have hworking := workingDirectory_of_writePage hwrite
    rw [← hworking] at hrest
    obtain ⟨hkept, hthere⟩ := ih hrest hwrites
    rw [hworking] at hkept
    refine ⟨fun other hother hbefore => hkept other hother (contains_of_writePage hother hwrite
      hbefore), List.forall_mem_cons.mpr ⟨hkept path hpage ?_, hthere⟩⟩
    have houtcome := pageOutcome path content digests false tree
    rw [hwrite] at houtcome
    -- A page that is passed over was there already.
    cases houtcome with
    | unchanged hcurrent => exact hcurrent.2
    | wouldWrite _ hdry => cases hdry
    | written =>
      cases writePage_ok hwrite with
      | written _ hholds => exact hholds.contains

/-- **Pages that have been written.** If no two of them have one path, all are current. -/
theorem isCurrent_of_writePages
    (hpages : ∀ page ∈ pages, FileKind.page.Of (page.1.place tree.workingDirectory))
    (hnodup : (pages.map (·.1)).Nodup)
    (h : writePages false pages digests tree = .ok (writes, digests') later) :
    ∀ page ∈ pages, IsCurrent page.1 page.2 digests' later := by
  intro page hpage
  refine ⟨?_, (contains_of_writePages hpages h).2 page hpage⟩
  have hlast : pages.findRev? (·.1 = page.1) = some page := by
    -- Each path is that of one page, so the last page of this path is this one.
    cases hfound : pages.findRev? (·.1 = page.1) with
    | none =>
      rw [findRev?_eq_none_iff] at hfound
      exact absurd (decide_eq_true rfl) (hfound page hpage)
    | some other =>
      have hsame := of_findRev? hfound
      rw [decide_eq_true_iff] at hsame
      rw [List.inj_on_of_nodup_map hnodup (mem_of_findRev? hfound) hpage hsame]
  rw [find?_of_rendered h, hlast]
  rfl

/-! ## Making a site again -/

/-- A site whose pages are all current is made without writing one. -/
theorem finish_of_current (making : Making) (hdry : making.dryRun = false)
    (hcurrent : ∀ page ∈ pages, IsCurrent page.1 page.2 digests tree)
    (hsave : Ledger.save making.home making.key ⟨making.now, digests⟩ tree = .ok () later) :
    making.finish pages digests tree
      = .ok ⟨making.key, making.site, pages.map fun page => ⟨.unchanged, page.1⟩⟩ later := by
  have hwrite := writePages_of_current making.dryRun hcurrent
  unfold Making.finish
  rw [FileAction.bind_ok hwrite]
  simp only [hdry]
  exact FileAction.bind_ok (adaptExcept_ok hsave)

/-- Making a site leaves the programs as they are. -/
theorem load_of_perform {making : Making} {report : SiteReport} {program : Program}
    (h : making.perform tree = .ok report later) (hload : Store.load tree home key = .ok program) :
    Store.load later home key = .ok program := by
  have hchanges := changes_perform making tree
  rw [after_of_ok h] at hchanges
  refine Store.load_of_changes hchanges ?_ hload
  have hfile := of_programFile tree.workingDirectory (Store.programDirectory home key)
  rintro (hpage | hledger)
  · exact hfile.not_or (by decide) hpage
  · have hkind := of_ledger tree.workingDirectory making.home making.key
    rw [← show _ = (Ledger.file making.home making.key).place _ from hledger] at hkind
    cases FileKind.eq_of_endsIn hkind hfile

/-- Saving the ledger takes away no page. -/
theorem isCurrent_of_saveLedger {path : Path} {content : String} {ledger : Ledger} {value : Unit}
    (hpage : FileKind.page.Of (path.place tree.workingDirectory))
    (hcurrent : IsCurrent path content digests tree)
    (h : Ledger.save home key ledger tree = .ok value later) :
    IsCurrent path content digests later := by
  obtain ⟨_, hsaved⟩ := holds_of_saveLedger h
  obtain ⟨hdigest, hthere⟩ := hcurrent
  refine ⟨hdigest, contains_of_changes hsaved hthere fun hplace => ?_⟩
  rcases hplace with hledger | htemporary
  · rw [hledger] at hpage
    cases FileKind.eq_of_endsIn hpage (of_ledger _ _ _)
  · cases FileKind.eq_of_endsIn hpage htemporary

/-- The digests that were saved last are loaded. -/
theorem load_of_saveLedger {syncedAt : Instant} {value : Unit} (now : Instant)
    (hinstant : Instant.ofString? syncedAt.text ≠ none) (hnodup : (Table.names digests).Nodup)
    (h : Ledger.save home key ⟨syncedAt, digests⟩ tree = .ok value later) :
    ∃ found, Ledger.load now later home key = .ok found ∧ found.digests = digests := by
  obtain ⟨readAt, hreadAt⟩ := Option.ne_none_iff_exists'.mp hinstant
  exact ⟨_, load_of_holds now (holds_of_saveLedger h).1 hreadAt, Table.insertAll_of_nodup hnodup⟩

/-- **One site again.** A making finds the program, the pages and the digests that the one before
has left, passes over all pages, and saves the same digests. -/
theorem perform_again {making : Making} {report : SiteReport} (hdry : making.dryRun = false)
    (h : making.perform tree = .ok report later) (hnodup : (report.writes.map (·.path)).Nodup)
    (hinstant : Instant.ofString? making.now.text ≠ none) (now : Instant) :
    ∃ digests,
      later.Holds (Ledger.file making.home making.key) (Ledger.encode ⟨making.now, digests⟩)
      ∧ Making.perform { making with now } later = .ok report.again
        (later.rewritten (Ledger.file making.home making.key) (Ledger.encode ⟨now, digests⟩)) := by
  obtain ⟨pages, first, digests, writes, between, hfound, hwrite, hsave, rfl⟩ :=
    exists_of_perform hdry h
  obtain ⟨⟨program, hprogram, hpages⟩, found, hload, rfl⟩ := exists_of_found? hfound
  have hpaths := paths_of_writePages hwrite
  have hkind (start : List String) : ∀ page ∈ pages, FileKind.page.Of (page.1.place start) :=
    fun page hpage => of_page start hpages hpage
  refine ⟨digests, (holds_of_saveLedger hsave).1, ?_⟩
  obtain ⟨again, hagain, hdigests⟩ := load_of_saveLedger now hinstant
    (nodup_of_writePages hwrite (Ledger.nodup_of_load hload)) hsave
  have hfound' : Making.found? { making with now } later = some (pages, again.digests) :=
    @found?_eq { making with now } later pages program _ (load_of_perform h hprogram) hpages hagain
  rw [hdigests] at hfound'
  -- Nothing has changed the pages or their digests since the first run.
  have hcurrent : ∀ page ∈ pages, IsCurrent page.1 page.2 digests later := by
    intro page hpage
    have hwritten := isCurrent_of_writePages (hkind _) (hpaths ▸ hnodup) hwrite page hpage
    exact isCurrent_of_saveLedger (hkind _ page hpage) hwritten hsave
  have hwrites : (pages.map fun page => (⟨.unchanged, page.1⟩ : PageWrite))
      = writes.map fun write => ⟨.unchanged, write.path⟩ := by
    have hmap := congrArg (List.map (PageWrite.mk .unchanged)) hpaths
    rw [List.map_map, List.map_map] at hmap
    exact hmap.symm
  have hfinish := finish_of_current { making with now } hdry hcurrent (saveLedger_again hsave)
  rw [hwrites] at hfinish
  exact (perform_of_found? hfound').trans hfinish

/-! ## Runs again -/

/-- Files of sites are no templates. -/
theorem passesOver_of_siteOperation {operation : Operation} (h : SiteOperation operation) :
    operation.PassesOver Template.Library.isTemplateFile := by
  have hother : ∀ ending ∈ siteEndings,
      ¬ ending.toList <:+ ".tpl".toList ∧ ¬ ".tpl".toList <:+ ending.toList := by decide
  intro path hpath
  obtain ⟨ending, hending, hsuffix⟩ := h path hpath
  exact ⟨ending, isEnding_of_mem ending hending, hsuffix, fun name hname =>
    Template.Library.isTemplateFile_eq_false (isEnding_of_mem ending hending)
      (hother ending hending) hname⟩

/-- **Runs again.** A run for a program has succeeded in a tree whose directories repeat no names,
and no two of its pages have one path. Then a second run with the same options succeeds as well. It
reports of each page, in the same order, that it is unchanged, and changes nothing but the file of
the ledger, which gets another time and keeps its digests. Only the path to the templates must not
be made to lead to something else than a new directory by the first run. -/
theorem run_again {now : Instant} {options : SiteOptions} {reports : List SiteReport}
    (hdry : options.dryRun = false) (hdistinct : tree.Distinct)
    (h : run now home (.program key) options tree = .ok reports later)
    (hnodup : ∀ report ∈ reports, (report.writes.map (·.path)).Nodup)
    (hinstant : Instant.ofString? now.text ≠ none)
    (hstay : ∀ directory ∈ options.templates,
      Template.Library.TemplatesStay tree later directory) (now' : Instant) :
    ∃ digests, later.Holds (Ledger.file home key) (Ledger.encode ⟨now, digests⟩)
      ∧ run now' home (.program key) options later = .ok (reports.map SiteReport.again)
        (later.rewritten (Ledger.file home key) (Ledger.encode ⟨now', digests⟩))
      ∧ ∀ report ∈ reports, report.again.written = 0 := by
  have hperforms := does_run now home (.program key) options tree
  rw [after_of_ok h] at hperforms
  -- The templates are the same for both runs.
  cases hlibrary : Template.Library.load tree options.templates with
  | error e =>
    rw [run_error hlibrary] at h
    cases h
  | ok library =>
    have hlater := Template.Library.load_of_performs hperforms hdistinct
      (fun _ => passesOver_of_siteOperation) hstay hlibrary
    rw [run_program hlibrary] at h
    rw [run_program hlater]
    obtain ⟨report, between, hperform, h⟩ := FileAction.exists_of_bind_eq_ok h
    cases h
    obtain ⟨digests, hholds, hagain⟩ := perform_again hdry hperform
      (hnodup _ (List.mem_singleton_self report)) hinstant now'
    exact ⟨digests, hholds, bind_ok hagain, fun report _ => written_again report⟩

namespace PartlyCurrent

open SharedDirectory (noon options page templates)

/-- No directory of the tree has a name twice. -/
theorem distinct_start : start.Distinct := by
  have hfile (name : String) (content : ByteArray) :
      (Node.directory [(name, .file content)]).Distinct :=
    .of_entries (by simp [Table.names]) (by simp [Node.distinct_file])
  have htemplates : (templates "one").Distinct :=
    .of_entries (by decide) (by simp [Node.distinct_file])
  have hprograms : (Node.directory
      [("a", .directory [("program.yaml", .file programText.toUTF8)])]).Distinct :=
    .of_entries (by decide) (by simpa using hfile _ _)
  have hstore : store.Distinct := .of_entries (by decide) (by simpa using ⟨hprograms, hfile _ _⟩)
  have hhome : (Node.directory [(".coursebook", store)]).Distinct :=
    .of_entries (by decide) (by simpa using hstore)
  have hsite : site.Distinct :=
    .of_entries (by decide) (by simpa using ⟨Node.distinct_file _, hfile _ _⟩)
  exact .of_entries (by decide) (by simp [htemplates, hhome, hsite])

/-- The instant of the first run can be read back. -/
theorem readable_noon : Instant.ofString? noon.text ≠ none :=
  Option.ne_none_iff_exists'.mpr ⟨noon, SharedDirectory.ofString?_noon⟩

def evening : Instant := ⟨noon.date, 64800, 0⟩

/-- The run once more passes over all three pages. -/
theorem run_start_again : ∃ digests,
    made.Holds (Ledger.file ⟨"home"⟩ "a") (Ledger.encode ⟨noon, digests⟩)
      ∧ run evening ⟨"home"⟩ (.program "a") (options "first") made
        = .ok [⟨"a", ⟨"o"⟩,
            [⟨.unchanged, page⟩, ⟨.unchanged, firstPage⟩, ⟨.unchanged, secondPage⟩]⟩]
          (made.rewritten (Ledger.file ⟨"home"⟩ "a") (Ledger.encode ⟨evening, digests⟩)) := by
  have hthere : start.contains ⟨"first"⟩ = true := by decide
  have hnodup : ∀ made ∈ [report], (made.writes.map (·.path)).Nodup := by decide
  obtain ⟨digests, hholds, hagain, _⟩ := run_again rfl distinct_start run_start hnodup readable_noon
    (fun directory hdirectory hmissing => by
      cases hdirectory
      rw [hthere] at hmissing
      cases hmissing) evening
  exact ⟨digests, hholds, hagain⟩

end PartlyCurrent

/-! ## A page in place of the templates -/

namespace PageForTemplates

open Template

/-- A program without courses. -/
def program : Program where
  name := "K"

def start : FileTree where
  root := .directory [("home", .directory [(".coursebook", .directory [("programs",
    .directory [("k", SharedDirectory.program "K")])])])]

def page : Path := ⟨"o/Course.html"⟩

/-- The templates are looked for where the page of the program is written to. -/
def options : SiteOptions where
  out := some ⟨"o"⟩
  templates := some page

/-- Makes the site with the built-in templates. -/
@[irreducible] def finish : FileAction SiteError SiteReport :=
  Making.finish ⟨{}, SharedDirectory.noon, ⟨"home"⟩, "k", ⟨"o"⟩, false⟩
    (builtInPages program ⟨"o"⟩) []

@[irreducible] def made : FileTree := after finish start

/-- There is neither a page nor a ledger at the start, and the page is written. -/
theorem of_start : Store.load start ⟨"home"⟩ "k" = .ok program
    ∧ start.contains page = false
    ∧ start.contains (Ledger.file ⟨"home"⟩ "k") = false
    ∧ valueOf (finish start) = some ⟨"k", ⟨"o"⟩, [⟨.written, page⟩]⟩ := by
  decide +kernel

/-- After the run there is a file where the templates should be. -/
theorem readTexts_made :
    Library.readTexts made page = .error (.unreadable page .notADirectory) := by
  decide +kernel

/-- The run makes the page. -/
theorem run_start : run SharedDirectory.noon ⟨"home"⟩ (.program "k") options start
    = .ok [⟨"k", ⟨"o"⟩, [⟨.written, page⟩]⟩] made := by
  obtain ⟨hprogram, hmissing, hledger, hfinish⟩ := of_start
  obtain ⟨library, hload, hrender⟩ := exists_builtIn
  have htemplates : Library.load start options.templates = .ok library := by
    have hread : Library.readTexts start page = .ok [] := Library.readTexts_of_missing hmissing
    rw [← hload start]
    show (Library.readTexts start page >>= _) = _
    rw [hread]
    rfl
  have hfound := @found?_eq ⟨library, SharedDirectory.noon, ⟨"home"⟩, "k", ⟨"o"⟩, false⟩ start _
    program _ hprogram (hrender program ⟨"o"⟩) (load_of_missing _ hledger)
  have hmade : finish start = .ok ⟨"k", ⟨"o"⟩, [⟨.written, page⟩]⟩ made := by
    unfold made
    exact eq_ok_of_valueOf hfinish
  unfold finish at hmade
  rw [run_program htemplates]
  exact bind_ok ((perform_of_found? hfound).trans hmade)

/-- No directory of the tree has a name twice. -/
theorem distinct_start : start.Distinct := by
  have hprogram : (SharedDirectory.program "K").Distinct :=
    .of_entries (by simp [Table.names]) (by simp [Node.distinct_file])
  have hprograms : (Node.directory [("k", SharedDirectory.program "K")]).Distinct :=
    .of_entries (by decide) (by simpa using hprogram)
  have hstore : (Node.directory [("programs",
      .directory [("k", SharedDirectory.program "K")])]).Distinct :=
    .of_entries (by decide) (by simpa using hprograms)
  have hhome : (Node.directory [(".coursebook", .directory [("programs",
      .directory [("k", SharedDirectory.program "K")])])]).Distinct :=
    .of_entries (by decide) (by simpa using hstore)
  exact .of_entries (by decide) (by simpa using hhome)

/-- The first run finds no templates and writes the page. To the second one this is something that
templates cannot be read from. -/
theorem not_run_again : ∃ reports later,
    run SharedDirectory.noon ⟨"home"⟩ (.program "k") options start = .ok reports later
      ∧ start.Distinct
      ∧ (∀ report ∈ reports, (report.writes.map (·.path)).Nodup)
      ∧ Instant.ofString? SharedDirectory.noon.text ≠ none
      ∧ ∀ now, run now ⟨"home"⟩ (.program "k") options later
        = .error (.render (.unreadable page .notADirectory)) later := by
  refine ⟨_, made, run_start, distinct_start, by simp, PartlyCurrent.readable_noon, fun now => ?_⟩
  have hload : Library.load made options.templates = .error (.unreadable page .notADirectory) := by
    show (Library.readTexts made page >>= _) = _
    rw [readTexts_made]
    rfl
  exact run_error hload now ⟨"home"⟩ (.program "k")

end PageForTemplates

end Site

end Syllabus
