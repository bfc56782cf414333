import Syllabus.Proofs.Site.PageWrites

/-!
# Syllabus: what making sites writes

Making a site writes the pages of the program that is stored and its ledger, each through a
temporary file of its own, and nothing else. All these files can be told by the endings of their
names, whatever the programs and the directories are.

* **`performs_run_program`**: the operations that make the site of one program.
* **`does_run`**, **`keeps_run`**: a run, whether it succeeds or fails.
-/

namespace Syllabus

open FileAction Template.Library

variable {start : List String}

/-! ## The operations that make a site -/

/-- The operations that save a ledger. -/
def Ledger.saving (home : Path) (key : String) : Operation → Prop :=
  Replacing (Ledger.file home key).parent?.toList ((Ledger.file home key).withExtension "json.tmp")
    (Ledger.file home key)

/-- Saving a ledger only puts its file in place. -/
theorem does_saveLedger (home : Path) (key : String) (ledger : Ledger) :
    Does (Ledger.saving home key) (Ledger.save home key ledger) := by
  unfold Ledger.save
  dsimp only
  split
  · exact .throw _
  · next directory hparent =>
    have hdirectory : directory ∈ (Ledger.file home key).parent?.toList := by
      rw [hparent]
      exact List.mem_singleton_self directory
    refine .bind (.createAround _ hdirectory) fun _ => .bind (.writeFile _ (.write _)) fun _ => ?_
    exact .moveInto _ .move .remove

namespace Site

/-- The operations that write pages, and those that save the ledger. -/
inductive MakeOperation (paths : List Path) (home : Path) (key : String) (operation : Operation) :
    Prop where
  | page {path : Path} (hpath : path ∈ paths) (h : writing path operation)
  | ledger (h : Ledger.saving home key operation)

/-- Writing pages only puts the pages in place. -/
theorem does_writePages {allowed : Operation → Prop} {pages : List (Path × String)}
    (h : ∀ page ∈ pages, ∀ operation, writing page.1 operation → allowed operation)
    (digests : Digests) (dryRun : Bool) : Does allowed (writePages dryRun pages digests) := by
  -- On the pages.
  induction pages generalizing digests with
  | nil => exact .pure _
  | cons page rest ih =>
    obtain ⟨hpage, hrest⟩ := List.forall_mem_cons.mp h
    have hwrite := (does_writePage page.1 page.2 digests dryRun).mono hpage
    exact .bind hwrite fun _ => .bind (ih hrest _) fun _ => .pure _

/-- What follows a look at the tree goes on with what has been found. -/
theorem performs_lift_bind {ε α β : Type} {allowed : Operation → Prop} {wrap : ε → SiteError}
    {f : FileTree → Except ε α} {next : α → FileAction SiteError β} {tree : FileTree}
    (h : ∀ value, f tree = .ok value → Performs allowed tree (after (next value) tree)) :
    Performs allowed tree (after (lift wrap f >>= next) tree) := by
  cases hfound : f tree with
  | error e =>
    have hlift : lift wrap f tree = .error (wrap e) tree := by
      unfold lift
      rw [hfound]
    rw [after_bind_of_error hlift]
    exact .refl tree
  | ok value =>
    have hlift : lift wrap f tree = .ok value tree := by
      unfold lift
      rw [hfound]
    rw [after_bind_of_ok hlift]
    exact h value hfound

/-- **The operations that make a site.** Nothing is done unless the program is stored. -/
theorem performs_makeWith (library : Template.Library) (now : Instant) (home : Path) (key : String)
    (site : Path) (dryRun : Bool) (tree : FileTree) :
    Performs (fun operation => ∃ program, Store.load tree home key = .ok program
      ∧ MakeOperation (sitePaths site program) home key operation) tree
      (after (makeWith library now home key site dryRun) tree) := by
  -- What is loaded and rendered changes nothing; only the pages and the ledger are written.
  refine performs_lift_bind fun program hload => performs_lift_bind fun pages hpages =>
    performs_lift_bind fun ledger _ => ?_
  have hdoes {value : List PageWrite × Digests → SiteReport} :
      Does (MakeOperation (sitePaths site program) home key) (do
        let written ← writePages dryRun pages ledger.digests
        if !dryRun then
          (Ledger.save home key { syncedAt := now, digests := written.2 }).adaptExcept .ofLedger
        return value written) := by
    refine .bind (does_writePages (fun page hpage operation h => ?_) _ _) fun written => ?_
    · refine .page ?_ h
      rw [← paths_of_renderSite hpages]
      exact List.mem_map_of_mem hpage
    · have hsave : Does (MakeOperation (sitePaths site program) home key)
          (Ledger.save home key { syncedAt := now, digests := written.2 }) :=
        (does_saveLedger home key _).mono fun _ => .ledger
      dsimp only
      split
      · exact .bind (hsave.adaptExcept _) fun _ => .pure _
      · exact .pure _
  exact (hdoes tree).mono fun operation h => ⟨program, hload, h⟩

/-- A run for one program makes its site. -/
theorem performs_run_program (now : Instant) (home : Path) (key : String) (options : SiteOptions)
    (tree : FileTree) :
    Performs (fun operation => ∃ program, Store.load tree home key = .ok program
      ∧ MakeOperation (sitePaths (options.out.getD (Store.siteDirectory home key)) program) home key
        operation) tree (after (run now home (.program key) options) tree) := by
  have hmake : after (run now home (.program key) options) tree
      = after (make now home key options) tree :=
    after_bind_pure (make now home key options) ([·]) tree
  rw [hmake]
  exact performs_lift_bind fun library _ => performs_makeWith library now home key _ _ tree

end Site

/-! ## The files of sites -/

/-- The endings of the names of pages, of ledgers, and of the files that are moved over them. -/
def siteEndings : List String := [".html", ".coursebook.tmp", ".json", "json.tmp"]

/-- Whether a place is that of a page, of a ledger, or of a file that is moved over one. -/
def SiteFile (place : List String) : Prop := ∃ ending ∈ siteEndings, Path.EndsIn ending place

/-- The endings of site files stay in the directory. -/
theorem isEnding_of_mem : ∀ ending ∈ siteEndings, Path.IsEnding ending := by
  simp only [siteEndings, List.forall_mem_cons]
  exact ⟨⟨by decide, by decide, by decide⟩, ⟨by decide, by decide, by decide⟩,
    ⟨by decide, by decide, by decide⟩, ⟨by decide, by decide, by decide⟩, nofun⟩

/-- A path with such an ending leads to a site file. -/
theorem siteFile_of_suffix {ending : String} (hending : ending ∈ siteEndings) {path : Path}
    (h : ending.toList <:+ path.text.toList) (start : List String) : SiteFile (path.place start) :=
  ⟨ending, hending, Path.endsIn_place (isEnding_of_mem ending hending) h start⟩

/-- Whether only files of sites are changed. -/
def SiteOperation (operation : Operation) : Prop :=
  ∀ path ∈ operation.files, ∃ ending ∈ siteEndings, ending.toList <:+ path.text.toList

/-- Making a site touches only site files. -/
theorem siteOperation_of_making {site : Path} {program : Program} {home : Path} {key : String}
    {operation : Operation} (h : Site.MakeOperation (sitePaths site program) home key operation) :
    SiteOperation operation := by
  intro path hpath
  -- The files of a page have one of two endings, and those of the ledger have the others.
  cases h with
  | @page page hpage hwriting =>
    rcases hwriting.mem_files hpath with htemporary | hsame
    · refine ⟨".coursebook.tmp", by decide, ?_⟩
      rw [htemporary, Site.temporaryPath, String.toList_append]
      exact List.suffix_append _ _
    · rw [hsame]
      exact ⟨".html", by decide, suffix_sitePath hpage⟩
  | ledger hsaving =>
    rcases hsaving.mem_files hpath with htemporary | hsame
    · rw [htemporary]
      exact ⟨"json.tmp", by decide, Path.suffix_withExtension FileKind.ledger.isEnding_ending
        (suffix_ledger home key) "json.tmp"⟩
    · rw [hsame]
      exact ⟨".json", by decide, suffix_ledger home key⟩

/-! ## Runs -/

theorem does_makeWith (library : Template.Library) (now : Instant) (home : Path) (key : String)
    (site : Path) (dryRun : Bool) :
    Does SiteOperation (Site.makeWith library now home key site dryRun) := by
  intro tree
  refine (Site.performs_makeWith library now home key site dryRun tree).mono fun operation h => ?_
  obtain ⟨program, _, hmaking⟩ := h
  exact siteOperation_of_making hmaking

theorem does_makeEach (library : Template.Library) (now : Instant) (home : Path)
    (options : SiteOptions) (keys : List String) :
    Does SiteOperation (Site.makeEach library now home options keys) := by
  induction keys with
  | nil => exact .pure _
  | cons key rest ih => exact .bind (does_makeWith _ _ _ _ _ _) fun _ => .bind ih fun _ => .pure _

/-- A run touches only site files. -/
theorem does_run (now : Instant) (home : Path) (scope : Scope) (options : SiteOptions) :
    Does SiteOperation (Site.run now home scope options) := by
  intro tree
  cases scope with
  | all =>
    exact Site.performs_lift_bind fun library _ => Site.performs_lift_bind fun programs _ =>
      does_makeEach library now home options _ tree
  | program key =>
    refine (Site.performs_run_program now home key options tree).mono fun operation h => ?_
    obtain ⟨program, _, hmaking⟩ := h
    exact siteOperation_of_making hmaking

/-- **What a run writes.** Pages and ledgers, whether it succeeds or fails. -/
theorem keeps_run (now : Instant) (home : Path) (scope : Scope) (options : SiteOptions) :
    Keeps start SiteFile (Site.run now home scope options) := by
  refine (does_run now home scope options).keeps fun operation hoperation path hpath => ?_
  obtain ⟨ending, hending, hsuffix⟩ := hoperation path hpath
  exact siteFile_of_suffix hending hsuffix start

end Syllabus
