import Syllabus.Proofs.Site.Making

/-!
# Syllabus: histories of sites

Programs are stored and sites are made from them, in any order, successfully or not. All pages that
are moved into place on the way make up one log, and every step keeps the pages and the ledgers as
the log has them.

* **`run_eq`**: a run makes its sites in order.
* **`Kept.foldl`**: the pages and a ledger after any steps.
-/

namespace Syllabus.Site

open FileTree FileAction

/-! ## Runs -/

/-- Makes sites in order, up to the first that fails. -/
def performAll : List Making → FileAction SiteError (List SiteReport)
  | [] => return []
  | making :: rest => do
    let report ← making.perform
    let reports ← performAll rest
    return report :: reports

/-- What all makings yield when sites are made in order, up to the first that fails. -/
def gather {α : Type} (yield : Making → FileTree → List α) : List Making → FileTree → List α
  | [], _ => []
  | making :: rest, tree =>
    match making.perform tree with
    | .ok _ later => yield making tree ++ gather yield rest later
    | .error _ _ => yield making tree

/-- The making of a site among those of several programs. -/
def makingAmong (library : Template.Library) (now : Instant) (home : Path) (options : SiteOptions)
    (key : String) : Making where
  library
  now
  home
  key
  site := match options.out with
    | some out => out / key
    | none => Store.siteDirectory home key
  dryRun := options.dryRun

/-- The sites that a run sets out to make. -/
def makings (now : Instant) (home : Path) (scope : Scope) (options : SiteOptions)
    (tree : FileTree) : List Making :=
  match Template.Library.load tree options.templates with
  | .error _ => []
  | .ok library =>
    match scope with
    | .program key =>
      [⟨library, now, home, key, options.out.getD (Store.siteDirectory home key), options.dryRun⟩]
    | .all =>
      match Store.list tree home with
      | .error _ => []
      | .ok programs => (programs.map (·.1)).map (makingAmong library now home options)

/-- Making the sites of programs is performing the makings one after the other. -/
theorem makeEach_eq (library : Template.Library) (now : Instant) (home : Path)
    (options : SiteOptions) (keys : List String) :
    makeEach library now home options keys
      = performAll (keys.map (makingAmong library now home options)) := by
  induction keys with
  | nil => rfl
  | cons key rest ih =>
    rw [makeEach, ih]
    rfl

section Library

variable {options : SiteOptions} {tree : FileTree}

/-- Templates that cannot be loaded are an error of rendering. -/
theorem loadLibrary_error {e : Template.LibraryError}
    (h : Template.Library.load tree options.templates = .error e) :
    loadLibrary options tree = .error (.render e) tree := by
  unfold loadLibrary lift
  simp only [h]

/-- Loading templates does not change the tree. -/
theorem loadLibrary_ok {library : Template.Library}
    (h : Template.Library.load tree options.templates = .ok library) :
    loadLibrary options tree = .ok library tree := by
  unfold loadLibrary lift
  simp only [h]

/-- The templates are read first; without them nothing is made. -/
theorem make_error {e : Template.LibraryError}
    (h : Template.Library.load tree options.templates = .error e) (now : Instant) (home : Path)
    (key : String) : make now home key options tree = .error (.render e) tree :=
  bind_error (loadLibrary_error h)

theorem make_ok {library : Template.Library}
    (h : Template.Library.load tree options.templates = .ok library) (now : Instant) (home : Path)
    (key : String) :
    make now home key options tree = Making.perform
      ⟨library, now, home, key, options.out.getD (Store.siteDirectory home key),
        options.dryRun⟩ tree :=
  bind_ok (loadLibrary_ok h)

theorem run_error {e : Template.LibraryError}
    (h : Template.Library.load tree options.templates = .error e) (now : Instant) (home : Path)
    (scope : Scope) : run now home scope options tree = .error (.render e) tree := by
  have hload := loadLibrary_error h
  -- Either way the templates are read before anything else.
  cases scope with
  | all => exact bind_error hload
  | program key => exact bind_error (make_error h now home key)

/-- A run for one program makes its site. -/
theorem run_program {library : Template.Library}
    (h : Template.Library.load tree options.templates = .ok library) (now : Instant) (home : Path)
    (key : String) :
    run now home (.program key) options tree = performAll
      [⟨library, now, home, key, options.out.getD (Store.siteDirectory home key),
        options.dryRun⟩] tree := by
  have hmake := make_ok h now home key
  -- A run for one program gives its one report as a list.
  show (make now home key options >>= fun report => pure [report]) tree = _
  cases hresult : make now home key options tree with
  | error e later =>
    rw [bind_error hresult]
    exact (bind_error (hmake.symm.trans hresult)).symm
  | ok report later =>
    rw [bind_ok hresult]
    -- Behind this making there are no others to perform.
    refine Eq.trans ?_ (bind_ok (hmake.symm.trans hresult)).symm
    rfl

end Library

/-- A run fails before it changes anything, or it makes its sites in order. -/
theorem run_eq (now : Instant) (home : Path) (scope : Scope) (options : SiteOptions)
    (tree : FileTree) :
    (∃ e, makings now home scope options tree = []
        ∧ run now home scope options tree = .error e tree)
      ∨ run now home scope options tree
        = performAll (makings now home scope options tree) tree := by
  unfold makings
  -- Without templates there is nothing to make, whichever programs are asked for.
  cases hlibrary : Template.Library.load tree options.templates with
  | error e => exact .inl ⟨.render e, rfl, run_error hlibrary now home scope⟩
  | ok library =>
    cases scope with
    | program key => exact .inr (run_program hlibrary now home key)
    | all =>
      -- A store that cannot be listed is the last thing that can fail before the first site.
      have hmake : makeAll now home options tree = _ :=
        (bind_ok (loadLibrary_ok hlibrary)).trans (lift_bind ..)
      cases hlist : Store.list tree home with
      | error e =>
        rw [hlist] at hmake
        exact .inl ⟨.store e, rfl, hmake⟩
      | ok programs =>
        rw [hlist] at hmake
        refine .inr (hmake.trans ?_)
        rw [← makeEach_eq]

section Cons

variable {making : Making} {rest : List Making} {tree later : FileTree}

/-- A making that succeeds yields, and then the others do. -/
theorem gather_cons_of_ok {α : Type} (yield : Making → FileTree → List α) {report : SiteReport}
    (h : making.perform tree = .ok report later) :
    gather yield (making :: rest) tree = yield making tree ++ gather yield rest later := by
  show (match making.perform tree with
    | .ok _ later => _
    | .error _ _ => _) = _
  rw [h]

/-- A making that fails is the last that yields. -/
theorem gather_cons_of_error {α : Type} (yield : Making → FileTree → List α) {e : SiteError}
    (h : making.perform tree = .error e later) :
    gather yield (making :: rest) tree = yield making tree := by
  show (match making.perform tree with
    | .ok _ later => _
    | .error _ _ => _) = _
  rw [h]

theorem after_performAll_cons_of_ok {report : SiteReport}
    (h : making.perform tree = .ok report later) :
    after (performAll (making :: rest)) tree = after (performAll rest) later :=
  (after_bind_of_ok h).trans (after_bind_pure _ (fun reports => report :: reports) later)

end Cons

section Gather

variable {α : Type} {yield : Making → FileTree → List α} {kept : List α → FileTree → Prop}
  {log : List α} {tree : FileTree}

/-- What each making keeps, with what it yields put behind a log, makings in order keep. -/
theorem kept_performAll
    (hperform : ∀ {log tree}, kept log tree → ∀ making : Making,
      kept (log ++ yield making tree) (after making.perform tree))
    (h : kept log tree) (makings : List Making) :
    kept (log ++ gather yield makings tree) (after (performAll makings) tree) := by
  -- On the makings, up to one that fails: what it yields is the last that goes to the log.
  induction makings generalizing log tree with
  | nil =>
    show kept (log ++ []) tree
    rw [List.append_nil]
    exact h
  | cons making rest ih =>
    -- What the first making leaves is where the next one starts.
    have hfirst := hperform h making
    cases hresult : making.perform tree with
    | error e later =>
      rw [after_of_error hresult] at hfirst
      rw [gather_cons_of_error _ hresult,
        show after (performAll (making :: rest)) tree = later from after_bind_of_error hresult]
      exact hfirst
    | ok report later =>
      rw [after_of_ok hresult] at hfirst
      rw [gather_cons_of_ok _ hresult, after_performAll_cons_of_ok hresult, ← List.append_assoc]
      exact ih hfirst

/-- And so does a run. -/
theorem kept_run
    (hperform : ∀ {log tree}, kept log tree → ∀ making : Making,
      kept (log ++ yield making tree) (after making.perform tree))
    (h : kept log tree) (now : Instant) (home : Path) (scope : Scope) (options : SiteOptions) :
    kept (log ++ gather yield (makings now home scope options tree) tree)
      (after (run now home scope options) tree) := by
  -- A run that comes to nothing yields nothing and changes nothing.
  rcases run_eq now home scope options tree with ⟨e, hnone, hrun⟩ | hrun
  · rw [hnone, after_of_error hrun]
    show kept (log ++ []) tree
    rw [List.append_nil]
    exact h
  · unfold after
    rw [hrun]
    exact kept_performAll hperform h _

end Gather

namespace Kept

variable {start ledger : List String} {log : List PageEvent} {tree : FileTree}

theorem run (hledger : FileKind.ledger.Of ledger) (h : Kept start ledger log tree) (now : Instant)
    (home : Path) (scope : Scope) (options : SiteOptions) :
    Kept start ledger (log ++ gather Making.events (makings now home scope options tree) tree)
      (after (Site.run now home scope options) tree) :=
  kept_run (fun h making => h.perform hledger making) h now home scope options

/-- Storing programs touches neither pages nor ledgers. -/
theorem of_storeFile {later : FileTree} (hledger : FileKind.ledger.Of ledger)
    (h : Kept start ledger log tree) (hchanges : Changes StoreFile tree later) :
    Kept start ledger log later where
  -- Neither the file of a program nor the one moved over it is a page.
  pages := h.pages.of_changes hchanges fun _ hplace hpage => hpage.not_or (by decide) hplace
  ledgerKept := h.ledgerKept.of_same (hchanges.files ledger (hledger.not_or (by decide)))
    fun _ => rfl

end Kept

/-! ## Histories -/

/-- A step of a history. -/
inductive Step where
  | save (home : Path) (key : String) (program : Program)
  | upsert (home : Path) (key : String) (course : Course)
  | run (now : Instant) (home : Path) (scope : Scope) (options : SiteOptions)

namespace Step

/-- What a step makes of a tree, whether it succeeds or fails. -/
def apply (tree : FileTree) : Step → FileTree
  | save home key program => after (Store.save home key program) tree
  | upsert home key course => after (Store.upsert home key course) tree
  | run now home scope options => after (Site.run now home scope options) tree

/-- The pages that a step moves into place. -/
def events (tree : FileTree) : Step → List PageEvent
  | save .. | upsert .. => []
  | run now home scope options => gather Making.events (makings now home scope options tree) tree

end Step

/-- The tree after some steps. -/
def treeAfter (steps : List Step) (tree : FileTree) : FileTree := steps.foldl Step.apply tree

/-- The pages that are moved into place by some steps. -/
def history : List Step → FileTree → List PageEvent
  | [], _ => []
  | step :: rest, tree => step.events tree ++ history rest (step.apply tree)

/-- The history of more steps follows that of the first ones. -/
theorem history_append (steps more : List Step) (tree : FileTree) :
    history (steps ++ more) tree = history steps tree ++ history more (treeAfter steps tree) := by
  -- On the first steps; the others start from what these leave.
  induction steps generalizing tree with
  | nil => rfl
  | cons step rest ih =>
    rw [List.cons_append, history, history, ih, List.append_assoc]
    rfl

namespace Kept

variable {start ledger : List String} {log : List PageEvent} {tree : FileTree}

/-- A step does. -/
theorem step (hledger : FileKind.ledger.Of ledger) (h : Kept start ledger log tree)
    (step : Step) : Kept start ledger (log ++ step.events tree) (step.apply tree) := by
  -- Only runs move pages; storing programs adds nothing to the log.
  cases step with
  | save home key program =>
    rw [Step.events, List.append_nil]
    exact h.of_storeFile hledger (keeps_save home key program rfl)
  | upsert home key course =>
    rw [Step.events, List.append_nil]
    exact h.of_storeFile hledger (keeps_upsert home key course rfl)
  | run now home scope options => exact h.run hledger now home scope options

/-- Every history keeps the pages and the ledgers. -/
theorem foldl (hledger : FileKind.ledger.Of ledger) (h : Kept start ledger log tree)
    (steps : List Step) :
    Kept start ledger (log ++ history steps tree) (treeAfter steps tree) := by
  -- On the steps, each of which takes up the tree and the log of those before it.
  induction steps generalizing log tree with
  | nil =>
    rw [history, List.append_nil]
    exact h
  | cons step rest ih =>
    rw [history, ← List.append_assoc]
    exact ih (h.step hledger step)

/-- Where nothing has been written yet there is nothing to keep. -/
theorem of_fresh (hfresh : tree.fileAt ledger = none) :
    Kept tree.workingDirectory ledger [] tree where
  pages :=
    { workingDirectory := rfl
      isPage := fun event hevent => absurd hevent List.not_mem_nil
      held := fun file event hlast => by cases hlast }
  ledgerKept content hcontent := by
    rw [hfresh] at hcontent
    cases hcontent

end Kept

end Syllabus.Site
