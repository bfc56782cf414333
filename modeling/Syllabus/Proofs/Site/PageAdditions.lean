import Syllabus.Proofs.Files.Directories
import Syllabus.Proofs.Site.PageWrites

/-!
# Syllabus: what a page that is written adds

The temporary file of a page lies beside the page, in the directory that both need. So writing a
page adds the page and directories on the way to it, and if it fails, directories alone.

* **`beside_temporaryPath`**: the place of the temporary file.
* **`addsOnly_writePage`**, **`addsOnly_of_writePage_error`**: what writing a page adds.
-/

namespace Syllabus.Site

open FileTree FileAction

variable {path : Path} {tree later : FileTree}

/-! ## Places -/

theorem isEnding_temporaryPath : Path.IsEnding ".coursebook.tmp" :=
  ⟨by decide, by decide, by decide⟩

theorem descends_temporaryPath (hpath : path.Descends) : (temporaryPath path).Descends :=
  (hpath.append isEnding_temporaryPath).1

/-- The temporary file of a page lies in the directory of the page. -/
theorem dropLast_temporaryPath (hpath : path.Descends) (start : List String) :
    ((temporaryPath path).place start).dropLast = (path.place start).dropLast := by
  obtain ⟨around, last, hplace, htemporary⟩ := (hpath.append isEnding_temporaryPath).2 start
  rw [temporaryPath, hplace, htemporary, List.dropLast_concat, List.dropLast_concat]

theorem beside_temporaryPath (hpath : path.Descends) (start : List String) :
    Node.Beside (path.place start) ((temporaryPath path).place start) := by
  obtain ⟨around, last, hplace, htemporary⟩ := (hpath.append isEnding_temporaryPath).2 start
  have hlonger : last ≠ last ++ ".coursebook.tmp" := by
    intro hsame
    have hlength := congrArg (fun name => name.toList.length) hsame
    simp at hlength
  rw [temporaryPath, hplace, htemporary, Node.Beside, List.prefix_append_right_inj,
    List.prefix_append_right_inj, List.cons_prefix_cons, List.cons_prefix_cons]
  exact ⟨fun h => hlonger h.1, fun h => hlonger h.1.symm⟩

theorem place_ne_temporaryPath (hpath : path.Descends) (start : List String) :
    path.place start ≠ (temporaryPath path).place start :=
  fun hsame => (beside_temporaryPath hpath start).1 (hsame ▸ List.prefix_rfl)

theorem place_temporaryPath_ne_nil (hpath : path.Descends) (start : List String) :
    (temporaryPath path).place start ≠ [] :=
  fun hroot => (beside_temporaryPath hpath start).2 (hroot ▸ List.nil_prefix)

/-- And so both lead into the same directory. -/
theorem place_around (hpath : path.Descends) {directory : Path}
    (hdirectory : directory ∈ [path.parent?, (temporaryPath path).parent?].filterMap id)
    (start : List String) :
    directory.place start = (path.place start).dropLast ∧ ".." ∉ directory.names := by
  obtain ⟨parent, hparent, rfl⟩ : ∃ parent ∈ [path.parent?, (temporaryPath path).parent?],
      parent = some directory := by simpa using List.mem_filterMap.mp hdirectory
  simp only [List.mem_cons, List.not_mem_nil, or_false] at hparent
  rcases hparent with hparent | hparent
  · exact hpath.place_parent hparent.symm start
  · rw [← dropLast_temporaryPath hpath]
    exact (descends_temporaryPath hpath).place_parent hparent.symm start

/-- The directories around it lie on the way to the page. -/
theorem place_of_mem_around (hpath : path.Descends) {directory around : Path}
    (hdirectory : directory ∈ [path.parent?, (temporaryPath path).parent?].filterMap id)
    (haround : around ∈ directory :: directory.ancestors) (start : List String) :
    around.place start <+: (path.place start).dropLast := by
  obtain ⟨hplace, hnames⟩ := place_around hpath hdirectory start
  rw [← hplace]
  rcases List.mem_cons.mp haround with rfl | hmem
  · exact List.prefix_rfl
  · exact (Path.place_ancestor hnames hmem start).1

/-! ## Directories -/

variable {written made : List String → Prop}

theorem addsOnly_forIn {action : Path → FileAction SiteError Unit} {directories : List Path}
    (h : ∀ directory ∈ directories, ∀ later : FileTree,
      later.workingDirectory = tree.workingDirectory →
        AddsOnly written made later (after (action directory) later)) :
    AddsOnly written made tree (after (ForIn.forIn directories PUnit.unit fun directory _ => do
      action directory
      pure (ForInStep.yield PUnit.unit)) tree) := by
  -- On the directories, up to one that fails.
  induction directories generalizing tree with
  | nil => exact .refl _ _ tree
  | cons directory directories ih =>
    simp only [List.forIn_cons, bind_assoc, pure_bind]
    have hfirst := h directory List.mem_cons_self tree rfl
    cases hresult : action directory tree with
    | error e between =>
      rw [after_of_error hresult] at hfirst
      rw [after_bind_of_error hresult]
      exact hfirst
    | ok _ between =>
      rw [after_of_ok hresult] at hfirst
      rw [after_bind_of_ok hresult]
      refine hfirst.trans (ih fun other hother later hlater => ?_)
      exact h other (.tail _ hother) later (hlater.trans hfirst.workingDirectory)

/-- The directories that are made for a page lie on the way to it. -/
theorem addsOnly_createAround (hpath : path.Descends) (tree : FileTree) :
    AddsOnly written (· <+: (path.place tree.workingDirectory).dropLast) tree
      (after (createAround path) tree) := by
  rw [createAround, after_bind_pure]
  refine addsOnly_forIn fun directory hdirectory later hlater => ?_
  obtain ⟨hplace, hnames⟩ := place_around hpath hdirectory tree.workingDirectory
  rw [← hplace, ← hlater]
  exact addsOnly_createDirectories _ hnames later

/-! ## Pages -/

variable {content : String} {digests : Digests} {dryRun : Bool}

/-- A page that cannot be written leaves what is in its place, with all that it contains. -/
theorem find?_of_writePage_error (hpath : path.Descends) {e : SiteError}
    (h : writePage path content digests dryRun tree = .error e later) :
    later.root.find? (path.place tree.workingDirectory)
      = tree.root.find? (path.place tree.workingDirectory) := by
  -- The directories that are made on the way are not in the place itself.
  have haround : (after (createAround path) tree).root.find? (path.place tree.workingDirectory)
      = tree.root.find? (path.place tree.workingDirectory) := by
    refine (does_createAround path tree).find?_eq fun operation hoperation other hother => ?_
    obtain ⟨directory, hdirectory, around, haround, rfl⟩ := hoperation
    obtain rfl := List.mem_singleton.mp hother
    exact fun hthrough => hpath.not_around _
      (hthrough.trans (place_of_mem_around hpath hdirectory haround _))
  have houtcome := pageOutcome path content digests dryRun tree
  rw [h] at houtcome
  -- Only the temporary file is written besides, and it lies beside the page.
  cases houtcome with
  | uncreated _ hcreate =>
    rw [after_of_error hcreate] at haround
    exact haround
  | unfilled _ hcreate =>
    rw [after_of_ok hcreate] at haround
    exact haround
  | unmoved _ hcreate hwrite hmove =>
    have hworking := (changes_of_ok (keeps_createAround path) hcreate).workingDirectory
    rw [after_of_ok hcreate] at haround
    rw [eq_of_unmoved (place_temporaryPath_ne_nil hpath _) hwrite hmove, hworking]
    have hbeside := (beside_temporaryPath hpath tree.workingDirectory).symm
    exact (Node.find?_eq_of_beside (Node.some_remove _ _) hbeside).trans haround

/-- A page that cannot be written adds no file. -/
theorem addsOnly_of_writePage_error (hpath : path.Descends) {e : SiteError}
    (h : writePage path content digests dryRun tree = .error e later) :
    AddsOnly written (· <+: (path.place tree.workingDirectory).dropLast) tree later := by
  have haround : AddsOnly written _ tree _ := addsOnly_createAround hpath tree
  have houtcome := pageOutcome path content digests dryRun tree
  rw [h] at houtcome
  -- The temporary file, if it was written, has been taken away again.
  cases houtcome with
  | uncreated _ hcreate =>
    rw [after_of_error hcreate] at haround
    exact haround
  | unfilled _ hcreate =>
    rw [after_of_ok hcreate] at haround
    exact haround
  | unmoved _ hcreate hwrite hmove =>
    rw [after_of_ok hcreate] at haround
    exact haround.trans
      (addsOnly_of_unmoved (place_temporaryPath_ne_nil hpath _) hwrite hmove)

/-- **Writing a page.** Whatever becomes of it, it adds the page and directories on the way. -/
theorem addsOnly_writePage (hpath : path.Descends) (content : String) (digests : Digests)
    (dryRun : Bool) (tree : FileTree) :
    AddsOnly (· = path.place tree.workingDirectory)
      (· <+: (path.place tree.workingDirectory).dropLast) tree
      (after (writePage path content digests dryRun) tree) := by
  cases h : writePage path content digests dryRun tree with
  | error e later =>
    rw [after_of_error h]
    exact addsOnly_of_writePage_error hpath h
  | ok value later =>
    rw [after_of_ok h]
    have houtcome := pageOutcome path content digests dryRun tree
    rw [h] at houtcome
    -- A page that is written is the only new file, and the directories are around it.
    cases houtcome with
    | unchanged | wouldWrite => exact .refl _ _ tree
    | @written created _ _ _ _ hcreate hwrite hmove =>
      have haround : AddsOnly (· = path.place tree.workingDirectory) _ tree _ :=
        addsOnly_createAround hpath tree
      rw [after_of_ok hcreate] at haround
      have hmoved : AddsOnly _ (· <+: (path.place tree.workingDirectory).dropLast) created later :=
        addsOnly_of_moved (place_ne_temporaryPath hpath _) hwrite hmove
      rw [haround.workingDirectory] at hmoved
      exact haround.trans hmoved

end Syllabus.Site
