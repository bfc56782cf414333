import Syllabus.Proofs.Site.PageAdditions

/-!
# Syllabus: digests that are kept of pages

Pages are written one after another, with the digests of those written so far at hand, while others
take files and directories away. As long as the paths of the pages are apart from each other, the
digests are those of the files that are still there, and a page that is passed over is the one that
was to be written. This holds even if a page lies where another one has its temporary file: there it
gets lost, but it is never replaced.

* **`Coherent.foldl`**: any steps keep tree and digests in accordance.
* **`digests_coherent`**: what the digests and the files are after any steps.
-/

namespace Syllabus.Site

open FileTree FileAction

/-! ## Steps -/

/-- A step while digests of pages are kept. -/
inductive PageStep where
  | write (path : Path) (content : String) (dryRun : Bool)
  /-- Whatever is at a place is taken away, a directory with all that is in it. -/
  | remove (place : List String)

/-- A tree, and the digests that are kept of its pages. -/
structure PageState where
  tree : FileTree
  digests : Digests := []

namespace PageStep

/-- What a step makes of a state, whether it succeeds or fails. -/
def apply (state : PageState) : PageStep → PageState
  | write path content dryRun =>
    match writePage path content state.digests dryRun state.tree with
    | .ok (_, digests) tree => ⟨tree, digests⟩
    | .error _ tree => { state with tree }
  | remove place => { state with tree := { state.tree with root := state.tree.root.remove place } }

/-- The pages that a step is to write. -/
def pages : PageStep → List (Path × String)
  | write path content _ => [(path, content)]
  | remove _ => []

end PageStep

/-- The state after some steps. -/
def stateAfter (steps : List PageStep) (state : PageState) : PageState :=
  steps.foldl PageStep.apply state

/-- Whether all paths of pages lead down to names, and those that differ to places apart. -/
structure Separate (start : List String) (pages : List (Path × String)) : Prop where
  descends : ∀ page ∈ pages, page.1.Descends
  beside : ∀ page ∈ pages, ∀ other ∈ pages, page.1 ≠ other.1 →
    Node.Beside (page.1.place start) (other.1.place start)

/-- Whether digests tell the texts of pages apart. -/
def ToldApart (pages : List (Path × String)) : Prop :=
  ∀ page ∈ pages, ∀ other ∈ pages, pageDigest page.2 = pageDigest other.2 →
    pageText page.2 = pageText other.2

/-- No page lies where directories are made for a page. -/
theorem Separate.not_around {start : List String} {pages : List (Path × String)}
    (h : Separate start pages) {page other : Path × String} (hpage : page ∈ pages)
    (hother : other ∈ pages) : ¬ other.1.place start <+: (page.1.place start).dropLast := by
  intro haround
  by_cases hsame : other.1 = page.1
  · rw [hsame] at haround
    exact (h.descends page hpage).not_around start haround
  · exact (h.beside other hother page hpage hsame).1 (haround.trans (List.dropLast_prefix _))

/-! ## Accordance -/

/-- Whether nothing but the text of a page can be read at a place. -/
structure Reserved (place : List String) (content : String) (tree : FileTree) : Prop where
  noDirectory : ¬ tree.HasDirectory place
  file : ∀ ⦃bytes⦄, tree.fileAt place = some bytes → bytes = (pageText content).toUTF8

namespace Reserved

variable {place : List String} {content : String} {tree later : FileTree}

theorem of_fileAt (h : tree.fileAt place = some (pageText content).toUTF8) :
    Reserved place content tree := by
  refine ⟨not_hasDirectory_of_fileAt h, fun bytes hbytes => ?_⟩
  rw [h] at hbytes
  cases hbytes
  rfl

theorem of_addsOnly {written made : List String → Prop} (h : Reserved place content tree)
    (hadds : AddsOnly written made tree later) (hwritten : ¬ written place)
    (hmade : ¬ made place) : Reserved place content later where
  noDirectory hdirectory := (hadds.directories hdirectory).elim h.noDirectory hmade
  file _ hbytes := h.file ((hadds.files hbytes).resolve_right hwritten)

end Reserved

/-- Whether each digest that is kept is that of a page, and nothing else can be read in the place of
the page. -/
structure Coherent (start : List String) (pages : List (Path × String)) (state : PageState) :
    Prop where
  workingDirectory : state.tree.workingDirectory = start
  entries : ∀ ⦃path : Path⦄ ⦃digest⦄, state.digests.find? path.text = some digest →
    ∃ content, (path, content) ∈ pages ∧ digest = pageDigest content
      ∧ Reserved (path.place start) content state.tree

namespace Coherent

variable {start : List String} {pages : List (Path × String)} {state : PageState}

/-- The entries stay in accordance if nothing is added in the places of the pages. -/
theorem of_addsOnly {written made : List String → Prop} {later : FileTree}
    (h : Coherent start pages state) (hadds : AddsOnly written made state.tree later)
    (hplaces : ∀ page ∈ pages, ¬ written (page.1.place start) ∧ ¬ made (page.1.place start)) :
    Coherent start pages { state with tree := later } where
  workingDirectory := hadds.workingDirectory.trans h.workingDirectory
  entries path digest hentry := by
    obtain ⟨content, hpage, hdigest, hreserved⟩ := h.entries hentry
    obtain ⟨hwritten, hmade⟩ := hplaces _ hpage
    exact ⟨content, hpage, hdigest, hreserved.of_addsOnly hadds hwritten hmade⟩

theorem remove (h : Coherent start pages state) (place : List String) :
    Coherent start pages ((PageStep.remove place).apply state) :=
  have hadds : AddsOnly (fun _ => False) (fun _ => False) state.tree _ :=
    addsOnly_remove state.tree place
  h.of_addsOnly hadds fun _ _ => ⟨id, id⟩

/-- A page that has been moved into place is accounted for, and the others still are. -/
theorem written {path : Path} {content : String} {later : FileTree}
    (hseparate : Separate start pages) (h : Coherent start pages state)
    (hpage : (path, content) ∈ pages) (hholds : later.Holds path (pageText content))
    (hadds : AddsOnly (· = path.place start) (· <+: (path.place start).dropLast) state.tree
      later) :
    Coherent start pages ⟨later, state.digests.insert path.text (pageDigest content)⟩ where
  workingDirectory := hadds.workingDirectory.trans h.workingDirectory
  entries other digest hentry := by
    rw [Table.find?_insert] at hentry
    -- The digest is that of the page just written, or of one beside it.
    by_cases hsame : other = path
    · subst hsame
      rw [if_pos rfl, Option.some.injEq] at hentry
      have hfile := hholds.file
      rw [hadds.workingDirectory, h.workingDirectory] at hfile
      exact ⟨content, hpage, hentry.symm, .of_fileAt hfile⟩
    · have htext : path.text ≠ other.text := fun htext => hsame (by cases other; cases htext; rfl)
      rw [if_neg htext] at hentry
      obtain ⟨content', hother, hdigest, hreserved⟩ := h.entries hentry
      have hbeside := hseparate.beside _ hother _ hpage hsame
      have haround := hseparate.not_around hpage hother
      refine ⟨content', hother, hdigest, hreserved.of_addsOnly hadds ?_ haround⟩
      intro hplace
      exact hbeside.1 (hplace ▸ List.prefix_rfl)

theorem write {path : Path} {content : String} (hseparate : Separate start pages)
    (h : Coherent start pages state) (hpage : (path, content) ∈ pages) (dryRun : Bool) :
    Coherent start pages ((PageStep.write path content dryRun).apply state) := by
  have hpath := hseparate.descends _ hpage
  have hadds := addsOnly_writePage hpath content state.digests dryRun state.tree
  have houtcome := pageOutcome path content state.digests dryRun state.tree
  rw [PageStep.apply]
  cases hresult : writePage path content state.digests dryRun state.tree with
  | error e later =>
    have hnone : AddsOnly (fun _ => False) _ state.tree later :=
      addsOnly_of_writePage_error hpath hresult
    rw [h.workingDirectory] at hnone
    exact h.of_addsOnly hnone fun page hother => ⟨id, hseparate.not_around hpage hother⟩
  | ok value later =>
    rw [hresult] at houtcome
    rw [after_of_ok hresult, h.workingDirectory] at hadds
    -- Nothing is written where the page is passed over.
    cases houtcome with
    | unchanged | wouldWrite => exact h
    | written _ _ _ hwrite hmove =>
      exact written hseparate h hpage (holds_of_replace hwrite hmove).1 hadds

/-- **A step.** -/
theorem apply (hseparate : Separate start pages) (h : Coherent start pages state)
    {step : PageStep} (hstep : step.pages ⊆ pages) : Coherent start pages (step.apply state) := by
  cases step with
  | write path content dryRun => exact h.write hseparate (hstep List.mem_cons_self) dryRun
  | remove place => exact h.remove place

/-- **Any steps.** -/
theorem foldl (hseparate : Separate start pages) (h : Coherent start pages state)
    {steps : List PageStep} (hsteps : steps.flatMap PageStep.pages ⊆ pages) :
    Coherent start pages (stateAfter steps state) := by
  induction steps generalizing state with
  | nil => exact h
  | cons step rest ih =>
    rw [List.flatMap_cons, List.append_subset] at hsteps
    exact ih (h.apply hseparate hsteps.1) hsteps.2

/-- Where a digest is kept and something is there, the page is there. -/
theorem holds_of_isCurrent {path : Path} {content : String} (h : Coherent start pages state)
    (htold : ToldApart pages) (hpage : (path, content) ∈ pages)
    (hcurrent : IsCurrent path content state.digests state.tree) :
    state.tree.Holds path (pageText content) := by
  obtain ⟨content', hpage', hdigest, hreserved⟩ := h.entries hcurrent.1
  have htext : pageText content = pageText content' := htold _ hpage _ hpage' hdigest
  rw [← h.workingDirectory] at hreserved
  have hthere := hcurrent.2
  cases hfind : state.tree.find path with
  | error fault =>
    rw [contains, hfind] at hthere
    cases hthere
  | ok found =>
    obtain ⟨location, node⟩ := found
    cases node with
    | directory entries =>
      -- A directory was never put where a digest is kept.
      obtain ⟨location, hlocate, hfound⟩ := exists_of_bind_eq_ok hfind
      obtain ⟨rfl, _⟩ := eq_place_of_locate hlocate
      refine absurd ?_ hreserved.noDirectory
      split at hfound
      · cases hfound
      · split at hfound
        · cases hfound
        · cases hfound
      · next hdirectory => exact ⟨_, hdirectory⟩
    | file bytes =>
      obtain ⟨hlocate, hfile, hslash⟩ := find_eq_file_iff.mp hfind
      obtain ⟨rfl, _⟩ := eq_place_of_locate hlocate
      have hbytes := hreserved.file (fileAt_eq_some_iff.mpr hfile)
      rw [hbytes, ← htext] at hfile
      exact ⟨hlocate, hslash, fileAt_eq_some_iff.mpr hfile⟩

/-- A page that has been written or passed over is there. -/
theorem holds_of_writePage {path : Path} {content : String} (h : Coherent start pages state)
    (htold : ToldApart pages) (hpage : (path, content) ∈ pages) {write : PageWrite}
    {digests : Digests} {later : FileTree}
    (hwrite : writePage path content state.digests false state.tree
      = .ok (write, digests) later) : later.Holds path (pageText content) := by
  have houtcome := pageOutcome path content state.digests false state.tree
  rw [hwrite] at houtcome
  cases houtcome with
  | unchanged hcurrent => exact h.holds_of_isCurrent htold hpage hcurrent
  | wouldWrite _ hdry => cases hdry
  | written _ _ _ hfill hmove => exact (holds_of_replace hfill hmove).1

end Coherent

/-! ## Digests and files -/

/-- **Kept digests.** Whatever steps are taken from a tree, starting without digests, and if the
paths of all pages are apart: after each step, the digest that is kept for a path is that of the
file in its place, if there is one. A page that has been written or passed over is held by its file,
as far as digests tell the pages apart. -/
theorem digests_coherent {tree : FileTree} {steps : List PageStep}
    (hseparate : Separate tree.workingDirectory (steps.flatMap PageStep.pages)) :
    (∀ before, before <+: steps → ∀ (path : Path) (digest : String) (bytes : ByteArray),
        (stateAfter before ⟨tree, []⟩).digests.find? path.text = some digest →
        (stateAfter before ⟨tree, []⟩).tree.fileAt (path.place tree.workingDirectory)
          = some bytes →
        digest = Digest.ofBytes bytes)
      ∧ (ToldApart (steps.flatMap PageStep.pages) →
        ∀ before path content, before ++ [.write path content false] <+: steps →
          ∀ write digests later,
            writePage path content (stateAfter before ⟨tree, []⟩).digests false
              (stateAfter before ⟨tree, []⟩).tree = .ok (write, digests) later →
            later.Holds path (pageText content)) := by
  have hcoherent {before : List PageStep} (hbefore : before <+: steps) :
      Coherent tree.workingDirectory (steps.flatMap PageStep.pages)
        (stateAfter before ⟨tree, []⟩) := by
    have hstart : Coherent tree.workingDirectory (steps.flatMap PageStep.pages) ⟨tree, []⟩ :=
      ⟨rfl, fun path digest hentry => by cases hentry⟩
    -- What holds of all steps holds of those before.
    obtain ⟨behind, rfl⟩ := hbefore
    rw [List.flatMap_append] at hseparate hstart ⊢
    exact hstart.foldl hseparate (List.subset_append_left _ _)
  refine ⟨fun before hbefore path digest bytes hentry hfile => ?_,
    fun htold before path content hbefore write digests later hwrite => ?_⟩
  · obtain ⟨content, _, hdigest, hreserved⟩ := (hcoherent hbefore).entries hentry
    rw [hdigest, hreserved.file hfile]
    rfl
  · refine (hcoherent ((List.prefix_append _ _).trans hbefore)).holds_of_writePage htold ?_ hwrite
    obtain ⟨behind, rfl⟩ := hbefore
    simp [PageStep.pages]

namespace OverTemporary

/-! The second page has its temporary file where the first page lies. -/

def first : Path := ⟨"a.coursebook.tmp"⟩

def second : Path := ⟨"a"⟩

def start : FileTree := {}

/-- The second page is moved away from over the first one, taken away, and written again. -/
def steps : List PageStep :=
  [.write first "one" false, .write second "two" false, .remove ["a"],
    .write second "two\r\n" false]

@[irreducible] def afterFirst : PageState := stateAfter (steps.take 1) ⟨start, []⟩

@[irreducible] def beforeLast : PageState := stateAfter (steps.take 3) ⟨start, []⟩

theorem separate_steps : Separate start.workingDirectory (steps.flatMap PageStep.pages) where
  descends := by
    have hfirst : first.Descends := ⟨by decide, [], first.text, by decide, by decide⟩
    have hsecond : second.Descends := ⟨by decide, [], second.text, by decide, by decide⟩
    simp [steps, PageStep.pages, hfirst, hsecond]
  beside := by
    unfold Node.Beside
    decide

theorem toldApart_steps : ToldApart (steps.flatMap PageStep.pages) := by
  unfold ToldApart
  decide +kernel

theorem of_afterFirst : afterFirst.digests.find? first.text = some (pageDigest "one")
    ∧ afterFirst.tree.fileAt ["a.coursebook.tmp"] = some "one".toUTF8 := by
  decide +kernel

theorem of_beforeLast : beforeLast.digests.find? first.text = some (pageDigest "one")
    ∧ beforeLast.tree.fileAt ["a.coursebook.tmp"] = none
    ∧ (valueOf (writePage second "two\r\n" beforeLast.digests false beforeLast.tree)).map (·.1)
      = some ⟨.written, second⟩ := by
  decide +kernel

/-- The digest of the first page is that of its file at first. Later there is no such file any more,
but the second page can be written again. -/
theorem holds_second : pageDigest "one" = Digest.ofBytes "one".toUTF8
    ∧ beforeLast.digests.find? first.text = some (pageDigest "one")
    ∧ beforeLast.tree.fileAt ["a.coursebook.tmp"] = none
    ∧ ∃ digests later, writePage second "two\r\n" beforeLast.digests false beforeLast.tree
        = .ok (⟨.written, second⟩, digests) later
      ∧ later.Holds second "two\n" := by
  obtain ⟨hdigests, hholds⟩ := digests_coherent separate_steps
  obtain ⟨hentry, hfile⟩ := of_afterFirst
  obtain ⟨hlost, hgone, hwritten⟩ := of_beforeLast
  refine ⟨?_, hlost, hgone, ?_⟩
  · unfold afterFirst at hentry hfile
    exact hdigests (steps.take 1) (List.take_prefix _ _) first _ _ hentry hfile
  · obtain ⟨⟨write, digests⟩, hvalue, rfl⟩ := Option.map_eq_some_iff.mp hwritten
    have hwrite := eq_ok_of_valueOf hvalue
    refine ⟨digests, _, hwrite, ?_⟩
    unfold beforeLast at hwrite ⊢
    exact hholds toldApart_steps (steps.take 3) second "two\r\n" List.prefix_rfl _ _ _ hwrite

end OverTemporary

end Syllabus.Site
