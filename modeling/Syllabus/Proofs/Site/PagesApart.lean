import Syllabus.Proofs.Site.Previews
import Syllabus.Proofs.Site.SiteFiles

/-!
# Syllabus: pages apart

A page is written by operations around its own place. So pages whose places lie apart do not touch
each other: when pages are written, each is left as it was, with all that there is below its place,
or it has been written whole, whether all of them can be written or not.

* **`find?_of_writing`**: what operations on some pages leave of the others.
* **`left_of_writePages`**: what is left of each page.
* **`holds_of_writePages`**: pages that no digests are kept for are all written.
-/

namespace Syllabus.Site

open FileTree FileAction

variable {pages : List (Path × String)} {digests digests' : Digests} {dryRun : Bool}
  {tree later : FileTree} {path other : Path} {content : String}

/-! ## The operations on a page -/

/-- The operations that write a page do not go through the place of a page apart. -/
theorem not_prefix_of_writing {start : List String} (hpath : path.Descends)
    (hother : FileKind.page.Of (other.place start)) (hapart : Apart start path other)
    {operation : Operation} (h : writing path operation) {changed : Path}
    (hchanged : changed ∈ operation.paths) : ¬ other.place start <+: changed.place start := by
  intro hthrough
  rcases h.mem_paths hchanged with (rfl | rfl) | ⟨directory, hdirectory, haround⟩
  · -- The temporary file is no page, and all that lies around it lies around the page.
    obtain ⟨before, last, hplace, htemporary⟩ := (hpath.append isEnding_temporaryPath).2 start
    have hkind := of_temporaryPath start path
    rw [temporaryPath, htemporary] at hthrough hkind
    rcases List.prefix_concat_iff.mp hthrough with hsame | haround
    · rw [hsame] at hother
      cases FileKind.eq_of_endsIn hkind hother
    · refine hapart.2 (haround.trans ?_)
      rw [hplace]
      exact List.prefix_append _ _
  · exact hapart.2 hthrough
  · exact hapart.2 ((hthrough.trans (place_of_mem_around hpath hdirectory haround start)).trans
      (List.dropLast_prefix _))

/-- **What is left of other pages.** Operations that write pages leave what is in the place of a page
apart from them. -/
theorem find?_of_writing {paths : List Path}
    (h : Performs (fun operation => ∃ path ∈ paths, writing path operation) tree later)
    (hpaths : ∀ path ∈ paths, path.Descends ∧ Apart tree.workingDirectory path other)
    (hother : FileKind.page.Of (other.place tree.workingDirectory)) :
    later.root.find? (other.place tree.workingDirectory)
      = tree.root.find? (other.place tree.workingDirectory) := by
  refine h.find?_eq fun operation hoperation changed hchanged => ?_
  obtain ⟨path, hpath, hwriting⟩ := hoperation
  exact not_prefix_of_writing (hpaths path hpath).1 hother (hpaths path hpath).2 hwriting hchanged

theorem performs_writePage (path : Path) (content : String) (digests : Digests) (dryRun : Bool)
    (tree : FileTree) :
    Performs (fun operation => ∃ page ∈ [path], writing page operation) tree
      (after (writePage path content digests dryRun) tree) :=
  (does_writePage path content digests dryRun tree).mono fun _ h =>
    ⟨path, List.mem_singleton_self path, h⟩

theorem performs_writePages (dryRun : Bool) (pages : List (Path × String)) (digests : Digests)
    (tree : FileTree) :
    Performs (fun operation => ∃ path ∈ pages.map (·.1), writing path operation) tree
      (after (writePages dryRun pages digests) tree) :=
  does_writePages (fun _ hpage _ h => ⟨_, List.mem_map_of_mem hpage, h⟩) digests dryRun tree

/-! ## What is left of pages -/

/-- What is left of a page: what was in its place before, or the page as it is to be. -/
inductive Left (page : Path × String) (tree later : FileTree) : Prop where
  | kept (h : later.root.find? (page.1.place tree.workingDirectory)
      = tree.root.find? (page.1.place tree.workingDirectory))
  | written (h : later.Holds page.1 (pageText page.2))

/-- The pages of a list, the first of which lies apart from the others. -/
theorem apart_of_pairwise_cons {start : List String} {page : Path × String}
    {rest : List (Path × String)}
    (houtput : ∀ other ∈ page :: rest, IsOutput start other.1)
    (hapart : ((page :: rest).map (·.1)).Pairwise (Apart start)) :
    (∀ other ∈ rest, ∀ path ∈ [page.1], path.Descends ∧ Apart start path other.1)
      ∧ ∀ path ∈ rest.map (·.1), path.Descends ∧ Apart start path page.1 := by
  rw [List.map_cons, List.pairwise_cons] at hapart
  refine ⟨fun other hother path hpath => ?_, fun path hpath => ?_⟩
  · obtain rfl := List.mem_singleton.mp hpath
    exact ⟨(houtput page List.mem_cons_self).descends,
      hapart.1 _ (List.mem_map_of_mem hother)⟩
  · obtain ⟨other, hother, rfl⟩ := List.mem_map.mp hpath
    exact ⟨(houtput other (.tail _ hother)).descends, (hapart.1 _ hpath).symm⟩

/-- **Pages apart.** When they are written, each is left as it was or has been written whole,
whether all of them can be written or not. -/
theorem left_of_writePages (houtput : ∀ page ∈ pages, IsOutput tree.workingDirectory page.1)
    (hapart : (pages.map (·.1)).Pairwise (Apart tree.workingDirectory)) (digests : Digests)
    (dryRun : Bool) :
    ∀ page ∈ pages, Left page tree (after (writePages dryRun pages digests) tree) := by
  induction pages generalizing digests tree with
  | nil => exact nofun
  | cons page rest ih =>
    obtain ⟨hfirst, hothers⟩ := apart_of_pairwise_cons houtput hapart
    obtain ⟨⟨hpage, hdescends, _⟩, hrest⟩ := List.forall_mem_cons.mp houtput
    have hsingle := performs_writePage page.1 page.2 digests dryRun tree
    cases hwrite : writePage page.1 page.2 digests dryRun tree with
    | error e failed =>
      rw [after_of_error hwrite] at hsingle
      rw [show after (writePages dryRun (page :: rest) digests) tree = failed from
        after_bind_of_error hwrite]
      refine List.forall_mem_cons.mpr
        ⟨.kept (find?_of_writePage_error hdescends hwrite), fun other hother => .kept ?_⟩
      exact find?_of_writing hsingle (hfirst other hother) (hrest other hother).isPage
    | ok value middle =>
      obtain ⟨write, between⟩ := value
      rw [after_of_ok hwrite] at hsingle
      rw [after_writePages_cons_of_ok hwrite]
      have hworking := hsingle.workingDirectory
      have hbehind := performs_writePages dryRun rest between middle
      refine List.forall_mem_cons.mpr ⟨?_, fun other hother => ?_⟩
      · -- The pages behind it leave the first page as it is now.
        have hsame := find?_of_writing hbehind (hworking ▸ hothers) (hworking ▸ hpage)
        cases writePage_ok hwrite with
        | unchanged | wouldWrite => exact .kept hsame
        | written _ hholds => exact .written (hholds.of_performs hbehind hsame)
      · rcases ih (hworking ▸ hrest) (hworking ▸ (List.pairwise_cons.mp hapart).2) between other
          hother with hkept | hwritten
        · rw [hworking] at hkept
          exact .kept (hkept.trans
            (find?_of_writing hsingle (hfirst other hother) (hrest other hother).isPage))
        · exact .written hwritten

/-- Pages that no digest is kept for are all there when they have been written. -/
theorem holds_of_writePages (houtput : ∀ page ∈ pages, IsOutput tree.workingDirectory page.1)
    (hapart : (pages.map (·.1)).Pairwise (Apart tree.workingDirectory))
    (hdigests : ∀ page ∈ pages, digests.find? page.1.text = none) {writes : List PageWrite}
    (h : writePages false pages digests tree = .ok (writes, digests') later) :
    ∀ page ∈ pages, later.Holds page.1 (pageText page.2) := by
  induction pages generalizing digests tree writes with
  | nil => exact nofun
  | cons page rest ih =>
    obtain ⟨hfirst, hothers⟩ := apart_of_pairwise_cons houtput hapart
    obtain ⟨hpage, hrest⟩ := List.forall_mem_cons.mp houtput
    obtain ⟨hdigest, hdigests⟩ := List.forall_mem_cons.mp hdigests
    obtain ⟨write, between, middle, behind, hwrite, hwrites, _⟩ := exists_of_writePages_cons h
    have hsingle := performs_writePage page.1 page.2 digests false tree
    have hbehind := performs_writePages false rest between middle
    rw [after_of_ok hwrite] at hsingle
    rw [after_of_ok hwrites] at hbehind
    have hworking := hsingle.workingDirectory
    refine List.forall_mem_cons.mpr ⟨?_, ih (hworking ▸ hrest)
      (hworking ▸ (List.pairwise_cons.mp hapart).2) (fun other hother => ?_) hwrites⟩
    · have hsame := find?_of_writing hbehind (hworking ▸ hothers) (hworking ▸ hpage.isPage)
      cases writePage_ok hwrite with
      | unchanged hcurrent =>
        rw [hdigest] at hcurrent
        cases hcurrent
      | wouldWrite hdry => cases hdry
      | written _ hholds => exact hholds.of_performs hbehind hsame
    · -- What has been put into the digests is for the first page only.
      have hlooks := looksSame_of_writePage hpage (hrest other hother)
        (hfirst other hother page.1 (List.mem_singleton_self _)).2 hwrite
      exact hlooks.1.trans (hdigests other hother)

/-! ## Directories -/

/-- The directories that are made for pages lie on the way to them. -/
theorem hasDirectory_of_writePages (hpages : ∀ page ∈ pages, page.1.Descends) (digests : Digests)
    {place : List String}
    (h : (after (writePages dryRun pages digests) tree).HasDirectory place) :
    tree.HasDirectory place
      ∨ ∃ page ∈ pages, place <+: (page.1.place tree.workingDirectory).dropLast := by
  induction pages generalizing digests tree with
  | nil => exact .inl h
  | cons page rest ih =>
    obtain ⟨hpage, hrest⟩ := List.forall_mem_cons.mp hpages
    have hadds := addsOnly_writePage hpage page.2 digests dryRun tree
    have hfirst (hmade : (after (writePage page.1 page.2 digests dryRun) tree).HasDirectory place) :
        tree.HasDirectory place
          ∨ ∃ other ∈ page :: rest, place <+: (other.1.place tree.workingDirectory).dropLast :=
      (hadds.directories hmade).imp_right fun haround => ⟨page, List.mem_cons_self, haround⟩
    cases hwrite : writePage page.1 page.2 digests dryRun tree with
    | error e failed =>
      rw [show after (writePages dryRun (page :: rest) digests) tree = failed from
        after_bind_of_error hwrite] at h
      rw [after_of_error hwrite] at hfirst
      exact hfirst h
    | ok value middle =>
      rw [after_writePages_cons_of_ok hwrite] at h
      rw [after_of_ok hwrite] at hadds hfirst
      rcases ih hrest _ h with hmiddle | ⟨other, hother, haround⟩
      · exact hfirst hmiddle
      · rw [hadds.workingDirectory] at haround
        exact .inr ⟨other, .tail _ hother, haround⟩

end Syllabus.Site
