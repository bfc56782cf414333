import Syllabus.Proofs.Export.CoursePages
import Syllabus.Proofs.Export.ImageLinks

/-!
# Syllabus: the order of the images of an import

An import lists the images of its items in the order of their numbers, whereas the pages of the
course stand in the order of the list of numbers. So what it lists are the images of the pages of
the course, but in another order than the walk through them comes upon them, unless the pages that
have images come in the order of their numbers.

* **`coursePages_perm`**: the pages of the course are those of the export.
* **`images_of_import`**: which order the images have.
-/

namespace Syllabus.Export

/-! ## Images of pages -/

/-- The text that the export has for a page. -/
def originalText? (exported : Export) (page : Page) : Option String :=
  (exported.items.lookup page.id).bind ExportedItem.text

/-- The places of the images in the original text of a page. -/
def imagesOf (exported : Export) (page : Page) : List String :=
  ((exported.originalText? page).map (localizeText · |>.2)).getD []

/-- The places of the images of pages, in the order of the pages. -/
def imagesAlong (exported : Export) (pages : List Page) : List String :=
  pages.flatMap exported.imagesOf

section Order

variable {exported : Export} {order : List Id}

theorem lookup_of_mem {α : Type} {things : ById α} (h : things.Ascending) {id : Id} {thing : α}
    (hmem : (id, thing) ∈ things) : things.lookup id = some thing := by
  -- Numbers ascend, so none of those in front is the same.
  obtain ⟨before, behind, rfl⟩ := List.append_of_mem hmem
  refine List.lookup_eq_some_iff.mpr ⟨before, behind, rfl, fun entry hentry => ?_⟩
  rw [bne_iff_ne]
  exact (UInt32.ne_of_lt ((List.pairwise_append.mp h).2.2 entry hentry _ List.mem_cons_self)).symm

/-- What an import lists are the images of the pages of the export. -/
theorem images_eq (hitems : exported.items.Ascending) :
    exported.images = exported.imagesAlong exported.pages := by
  rw [images, imagesAlong, pages, List.filterMap_eq_flatMap_toList, List.flatMap_assoc]
  refine List.flatMap_congr fun entry hentry => ?_
  obtain ⟨id, item⟩ := entry
  have hlookup := lookup_of_mem hitems hentry
  -- An item without a text is no page and has no images.
  cases htext : item.text with
  | none => simp [htext]
  | some text => simp [htext, imagesOf, originalText?, hlookup]

/-- Pages without images do not count. -/
theorem imagesAlong_filter (exported : Export) (pages : List Page) :
    exported.imagesAlong (pages.filter (exported.imagesOf · ≠ []))
      = exported.imagesAlong pages := by
  -- On the pages; one without images adds nothing on either side.
  induction pages with
  | nil => rfl
  | cons page pages ih =>
    unfold imagesAlong at ih ⊢
    by_cases himages : exported.imagesOf page = []
    · rw [List.filter_cons_of_neg (by simpa using himages), List.flatMap_cons, himages, ih]
      rfl
    · rw [List.filter_cons_of_pos (by simpa using himages), List.flatMap_cons, List.flatMap_cons,
        ih]

/-! ## Pages of the course -/

/-- The pages of a course that holds those of an export. -/
theorem mem_coursePages_iff {course : Course} {page : Page}
    (h : exported.Arranges order course.lessons) :
    page ∈ course.pages.map (·.2) ↔ exported.HasPage page := by
  simp only [Course.pages, List.mem_map, List.mem_flatMap]
  constructor
  · rintro ⟨_, ⟨lesson, hlesson, _, hpage, rfl⟩, rfl⟩
    exact (h.owned lesson hlesson _ hpage).1
  · rintro ⟨item, text, hitem, htext, hpage⟩
    -- Every page is in some lesson, since it is in the lessons once.
    obtain ⟨lesson, hlesson, hcount, _⟩ := h.once hitem htext
    rw [← hpage] at hcount
    have hmem : page ∈ lesson.pages := List.count_pos_iff.mp (by omega)
    exact ⟨(lesson, page), ⟨lesson, hlesson, page, hmem, rfl⟩, rfl⟩

theorem coursePages_perm {course : Course} (hitems : exported.items.Ascending)
    (harranges : exported.Arranges order course.lessons) (hnodup : course.pageIds.Nodup) :
    exported.pages.Perm (course.pages.map (·.2)) := by
  have hnodup' : ((course.pages.map (·.2)).map Page.id).Nodup := by
    rwa [List.map_map]
  -- Neither list has a page twice, so that it is enough that they have the same ones.
  refine (List.perm_ext_iff_of_nodup (nodup_pages hitems).of_map hnodup'.of_map).mpr fun page => ?_
  rw [mem_pages_iff, mem_coursePages_iff harranges]

/-- Pages that come in the order of their numbers come in one order only. -/
theorem eq_of_perm_of_ascending {pages others : List Page} (hperm : pages.Perm others)
    (hpages : pages.Pairwise fun page other => page.id < other.id)
    (hothers : others.Pairwise fun page other => page.id < other.id) : pages = others :=
  hperm.eq_of_pairwise (fun _ _ _ _ hlt hgt => absurd hgt (UInt32.lt_asymm hlt)) hpages hothers

/-- **The order of images.** An import lists the images of all pages of its course, in the order of
the numbers of the pages. This is the order of the course if its pages that have images come in the
order of their numbers. -/
theorem images_of_import {text : String} {options : ImportOptions} {imported : ImportedCourse}
    (h : importCourse text options = .ok imported) :
    ∃ exported, read? text = some exported
      ∧ (∃ pages : List Page, pages.Perm (imported.course.pages.map (·.2))
        ∧ pages.Pairwise (fun page other => page.id < other.id)
        ∧ imported.images = exported.imagesAlong pages)
      ∧ (((imported.course.pages.map (·.2)).filter (exported.imagesOf · ≠ [])).Pairwise
          (fun page other => page.id < other.id) →
        imported.images = exported.imagesAlong (imported.course.pages.map (·.2))) := by
  have hnodup : imported.course.pageIds.Nodup :=
    Course.IsImported.nodup_pageIds ⟨text, options, imported, _, _, h, rfl⟩
  obtain ⟨exported, first, rest, hread, hordered, rfl⟩ := exists_of_importCourse h
  obtain ⟨hlessons, hitems⟩ := ascending_of_read? hread
  have harranges : exported.Arranges options.order _ :=
    arranges_filledLessons hlessons hitems (isFirst_of_orderedLessons hlessons hordered)
  have hperm := coursePages_perm hitems harranges hnodup
  refine ⟨exported, hread, ⟨exported.pages, hperm, pairwise_pages hitems, images_eq hitems⟩,
    fun hascending => ?_⟩
  -- The pages with images are in the order of their ids in both lists.
  have hsame := eq_of_perm_of_ascending (hperm.filter _)
    ((pairwise_pages hitems).filter _) hascending
  rw [images_eq hitems, ← imagesAlong_filter, hsame, imagesAlong_filter]

end Order

/-! ## Two orders of three pages

Pages 1 and 3 have images, page 2 has none. -/

namespace ThreePages

def text : String :=
  "\x7b\"lesson\":\x7b\"1\":\x7b\x7d\x7d,\"item\":\x7b"
  ++ "\"1\":[null,[\"<img src=\\\"x/a\\\"><img src=\\\"b\\\">\"]],"
  ++ "\"2\":[null,[\"t\"]],\"3\":[null,[\"<img src=\\\"c\\\">\"]]\x7d\x7d"

def exported : Export where
  lessons := [(1, ⟨none, none⟩)]
  items := [(1, ⟨none, some "<img src=\"x/a\"><img src=\"b\">"⟩), (2, ⟨none, some "t"⟩),
    (3, ⟨none, some "<img src=\"c\">"⟩)]

/-- The pages of the course. -/
def first : Page where
  id := 1
  rule := some "<img src=\"images/a\"><img src=\"images/b\">"

def second : Page where
  id := 2
  rule := some "t"

def third : Page where
  id := 3
  rule := some "<img src=\"images/c\">"

def imported (pages : List Page) : ImportedCourse where
  course := { name := "Untitled", lessons := [{ id := 1, name := "", pages }] }
  images := ["x/a", "b", "c"]

theorem read?_text : read? text = some exported := by decide +kernel

/-- The text of the first page with its links, and that of the third. -/
def firstText : LinkedText where
  links := [⟨"<img ".toList, "x/a".toList⟩, ⟨"><img ".toList, "b".toList⟩]
  rest := ">".toList

def thirdText : LinkedText where
  links := [⟨"<img ".toList, "c".toList⟩]
  rest := ">".toList

theorem localizeText_exported :
    localizeText "<img src=\"x/a\"><img src=\"b\">"
        = ("<img src=\"images/a\"><img src=\"images/b\">", ["x/a", "b"])
      ∧ localizeText "t" = ("t", [])
      ∧ localizeText "<img src=\"c\">" = ("<img src=\"images/c\">", ["c"]) := by
  have hfirst : firstText.IsRead firstText.text :=
    LinkedText.isRead_of_free (by decide) (by decide) (by decide)
  have hsecond : LinkedText.IsRead ⟨[], ['t']⟩ ['t'] :=
    LinkedText.isRead_of_free (by decide) (by decide) (by decide)
  have hthird : thirdText.IsRead thirdText.text :=
    LinkedText.isRead_of_free (by decide) (by decide) (by decide)
  refine ⟨(localizeText_eq hfirst).trans ?_, (localizeText_eq hsecond).trans ?_,
    (localizeText_eq hthird).trans ?_⟩
  · decide
  · decide
  · decide

theorem pages_exported : exported.pages = [first, second, third]
    ∧ exported.images = ["x/a", "b", "c"] := by
  obtain ⟨hfirst, hsecond, hthird⟩ := localizeText_exported
  constructor
  · simp [pages, exported, hfirst, hsecond, hthird, first, second, third, unlessEmpty]
  · simp [images, exported, hfirst, hsecond, hthird]

theorem inOrder_pages :
    inOrder [2, 1, 3] Page.id [first, second, third] = [second, first, third]
      ∧ inOrder [3, 1, 2] Page.id [first, second, third] = [third, first, second] := by
  simp [inOrder, first, second, third, rank, comesBefore, List.mergeSort, List.findIdx_cons]

theorem toCourse_exported :
    exported.toCourse { order := [2, 1, 3] } = .ok (imported [second, first, third])
      ∧ exported.toCourse { order := [3, 1, 2] } = .ok (imported [third, first, second]) := by
  obtain ⟨hpages, himages⟩ := pages_exported
  unfold toCourse
  have hlessons (order : List Id) : exported.orderedLessons order = [{ id := 1, name := "" }] := by
    simp [orderedLessons, inOrder, exported, unlessEmpty]
  simp only [hpages, himages, hlessons, inOrder_pages]
  decide +kernel

theorem importCourse_text :
    importCourse text { order := [2, 1, 3] } = .ok (imported [second, first, third])
      ∧ importCourse text { order := [3, 1, 2] } = .ok (imported [third, first, second]) := by
  rw [importCourse, importCourse, read?_text]
  exact toCourse_exported

theorem imagesOf_exported : exported.imagesOf first = ["x/a", "b"]
    ∧ exported.imagesOf second = [] ∧ exported.imagesOf third = ["c"] := by
  obtain ⟨hfirst, hsecond, hthird⟩ := localizeText_exported
  have htexts : exported.originalText? first = some "<img src=\"x/a\"><img src=\"b\">"
      ∧ exported.originalText? second = some "t"
      ∧ exported.originalText? third = some "<img src=\"c\">" := by decide
  unfold imagesOf
  rw [htexts.1, htexts.2.1, htexts.2.2]
  simp [hfirst, hsecond, hthird]

/-- The page without images comes first, and the images are in order. -/
theorem images_inOrder :
    importCourse text { order := [2, 1, 3] } = .ok (imported [second, first, third])
      ∧ read? text = some exported
      ∧ (imported [second, first, third]).images
        = exported.imagesAlong [second, first, third] := by
  obtain ⟨himport, _⟩ := importCourse_text
  obtain ⟨hfirst, hsecond, hthird⟩ := imagesOf_exported
  refine ⟨himport, read?_text, ?_⟩
  obtain ⟨found, hread, _, hordered⟩ := images_of_import himport
  cases read?_text.symm.trans hread
  refine hordered ?_
  -- The order has the first page behind the second, which has no images.
  have hpages : (imported [second, first, third]).course.pages.map (·.2)
      = [second, first, third] := rfl
  have hillustrated :
      [second, first, third].filter (exported.imagesOf · ≠ []) = [first, third] := by
    simp [hfirst, hsecond, hthird]
  rw [hpages, hillustrated]
  decide

/-- The page with the largest number comes first, but its image is listed last. -/
theorem images_outOfOrder :
    importCourse text { order := [3, 1, 2] } = .ok (imported [third, first, second])
      ∧ read? text = some exported
      ∧ (imported [third, first, second]).images = ["x/a", "b", "c"]
      ∧ exported.imagesAlong ((imported [third, first, second]).course.pages.map (·.2))
        = ["c", "x/a", "b"]
      ∧ (imported [third, first, second]).images
        ≠ exported.imagesAlong ((imported [third, first, second]).course.pages.map (·.2)) := by
  obtain ⟨_, himport⟩ := importCourse_text
  obtain ⟨hfirst, hsecond, hthird⟩ := imagesOf_exported
  have hpages : (imported [third, first, second]).course.pages.map (·.2)
      = [third, first, second] := rfl
  -- Along the pages the images of the third come first.
  have halong : exported.imagesAlong [third, first, second] = ["c", "x/a", "b"] := by
    simp [imagesAlong, hfirst, hsecond, hthird]
  rw [hpages, halong]
  exact ⟨himport, read?_text, rfl, rfl, by decide⟩

end ThreePages

end Syllabus.Export
