import Syllabus.Proofs.Export.Placement

/-!
# Syllabus: the pages of imported courses

An import leaves out lessons without pages, and the items of an export have their numbers to
themselves. So every lesson of an imported course has a first page, and a page is found by its
number.

* **`IsImported.pages_ne_nil`**: no lesson is empty.
* **`IsImported.nodup_pageIds`**: no two pages of a course have one number.
-/

namespace Syllabus

namespace Export

variable {exported : Export} {order : List Id} {first : Id} {lesson : Lesson} {page : Page}

/-- An import that succeeds makes its course of the lessons of the export that get pages. -/
theorem exists_of_importCourse {text : String} {options : ImportOptions}
    {imported : ImportedCourse} (h : importCourse text options = .ok imported) :
    ∃ exported first rest, read? text = some exported
      ∧ exported.orderedLessons options.order = first :: rest
      ∧ imported = {
        course := {
          fileName := options.fileName
          name := exported.courseName options
          description := unlessEmpty exported.description
          lessons := exported.filledLessons options.order first.id }
        images := exported.images } := by
  rw [importCourse] at h
  split at h
  · cases h
  · next exported hread =>
    cases hordered : exported.orderedLessons options.order with
    | nil =>
      unfold toCourse at h
      simp only [hordered] at h
      cases h
    | cons first rest =>
      rw [toCourse_eq hordered] at h
      cases h
      exact ⟨exported, first, rest, hread, hordered, rfl⟩

theorem owner_of_mem_filled (hlesson : lesson ∈ exported.filledLessons order first)
    (hpage : page ∈ lesson.pages) : exported.importOwner order first page.id = lesson.id := by
  obtain ⟨⟨empty, _, rfl⟩, _⟩ := mem_filledLessons_iff.mp hlesson
  exact beq_iff_eq.mp (List.mem_filter.mp hpage).2

/-- No two pages of the filled lessons have one number. -/
theorem nodup_filledPages (hlessons : exported.lessons.Ascending)
    (hitems : exported.items.Ascending) :
    ((exported.filledLessons order first).flatMap fun lesson =>
      lesson.pages.map Page.id).Nodup := by
  have hnodup : ((exported.filledLessons order first).map Lesson.id).Nodup :=
    nodup_filledLessons hlessons
  refine List.nodup_flatMap.mpr ⟨fun lesson hlesson => nodup_pageIds_of_filled hitems hlesson, ?_⟩
  refine (List.pairwise_map.mp hnodup).imp_of_mem ?_
  intro lesson other hlesson hother hne id hid hid'
  obtain ⟨page, hpage, rfl⟩ := List.mem_map.mp hid
  obtain ⟨page', hpage', hsame⟩ := List.mem_map.mp hid'
  -- A page that is in both lessons has both for its owner.
  have howner := owner_of_mem_filled hlesson hpage
  have howner' := owner_of_mem_filled hother hpage'
  rw [hsame] at howner'
  exact hne (howner.symm.trans howner')

end Export

namespace Course

theorem pageIds_eq (course : Course) :
    course.pageIds = course.lessons.flatMap fun lesson => lesson.pages.map Page.id := by
  rw [pageIds, pages, List.map_flatMap]
  simp only [List.map_map]
  rfl

/-- Whether a course is what an import makes of an export, with any number and level. -/
def IsImported (course : Course) : Prop :=
  ∃ text options imported id level, importCourse text options = .ok imported
    ∧ course = { imported.course with id, level }

namespace IsImported

variable {course : Course}

/-- The lessons of an imported course are those of an export that get pages. -/
theorem exists_lessons_eq (h : course.IsImported) :
    ∃ (exported : Export) (order : List Id) (first : Id), exported.lessons.Ascending
      ∧ exported.items.Ascending ∧ course.lessons = exported.filledLessons order first := by
  obtain ⟨text, options, imported, id, level, himport, rfl⟩ := h
  obtain ⟨exported, first, _, hread, _, hresult⟩ := Export.exists_of_importCourse himport
  obtain ⟨hlessons, hitems⟩ := Export.ascending_of_read? hread
  rw [hresult]
  exact ⟨exported, options.order, first.id, hlessons, hitems, rfl⟩

/-- No lesson of an imported course is empty. -/
theorem pages_ne_nil (h : course.IsImported) : ∀ lesson ∈ course.lessons, lesson.pages ≠ [] := by
  obtain ⟨exported, order, first, _, _, hlessons⟩ := h.exists_lessons_eq
  intro lesson hlesson
  rw [hlessons] at hlesson
  exact (Export.mem_filledLessons_iff.mp hlesson).2

/-- No two pages of an imported course have one number. -/
theorem nodup_pageIds (h : course.IsImported) : course.pageIds.Nodup := by
  obtain ⟨exported, order, first, hascending, hitems, hlessons⟩ := h.exists_lessons_eq
  rw [pageIds_eq, hlessons]
  exact Export.nodup_filledPages hascending hitems

end IsImported

end Course

end Syllabus
