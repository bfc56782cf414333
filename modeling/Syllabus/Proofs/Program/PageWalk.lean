import Mathlib.Data.List.Iterate
import Syllabus.Proofs.Export.CoursePages
import Syllabus.Template.Value

/-!
# Syllabus: walking through the pages of a course

The numbers of a course's pages stand in one list, whatever the lessons that they come from. If they
are distinct, each of them parts this list in one way, into what comes before and what comes behind,
and the neighbours of a page are the ends of the two parts that meet there. Zero stands for what is
beyond the ends, so it must not be the number of a page.

* **`nextIn_append`**, **`previousIn_append`**: the neighbours, where the list parts.
* **`walk_of_nodup`**: what the walk is like, there and back.
-/

namespace Syllabus

/-- The position of a page, where no two pages of the lesson have one number. -/
theorem Lesson.pagePosition_getElem {lesson : Lesson}
    (hnodup : (lesson.pages.map Page.id).Nodup) (i : Nat) (hi : i < lesson.pages.length) :
    lesson.pagePosition lesson.pages[i].id = some (i + 1) := by
  have hfound : lesson.pages.findIdx? (·.id == lesson.pages[i].id) = some i := by
    rw [List.findIdx?_eq_some_iff_getElem]
    refine ⟨hi, beq_self_eq_true _, fun j hj hsame => ?_⟩
    have hlong : j < (lesson.pages.map Page.id).length := by
      rw [List.length_map]
      omega
    have hindex : j = i := (List.getElem?_inj hlong hnodup).mp (by
      simpa [hi, hj.trans hi] using hsame)
    omega
  rw [Lesson.pagePosition, positionOf, hfound]
  rfl

namespace Course

variable {id last : Id} {ids before behind : List Id}

/-! ## Neighbours in a list -/

/-- What stands behind a number is what the rest of the list starts with. -/
theorem nextIn_append (h : id ∉ before) (behind : List Id) :
    nextIn id (before ++ id :: behind) = behind.headD 0 := by
  induction before with
  | nil => simp [nextIn]
  | cons first before ih =>
    rw [List.mem_cons, not_or] at h
    rw [List.cons_append, nextIn, if_neg (by simpa using Ne.symm h.1)]
    exact ih h.2

/-- What stands before a number is what the list ends with up to there. -/
theorem previousIn_append (h : id ∉ before) (last : Id) (behind : List Id) :
    previousIn id last (before ++ id :: behind) = before.getLastD last := by
  -- On what comes before; its first number stands before the whole rest.
  induction before generalizing last with
  | nil => simp [previousIn]
  | cons first before ih =>
    rw [List.mem_cons, not_or] at h
    rw [List.cons_append, previousIn, if_neg (by simpa using Ne.symm h.1), List.getLastD_cons]
    exact ih h.2 first

theorem nextIn_of_notMem (h : id ∉ ids) : nextIn id ids = 0 := by
  induction ids with
  | nil => rfl
  | cons first rest ih =>
    rw [List.mem_cons, not_or] at h
    rw [nextIn, if_neg (by simpa using Ne.symm h.1), ih h.2]

theorem previousIn_of_notMem (h : id ∉ ids) (last : Id) : previousIn id last ids = 0 := by
  induction ids generalizing last with
  | nil => rfl
  | cons first rest ih =>
    rw [List.mem_cons, not_or] at h
    rw [previousIn, if_neg (by simpa using Ne.symm h.1), ih h.2]

/-- A number of a list without repetitions is not among those before it. -/
theorem notMem_before (hnodup : (before ++ id :: behind).Nodup) : id ∉ before := fun hmem =>
  (List.nodup_append.mp hnodup).2.2 id hmem id List.mem_cons_self rfl

/-- **There and back.** The number before the one that follows is the number itself. -/
theorem previousIn_nextIn (hnodup : ids.Nodup) (h : nextIn id ids ≠ 0) :
    previousIn (nextIn id ids) 0 ids = id := by
  have hmem : id ∈ ids := by
    by_contra hmissing
    exact h (nextIn_of_notMem hmissing)
  obtain ⟨before, behind, rfl, hbefore⟩ := List.eq_append_cons_of_mem hmem
  rw [nextIn_append hbefore] at h ⊢
  cases behind with
  | nil => exact absurd rfl h
  | cons next behind =>
    rw [List.append_cons] at hnodup ⊢
    rw [List.headD_cons, previousIn_append (notMem_before hnodup), List.getLastD_concat]

/-- **Back and there.** -/
theorem nextIn_previousIn (hnodup : ids.Nodup) (h : previousIn id 0 ids ≠ 0) :
    nextIn (previousIn id 0 ids) ids = id := by
  have hmem : id ∈ ids := by
    by_contra hmissing
    exact h (previousIn_of_notMem hmissing 0)
  obtain ⟨before, behind, rfl, hbefore⟩ := List.eq_append_cons_of_mem hmem
  rw [previousIn_append hbefore] at h ⊢
  rcases List.eq_nil_or_concat before with rfl | ⟨front, previous, rfl⟩
  · exact absurd rfl h
  · rw [List.concat_append] at hnodup ⊢
    rw [List.concat_eq_append, List.getLastD_concat, nextIn_append (notMem_before hnodup),
      List.headD_cons]

/-! ## Positions -/

/-- The list parts at each of its numbers. -/
theorem parted_getElem (hnodup : ids.Nodup) (i : Nat) (hi : i < ids.length) :
    ids = ids.take i ++ ids[i] :: ids.drop (i + 1) ∧ ids[i] ∉ ids.take i := by
  have hparts : ids = ids.take i ++ ids[i] :: ids.drop (i + 1) := by
    rw [← List.drop_eq_getElem_cons hi, List.take_append_drop]
  exact ⟨hparts, notMem_before (hparts ▸ hnodup)⟩

theorem nextIn_getElem (hnodup : ids.Nodup) (i : Nat) (hi : i < ids.length) :
    nextIn ids[i] ids = (ids.drop (i + 1)).headD 0 := by
  obtain ⟨hparts, hbefore⟩ := parted_getElem hnodup i hi
  conv_lhs => arg 2; rw [hparts]
  exact nextIn_append hbefore _

theorem previousIn_getElem (hnodup : ids.Nodup) (i : Nat) (hi : i < ids.length) :
    previousIn ids[i] 0 ids = (ids.take i).getLastD 0 := by
  obtain ⟨hparts, hbefore⟩ := parted_getElem hnodup i hi
  conv_lhs => arg 3; rw [hparts]
  exact previousIn_append hbefore 0 _

/-- **Walking on.** From the first number on, each is visited once, and then there is none. -/
theorem iterate_nextIn (hnodup : (before ++ behind).Nodup) :
    List.iterate (nextIn · (before ++ behind)) (behind.headD 0) (behind.length + 1)
      = behind ++ [0] := by
  induction behind generalizing before with
  | nil => rfl
  | cons id behind ih =>
    rw [List.length_cons, List.iterate, List.headD_cons, nextIn_append (notMem_before hnodup)]
    rw [List.append_cons] at hnodup ⊢
    rw [ih hnodup, List.cons_append]

/-! ## Pages -/

variable {course : Course}

/-- Whether the pages of a course hang together as they are read: each knows its neighbours, the
first and the last know that they are, and each has its position in its lesson. -/
structure IsLinked (course : Course) : Prop where
  next_inner : ∀ i (hi : i + 1 < course.pageIds.length),
    course.nextPageId course.pageIds[i] = course.pageIds[i + 1]
  next_last : ∀ h : course.pageIds ≠ [], course.nextPageId (course.pageIds.getLast h) = 0
  previous_inner : ∀ i (hi : i + 1 < course.pageIds.length),
    course.previousPageId course.pageIds[i + 1] = course.pageIds[i]
  previous_first : ∀ h : course.pageIds ≠ [], course.previousPageId (course.pageIds.head h) = 0
  previous_next : ∀ id, course.nextPageId id ≠ 0 →
    course.previousPageId (course.nextPageId id) = id
  next_previous : ∀ id, course.previousPageId id ≠ 0 →
    course.nextPageId (course.previousPageId id) = id
  unknown : ∀ id ∉ course.pageIds, course.nextPageId id = 0 ∧ course.previousPageId id = 0
  /-- What a template sees of the neighbours of a page. -/
  shown : ∀ program, ∀ entry ∈ course.pages,
    Template.View.field? (.page program course entry.1 entry.2) "has_next"
        = some (.bool (decide (course.pageIds.getLast? ≠ some entry.2.id)))
      ∧ Template.View.field? (.page program course entry.1 entry.2) "has_prev"
        = some (.bool (decide (course.pageIds.head? ≠ some entry.2.id)))
  positions : ∀ lesson ∈ course.lessons, ∀ i (hi : i < lesson.pages.length),
    lesson.pagePosition lesson.pages[i].id = some (i + 1)

/-- Only the last page has none behind it. -/
theorem nextPageId_eq_zero_iff (hnodup : course.pageIds.Nodup) (hzero : 0 ∉ course.pageIds)
    (hid : id ∈ course.pageIds) :
    course.nextPageId id = 0 ↔ course.pageIds.getLast? = some id := by
  obtain ⟨before, behind, hparts⟩ := List.append_of_mem hid
  rw [hparts] at hnodup hzero
  rw [nextPageId, hparts, nextIn_append (notMem_before hnodup)]
  cases behind with
  | nil => simp
  | cons next behind =>
    -- Neither is the number behind zero, nor the last one the number itself.
    have hnext : next ≠ 0 := by
      rintro rfl
      exact hzero (by simp)
    have hlast : (next :: behind).getLast? ≠ some id := by
      intro hlast
      rw [List.append_cons] at hnodup
      have hmem := List.mem_of_mem_getLast? hlast
      exact (List.nodup_append.mp hnodup).2.2 id (by simp) id hmem rfl
    rw [List.headD_cons, List.getLast?_append_cons, List.getLast?_cons_cons]
    exact iff_of_false hnext hlast

/-- Only the first page has none before it. -/
theorem previousPageId_eq_zero_iff (hnodup : course.pageIds.Nodup) (hzero : 0 ∉ course.pageIds)
    (hid : id ∈ course.pageIds) :
    course.previousPageId id = 0 ↔ course.pageIds.head? = some id := by
  obtain ⟨before, behind, hparts⟩ := List.append_of_mem hid
  rw [hparts] at hnodup hzero
  rw [previousPageId, hparts, previousIn_append (notMem_before hnodup)]
  -- The page is the first one, or there is a last one before it, whose id is not zero.
  cases before with
  | nil => simp
  | cons first before =>
    have hfirst : first ≠ id := by
      rintro rfl
      exact notMem_before hnodup List.mem_cons_self
    have hprevious : (first :: before).getLastD 0 ≠ 0 := by
      rw [List.getLastD_eq_getLast?, List.getLast?_eq_some_getLast (List.cons_ne_nil _ _),
        Option.getD_some]
      intro hlast
      exact hzero (List.mem_append_left _ (hlast ▸ List.getLast_mem _))
    simpa using iff_of_false hprevious hfirst

theorem firstPageId_eq (hlessons : ∀ lesson ∈ course.lessons, lesson.pages ≠ []) :
    course.firstPageId = course.pageIds.headD 0 := by
  rw [pageIds_eq, firstPageId]
  cases hall : course.lessons with
  | nil => rfl
  | cons lesson rest =>
    obtain ⟨page, pages, hpages⟩ := List.exists_cons_of_ne_nil
      (hlessons lesson (by simp [hall]))
    simp [Lesson.firstPageId, hpages]

theorem shown_of_nodup (hnodup : course.pageIds.Nodup) (hzero : 0 ∉ course.pageIds)
    (program : Program) {entry : Lesson × Page} (hentry : entry ∈ course.pages) :
    Template.View.field? (.page program course entry.1 entry.2) "has_next"
        = some (.bool (decide (course.pageIds.getLast? ≠ some entry.2.id)))
      ∧ Template.View.field? (.page program course entry.1 entry.2) "has_prev"
        = some (.bool (decide (course.pageIds.head? ≠ some entry.2.id))) := by
  have hid : entry.2.id ∈ course.pageIds := List.mem_map_of_mem hentry
  have hnext : (course.nextPageId entry.2.id != 0)
      = decide (course.pageIds.getLast? ≠ some entry.2.id) := by
    rw [Bool.eq_iff_iff, bne_iff_ne, decide_eq_true_iff]
    exact (nextPageId_eq_zero_iff hnodup hzero hid).not
  have hprevious : (course.previousPageId entry.2.id != 0)
      = decide (course.pageIds.head? ≠ some entry.2.id) := by
    rw [Bool.eq_iff_iff, bne_iff_ne, decide_eq_true_iff]
    exact (previousPageId_eq_zero_iff hnodup hzero hid).not
  rw [← hnext, ← hprevious]
  exact ⟨rfl, rfl⟩

/-- Pages with distinct numbers other than zero hang together. -/
theorem isLinked (hnodup : course.pageIds.Nodup) (hzero : 0 ∉ course.pageIds) :
    course.IsLinked where
  next_inner i hi := by
    rw [nextPageId, nextIn_getElem hnodup, List.drop_eq_getElem_cons hi, List.headD_cons]
  next_last h := by
    have hlast := List.getLast?_eq_some_getLast h
    exact (nextPageId_eq_zero_iff hnodup hzero (List.getLast_mem h)).mpr hlast
  -- A page that is not the first is behind the one before it.
  previous_inner i hi := by
    rw [previousPageId, previousIn_getElem hnodup, List.take_succ_eq_append_getElem (by omega),
      List.getLastD_concat]
  previous_first h := by
    have hhead := List.head?_eq_some_head h
    exact (previousPageId_eq_zero_iff hnodup hzero (List.head_mem h)).mpr hhead
  previous_next _ := previousIn_nextIn hnodup
  next_previous _ := nextIn_previousIn hnodup
  unknown _ hid := ⟨nextIn_of_notMem hid, previousIn_of_notMem hid 0⟩
  shown program _ := shown_of_nodup hnodup hzero program
  positions lesson hlesson i hi := by
    rw [pageIds_eq] at hnodup
    exact Lesson.pagePosition_getElem ((List.nodup_flatMap.mp hnodup).1 lesson hlesson) i hi

/-- **The walk through a course.** If its pages have distinct numbers other than zero, each of them
leads to its neighbours, there and back. If no lesson is empty, and an import leaves none, the walk
from the first page on visits all pages, each once, and then ends. -/
theorem walk_of_nodup (hnodup : course.pageIds.Nodup) (hzero : 0 ∉ course.pageIds) :
    course.IsLinked
      ∧ ((∀ lesson ∈ course.lessons, lesson.pages ≠ []) →
        List.iterate course.nextPageId course.firstPageId (course.pageIds.length + 1)
          = course.pageIds ++ [0])
      ∧ (course.IsImported → ∀ lesson ∈ course.lessons, lesson.pages ≠ []) := by
  refine ⟨isLinked hnodup hzero, fun hlessons => ?_, IsImported.pages_ne_nil⟩
  have hall : ([] ++ course.pageIds).Nodup := hnodup
  rw [firstPageId_eq hlessons]
  exact iterate_nextIn hall

/-- A course whose pages are numbered like one of its lessons, and not in ascending order. -/
def threePages : Course where
  name := "Parts"
  lessons := [{ id := 1, name := "Nouns", pages := [{ id := 7 }, { id := 3 }] },
    { id := 7, name := "Verbs", pages := [{ id := 5 }] }]

theorem walk_threePages : threePages.pageIds.Nodup ∧ 0 ∉ threePages.pageIds
    ∧ threePages.IsLinked
    ∧ List.iterate threePages.nextPageId threePages.firstPageId 4 = [7, 3, 5, 0] := by
  have hnodup : threePages.pageIds.Nodup := by decide
  have hzero : 0 ∉ threePages.pageIds := by decide
  obtain ⟨hlinked, hwalk, _⟩ := walk_of_nodup hnodup hzero
  exact ⟨hnodup, hzero, hlinked, hwalk (by decide)⟩

end Course

end Syllabus
