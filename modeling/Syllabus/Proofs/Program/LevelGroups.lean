import Mathlib.Data.List.Sigma
import Syllabus.Proofs.Program.Courses

/-!
# Syllabus: courses in groups of one level

The courses of a program are put into groups one after the other, each behind those of its level,
and the groups are sorted in the end. A group list is told by the courses that it has at a level
(`coursesAt`): adding a course adds it at its own level and nowhere else. What comes out is what a
stable sort of the courses makes, cut where the level changes.

* **`coursesAt_addToGroups`**: the courses of a level, in their order.
* **`placesByLevel`**: the courses by level, each with its place in the program.
* **`coursesByLevel_isStablePartition`**: groups, order and stability together.
-/

namespace Syllabus

theorem Level.eq_of_bits {a b : Level} (h : a.bits = b.bits) : a = b := by
  obtain ⟨_ | _, _ | _, _ | _⟩ := a <;> obtain ⟨_ | _, _ | _, _ | _⟩ := b <;>
    first | rfl | simp [bits] at h

namespace Program

variable {course : Course} {courses : List Course} {groups : List (Level × List Course)}
  {level : Level}

/-! ## Adding courses to groups -/

/-- The courses that a group list has at a level. -/
def coursesAt (groups : List (Level × List Course)) (level : Level) : List Course :=
  (groups.lookup level).getD []

/-- The levels of groups, in their order. -/
def levels (groups : List (Level × List Course)) : List Level := groups.map (·.1)

/-- One course more: it comes behind the others of its level. -/
theorem coursesAt_addToGroup (course : Course) (groups : List (Level × List Course))
    (level : Level) :
    coursesAt (addToGroup course groups) level
      = coursesAt groups level ++ if course.level = level then [course] else [] := by
  induction groups with
  | nil =>
    by_cases h : level = course.level
    · simp [addToGroup, coursesAt, h]
    · have hother : (level == course.level) = false := by simpa using h
      simp [addToGroup, coursesAt, List.lookup_cons, hother, Ne.symm h]
  | cons group groups ih =>
    obtain ⟨first, inside⟩ := group
    simp only [coursesAt] at ih ⊢
    -- Whether this group is the course's, and whether it is the one asked for.
    by_cases hfirst : first = course.level <;> by_cases h : level = first
    · simp [addToGroup, hfirst, h]
    · have hother : (level == course.level) = false := by simpa [← hfirst] using h
      simp [addToGroup, hfirst, List.lookup_cons, hother, Ne.symm (hfirst ▸ h)]
    · simp [addToGroup, hfirst, h, Ne.symm hfirst]
    · have hother : (level == first) = false := by simpa using h
      simpa [addToGroup, hfirst, List.lookup_cons, hother] using ih

/-- A course adds its level if it is not there. -/
theorem mem_levels_addToGroup :
    level ∈ levels (addToGroup course groups) ↔ level = course.level ∨ level ∈ levels groups := by
  induction groups with
  | nil => simp [addToGroup, levels]
  | cons group groups ih =>
    obtain ⟨first, inside⟩ := group
    simp only [levels] at ih
    by_cases h : first = course.level
    · simp [addToGroup, levels, h]
    · simp only [addToGroup, beq_iff_eq, h, if_false, levels, List.map_cons, List.mem_cons, ih]
      tauto

theorem nodup_levels_addToGroup (h : (levels groups).Nodup) :
    (levels (addToGroup course groups)).Nodup := by
  induction groups with
  | nil => simp [addToGroup, levels]
  | cons group groups ih =>
    obtain ⟨first, inside⟩ := group
    obtain ⟨hfresh, hrest⟩ := List.nodup_cons.mp h
    by_cases hfirst : first = course.level
    · simpa [addToGroup, hfirst, levels] using h
    · have hfresh' : first ∉ levels (addToGroup course groups) := by
        rw [mem_levels_addToGroup]
        exact not_or.mpr ⟨hfirst, hfresh⟩
      simpa [addToGroup, hfirst, levels] using List.nodup_cons.mpr ⟨hfresh', ih hrest⟩

/-- Courses are put into groups one after the other. -/
def addToGroups (courses : List Course) (groups : List (Level × List Course)) :
    List (Level × List Course) :=
  courses.foldl (fun groups course => addToGroup course groups) groups

/-- **The courses of a level** are those of the program that have it, in the order of the program. -/
theorem coursesAt_addToGroups (courses : List Course) (groups : List (Level × List Course))
    (level : Level) :
    coursesAt (addToGroups courses groups) level
      = coursesAt groups level ++ courses.filter (·.level = level) := by
  induction courses generalizing groups with
  | nil => simp [addToGroups]
  | cons course courses ih =>
    show coursesAt (addToGroups courses (addToGroup course groups)) level = _
    rw [ih, coursesAt_addToGroup, List.append_assoc]
    by_cases h : course.level = level <;> simp [h]

/-- Courses add their levels. -/
theorem mem_levels_addToGroups :
    level ∈ levels (addToGroups courses groups)
      ↔ level ∈ courses.map (·.level) ∨ level ∈ levels groups := by
  induction courses generalizing groups with
  | nil => simp [addToGroups]
  | cons course courses ih =>
    show level ∈ levels (addToGroups courses (addToGroup course groups)) ↔ _
    rw [ih, mem_levels_addToGroup, List.map_cons, List.mem_cons]
    tauto

theorem nodup_levels_addToGroups (h : (levels groups).Nodup) :
    (levels (addToGroups courses groups)).Nodup := by
  induction courses generalizing groups with
  | nil => exact h
  | cons course courses ih => exact ih (nodup_levels_addToGroup h)

/-- A group has what the list has at its level, if no other group has this level. -/
theorem coursesAt_of_mem (hdistinct : (levels groups).Nodup) {group : Level × List Course}
    (h : group ∈ groups) : coursesAt groups group.1 = group.2 := by
  -- On the groups: the others have another level.
  induction groups with
  | nil => cases h
  | cons first groups ih =>
    obtain ⟨level, inside⟩ := first
    obtain ⟨hfresh, hrest⟩ := List.nodup_cons.mp hdistinct
    rcases List.mem_cons.mp h with rfl | h
    · simp [coursesAt]
    · have hmem : group.1 ∈ levels groups := List.mem_map_of_mem h
      have hother : (group.1 == level) = false := by
        rw [beq_eq_false_iff_ne]
        rintro rfl
        exact hfresh hmem
      simpa [coursesAt, List.lookup_cons, hother] using ih hrest h

/-! ## Groups of one level -/

/-- Whether each level that some course has is that of one group, with the courses of the level in
their order. -/
structure Grouped (courses : List Course) (groups : List (Level × List Course)) : Prop where
  distinct : (levels groups).Nodup
  covered : ∀ level, level ∈ levels groups ↔ level ∈ courses.map (·.level)
  courses_eq : ∀ group ∈ groups, group.2 = courses.filter (·.level = group.1)

theorem grouped_addToGroups (courses : List Course) : Grouped courses (addToGroups courses []) where
  distinct := nodup_levels_addToGroups List.nodup_nil
  covered level := by
    rw [mem_levels_addToGroups]
    simp [levels]
  courses_eq group hgroup := by
    have hdistinct : (levels (addToGroups courses [])).Nodup :=
      nodup_levels_addToGroups List.nodup_nil
    rw [← coursesAt_of_mem hdistinct hgroup, coursesAt_addToGroups]
    rfl

/-- Groups in another order are groups. -/
theorem Grouped.of_perm {others : List (Level × List Course)} (h : Grouped courses groups)
    (hperm : others.Perm groups) : Grouped courses others where
  distinct := (hperm.map Prod.fst).nodup_iff.mpr h.distinct
  covered level := ((hperm.map Prod.fst).mem_iff).trans (h.covered level)
  courses_eq group hgroup := h.courses_eq group (hperm.mem_iff.mp hgroup)

theorem Grouped.ne_nil (h : Grouped courses groups) {group : Level × List Course}
    (hgroup : group ∈ groups) : group.2 ≠ [] := by
  have hlevel := (h.covered group.1).mp (List.mem_map_of_mem hgroup)
  obtain ⟨course, hcourse, hsame⟩ := List.mem_map.mp hlevel
  rw [h.courses_eq group hgroup]
  exact List.ne_nil_of_mem (List.mem_filter.mpr ⟨hcourse, by simpa using hsame⟩)

theorem Grouped.level_eq (h : Grouped courses groups) {group : Level × List Course}
    (hgroup : group ∈ groups) {course : Course} (hcourse : course ∈ group.2) :
    course.level = group.1 := by
  rw [h.courses_eq group hgroup] at hcourse
  simpa using (List.mem_filter.mp hcourse).2

/-! ## In the order of levels -/

/-- The groups of a program are groups of its courses. -/
theorem grouped_coursesByLevel (program : Program) :
    Grouped program.courses program.coursesByLevel :=
  (grouped_addToGroups program.courses).of_perm (List.mergeSort_perm _ _)

/-- Groups that are sorted and have different levels have ascending ones. -/
theorem ascending_coursesByLevel (program : Program) :
    program.coursesByLevel.Pairwise fun a b => a.1.bits < b.1.bits := by
  have hsorted : program.coursesByLevel.Pairwise fun a b => decide (a.1.bits ≤ b.1.bits) = true := by
    apply List.pairwise_mergeSort
    · simp only [decide_eq_true_eq]
      omega
    · simp only [Bool.or_eq_true, decide_eq_true_eq]
      omega
  have hdistinct : program.coursesByLevel.Pairwise fun a b => a.1 ≠ b.1 :=
    List.pairwise_map.mp (grouped_coursesByLevel program).distinct
  -- They are sorted, and no two are equal.
  refine (hsorted.and hdistinct).imp fun {a b} h => ?_
  have hne : a.1.bits ≠ b.1.bits := fun hsame => h.2 (Level.eq_of_bits hsame)
  have hle : a.1.bits ≤ b.1.bits := by simpa using h.1
  omega

/-- The order of courses by level, and by their places in the program where the level is the same. -/
def ComesBefore (a b : Course × Nat) : Prop :=
  a.1.level.bits < b.1.level.bits ∨ a.1.level = b.1.level ∧ a.2 < b.2

/-- The courses by level, each with its place in the program. -/
def placesByLevel (program : Program) : List (Course × Nat) :=
  program.coursesByLevel.flatMap fun group => program.courses.zipIdx.filter (·.1.level = group.1)

/-- Without their places these are the groups one after the other. -/
theorem map_fst_placesByLevel (program : Program) :
    (placesByLevel program).map (·.1) = program.coursesByLevel.flatMap (·.2) := by
  rw [placesByLevel, List.map_flatMap]
  refine List.flatMap_congr fun group hgroup => ?_
  have hplaces := List.filter_map (f := Prod.fst) (p := fun course => course.level = group.1)
    (l := program.courses.zipIdx)
  rw [List.zipIdx_map_fst] at hplaces
  rw [(grouped_coursesByLevel program).courses_eq group hgroup, hplaces]
  rfl

/-- The places of courses go up. -/
theorem pairwise_zipIdx (courses : List Course) (start : Nat) :
    (courses.zipIdx start).Pairwise fun a b => a.2 < b.2 := by
  induction courses generalizing start with
  | nil => exact .nil
  | cons course courses ih =>
    refine .cons (fun place hplace => ?_) (ih (start + 1))
    have := (List.mem_zipIdx (x := place.1) (i := place.2) hplace).1
    show start < place.2
    omega

/-- Each course comes before those behind it. -/
theorem pairwise_placesByLevel (program : Program) :
    (placesByLevel program).Pairwise ComesBefore := by
  refine List.pairwise_flatMap.mpr ⟨fun group _ => ?_, ?_⟩
  · -- Inside a group the level is the same, and the places are as they are in the program.
    have hplaces := (pairwise_zipIdx program.courses 0).filter (·.1.level = group.1)
    refine hplaces.imp_of_mem fun ha hb hlt => .inr ⟨?_, hlt⟩
    have hla := (List.mem_filter.mp ha).2
    have hlb := (List.mem_filter.mp hb).2
    simp only [decide_eq_true_eq] at hla hlb
    rw [hla, hlb]
  · -- Between groups the level goes up.
    refine (ascending_coursesByLevel program).imp fun hlt a ha b hb => .inl ?_
    have hla := (List.mem_filter.mp ha).2
    have hlb := (List.mem_filter.mp hb).2
    simp only [decide_eq_true_eq] at hla hlb
    rwa [hla, hlb]

/-- Every place of the program comes up, and once. -/
theorem placesByLevel_perm (program : Program) :
    (placesByLevel program).Perm program.courses.zipIdx := by
  have hnodup : (placesByLevel program).Nodup := by
    refine (pairwise_placesByLevel program).imp fun h hsame => ?_
    subst hsame
    rcases h with h | ⟨_, h⟩ <;> omega
  have hnodup' : program.courses.zipIdx.Nodup := by
    refine (pairwise_zipIdx program.courses 0).imp fun h hsame => ?_
    subst hsame
    omega
  -- Neither list has a place twice, so it is enough that both have the same places.
  refine (List.perm_ext_iff_of_nodup hnodup hnodup').mpr fun place => ?_
  simp only [placesByLevel, List.mem_flatMap, List.mem_filter, decide_eq_true_eq]
  constructor
  · rintro ⟨_, _, hplace, _⟩
    exact hplace
  · intro hplace
    -- The level of a course is that of one of the groups.
    have hcourse : place.1 ∈ program.courses := by
      rw [← List.zipIdx_map_fst 0 program.courses]
      exact List.mem_map_of_mem hplace
    have hlevel := ((grouped_coursesByLevel program).covered place.1.level).mpr
      (List.mem_map_of_mem hcourse)
    obtain ⟨group, hgroup, hsame⟩ := List.mem_map.mp hlevel
    exact ⟨group, hgroup, hplace, hsame.symm⟩

/-- **Every course is listed once.** -/
theorem coursesByLevel_perm (program : Program) :
    (program.coursesByLevel.flatMap (·.2)).Perm program.courses := by
  have hcourses := (placesByLevel_perm program).map Prod.fst
  rwa [map_fst_placesByLevel, List.zipIdx_map_fst] at hcourses

/-- The order in which a stable sort by levels puts courses, whose places are told along with them. -/
theorem zipIdxLE_of_comesBefore {a b : Course × Nat} (h : ComesBefore a b) :
    List.zipIdxLE (fun a b => a.level.bits ≤ b.level.bits) a b = true := by
  rcases h with h | ⟨hsame, hplace⟩
  · simp [List.zipIdxLE, Nat.le_of_lt h, Nat.not_le.mpr h]
  · simp [List.zipIdxLE, hsame, Nat.le_of_lt hplace]

/-- Sorting the courses by level, stably, puts them in the order of the groups. -/
theorem mergeSort_eq_placesByLevel (program : Program) :
    program.courses.zipIdx.mergeSort
        (List.zipIdxLE fun a b => decide (a.level.bits ≤ b.level.bits))
      = placesByLevel program := by
  refine List.Perm.eq_of_pairwise (fun a b ha hb hle hge => ?_) (List.pairwise_mergeSort ?_ ?_ _)
    ((pairwise_placesByLevel program).imp zipIdxLE_of_comesBefore)
    ((List.mergeSort_perm _ _).trans (placesByLevel_perm program).symm)
  · -- Two courses, neither of which comes before the other, have one place.
    have hplace : a.2 = b.2 := by
      simp only [List.zipIdxLE, decide_eq_true_eq] at hle hge
      grind
    have ha' : (a.1, a.2) ∈ program.courses.zipIdx := List.mem_mergeSort.mp ha
    have hb' : (b.1, b.2) ∈ program.courses.zipIdx := (placesByLevel_perm program).mem_iff.mp hb
    rw [List.mk_mem_zipIdx_iff_getElem?] at ha' hb'
    rw [hplace, hb', Option.some.injEq] at ha'
    exact Prod.ext ha'.symm hplace
  · apply List.zipIdxLE_trans
    simp only [decide_eq_true_eq]
    omega
  · apply List.zipIdxLE_total
    simp only [Bool.or_eq_true, decide_eq_true_eq]
    omega

/-! ## Stable partitions -/

/-- Whether groups are the courses cut into those of one level, which come in ascending order, where
courses of one level stay in the order in which they are given. -/
structure IsStablePartition (courses : List Course) (groups : List (Level × List Course)) :
    Prop where
  ascending : groups.Pairwise fun a b => a.1.bits < b.1.bits
  nonempty : ∀ group ∈ groups, group.2 ≠ []
  uniform : ∀ group ∈ groups, ∀ course ∈ group.2, course.level = group.1
  sorted : groups.flatMap (·.2) = courses.mergeSort fun a b => a.level.bits ≤ b.level.bits
  /-- Each place comes up once, and places of one level in ascending order. -/
  places : ∃ places : List (Course × Nat), places.map (·.1) = groups.flatMap (·.2)
    ∧ places.Perm courses.zipIdx ∧ places.Pairwise ComesBefore

/-- **The courses by level are a stable partition.** Every group has the courses of one level, there
are some, and the levels ascend. One group behind the other, they are the courses of the program as
a stable sort by level puts them. -/
theorem coursesByLevel_isStablePartition (program : Program) :
    IsStablePartition program.courses program.coursesByLevel where
  ascending := ascending_coursesByLevel program
  nonempty _ hgroup := (grouped_coursesByLevel program).ne_nil hgroup
  uniform _ hgroup _ hcourse := (grouped_coursesByLevel program).level_eq hgroup hcourse
  sorted := by
    rw [← List.mergeSort_zipIdx, mergeSort_eq_placesByLevel]
    exact (map_fst_placesByLevel program).symm
  places := ⟨placesByLevel program, map_fst_placesByLevel program, placesByLevel_perm program,
    pairwise_placesByLevel program⟩

end Program

end Syllabus
