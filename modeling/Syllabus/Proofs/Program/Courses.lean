import Syllabus.Proofs.Table
import Syllabus.Program.Basic

/-!
# Syllabus: the courses of a program

* **`Program.collected`**: the program that courses make which are put into a new one, one after the
  other. It has the last course for every directory, in the order in which the directories came up,
  and a level that contains those of the courses.
-/

namespace Syllabus

namespace Program

/-! ## By directory -/

/-- Courses under the names of their directories. -/
def byDirectory (courses : List Course) : Table Course :=
  courses.map fun course => (course.directoryName, course)

/-- The courses stand under the names of their directories. -/
theorem names_byDirectory (courses : List Course) :
    Table.names (byDirectory courses) = courses.map Course.directoryName := by
  rw [Table.names, byDirectory, List.map_map]
  rfl

/-- Putting a course is setting the entry of its directory. -/
theorem byDirectory_put (course : Course) (courses : List Course) :
    byDirectory (putCourse.put course courses)
      = Table.insert (byDirectory courses) course.directoryName course := by
  -- On the courses: the first one in the directory is replaced, where the table has it too.
  induction courses with
  | nil => rfl
  | cons first rest ih =>
    rw [putCourse.put]
    by_cases hname : first.directoryName = course.directoryName
    · rw [if_pos (beq_iff_eq.mpr hname)]
      show _ = Table.insert ((first.directoryName, first) :: byDirectory rest) _ _
      rw [Table.insert, if_pos hname, hname]
      rfl
    · rw [if_neg (by simpa using hname)]
      show (first.directoryName, first) :: byDirectory (putCourse.put course rest) = _
      rw [ih]
      show _ = Table.insert ((first.directoryName, first) :: byDirectory rest) _ _
      rw [Table.insert, if_neg hname]

/-- Putting a course again changes nothing. -/
theorem put_put (course : Course) (courses : List Course) :
    putCourse.put course (putCourse.put course courses) = putCourse.put course courses := by
  -- On the courses: the one that is put is in the place where it was put before.
  induction courses with
  | nil => simp [putCourse.put]
  | cons first rest ih =>
    rw [putCourse.put]
    split
    · rw [putCourse.put, if_pos (beq_iff_eq.mpr rfl)]
    · next hother => rw [putCourse.put, if_neg hother, ih]

end Program

/-! ## Levels -/

namespace Level

/-- A level contains another if it has all marks of it. -/
theorem contains_iff {a b : Level} :
    a.contains b = true ↔ (b.beginner = true → a.beginner = true)
      ∧ (b.intermediate = true → a.intermediate = true)
      ∧ (b.advanced = true → a.advanced = true) := by
  obtain ⟨a1, a2, a3⟩ := a
  obtain ⟨b1, b2, b3⟩ := b
  simp [contains, union]

theorem contains_refl (level : Level) : level.contains level = true :=
  contains_iff.mpr ⟨id, id, id⟩

/-- What is in a level that is in a third is in the third. -/
theorem contains_trans {a b c : Level} (hab : a.contains b = true) (hbc : b.contains c = true) :
    a.contains c = true := by
  obtain ⟨h1, h2, h3⟩ := contains_iff.mp hab
  obtain ⟨h1', h2', h3'⟩ := contains_iff.mp hbc
  exact contains_iff.mpr ⟨h1 ∘ h1', h2 ∘ h2', h3 ∘ h3'⟩

/-- Two levels together contain the first. -/
theorem union_contains_left (a b : Level) : (a.union b).contains a = true :=
  contains_iff.mpr ⟨Bool.or_eq_true_iff.mpr ∘ .inl, Bool.or_eq_true_iff.mpr ∘ .inl,
    Bool.or_eq_true_iff.mpr ∘ .inl⟩

theorem union_contains_right (a b : Level) : (a.union b).contains b = true :=
  contains_iff.mpr ⟨Bool.or_eq_true_iff.mpr ∘ .inr, Bool.or_eq_true_iff.mpr ∘ .inr,
    Bool.or_eq_true_iff.mpr ∘ .inr⟩

/-- The unknown level has no mark, so all contain it. -/
theorem contains_unknown (level : Level) : level.contains unknown = true :=
  contains_iff.mpr ⟨nofun, nofun, nofun⟩

theorem eq_unknown_of_contains {level : Level} (h : unknown.contains level = true) :
    level = unknown := by
  obtain ⟨h1, h2, h3⟩ := contains_iff.mp h
  obtain ⟨_ | _, _ | _, _ | _⟩ := level <;> first | rfl | simp_all [unknown]

end Level

namespace Program

/-- The levels of courses joined to another one. -/
def joinLevels (start : Level) (courses : List Course) : Level :=
  courses.foldl (fun level course => level.union course.level) start

/-- Joined levels contain the one they start from and that of each course. -/
theorem joinLevels_contains (start : Level) (courses : List Course) :
    (joinLevels start courses).contains start = true
      ∧ ∀ course ∈ courses, (joinLevels start courses).contains course.level = true := by
  -- On the courses, with the level that those in front are joined to.
  induction courses generalizing start with
  | nil => exact ⟨start.contains_refl, fun _ h => absurd h List.not_mem_nil⟩
  | cons first rest ih =>
    obtain ⟨hstart, hrest⟩ := ih (start.union first.level)
    -- Nothing that has been joined is lost to the others behind it.
    refine ⟨Level.contains_trans hstart (start.union_contains_left _), fun course hcourse => ?_⟩
    rcases List.mem_cons.mp hcourse with rfl | hcourse
    · exact Level.contains_trans hstart (start.union_contains_right _)
    · exact hrest course hcourse

/-- Unknown levels are joined to an unknown one. -/
theorem joinLevels_unknown {courses : List Course}
    (h : ∀ course ∈ courses, course.level = .unknown) : joinLevels .unknown courses = .unknown := by
  induction courses with
  | nil => rfl
  | cons first rest ih =>
    obtain ⟨hfirst, hrest⟩ := List.forall_mem_cons.mp h
    rw [joinLevels, List.foldl_cons, hfirst]
    exact ih hrest

/-- The level of the courses contains that of each. -/
theorem courseLevel_contains {program : Program} {course : Course}
    (h : course ∈ program.courses) : program.courseLevel.contains course.level = true :=
  (joinLevels_contains .unknown program.courses).2 course h

/-- The level of the courses says something if one of the courses does. -/
theorem isUnknown_courseLevel {program : Program} :
    program.courseLevel.isUnknown = true ↔ ∀ course ∈ program.courses, course.level = .unknown := by
  rw [Level.isUnknown, beq_iff_eq]
  refine ⟨fun h course hcourse => ?_, joinLevels_unknown⟩
  -- A course with a stage would show it in the level of all.
  have hcontains := courseLevel_contains hcourse
  rw [h] at hcontains
  exact Level.eq_unknown_of_contains hcontains

/-- A program gets the level of its courses where one of them has a known one. -/
theorem withCourseLevel_of_known {program : Program}
    (h : ∃ course ∈ program.courses, course.level ≠ .unknown) :
    program.withCourseLevel = { program with level := program.courseLevel } := by
  have hknown : ¬ program.courseLevel.isUnknown = true := by
    rw [isUnknown_courseLevel]
    push Not
    exact h
  rw [withCourseLevel, if_neg hknown]

theorem withCourseLevel_of_unknown {program : Program}
    (h : ∀ course ∈ program.courses, course.level = .unknown) :
    program.withCourseLevel = program := by
  rw [withCourseLevel, if_pos (isUnknown_courseLevel.mpr h)]

theorem courses_withCourseLevel (program : Program) :
    program.withCourseLevel.courses = program.courses := by
  unfold withCourseLevel
  split <;> rfl

/-- The level of a program that has been given one contains that of each course. -/
theorem withCourseLevel_contains {program : Program} {course : Course}
    (h : course ∈ program.courses) : program.withCourseLevel.level.contains course.level = true := by
  -- Where no course names a stage, the program may keep any level.
  by_cases hall : ∀ course ∈ program.courses, course.level = .unknown
  · rw [hall course h]
    exact Level.contains_unknown _
  · push Not at hall
    rw [withCourseLevel_of_known hall]
    exact courseLevel_contains h

/-! ## Courses that are put one after the other -/

/-- The program with a course put into it and the level that it then has. -/
def putLeveled (program : Program) (course : Course) : Program :=
  (program.putCourse course).withCourseLevel

/-- The level of the courses does not depend on that of the program. -/
theorem courseLevel_withCourseLevel (program : Program) :
    program.withCourseLevel.courseLevel = program.courseLevel := by
  -- The courses stay, and nothing but them is looked at.
  rw [courseLevel, courses_withCourseLevel]
  rfl

/-- Giving a program the level of its courses again changes nothing. -/
theorem withCourseLevel_withCourseLevel (program : Program) :
    program.withCourseLevel.withCourseLevel = program.withCourseLevel := by
  rw [withCourseLevel, courseLevel_withCourseLevel]
  split
  · rfl
  · next hknown =>
    rw [withCourseLevel, if_neg hknown]

/-- Putting a course once more changes nothing. -/
theorem putLeveled_putLeveled (program : Program) (course : Course) :
    (program.putLeveled course).putLeveled course = program.putLeveled course := by
  -- The level that has been set stands apart from the courses.
  have hput : (program.putLeveled course).putCourse course = program.putLeveled course := by
    unfold putLeveled
    rw [putCourse, courses_withCourseLevel, putCourse, put_put]
    unfold withCourseLevel
    split <;> rfl
  rw [putLeveled, hput]
  exact withCourseLevel_withCourseLevel _

/-- Putting a course changes the courses as without levels. -/
theorem courses_putLeveled (program : Program) (course : Course) :
    (program.putLeveled course).courses = putCourse.put course program.courses :=
  courses_withCourseLevel _

/-- The level is that of the courses if one of them is known. -/
theorem level_putLeveled_of_known {program : Program} {course : Course}
    (h : ∃ other ∈ (program.putLeveled course).courses, other.level ≠ .unknown) :
    (program.putLeveled course).level = (program.putLeveled course).courseLevel := by
  rw [courses_putLeveled] at h
  rw [putLeveled, courseLevel_withCourseLevel, withCourseLevel_of_known h]

theorem level_putLeveled_of_unknown {program : Program} {course : Course}
    (h : ∀ other ∈ (program.putLeveled course).courses, other.level = .unknown) :
    (program.putLeveled course).level = program.level := by
  rw [courses_putLeveled] at h
  rw [putLeveled, withCourseLevel_of_unknown h]
  rfl

theorem level_putLeveled_contains {program : Program} {course other : Course}
    (h : other ∈ (program.putLeveled course).courses) :
    (program.putLeveled course).level.contains other.level = true := by
  rw [courses_putLeveled] at h
  exact withCourseLevel_contains h

/-- The program that courses make which are put into a new one, one after the other. -/
def collected (key : String) (courses : List Course) : Program := courses.foldl putLeveled (named key)

/-- The last course is put into what the others are collected to. -/
theorem collected_concat (key : String) (courses : List Course) (course : Course) :
    collected key (courses ++ [course]) = (collected key courses).putLeveled course := by
  rw [collected, List.foldl_append]
  rfl

/-- Whether a program is what becomes of a new one when courses are put into it one after the
other. -/
structure Collects (key : String) (courses : List Course) (program : Program) : Prop where
  /-- It differs from a new program in its level and courses only. -/
  isNew : program = { named key with level := program.level, courses := program.courses }
  distinct : (program.courses.map Course.directoryName).Nodup
  /-- The directories stand in the order in which they came up. -/
  inOrder : program.courses.map Course.directoryName
    = (courses.map Course.directoryName).eraseDups
  /-- Each course is the last one of its directory. -/
  last : ∀ course ∈ program.courses,
    courses.findRev? (·.directoryName = course.directoryName) = some course
  known : (∃ course ∈ program.courses, course.level ≠ .unknown) →
    program.level = program.courseLevel
  /-- As long as no course names a stage, the level is that of the program before. -/
  unknown : (∀ course ∈ program.courses, course.level = .unknown) →
    program.level = (collected key courses.dropLast).level
  contains : ∀ course ∈ program.courses, program.level.contains course.level = true

/-- By directory, the courses are put into an empty table one after the other. -/
theorem byDirectory_collected (key : String) (courses : List Course) :
    byDirectory (collected key courses).courses = Table.insertAll [] (byDirectory courses) := by
  induction courses using List.reverseRecOn with
  | nil => rfl
  | append_singleton courses course ih =>
    -- The last course is the last entry.
    have hentries : byDirectory (courses ++ [course])
        = byDirectory courses ++ [(course.directoryName, course)] := List.map_append
    rw [collected_concat, putLeveled, courses_withCourseLevel, putCourse, byDirectory_put, ih,
      hentries, Table.insertAll_concat]

/-- Only the level and the courses differ from those of a new program. -/
theorem collected_isNew (key : String) (courses : List Course) :
    collected key courses = { named key with
      level := (collected key courses).level, courses := (collected key courses).courses } := by
  -- From the end, where the last course is put.
  induction courses using List.reverseRecOn with
  | nil => rfl
  | append_singleton courses course ih =>
    rw [collected_concat, ih]
    unfold putLeveled withCourseLevel
    split <;> rfl

/-- The last entry under a name has the last course in this directory. -/
theorem findRev?_byDirectory (courses : List Course) (name : String) :
    ((byDirectory courses).findRev? (·.1 = name)).map (·.2)
      = courses.findRev? (·.directoryName = name) := by
  rw [byDirectory, findRev?_map, Option.map_map]
  exact congrFun Option.map_id _

/-- No two of the collected courses share a directory. -/
theorem distinct_collected (key : String) (courses : List Course) :
    (Table.names (byDirectory (collected key courses).courses)).Nodup := by
  have hempty : (Table.names ([] : Table Course)).Nodup := List.nodup_nil
  rw [byDirectory_collected]
  exact Table.nodup_insertAll hempty _

/-- Unless there is no course, the last one has been put at the end. -/
theorem eq_nil_or_exists_putLeveled (key : String) (courses : List Course) :
    courses = [] ∨ ∃ course,
      collected key courses = (collected key courses.dropLast).putLeveled course := by
  -- Only whether there is a last course matters here.
  induction courses using List.reverseRecOn with
  | nil => exact .inl rfl
  | append_singleton courses course =>
    exact .inr ⟨course, by rw [List.dropLast_concat, collected_concat]⟩

/-- **Putting courses one after the other.** A new program into which courses are put has one course
for each directory, the last one, in the order in which the directories came up; and its level
contains those of its courses. -/
theorem collects_collected (key : String) (courses : List Course) :
    Collects key courses (collected key courses) where
  isNew := collected_isNew key courses
  distinct := names_byDirectory _ ▸ distinct_collected key courses
  inOrder := by
    rw [← names_byDirectory, byDirectory_collected, Table.names_insertAll, names_byDirectory]
  last course hcourse := by
    have hentry : (course.directoryName, course) ∈ byDirectory (collected key courses).courses :=
      List.mem_map_of_mem hcourse
    have hfind := Table.find?_eq_some_of_mem (distinct_collected key courses) hentry
    rwa [byDirectory_collected, Table.find?_insertAll_eq_last, Table.find?_nil, Option.or_none,
      findRev?_byDirectory] at hfind
  -- The last course has been put with its level, so the level is that of all of them.
  known h := by
    rcases eq_nil_or_exists_putLeveled key courses with rfl | ⟨course, hlast⟩
    · obtain ⟨_, hnone, _⟩ := h
      cases hnone
    · rw [hlast] at h ⊢
      exact level_putLeveled_of_known h
  unknown h := by
    rcases eq_nil_or_exists_putLeveled key courses with rfl | ⟨course, hlast⟩
    · rfl
    · rw [hlast] at h ⊢
      exact level_putLeveled_of_unknown h
  contains course hcourse := by
    rcases eq_nil_or_exists_putLeveled key courses with rfl | ⟨course, hlast⟩
    · cases hcourse
    · rw [hlast] at hcourse ⊢
      exact level_putLeveled_contains hcourse

end Program

end Syllabus
