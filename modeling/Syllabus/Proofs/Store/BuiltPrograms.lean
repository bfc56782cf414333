import Syllabus.Proofs.Store.Upserts

/-!
# Syllabus: programs built course by course

A program that nobody has stored is made when the first course is put into it. However many courses
are then put into what is stored, each comes from outside, and no two share a directory.

* **`Built`**: programs that are reached by putting courses.
* **`Built.of_mem`**, **`Built.distinct`**: what holds of the courses of all of them.
-/

namespace Syllabus

namespace Program

theorem mem_put {course other : Course} {courses : List Course}
    (h : other ∈ putCourse.put course courses) : other = course ∨ other ∈ courses := by
  -- On the courses: the new one is put over the one in its directory, or at the end.
  induction courses with
  | nil => exact .inl (List.mem_singleton.mp h)
  | cons first rest ih =>
    rw [putCourse.put] at h
    split at h
    · exact (List.mem_cons.mp h).imp_right (.tail _)
    · rcases List.mem_cons.mp h with hfirst | hrest
      · exact .inr (List.mem_cons.mpr (.inl hfirst))
      · exact (ih hrest).imp_right (.tail _)

theorem mem_putLeveled {program : Program} {course other : Course}
    (h : other ∈ (program.putLeveled course).courses) :
    other = course ∨ other ∈ program.courses := by
  rw [courses_putLeveled] at h
  exact mem_put h

theorem distinct_putLeveled {program : Program}
    (h : (program.courses.map Course.directoryName).Nodup)
    (course : Course) : ((program.putLeveled course).courses.map Course.directoryName).Nodup := by
  -- By directory, putting a course sets an entry, which makes no name come twice.
  rw [← names_byDirectory] at h
  rw [courses_putLeveled, ← names_byDirectory, byDirectory_put]
  exact Table.nodup_insert h _ _

end Program

namespace Store

variable {home : Path} {key : String} {accepted : Course → Prop} {program : Program}

/-- Programs that are reached from none by putting courses of some kind: each course is put where
nothing is stored, or where what is stored is such a program. -/
inductive Built (home : Path) (key : String) (accepted : Course → Prop) : Program → Prop where
  | put {course : Course} {program : Program} {tree later : FileTree} (hcourse : accepted course)
      (hstored : ∀ before, load tree home key = .ok before → Built home key accepted before)
      (hupsert : upsert home key course tree = .ok program later) :
      Built home key accepted program

namespace Built

/-- The courses are those that have been put. -/
theorem of_mem (h : Built home key accepted program) :
    ∀ course ∈ program.courses, accepted course := by
  induction h with
  | @put course program tree later hcourse _ hupsert ih =>
    obtain ⟨before, hbefore, rfl, _⟩ := exists_of_upsert hupsert
    intro other hother
    rcases Program.mem_putLeveled hother with rfl | hother
    · exact hcourse
    · rcases hbefore with hload | ⟨rfl, _⟩
      · exact ih before hload other hother
      · cases hother

/-- No two courses share a directory. -/
theorem distinct (h : Built home key accepted program) :
    (program.courses.map Course.directoryName).Nodup := by
  induction h with
  | @put course program tree later _ _ hupsert ih =>
    obtain ⟨before, hbefore, rfl, _⟩ := exists_of_upsert hupsert
    apply Program.distinct_putLeveled
    rcases hbefore with hload | ⟨rfl, _⟩
    · exact ih before hload
    · exact List.nodup_nil

end Built

end Store

end Syllabus
