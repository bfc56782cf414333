import Syllabus.Course

/-!
# Syllabus: programs

A program is what one site is made from: a sequence of courses with a title, an author and a
level of its own. The courses can be listed by level, each level's courses in the order of the
program.
-/

namespace Syllabus

/-- A named sequence of courses. -/
structure Program where
  name : String
  kind : Option String := none
  author : Option String := none
  level : Level := .unknown
  description : Option String := none
  icon : Option String := none
  cover : Option String := none
  courses : List Course := []
deriving DecidableEq

namespace Program

/-- A program without courses. -/
def named (name : String) : Program := { name }

def courseLevel (program : Program) : Level :=
  program.courses.foldl (fun level course => level.union course.level) .unknown

/-- The program with the level of its courses. It keeps its own when no course names a stage. -/
def withCourseLevel (program : Program) : Program :=
  if program.courseLevel.isUnknown then program
  else { program with level := program.courseLevel }

/-- Adds a course behind the courses of its level, or as a level of its own at the end. -/
def addToGroup (course : Course) : List (Level × List Course) → List (Level × List Course)
  | [] => [(course.level, [course])]
  | (level, courses) :: groups =>
    if level == course.level then (level, courses ++ [course]) :: groups
    else (level, courses) :: addToGroup course groups

/-- The courses by level, in ascending order of levels. -/
def coursesByLevel (program : Program) : List (Level × List Course) :=
  let groups := program.courses.foldl (fun groups course => addToGroup course groups) []
  groups.mergeSort fun a b => a.1.bits ≤ b.1.bits

/-- The program with a course put in the place of the first course of the same directory, or at
the end when there is none. -/
def putCourse (program : Program) (course : Course) : Program :=
  { program with courses := put program.courses }
where
  /-- Replaces the first course of the same directory or appends. -/
  put : List Course → List Course
    | [] => [course]
    | first :: rest =>
      if first.directoryName == course.directoryName then course :: rest else first :: put rest

end Program

end Syllabus
