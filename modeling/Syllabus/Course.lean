import Syllabus.Date
import Syllabus.Level

/-!
# Syllabus: courses, lessons and pages

A course is a sequence of lessons, a lesson a sequence of pages. A page is found by its number
within a course: its neighbours are the pages before and after it in the walk through all lessons
in order. Page number zero stands for "no page".
-/

namespace Syllabus

abbrev Id := UInt32

/-- One page of a lesson: a rule of the language, as marked-up text. -/
structure Page where
  id : Id
  name : Option String := none
  lastUpdate : Option Date := none
  rule : Option String := none
deriving DecidableEq

/-- A lesson inside a course. -/
structure Lesson where
  id : Id
  name : String
  description : Option String := none
  pages : List Page := []
deriving DecidableEq

/-- A course inside a program. -/
structure Course where
  id : Id := 0
  /-- The directory of the course's pages, where it is not to be named by the course's number. -/
  fileName : Option String := none
  name : String
  description : Option String := none
  level : Level := .unknown
  picture : Option String := none
  lessons : List Lesson := []
deriving DecidableEq

/-- The position, counted from one, of the first item that meets the test. -/
def positionOf {α : Type} (test : α → Bool) (items : List α) : Option Nat :=
  (items.findIdx? test).map (· + 1)

namespace Lesson

/-- The number of the first page, zero if there is none. -/
def firstPageId (lesson : Lesson) : Id := (lesson.pages.head?.map Page.id).getD 0

def pagePosition (lesson : Lesson) (id : Id) : Option Nat := positionOf (·.id == id) lesson.pages

end Lesson

namespace Course

/-- The directory of the course's pages inside the site of its program. -/
def directoryName (course : Course) : String := course.fileName.getD (toString course.id.toNat)

/-- All pages, each with its lesson, in the order in which they are read. -/
def pages (course : Course) : List (Lesson × Page) :=
  course.lessons.flatMap fun lesson => lesson.pages.map fun page => (lesson, page)

/-- The numbers of all pages in the order in which they are read. -/
def pageIds (course : Course) : List Id := course.pages.map (·.2.id)

/-- The number of the first page of the first lesson, zero if there is none. -/
def firstPageId (course : Course) : Id := (course.lessons.head?.map Lesson.firstPageId).getD 0

/-- What stands before the first occurrence of `id`, where `last` stands before the whole list;
zero if `id` does not occur. -/
def previousIn (id : Id) (last : Id) : List Id → Id
  | [] => 0
  | first :: rest => if first == id then last else previousIn id first rest

/-- What stands behind the first occurrence of `id`, zero if nothing does. -/
def nextIn (id : Id) : List Id → Id
  | [] => 0
  -- Only the first occurrence counts, as it does for the number before.
  | first :: rest => if first == id then rest.headD 0 else nextIn id rest

/-- The number of the page before the given one, zero if there is none. -/
def previousPageId (course : Course) (id : Id) : Id := previousIn id 0 course.pageIds

/-- The number of the page after the given one, zero if there is none. -/
def nextPageId (course : Course) (id : Id) : Id := nextIn id course.pageIds

def lessonPosition (course : Course) (id : Id) : Option Nat :=
  positionOf (·.id == id) course.lessons

end Course

end Syllabus
