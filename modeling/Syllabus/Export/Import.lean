import Syllabus.Export.Basic
import Syllabus.Export.Image

/-!
# Syllabus: importing courses

An export becomes a course with the help of a list of numbers, in which lessons and pages stand
mixed: each page belongs to the lesson named before it, and lessons and pages come in the order in
which the list first names them. What the list does not name comes last, in the order of its
number, and pages without a place go to the first lesson. Lessons without pages are left out.
-/

namespace Syllabus

/-- What an import is told besides the export. -/
structure ImportOptions where
  /-- The numbers of lessons and pages, mixed. -/
  order : List Id := []
  /-- The directory of the course, which is also its name if the export has none. -/
  fileName : Option String := none

/-- A course with the places of the images that its pages refer to. -/
structure ImportedCourse where
  course : Course
  images : List String
deriving DecidableEq

/-- Why an export cannot be imported. -/
inductive ImportError where
  /-- The text is no course export. -/
  | unreadable
  | noLessons (name : String)
deriving DecidableEq

def ImportError.message : ImportError → String
  | unreadable => "invalid course export: the text does not describe a course"
  | noLessons name => s!"course export '{name}' contains no lessons"

/-- A text that is not empty. -/
def unlessEmpty (s : Option String) : Option String := s.filter (· ≠ "")

namespace Export

/-- The place of a number in the order list; the length of the list if it is not there. -/
def rank (order : List Id) (id : Id) : Nat := order.findIdx (· == id)

/-- Whether a rank and a number come no later than others. Of equal ranks the smaller number comes
first. -/
def comesBefore (a b : Nat × Id) : Bool := a.1 < b.1 || (a.1 == b.1 && a.2 ≤ b.2)

/-- Things in the order of the ranks of their numbers. -/
def inOrder {α : Type} (order : List Id) (idOf : α → Id) (things : List α) : List α :=
  let ranked := things.map fun thing => ((rank order (idOf thing), idOf thing), thing)
  (ranked.mergeSort fun a b => comesBefore a.1 b.1).map (·.2)

/-- Every number of the list that names no lesson, with the lesson named before it. The lesson
`current` is taken to stand before the list. -/
def placements (isLesson : Id → Bool) (current : Id) : List Id → List (Id × Id)
  | [] => []
  | id :: rest =>
    if isLesson id then placements isLesson id rest
    else (id, current) :: placements isLesson current rest

/-- The lesson that a page belongs to: the one of its last placement, or the first lesson. -/
def ownerOf (placements : List (Id × Id)) (first page : Id) : Id :=
  -- A page that the list names twice stays where it is named last.
  (placements.reverse.lookup page).getD first

/-- The pages of an export, in the order of their numbers. -/
def pages (exported : Export) : List Page :=
  exported.items.filterMap fun (id, item) => item.text.map fun text =>
    { id, name := unlessEmpty item.title, rule := some (localizeText text).1 }

/-- The places of the images in all items with a text, in the order of their numbers. -/
def images (exported : Export) : List String :=
  exported.items.flatMap fun (_, item) => (item.text.map (localizeText · |>.2)).getD []

/-- The lessons of an export in their order, without pages. -/
def orderedLessons (exported : Export) (order : List Id) : List Lesson :=
  inOrder order Lesson.id <| exported.lessons.map fun (id, lesson) =>
    { id, name := (unlessEmpty lesson.name).getD "", description := unlessEmpty lesson.description }

def courseName (exported : Export) (options : ImportOptions) : String :=
  ((unlessEmpty exported.name).or options.fileName).getD "Untitled"

def toCourse (exported : Export) (options : ImportOptions) : Except ImportError ImportedCourse :=
  let order := options.order
  let name := exported.courseName options
  match exported.orderedLessons order with
  | [] => .error (.noLessons name)
  | first :: rest =>
    let lessons := first :: rest
    -- Pages that the list names before any lesson belong to the first lesson.
    let placed := placements (fun id => lessons.any (·.id == id)) first.id order
    -- Pages come in the order of the whole list, whichever lesson they belong to.
    let owned := (inOrder order Page.id exported.pages).map fun page =>
      (ownerOf placed first.id page.id, page)
    let filled := lessons.map fun lesson =>
      { lesson with pages := (owned.filter (·.1 == lesson.id)).map (·.2) }
    .ok {
      course := {
        fileName := options.fileName
        name
        description := unlessEmpty exported.description
        lessons := filled.filter fun lesson => !lesson.pages.isEmpty }
      images := exported.images }

end Export

def importCourse (text : String) (options : ImportOptions) : Except ImportError ImportedCourse :=
  match Export.read? text with
  | none => .error .unreadable
  | some exported => exported.toCourse options

end Syllabus
