import Syllabus.Date
import Syllabus.Program.Basic
import Syllabus.Decimal.Shortest
import Syllabus.Json.Basic

/-!
# Syllabus: values in templates

What a name in a template can stand for. Besides plain values there are records: views of the
parts of a program, and records made of named fields. A view carries the parts that it lies in, so
that a template can go from a page to its lesson, course and program.
-/

namespace Syllabus.Template

/-- A part of a program as a template sees it, with what it is a part of. -/
inductive View where
  | program (program : Program)
  /-- The courses of one level. -/
  | levelGroup (program : Program) (level : Level) (courses : List Course)
  | course (program : Program) (course : Course)
  | lesson (program : Program) (course : Course) (lesson : Lesson)
  | page (program : Program) (course : Course) (lesson : Lesson) (page : Page)

def View.kind : View → String
  | program _ => "Program"
  | levelGroup .. => "LevelGroup"
  | course .. => "Course"
  | lesson .. => "Lesson"
  | page .. => "Page"

/-- A value in a template. -/
inductive Value where
  | null
  | bool (value : Bool)
  | int (value : Int)
  | float (value : Float)
  | text (value : String)
  | date (value : Date)
  | list (items : List Value)
  | view (view : View)
  /-- A record of named fields, which may have elements, too. -/
  | record (kind : String) (fields : List (String × Value)) (items : Option (List Value))

namespace Value

/-- The value of a text that may be absent. -/
def ofOptionalText : Option String → Value
  | none => .null
  | some s => .text s

/-- The value of a count. Counts beyond the largest signed number of 64 bits are cut. -/
def ofNat (n : Nat) : Value := .int (min n (Nat.pow 2 63 - 1) : Nat)

def ofPosition : Option Nat → Value
  | none => .null
  | some n => .ofNat n

/-- The value of a page, lesson or course number. -/
def ofId (id : Id) : Value := .int id.toNat

/-- The word for what kind of value it is. -/
def kind : Value → String
  | null => "null"
  | bool _ => "a boolean"
  | int _ => "an integer"
  | float _ => "a number"
  | text _ => "a string"
  | date _ => "a date"
  | list _ => "a list"
  | view v => v.kind
  | record kind _ _ => kind

mutual

/-- What is written for a value. -/
def display : Value → String
  | null => ""
  | bool value => toString value
  | int value => toString value
  | float value => Decimal.floatText value
  | text value => value
  | date value => value.text
  | list items => ", ".intercalate (displayAll items)
  | view v => v.kind
  | record kind _ _ => kind

/-- What is written for each of several values. -/
def displayAll : List Value → List String
  | [] => []
  | value :: rest => display value :: displayAll rest

end

/-- The portions in which an integer is written: the sign is one of its own. -/
def intPortions : Int → List String
  | .ofNat n => [toString n]
  | .negSucc n => ["-", toString (n + 1)]

mutual

/-- The texts that are written for a value one after the other, which make up what is displayed:
a list is written item by item, with the commas between them, and a number part by part. -/
def portions : Value → List String
  | null => []
  | int value => intPortions value
  | float value => Decimal.floatPortions value
  | list items => portionsAll items
  -- A text is one portion even if it is empty, and so are a date and the name of a kind.
  | value => [value.display]

/-- The texts that are written for the items of a list. -/
def portionsAll : List Value → List String
  | [] => []
  | [value] => portions value
  | value :: next :: rest => portions value ++ ", " :: portionsAll (next :: rest)

end

mutual

def ofJson : Json → Value
  | .null => .null
  | .bool value => .bool value
  -- A whole number that has no place among the signed ones of 64 bits is taken as a float.
  | .int value => if value < 2 ^ 63 then .int value else .float (UInt64.ofNat value.toNat).toFloat
  | .float value => .float value
  | .string value => .text value
  | .array items => .list (ofJsonItems items)
  -- A record of the data has fields and no elements: no loop runs over it.
  | .object entries => .record "object" (ofJsonEntries entries) none

def ofJsonItems : List Json → List Value
  | [] => []
  | item :: rest => ofJson item :: ofJsonItems rest

def ofJsonEntries : List (String × Json) → List (String × Value)
  | [] => []
  | (key, item) :: rest => (key, ofJson item) :: ofJsonEntries rest

end

end Value

namespace View

def courses (program : Program) (courses : List Course) : Value :=
  .list (courses.map fun course => .view (.course program course))

def programField? (program : Program) : String → Option Value
  | "name" => some (.text program.name)
  | "type" => some (.ofOptionalText program.kind)
  | "author" => some (.ofOptionalText program.author)
  | "has_author" => some (.bool program.author.isSome)
  | "level" => some (.text program.level.text)
  | "description" => some (.ofOptionalText program.description)
  | "has_description" => some (.bool program.description.isSome)
  | "icon_file" => some (.ofOptionalText program.icon)
  | "cover_file" => some (.ofOptionalText program.cover)
  | "courses" => some (courses program program.courses)
  | "course_count" => some (.ofNat program.courses.length)
  | _ => none

def levelGroupField? (program : Program) (level : Level) (group : List Course) :
    String → Option Value
  | "level" => some (.text level.text)
  | "courses" => some (courses program group)
  | "course_count" => some (.ofNat group.length)
  | _ => none

def courseField? (program : Program) (course : Course) : String → Option Value
  | "id" => some (.ofId course.id)
  | "name" => some (.text course.name)
  | "description" => some (.ofOptionalText course.description)
  | "has_description" => some (.bool course.description.isSome)
  | "level" => some (.text course.level.text)
  | "pic_file" => some (.ofOptionalText course.picture)
  | "dir_name" => some (.text course.directoryName)
  -- Zero where the first lesson is missing or has no pages.
  | "first_page" => some (.ofId course.firstPageId)
  | "lessons" =>
    some (.list (course.lessons.map fun lesson => .view (.lesson program course lesson)))
  | "lesson_count" => some (.ofNat course.lessons.length)
  | "page_count" => some (.ofNat course.pages.length)
  | "program" => some (.view (.program program))
  | _ => none

def lessonField? (program : Program) (course : Course) (lesson : Lesson) : String → Option Value
  | "id" => some (.ofId lesson.id)
  | "name" => some (.text lesson.name)
  | "description" => some (.ofOptionalText lesson.description)
  | "has_description" => some (.bool lesson.description.isSome)
  | "sort" => some (.ofPosition (course.lessonPosition lesson.id))
  | "first_page" => some (.ofId lesson.firstPageId)
  | "pages" =>
    some (.list (lesson.pages.map fun page => .view (.page program course lesson page)))
  | "page_count" => some (.ofNat lesson.pages.length)
  | "course" => some (.view (.course program course))
  | _ => none

def pageField? (program : Program) (course : Course) (lesson : Lesson) (page : Page) :
    String → Option Value
  | "id" => some (.ofId page.id)
  | "name" => some (.ofOptionalText page.name)
  | "has_name" => some (.bool page.name.isSome)
  | "last_update" => some (page.lastUpdate.elim .null .date)
  | "has_last_update" => some (.bool page.lastUpdate.isSome)
  | "rule" => some (.ofOptionalText page.rule)
  | "has_rule" => some (.bool page.rule.isSome)
  | "sort" => some (.ofPosition (lesson.pagePosition page.id))
  -- A page without a neighbour gives the number zero, which the flags tell from any other.
  | "prev_page" => some (.ofId (course.previousPageId page.id))
  | "next_page" => some (.ofId (course.nextPageId page.id))
  | "has_prev" => some (.bool (course.previousPageId page.id != 0))
  | "has_next" => some (.bool (course.nextPageId page.id != 0))
  | "lesson" => some (.view (.lesson program course lesson))
  | "course" => some (.view (.course program course))
  | _ => none

def field? : View → String → Option Value
  | program p => programField? p
  | levelGroup p level group => levelGroupField? p level group
  | course p c => courseField? p c
  | lesson p c l => lessonField? p c l
  | page p c l pg => pageField? p c l pg

/-- The elements of a view: only the courses of a level are a sequence of their own. -/
def items? : View → Option (List Value)
  | levelGroup p _ group => some (group.map fun course => .view (.course p course))
  | _ => none

end View

namespace Value

/-- The field of a value. Only records have fields. -/
def field? : Value → String → Option Value
  | view v, name => v.field? name
  | record _ fields _, name => Table.find? fields name
  | _, _ => none

/-- The elements of a value: the items of a list, the characters of a text, or the elements of a
record that has some. -/
def items? : Value → Option (List Value)
  | list items => some items
  | text s => some (s.toList.map fun c => .text (.singleton c))
  | view v => v.items?
  | record _ _ items => items
  | _ => none

/-- Follows the fields of a path. The error is the first field that is not there, with the kind
of the value that does not have it. -/
def resolve (value : Value) : List String → Except (String × String) Value
  | [] => .ok value
  | field :: path =>
    match value.field? field with
    -- The kind is that of the value reached so far, not of the one the path starts from.
    | none => .error (field, value.kind)
    | some next => next.resolve path

end Value

end Syllabus.Template
