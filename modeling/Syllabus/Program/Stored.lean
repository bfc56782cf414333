import Syllabus.Datum
import Syllabus.Program.Basic

/-!
# Syllabus: the stored form of a program

The datum that a program is stored as, and the program that a datum stands for. What is absent is
not written. The identity, order and names of the entries are fixed here, whatever the notation.
-/

namespace Syllabus

/-- The entry of something that may be absent. -/
def optionalEntry (name : String) : Option String → List (String × Datum)
  | none => []
  | some s => [(name, .ofText s)]

def Level.ofDatum? (datum : Datum) : Option Level :=
  datum.text? >>= fun s => (Level.ofString s).toOption

def Date.ofDatum? (datum : Datum) : Option Date := datum.text? >>= Date.ofString?

namespace Page

def toDatum (page : Page) : Datum :=
  .record (("id", .ofNat page.id.toNat) :: optionalEntry "name" page.name
    ++ optionalEntry "last_update" (page.lastUpdate.map Date.text)
    ++ optionalEntry "rule" page.rule)

def ofDatum? (datum : Datum) : Option Page := do
  match ← datum.fields? ["id", "name", "last_update", "rule"] with
  -- Only the number has to be there.
  | [id, name, lastUpdate, rule] =>
    some {
      id := ← required? Datum.word? id
      name := ← orElse? none (Datum.optional? Datum.text?) name
      lastUpdate := ← orElse? none (Datum.optional? Date.ofDatum?) lastUpdate
      rule := ← orElse? none (Datum.optional? Datum.text?) rule }
  | _ => none

end Page

namespace Lesson

def toDatum (lesson : Lesson) : Datum :=
  .record (("id", .ofNat lesson.id.toNat) :: ("name", .ofText lesson.name)
    :: optionalEntry "description" lesson.description
    ++ [("pages", .list (lesson.pages.map Page.toDatum) false)])

def ofDatum? (datum : Datum) : Option Lesson := do
  match ← datum.fields? ["id", "name", "description", "pages"] with
  -- A lesson without the entry of its pages has none.
  | [id, name, description, pages] =>
    some {
      id := ← required? Datum.word? id
      name := ← required? Datum.text? name
      description := ← orElse? none (Datum.optional? Datum.text?) description
      pages := ← orElse? [] (Datum.list? Page.ofDatum?) pages }
  | _ => none

end Lesson

namespace Course

def toDatum (course : Course) : Datum :=
  .record (("id", .ofNat course.id.toNat) :: optionalEntry "file_name" course.fileName
    ++ ("name", .ofText course.name) :: optionalEntry "description" course.description
    ++ ("level", .ofText course.level.text) :: optionalEntry "pic_file" course.picture
    ++ [("lessons", .list (course.lessons.map Lesson.toDatum) false)])

def ofDatum? (datum : Datum) : Option Course := do
  match ← datum.fields?
      ["id", "file_name", "name", "description", "level", "pic_file", "lessons"] with
  | [id, fileName, name, description, level, picture, lessons] =>
    some {
      -- Where there is no number, the course is one of number zero.
      id := ← orElse? 0 Datum.word? id
      fileName := ← orElse? none (Datum.optional? Datum.text?) fileName
      name := ← required? Datum.text? name
      description := ← orElse? none (Datum.optional? Datum.text?) description
      level := ← orElse? .unknown Level.ofDatum? level
      picture := ← orElse? none (Datum.optional? Datum.text?) picture
      lessons := ← orElse? [] (Datum.list? Lesson.ofDatum?) lessons }
  | _ => none

end Course

namespace Program

def toDatum (program : Program) : Datum :=
  .record (("name", .ofText program.name) :: optionalEntry "type" program.kind
    ++ optionalEntry "author" program.author
    ++ ("level", .ofText program.level.text) :: optionalEntry "description" program.description
    ++ optionalEntry "icon_file" program.icon ++ optionalEntry "cover_file" program.cover
    -- The list is written even if it is empty, and in the order of the program.
    ++ [("courses", .list (program.courses.map Course.toDatum) false)])

def ofDatum? (datum : Datum) : Option Program := do
  match ← datum.fields?
      ["name", "type", "author", "level", "description", "icon_file", "cover_file", "courses"] with
  | [name, kind, author, level, description, icon, cover, courses] =>
    some {
      name := ← required? Datum.text? name
      kind := ← orElse? none (Datum.optional? Datum.text?) kind
      author := ← orElse? none (Datum.optional? Datum.text?) author
      level := ← orElse? .unknown Level.ofDatum? level
      description := ← orElse? none (Datum.optional? Datum.text?) description
      icon := ← orElse? none (Datum.optional? Datum.text?) icon
      cover := ← orElse? none (Datum.optional? Datum.text?) cover
      courses := ← orElse? [] (Datum.list? Course.ofDatum?) courses }
  | _ => none

end Program

end Syllabus
