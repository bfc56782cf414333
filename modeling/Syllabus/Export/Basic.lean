import Syllabus.Course
import Syllabus.Json.Record
import Syllabus.Text.Digits

/-!
# Syllabus: course exports

An export holds one course as two flat maps, of lessons and of items, by number. It does not say
which item belongs to which lesson. This module reads an export from JSON.

An object of the export may also be written as an array of its entries in their order. Entries
that are not known are passed over without a look at what they hold, a known entry must not be
repeated, and of two lessons or items of one number the later counts.
-/

namespace Syllabus

/-- A lesson of an export. -/
structure ExportedLesson where
  name : Option String
  description : Option String
deriving DecidableEq

/-- An item of an export. Only an item with a text becomes a page. -/
structure ExportedItem where
  title : Option String
  text : Option String
deriving DecidableEq

/-- Things by number, in ascending order of the numbers. -/
abbrev ById (α : Type) := List (Id × α)

def ById.insert {α : Type} (id : Id) (thing : α) : ById α → ById α
  | [] => [(id, thing)]
  | (key, old) :: rest =>
    if id < key then (id, thing) :: (key, old) :: rest
    else if id = key then (id, thing) :: rest
    else (key, old) :: insert id thing rest

/-- A course as it is exported. -/
structure Export where
  name : Option String := none
  description : Option String := none
  lessons : ById ExportedLesson := []
  items : ById ExportedItem := []
deriving DecidableEq

namespace Export

open Json (Raw)

/-- Reads two entries of a record, either of which may be absent. -/
def pair? {α β : Type} (first second : String) (readFirst : Raw → Option (Option α))
    (readSecond : Raw → Option (Option β)) (raw : Raw) : Option (Option α × Option β) := do
  match ← raw.allFields? [first, second] with
  | [a, b] => some (← orElse? none readFirst a, ← orElse? none readSecond b)
  | _ => none

/-- Reads the record that holds the text of an item. -/
def itemText? : Raw → Option (Option String)
  | .null => some none
  | raw => do
    match ← raw.allFields? ["text"] with
    | [text] => orElse? none Raw.optionalText? text
    | _ => none

/-- Reads the name and the description of a course or a lesson. -/
def nameAndDescription? : Raw → Option (Option String × Option String) :=
  pair? "name" "description" Raw.optionalText? Raw.optionalText?

def lesson? (raw : Raw) : Option ExportedLesson :=
  (nameAndDescription? raw).map fun (name, description) => ⟨name, description⟩

def item? (raw : Raw) : Option ExportedItem :=
  (pair? "title" "field" Raw.optionalText? itemText? raw).map fun (title, text) => ⟨title, text⟩

/-- Reads a map by numbers. A key is a number of 32 bits in its canonical spelling. -/
def byId? {α : Type} (read : Raw → Option α) : Raw → Option (ById α)
  | .object entries =>
    entries.foldlM (fun things (key, value) => do
      -- The number is checked before the value, but either of them fails the whole map.
      let id ← Text.readCanonical (Nat.pow 2 32) key
      let thing ← read value
      some (ById.insert (.ofNat id) thing things)) []
  | _ => none

def ofRaw? (raw : Raw) : Option Export := do
  match ← raw.fields? ["course", "lesson", "item"] with
  | [course, lessons, items] =>
    let (name, description) ← orElse? (none, none) nameAndDescription? course
    some {
      name, description
      lessons := ← orElse? [] (byId? lesson?) lessons
      items := ← orElse? [] (byId? item?) items }
  | _ => none

def read? (text : String) : Option Export := Raw.read? text.toList >>= ofRaw?

end Export

end Syllabus
