import Syllabus.Datum
import Syllabus.Json.Basic

/-!
# Syllabus: data in JSON

The datum of a JSON value, and the value of a datum. A string is only ever a text and a number
only ever a number; an array may stand for a record.
-/

namespace Syllabus.Json

mutual

def toDatum : Json → Datum
  | .null => .scalar { presence := .absent }
  -- A negative number, a float and a flag are none of the things that are stored.
  | .int (.ofNat n) => .scalar { number? := some n }
  | .string s => .ofText s
  -- An array may stand for a record by the order of its items.
  | .array items => .list (itemsToData items) true
  | .object entries => .record (entriesToData entries)
  | _ => .other

def itemsToData : List Json → List Datum
  | [] => []
  | item :: rest => toDatum item :: itemsToData rest

def entriesToData : List (String × Json) → List (String × Datum)
  | [] => []
  | (key, item) :: rest => (key, toDatum item) :: entriesToData rest

end

mutual

def ofDatum : Datum → Json
  | .scalar value =>
    -- What can be read as a number is written as one, whatever else it can be read as.
    match value.number?, value.text? with
    | some n, _ => .int n
    | none, some s => .string s
    | none, none => .null
  | .list items _ => .array (itemsOfData items)
  | .record entries => .object (entriesOfData entries)
  | .other => .null

def itemsOfData : List Datum → List Json
  | [] => []
  | item :: rest => ofDatum item :: itemsOfData rest

def entriesOfData : List (String × Datum) → List (String × Json)
  | [] => []
  | (key, item) :: rest => (key, ofDatum item) :: entriesOfData rest

end

end Syllabus.Json
