import Syllabus.Datum
import Syllabus.Json.Raw

/-!
# Syllabus: records in JSON texts

A record is written as an object with entries by name, or as an array with its entries in order.
It is read straight from the shape of a text: entries with other names are not looked at, and a
declared name must not be repeated.
-/

namespace Syllabus.Json.Raw

def fields? (declared : List String) : Raw → Option (List (Option Raw))
  | .object entries => do
    let entries ← entries.mapM fun (key, value) => (decodeString key).map fun key => (key, value)
    entriesOf? declared entries
  | .array items => itemsAsEntries? declared items
  | _ => none

/-- The declared entries of a record, which as an array has to hold all of them. -/
def allFields? (declared : List String) (raw : Raw) : Option (List (Option Raw)) := do
  let entries ← raw.fields? declared
  match raw with
  | .array _ => if entries.all Option.isSome then some entries else none
  | _ => some entries

def text? : Raw → Option String
  | .string body => decodeString body
  | _ => none

/-- Reads a text that may be absent. -/
def optionalText? : Raw → Option (Option String)
  | .null => some none
  | raw => raw.text?.map some

end Syllabus.Json.Raw
