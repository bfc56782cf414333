import Syllabus.Json.Basic
import Syllabus.Decimal.Shortest

/-!
# Syllabus: writing JSON

Values on one line, and values over several lines with two spaces of indentation for each level.
-/

namespace Syllabus.Json

def hexDigit (n : Nat) : Char := Nat.digitChar n

/-- A character inside a string. Quotes, backslashes and control characters are escaped. -/
def escapeChar (c : Char) : List Char :=
  match c with
  | '"' => ['\\', '"']
  | '\\' => ['\\', '\\']
  | '\x08' => ['\\', 'b']
  | '\x0c' => ['\\', 'f']
  | '\n' => ['\\', 'n']
  | '\r' => ['\\', 'r']
  | '\t' => ['\\', 't']
  | c =>
    -- The characters below a space that have no letter of their own are written by number.
    if c.toNat < 0x20 then ['\\', 'u', '0', '0', hexDigit (c.toNat / 16), hexDigit (c.toNat % 16)]
    else [c]

def quote (s : String) : String := .ofList ('"' :: s.toList.flatMap escapeChar ++ ['"'])

mutual

/-- A value on one line without spaces. -/
def compact : Json → String
  | .null => "null"
  | .bool value => toString value
  | .int value => toString value
  | .float value => Decimal.floatText value
  | .string value => quote value
  | .array items => "[" ++ ",".intercalate (compactItems items) ++ "]"
  | .object entries => "\x7b" ++ ",".intercalate (compactEntries entries) ++ "\x7d"

/-- All items, each on one line. -/
def compactItems : List Json → List String
  | [] => []
  | item :: rest => compact item :: compactItems rest

/-- All entries, each on one line. -/
def compactEntries : List (String × Json) → List String
  | [] => []
  | (key, item) :: rest => (quote key ++ ":" ++ compact item) :: compactEntries rest

end

/-- An object of strings over several lines, inside an object at the given depth. -/
def prettyStrings (depth : Nat) (entries : List (String × String)) : String :=
  -- An object without entries stays on its line.
  if entries.isEmpty then "\x7b\x7d"
  else
    let indent (n : Nat) : String := .ofList (List.replicate (2 * n) ' ')
    let lines := entries.map fun (key, item) =>
      indent (depth + 1) ++ quote key ++ ": " ++ quote item
    "\x7b\n" ++ ",\n".intercalate lines ++ "\n" ++ indent depth ++ "\x7d"

end Syllabus.Json
