import Syllabus.Json.Raw
import Syllabus.Table
import Syllabus.Text.Digits

/-!
# Syllabus: JSON values

The value of a JSON text: strings are decoded, of a repeated key the last entry counts, and a
number is a whole number of at most 64 bits or else a floating-point number.
-/

namespace Syllabus

/-- A JSON value. -/
inductive Json where
  | null
  | bool (value : Bool)
  /-- A whole number from `-2 ^ 63` to below `2 ^ 64`. -/
  | int (value : Int)
  | float (value : Float)
  | string (value : String)
  | array (items : List Json)
  | object (entries : List (String × Json))
deriving Inhabited

namespace Json

def powerOfTen (n : Nat) : Float := .ofScientific 1 false n

/-- `size * 10 ^ exponent` by one multiplication or division; very small numbers take one division
more for every 308 powers of ten. Too large a number is none. -/
def scaleByTen (size : Float) (exponent : Int) : Option Float :=
  match exponent with
  | .ofNat n =>
    -- Beyond this, the power of ten is infinite.
    if n ≤ 308 then
      let scaled := size * powerOfTen n
      if scaled.isInf then none else some scaled
    else if size == 0 then some size else none
  | .negSucc n => some (divide (n + 1) (n + 1))
where
  /-- Divides by the power of ten, in steps of at most 308 places. -/
  divide (tries places : Nat) : Float :=
    go tries size places
  /-- The steps of `divide`. -/
  go : Nat → Float → Nat → Float
    | 0, size, _ => size
    | tries + 1, size, places =>
      if places ≤ 308 then size / powerOfTen places
      else if size == 0 then size
      -- Each step makes the number smaller, down to zero at last.
      else go tries (size / powerOfTen 308) (places - 308)

/-- Digits up to the first that would take the number beyond 64 bits: the number they spell, how
many digits were taken, and how many were left. -/
def significand (start : Nat) (digits : List Char) : Nat × Nat × Nat :=
  match digits with
  | [] => (start, 0, 0)
  | c :: rest =>
    let next := 10 * start + Text.digitValue c
    if next < 2 ^ 64 then
      let (value, taken, left) := significand next rest
      (value, taken + 1, left)
    else (start, 0, rest.length + 1)

/-- The exponent that a spelling ends with; an overlong one is as good as 2 ^ 31. -/
def exponentOf : List Char → Int
  | [] => 0
  | _ :: '-' :: digits => -(min (Text.digitsValue digits) (Nat.pow 2 31) : Nat)
  | _ :: '+' :: digits => (min (Text.digitsValue digits) (Nat.pow 2 31) : Nat)
  | _ :: digits => (min (Text.digitsValue digits) (Nat.pow 2 31) : Nat)

/-- The value of a number in its spelling. The leading digits that fit into 64 bits are scaled by
the power of ten that the other digits, the point and the exponent amount to. -/
def ofNumber? (spelling : List Char) : Option Json := do
  let (negative, rest) := match spelling with
    | '-' :: rest => (true, rest)
    | rest => (false, rest)
  let (whole, rest) := rest.span Char.isDigit
  let (value, _, left) := significand 0 whole
  let signed (size : Float) : Json := .float (if negative then -size else size)
  if rest.isEmpty && left = 0 then
    if negative then
      -- Among whole numbers there is no negative zero.
      if value = 0 then some (.float (-0.0))
      else if value ≤ Nat.pow 2 63 then some (.int (-value))
      else some (signed (UInt64.ofNat value).toFloat)
    else some (.int value)
  else
    let (fraction, rest) := match rest with
      | '.' :: behind => behind.span Char.isDigit
      | rest => ([], rest)
    -- Digits of the fraction that no longer fit are dropped and do not move the point.
    let (value, taken, _) := significand value fraction
    let size ← scaleByTen (UInt64.ofNat value).toFloat (left - taken + exponentOf rest)
    some (signed size)

mutual

/-- The value of a text by its shape, where every string and number in it stands for something. -/
def ofRaw? : Raw → Option Json
  | .null => some .null
  | .bool value => some (.bool value)
  | .number spelling => ofNumber? spelling
  | .string body => (decodeString body).map .string
  | .array items => (ofItems? items).map .array
  | .object entries => (ofEntries? entries []).map .object

def ofItems? : List Raw → Option (List Json)
  | [] => some []
  | item :: rest => do
    let item ← ofRaw? item
    let rest ← ofItems? rest
    some (item :: rest)

/-- The entries added to those before them; a repeated key takes the later value. -/
def ofEntries? : List (List Char × Raw) → Table Json → Option (Table Json)
  | [], table => some table
  | (key, item) :: rest, table => do
    let key ← decodeString key
    let item ← ofRaw? item
    ofEntries? rest (table.insert key item)

end

def ofString? (s : String) : Option Json := Raw.read? s.toList >>= ofRaw?

def find? (json : Json) (key : String) : Option Json :=
  match json with
  | .object entries => Table.find? entries key
  | _ => none

end Json

end Syllabus
