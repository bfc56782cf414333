import Syllabus.Datum
import Syllabus.Decimal.Literal

/-!
# Syllabus: what plain scalars say

A plain scalar may look like a null, a truth value or a number. A text that looks like one of them
has to be quoted when it is written. A number with superfluous zeros in front is none.
-/

namespace Syllabus.Yaml

def isNullWord (s : String) : Bool := s = "null" || s = "Null" || s = "NULL" || s = "~"

def isBoolWord (s : String) : Bool :=
  ["true", "True", "TRUE", "false", "False", "FALSE"].contains s

/-- The value of a digit in bases up to sixteen. -/
def digitOf (c : Char) : Nat :=
  if c.isDigit then c.toNat - '0'.toNat
  else if 'a' ≤ c && c ≤ 'f' then c.toNat - 'a'.toNat + 10
  else if 'A' ≤ c && c ≤ 'F' then c.toNat - 'A'.toNat + 10
  else 16

/-- The number that digits of a base spell; there has to be one. -/
def inBase (base : Nat) (cs : List Char) : Option Nat :=
  if cs.isEmpty || !cs.all (digitOf · < base) then none
  else some (cs.foldl (fun n c => base * n + digitOf c) 0)

/-- Whether a text is digits with a superfluous zero in front, after an optional sign. -/
def hasLeadingZero (cs : List Char) : Bool :=
  match (Decimal.readSign cs).2 with
  | '0' :: rest => !rest.isEmpty && rest.all Char.isDigit
  | _ => false

/-- The number that digits spell, with a mark of their base in front if it is not ten. -/
def inMarkedBase (cs : List Char) : Option Nat :=
  match cs with
  | '0' :: 'x' :: rest => inBase 16 rest
  | '0' :: 'o' :: rest => inBase 8 rest
  | '0' :: 'b' :: rest => inBase 2 rest
  | cs => inBase 10 cs

/-- The natural number that a plain scalar looks like. A plus sign may stand in front. -/
def readNat? (cs : List Char) : Option Nat :=
  if hasLeadingZero cs then none
  else
    match cs with
    | '+' :: rest => inMarkedBase rest
    | cs => inMarkedBase cs

/-- The size of the negative number that a plain scalar looks like. -/
def readNegative? (cs : List Char) : Option Nat :=
  if hasLeadingZero cs then none
  else
    match cs with
    | '-' :: rest => inMarkedBase rest
    | _ => none

/-- Whether a plain scalar looks like a whole number of at most 128 bits. -/
def looksWhole (cs : List Char) : Bool :=
  (readNat? cs).any (· < Nat.pow 2 128) || (readNegative? cs).any (· ≤ Nat.pow 2 127)

/-- Whether a plain scalar looks like a number with a fraction or exponent, or like one of the
words for infinity and for what is no number. -/
def looksFractional (s : String) : Bool :=
  let cs := s.toList
  let unsigned := match cs with
    | '+' :: rest => rest
    | _ => cs
  [".inf", ".Inf", ".INF"].contains (String.ofList unsigned)
    || ["-.inf", "-.Inf", "-.INF", ".nan", ".NaN", ".NAN"].contains s
    -- Behind a plus sign no second sign may come.
    || (unsigned.length == cs.length || !(unsigned.head? == some '+' || unsigned.head? == some '-'))
      && ((Decimal.Literal.read? unsigned).map Decimal.Literal.isFinite).getD false

/-- Whether a plain scalar says something else than its text. -/
def isReserved (s : String) : Bool :=
  s = "" || isNullWord s || isBoolWord s || looksWhole s.toList
    || looksFractional s || hasLeadingZero s.toList

/-! ## Scalars with tags -/

/-- How a scalar is written. -/
inductive Style where
  | plain
  | singleQuoted
  | doubleQuoted
  | literal
  | folded
deriving DecidableEq

def nullTag : String := "tag:yaml.org,2002:null"

/-- The tag of whole numbers. -/
def intTag : String := "tag:yaml.org,2002:int"

/-- What a scalar can be read as. Any scalar can be a text. Only a plain one can be a number or a
null, unless it is tagged. -/
def readingsOf (text : String) (style : Style) (tag : Option String) : Scalar where
  text? := some text
  number? :=
    -- A literal block counts as a number only if it is tagged as one.
    if style = .plain || (style = .literal && tag = some intTag) then readNat? text.toList else none
  presence :=
    if style ≠ .plain then .present
    -- What is tagged as a null has to look like one.
    else if tag = some nullTag then if isNullWord text then .absent else .refused
    else if tag.isSome then .present
    else if text = "" || isNullWord text then .absent
    else .present
  isEmptyList := style = .plain && text = ""

end Syllabus.Yaml
