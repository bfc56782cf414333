import Syllabus.Yaml.Character
import Syllabus.Yaml.Scalar

/-!
# Syllabus: writing YAML

Data is written in block style: one entry of a record a line, lists with a dash for each item and
not indented under their key. A text is written plain where it reads back as that text, else in
single quotes. A text of several lines is written as a literal block. What neither can hold, such
as control characters, is written in double quotes with escapes.
-/

namespace Syllabus.Yaml

/-! ## The style of a text -/

/-- Whether a character next to another one in a text meets a condition on both. -/
def anyAdjacent (test : Char → Char → Bool) : List Char → Bool
  | a :: b :: rest => test a b || anyAdjacent test (b :: rest)
  | _ => false

/-- Whether a space comes right before the end of a line, or a character cannot be written as it
is. Only double quotes hold such a text. -/
def needsEscapes (cs : List Char) : Bool :=
  anyAdjacent (fun a b => a == ' ' && isBreak b) cs || !cs.all isPrintable

/-- Whether a space comes right after the end of a line. -/
def startsLineWithSpace (cs : List Char) : Bool :=
  anyAdjacent (fun a b => isBreak a && b == ' ') cs

/-- Whether the characters from one on, which is not the first, mean something else than
themselves: a colon before a gap, and a number sign behind one. -/
def hasInnerIndicator (afterGap : Bool) : List Char → Bool
  | [] => false
  | c :: rest =>
    (c == ':' && startsWithGap rest) || (c == '#' && afterGap) || hasInnerIndicator (isGap c) rest

/-- Whether a text has characters that mean something else than themselves in a plain scalar. -/
def hasIndicator (cs : List Char) : Bool :=
  "---".toList.isPrefixOf cs || "...".toList.isPrefixOf cs ||
  match cs with
  | [] => false
  | c :: rest =>
    "#,[]\x7b\x7d&*!|>'\"%@\x60".toList.contains c
      || ("?:-".toList.contains c && startsWithGap rest)
      || hasInnerIndicator (isGap c) rest

/-- Whether a text starts or ends with a space or the end of a line. -/
def hasLooseEnds (cs : List Char) : Bool :=
  let loose (c : Char) : Bool := c == ' ' || isBreak c
  cs.head?.any loose || cs.getLast?.any loose

/-- The style that a text is written in. -/
def styleOf (s : String) : Style :=
  let cs := s.toList
  if needsEscapes cs then .doubleQuoted
  else if cs.contains '\n' then
    -- A block must not end in a space.
    if cs.getLast? == some ' ' then .doubleQuoted else .literal
  else if startsLineWithSpace cs then .doubleQuoted
  else if isReserved s || hasLooseEnds cs || cs.any isBreak || hasIndicator cs then .singleQuoted
  else .plain

/-! ## The text in its style -/

def spaces (n : Nat) : List Char := List.replicate n ' '

/-- The characters between single quotes. Lines after the first are indented, and a quote is
written twice. -/
def singleQuotedBody (indent : Nat) (afterBreak : Bool) : List Char → List Char
  | [] => if afterBreak then spaces indent else []
  | c :: rest =>
    if isBreak c then c :: singleQuotedBody indent true rest
    else
      let written := if c == '\'' then ['\'', '\''] else [c]
      -- Empty lines are not indented, so the spaces come with the next character.
      (if afterBreak then spaces indent else []) ++ written ++ singleQuotedBody indent false rest

/-- A number in hexadecimal digits, filled up with zeros. -/
def hexDigits (width n : Nat) : List Char :=
  let digits := (Nat.toDigits 16 n).map Char.toUpper
  List.replicate (width - digits.length) '0' ++ digits

def escapeChar (c : Char) : List Char :=
  match c with
  | '\x00' => ['\\', '0']
  | '\x07' => ['\\', 'a']
  | '\x08' => ['\\', 'b']
  | '\t' => ['\\', 't']
  | '\n' => ['\\', 'n']
  | '\x0b' => ['\\', 'v']
  | '\x0c' => ['\\', 'f']
  | '\r' => ['\\', 'r']
  | '\x1b' => ['\\', 'e']
  | '"' => ['\\', '"']
  | '\\' => ['\\', '\\']
  | '\x85' => ['\\', 'N']
  | '\u2028' => ['\\', 'L']
  | '\u2029' => ['\\', 'P']
  | c =>
    if isPrintable c then [c]
    else
      let n := c.toNat
      if n ≤ 0xff then '\\' :: 'x' :: hexDigits 2 n
      else if n ≤ 0xffff then '\\' :: 'u' :: hexDigits 4 n
      else '\\' :: 'U' :: hexDigits 8 n

/-- What follows the bar of a literal block: the width of its indentation if that cannot be told
from the first line, and what becomes of the ends of lines at its end. -/
def literalHints (cs : List Char) : List Char :=
  -- Spaces at the start of the first line would be taken for indentation.
  let indentation := if cs.head?.any fun c => c == ' ' || isBreak c then ['2'] else []
  let chomping := match cs.reverse with
    | last :: before =>
      if !isBreak last then ['-']
      else if before.head?.all isBreak then ['+']
      else []
    | [] => ['-']
  indentation ++ chomping

/-- The lines of a literal block, each indented unless it is empty. -/
def literalBody (indent : Nat) (afterBreak : Bool) : List Char → List Char
  | [] => []
  | c :: rest =>
    if isBreak c then c :: literalBody indent true rest
    else if afterBreak then spaces indent ++ c :: literalBody indent false rest
    else c :: literalBody indent false rest

/-- A text in its style, where further lines are indented. -/
def writeText (indent : Nat) (s : String) : List Char :=
  let cs := s.toList
  match styleOf s with
  | .singleQuoted => '\'' :: singleQuotedBody indent false cs ++ ['\'']
  | .doubleQuoted => '"' :: cs.flatMap escapeChar ++ ['"']
  | .literal | .folded => '|' :: literalHints cs ++ '\n' :: literalBody indent true cs
  | .plain => cs

/-- A scalar. Numbers are written in decimal, and what is neither a text nor a number as a null. -/
def writeScalar (indent : Nat) (value : Scalar) : List Char :=
  match value.number?, value.text? with
  | some n, _ => Nat.toDigits 10 n
  | none, some s => writeText indent s
  | none, none => "null".toList

/-- A line with its end, unless it ends already. -/
def endLine (cs : List Char) : List Char :=
  if cs.getLast?.any isBreak then cs else cs ++ ['\n']

/-! ## Data -/

mutual

/-- A datum behind a key or a dash, up to the end of its last line. The entries of a record stand
at `indent`; so does a list, unless it stands in a record. -/
def writeBehind (indent : Nat) (inRecord : Bool) : Datum → List Char
  | .scalar value => endLine (' ' :: writeScalar indent value)
  | .list [] _ => " []\n".toList
  | .list (first :: rest) _ =>
    -- A list stands below its key, not indented, or begins in the line of the dash around it.
    if inRecord then '\n' :: writeItems (indent - 2) (first :: rest)
    else ' ' :: '-' :: writeBehind (indent + 2) false first ++ writeItems indent rest
  | .record [] => " \x7b\x7d\n".toList
  | .record ((key, value) :: rest) =>
    (if inRecord then '\n' :: spaces indent else [' '])
      ++ writeText indent key ++ ':' :: writeBehind (indent + 2) true value
      ++ writeEntries indent rest
  | .other => " null\n".toList

/-- Items of a list, each on lines of its own. -/
def writeItems (indent : Nat) : List Datum → List Char
  | [] => []
  | item :: rest =>
    spaces indent ++ '-' :: writeBehind (indent + 2) false item ++ writeItems indent rest

/-- Entries of a record, each on lines of its own. -/
def writeEntries (indent : Nat) : List (String × Datum) → List Char
  | [] => []
  | (key, value) :: rest =>
    spaces indent ++ writeText indent key ++ ':' :: writeBehind (indent + 2) true value
      ++ writeEntries indent rest

end

def write : Datum → String
  | .record (first :: rest) => .ofList (writeEntries 0 (first :: rest))
  | .list (first :: rest) _ => .ofList (writeItems 0 (first :: rest))
  -- The blank that would part it from a key is left out.
  | datum => .ofList (writeBehind 2 false datum |>.drop 1)

end Syllabus.Yaml
