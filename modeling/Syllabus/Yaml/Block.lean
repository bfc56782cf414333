import Syllabus.Yaml.Cursor

/-!
# Syllabus: block scalars

A scalar behind a bar or an angle bracket is made of the lines that are indented below it. Behind a
bar it is kept line by line, behind an angle bracket lines are folded into one. The header can
give the indentation, and say what becomes of the ends of lines at the end.
-/

namespace Syllabus.Yaml

/-- What becomes of the ends of lines at the end of a block. -/
inductive Chomping where
  /-- All are dropped. -/
  | strip
  /-- The first is kept. -/
  | clip
  /-- All are kept. -/
  | keep
deriving DecidableEq

/-- The chomping that a character of the header asks for. -/
def chompingOf? : Char → Option Chomping
  | '+' => some .keep
  | '-' => some .strip
  | _ => none

/-- The header of a block: its chomping, its indentation if that is given, and the place behind
the header. -/
def readHeader (cursor : Cursor) : Option (Chomping × Option Nat × Cursor) :=
  let digit? (c : Char) : Option Nat := if c.isDigit then some (c.toNat - '0'.toNat) else none
  let header : Chomping × Option Nat × Cursor :=
    match cursor.rest with
    | [] => (.clip, none, cursor)
    | a :: rest =>
      -- Chomping and indentation may come in either order.
      match chompingOf? a, digit? a, rest.head? with
      | some chomping, _, some b =>
        match digit? b with
        | some n => (chomping, some n, cursor.skip 2)
        | none => (chomping, none, cursor.skip 1)
      | some chomping, _, none => (chomping, none, cursor.skip 1)
      | none, some n, some b =>
        match chompingOf? b with
        | some chomping => (chomping, some n, cursor.skip 2)
        | none => (.clip, some n, cursor.skip 1)
      | none, some n, none => (.clip, some n, cursor.skip 1)
      | none, none, _ => (.clip, none, cursor)
  -- An indentation of zero columns cannot be asked for.
  if header.2.1 = some 0 then none else some header

/-- Skips indentation and collects the ends of lines up to the next line that is not empty. The
indentation goes up to column `indent`, if that is known already. A tab must not stand in it. -/
def readEmptyLines (indent : Option Nat) : Nat → Cursor → Nat → List Char →
    Option (List Char × Nat × Cursor)
  | 0, _, _, _ => none
  | fuel + 1, cursor, deepest, ends =>
    let before (column : Nat) : Bool := indent.all (column < ·)
    let width := (cursor.rest.takeWhile (· == ' ')).length
    -- Spaces beyond a known indentation belong to the text.
    let width := match indent with
      | none => width
      | some n => min width (n - cursor.column)
    let cursor := cursor.skip width
    let deepest := max deepest cursor.column
    if before cursor.column && cursor.at? '\t' then none
    else if cursor.atAny isBreak then
      let (ended, next) := cursor.readBreak
      readEmptyLines indent fuel next deepest (ends ++ ended)
    else some (ends, deepest, cursor)

/-- A block scalar as far as it has been read. -/
structure BlockText where
  /-- The text, last character first. -/
  before : List Char := []
  /-- The end of the last line. -/
  lineEnd : List Char := []
  /-- The ends of empty lines behind it. -/
  emptyLines : List Char := []
  /-- Whether the last line started with a blank. -/
  blankLine : Bool := false

/-- The text with one more line, which does or does not start with a blank. Between two lines that
start without blanks, a folded block has a space or the ends of the empty lines alone. -/
def BlockText.add (block : BlockText) (folded : Bool) (line : List Char) (startsBlank : Bool) :
    List Char :=
  let between :=
    if folded && block.lineEnd == ['\n'] && !block.blankLine && !startsBlank then
      if block.emptyLines.isEmpty then [' '] else block.emptyLines
    else block.lineEnd ++ block.emptyLines
  line.reverse ++ between.reverse ++ block.before

/-- Reads the lines of a block that start at column `indent`. -/
def readLines (folded : Bool) (indent : Nat) : Nat → Cursor → BlockText →
    Option (BlockText × Cursor)
  | 0, _, _ => none
  | fuel + 1, cursor, block =>
    if cursor.column ≠ indent || cursor.rest.isEmpty then some (block, cursor)
    else do
      let startsBlank := cursor.atAny isBlank
      let (line, cursor) := cursor.span (!isBreak ·)
      let before := block.add folded line startsBlank
      let (lineEnd, cursor) := cursor.readBreak
      let (emptyLines, _, cursor) ←
        readEmptyLines (some indent) cursor.steps cursor 0 []
      readLines folded indent fuel cursor
        { before, lineEnd, emptyLines, blankLine := startsBlank }

/-- The scalar behind a bar or an angle bracket, inside a collection at column `parent` if there
is one: its text and the place behind it. -/
def readBlock (folded : Bool) (parent : Option Nat) (cursor : Cursor) :
    Option (List Char × Cursor) := do
  let (chomping, given, cursor) ← readHeader (cursor.skip 1)
  let cursor ← cursor.endOfLine?
  -- A given indentation counts from the collection around the block.
  let known := given.map (parent.getD 0 + ·)
  let (emptyLines, deepest, cursor) ←
    readEmptyLines known cursor.steps cursor 0 []
  let least := match parent with
    | none => 1
    | some column => column + 1
  -- Otherwise the deepest of the lines up to the first with text tells it.
  let indent := known.getD (max deepest least)
  let (block, cursor) ←
    readLines folded indent cursor.steps cursor { emptyLines }
  let tail := match chomping with
    | .strip => []
    | .clip => block.lineEnd
    | .keep => block.lineEnd ++ block.emptyLines
  some (block.before.reverse ++ tail, cursor)

end Syllabus.Yaml
