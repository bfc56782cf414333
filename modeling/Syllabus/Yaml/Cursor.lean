import Syllabus.Yaml.Character

/-!
# Syllabus: places in a YAML text

A cursor is what is left of a text together with where it stands: the count of characters before
it, its line and its column. Indentation and keys are judged by these numbers. It also carries a
number of steps that no reader exceeds which moves on at every step.
-/

namespace Syllabus.Yaml

/-- The rest of a text and where it starts. -/
structure Cursor where
  rest : List Char
  index : Nat := 0
  line : Nat := 0
  column : Nat := 0
  /-- More than there are characters in the whole text. -/
  steps : Nat

namespace Cursor

def ofChars (cs : List Char) : Cursor where
  rest := cs
  steps := cs.length + 1

def at? (cursor : Cursor) (c : Char) : Bool := cursor.rest.head? == some c

/-- Whether the text goes on with a character that meets the test. -/
def atAny (cursor : Cursor) (test : Char → Bool) : Bool := cursor.rest.head?.any test

/-- Whether the next character is followed by a gap or the end of the text. -/
def gapFollows (cursor : Cursor) : Bool := startsWithGap (cursor.rest.drop 1)

/-- The place `n` characters further on in the same line. -/
def skip (cursor : Cursor) (n : Nat) : Cursor :=
  { cursor with
    rest := cursor.rest.drop n
    index := cursor.index + n
    column := cursor.column + n }

/-- The characters up to the first that fails the test, and the place behind them. The test must
not let the end of a line pass. -/
def span (cursor : Cursor) (test : Char → Bool) : List Char × Cursor :=
  let taken := cursor.rest.takeWhile test
  (taken, cursor.skip taken.length)

/-- The place of the first character that fails the test. -/
def skipWhile (cursor : Cursor) (test : Char → Bool) : Cursor := (cursor.span test).2

/-- The place at the start of the next line, `n` characters further on. -/
def nextLine (cursor : Cursor) (n : Nat) : Cursor where
  rest := cursor.rest.drop n
  index := cursor.index + n
  line := cursor.line + 1
  column := 0
  steps := cursor.steps

/-- The end of a line as it counts in a text, and the place behind it. All common ways to end a
line count as a line feed. -/
def readBreak (cursor : Cursor) : List Char × Cursor :=
  match cursor.rest with
  -- The pair is one end of a line and not two.
  | '\r' :: '\n' :: _ => (['\n'], cursor.nextLine 2)
  | c :: _ =>
    if c == '\n' || c == '\r' || c == '\x85' then (['\n'], cursor.nextLine 1)
    -- The other line ends of Unicode stay the character that they are.
    else if isBreak c then ([c], cursor.nextLine 1)
    else ([], cursor)
  | [] => ([], cursor)

/-- Whether a line starts with three times the character and a gap. -/
def atMarker (cursor : Cursor) (c : Char) : Bool :=
  -- Anywhere but at the start of a line, three dashes are text.
  cursor.column == 0 && cursor.rest.take 3 == [c, c, c] && startsWithGap (cursor.rest.drop 3)

/-- Whether a line starts with the marker of the start or the end of a document. -/
def atDocumentMarker (cursor : Cursor) : Bool := cursor.atMarker '-' || cursor.atMarker '.'

/-- The place behind the blanks and the comment at the end of a line, if there is nothing else. -/
def endOfLine? (cursor : Cursor) : Option Cursor :=
  let cursor := cursor.skipWhile isBlank
  let cursor := if cursor.at? '#' then cursor.skipWhile (!isBreak ·) else cursor
  if cursor.rest.head?.all isBreak then some cursor.readBreak.2 else none

end Cursor

end Syllabus.Yaml
