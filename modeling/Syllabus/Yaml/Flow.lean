import Syllabus.Yaml.Cursor

/-!
# Syllabus: plain and quoted scalars

Plain scalars and scalars in quotes may go over several lines. A gap between two words, be it
blanks in a line or the ends of lines with blanks around them, is folded: a single end of a line
becomes a space, and of several the first is dropped.
-/

namespace Syllabus.Yaml

/-- A gap between two words. -/
structure Gap where
  /-- The blanks, as long as the line has not ended. -/
  blanks : List Char := []
  /-- The first end of a line. -/
  first : List Char := []
  /-- Further ends of lines. -/
  further : List Char := []
  /-- Whether a line has ended. -/
  broken : Bool := false

/-- What a gap counts as in the text. -/
def Gap.text (gap : Gap) : List Char :=
  if gap.broken then
    -- A line feed alone is a space; with more behind it, it is dropped.
    if gap.first = ['\n'] then if gap.further.isEmpty then [' '] else gap.further
    else gap.first ++ gap.further
  else gap.blanks

/-- Reads a gap. In a line after the first, a tab in a column before `indent` is refused. -/
def readGap (indent : Nat) : Nat → Cursor → Gap → Option (Gap × Cursor)
  | 0, _, _ => none
  | fuel + 1, cursor, gap =>
    match cursor.rest with
    | [] => some (gap, cursor)
    | c :: _ =>
      if isBlank c then
        if gap.broken then
          -- Indentation is made of spaces.
          if c == '\t' && cursor.column < indent then none
          else readGap indent fuel (cursor.skip 1) gap
        else readGap indent fuel (cursor.skip 1) { gap with blanks := gap.blanks ++ [c] }
      else if isBreak c then
        let (ended, next) := cursor.readBreak
        if gap.broken then readGap indent fuel next { gap with further := gap.further ++ ended }
        else readGap indent fuel next { gap with first := ended, broken := true }
      else some (gap, cursor)

/-! ## Quoted scalars -/

def hexValue? (c : Char) : Option Nat :=
  if c.isDigit then some (c.toNat - '0'.toNat)
  else if 'a' ≤ c && c ≤ 'f' then some (c.toNat - 'a'.toNat + 10)
  else if 'A' ≤ c && c ≤ 'F' then some (c.toNat - 'A'.toNat + 10)
  else none

/-- The character with the number that the digits spell. There is none for half of a surrogate
pair. -/
def charOfHex? (digits : List Char) : Option Char := do
  let n ← digits.foldlM (fun n c => (hexValue? c).map (16 * n + ·)) 0
  if n < 0xd800 || (0xdfff < n && n ≤ 0x10ffff) then some (.ofNat n) else none

/-- The character that the letter behind a backslash stands for, or the count of hexadecimal
digits that follow it. -/
def escapeOf? : Char → Option (Char ⊕ Nat)
  | '0' => some (.inl '\x00')
  | 'a' => some (.inl '\x07')
  | 'b' => some (.inl '\x08')
  | 't' | '\t' => some (.inl '\t')
  | 'n' => some (.inl '\n')
  | 'v' => some (.inl '\x0b')
  | 'f' => some (.inl '\x0c')
  | 'r' => some (.inl '\r')
  | 'e' => some (.inl '\x1b')
  | ' ' => some (.inl ' ')
  | '"' => some (.inl '"')
  | '/' => some (.inl '/')
  | '\\' => some (.inl '\\')
  | 'N' => some (.inl '\x85')
  | '_' => some (.inl '\xa0')
  | 'L' => some (.inl '\u2028')
  | 'P' => some (.inl '\u2029')
  | 'x' => some (.inr 2)
  | 'u' => some (.inr 4)
  | 'U' => some (.inr 8)
  | _ => none

/-- The escape at a backslash: its character and the place behind it. -/
def readEscape? (cursor : Cursor) : Option (Char × Cursor) := do
  let letter ← cursor.rest[1]?
  match ← escapeOf? letter with
  | .inl c => some (c, cursor.skip 2)
  | .inr count =>
    let digits := (cursor.rest.drop 2).take count
    guard (digits.length = count)
    some (← charOfHex? digits, cursor.skip (2 + count))

/-- A word between quotes, added to the text before it, which is given last character first. It
ends at a gap, at the closing quote, or at a line end behind a backslash; that last one is the
start of a gap. -/
def readQuotedWord (quote : Char) : Nat → Cursor → List Char →
    Option (List Char × Gap × Cursor)
  | 0, _, _ => none
  | fuel + 1, cursor, before =>
    match cursor.rest with
    | [] => none
    | c :: rest =>
      if isGap c then some (before, {}, cursor)
      else if c == quote then
        -- Between single quotes, a quote written twice stands for itself.
        if quote == '\'' && rest.head? == some '\'' then
          readQuotedWord quote fuel (cursor.skip 2) ('\'' :: before)
        else some (before, {}, cursor)
      else if c == '\\' && quote == '"' then
        -- The end of this line does not count: the gap starts behind it.
        if rest.head?.any isBreak then
          some (before, { broken := true }, (cursor.skip 1).readBreak.2)
        else do
          let (c, next) ← readEscape? cursor
          readQuotedWord quote fuel next (c :: before)
      else readQuotedWord quote fuel (cursor.skip 1) (c :: before)

/-- The words between quotes up to the closing one, which is left. A line must not start like a
document. -/
def readQuotedWords (quote : Char) : Nat → Cursor → List Char → Option (List Char × Cursor)
  | 0, _, _ => none
  | fuel + 1, cursor, before =>
    if cursor.atDocumentMarker then none
    else do
      let (text, gap, cursor) ← readQuotedWord quote cursor.steps cursor before
      -- At the closing quote there is no gap left to fold.
      if cursor.at? quote then some (text, cursor)
      else
        let (gap, cursor) ← readGap 0 cursor.steps cursor gap
        readQuotedWords quote fuel cursor (gap.text.reverse ++ text)

/-- The scalar behind a quote: its text and the place behind the closing quote. -/
def readQuoted (quote : Char) (cursor : Cursor) : Option (List Char × Cursor) := do
  let (text, cursor) ←
    readQuotedWords quote cursor.steps (cursor.skip 1) []
  some (text.reverse, cursor.skip 1)

/-! ## Plain scalars -/

/-- Whether a character parts the items of lists and records in brackets. -/
def isFlowIndicator (c : Char) : Bool :=
  c == ',' || c == '[' || c == ']' || c == '\x7b' || c == '\x7d'

/-- A word of a plain scalar, added to the text before it, which is given last character first. A
colon before a gap ends it, and in brackets so do the characters that part items. There, a colon
right before such a character is refused. -/
def readPlainWord (inFlow : Bool) : List Char → List Char → Option (List Char)
  | [], before => some before
  | c :: rest, before =>
    if isGap c then some before
    else if inFlow && c == ':' && rest.head?.any fun c => isFlowIndicator c || c == '?' then none
    else if c == ':' && startsWithGap rest then some before
    else if inFlow && isFlowIndicator c then some before
    else readPlainWord inFlow rest (c :: before)

/-- The words of a plain scalar: the text, the place behind it, and whether a line ended in the
gap at its end. The scalar ends before a comment, before a document, and outside of brackets
before a line with less indentation. -/
def readPlainWords (inFlow : Bool) (indent : Nat) :
    Nat → Cursor → Gap → List Char → Option (List Char × Bool × Cursor)
  | 0, _, _, _ => none
  | fuel + 1, cursor, gap, before =>
    if cursor.atDocumentMarker || cursor.at? '#' then some (before, gap.broken, cursor)
    else do
      let word ← readPlainWord inFlow cursor.rest []
      let cursor := cursor.skip word.length
      -- A gap counts only with a word behind it.
      let text := if word.isEmpty then before else word ++ gap.text.reverse ++ before
      let gap := if word.isEmpty then gap else {}
      if !cursor.atAny isGap then some (text, gap.broken, cursor)
      else
        let (gap, cursor) ← readGap indent cursor.steps cursor gap
        if !inFlow && cursor.column < indent then some (text, gap.broken, cursor)
        else readPlainWords inFlow indent fuel cursor gap text

/-- A plain scalar: its text, whether a line ended behind it, and the place where it is left. -/
def readPlain (inFlow : Bool) (indent : Nat) (cursor : Cursor) :
    Option (List Char × Bool × Cursor) := do
  let (text, broken, cursor) ←
    readPlainWords inFlow indent cursor.steps cursor {} []
  some (text.reverse, broken, cursor)

end Syllabus.Yaml
