import Syllabus.Yaml.Block
import Syllabus.Yaml.Property
import Syllabus.Yaml.Scalar

/-!
# Syllabus: tokens of YAML

A text is cut into tokens from left to right. In block style the structure is in the indentation:
a token further to the right opens a collection, and one further to the left closes those that
stand to the right of it. A key of a record need not be marked as one. It is only known by the
colon behind it, so each place where a key may have started is remembered, and the tokens that mark
it are put in there when the colon comes.
-/

namespace Syllabus.Yaml

/-- A token of a text. -/
inductive Token where
  | directive (directive : Directive)
  | documentStart
  | documentEnd
  | blockSequenceStart
  | blockMappingStart
  | blockEnd
  | flowSequenceStart
  | flowSequenceEnd
  | flowMappingStart
  | flowMappingEnd
  | blockEntry
  | flowEntry
  | key
  | value
  | alias (name : String)
  | anchor (name : String)
  | tag (name : TagName)
  | scalar (text : String) (style : Style)
deriving DecidableEq

/-- A place where a key may have started. -/
structure PossibleKey where
  /-- Whether nothing but a key can stand there. -/
  required : Bool
  /-- How many tokens come before it. -/
  position : Nat
  cursor : Cursor

/-- A text that is being cut into tokens. -/
structure Scan where
  cursor : Cursor
  tokens : Array Token := #[]
  /-- The columns of the open block collections, the innermost first. -/
  indents : List Nat := []
  /-- Whether a key can start at the next token. -/
  keyAllowed : Bool := true
  /-- The possible key of the current collection, and those of the collections in brackets around
  it. There is one more than there are open brackets. -/
  keys : List (Option PossibleKey) := [none]

namespace Scan

def inFlow (scan : Scan) : Bool := 1 < scan.keys.length

def push (scan : Scan) (token : Token) : Scan := { scan with tokens := scan.tokens.push token }

/-- Whether the innermost block collection lies to the left of a column. -/
def isLeftOf (scan : Scan) (column : Nat) : Bool := scan.indents.head?.all (· < column)

/-- Opens a block collection at a column, unless one is open there. Its token is put at the given
position. -/
def openBlock (scan : Scan) (column position : Nat) (token : Token) : Scan :=
  if !scan.inFlow && scan.isLeftOf column then
    { scan with
      indents := column :: scan.indents
      tokens := scan.tokens.insertIdxIfInBounds position token }
  else scan

/-- Closes the block collections that are not around a column. -/
def closeBlocks (scan : Scan) (isAround : Nat → Bool) : Scan :=
  if scan.inFlow then scan
  else
    -- The innermost collections come first, so those to be closed are a run at the front.
    let closed := scan.indents.takeWhile (!isAround ·)
    { scan with
      indents := scan.indents.drop closed.length
      tokens := scan.tokens ++ Array.replicate closed.length .blockEnd }

/-- Gives up the possible key of the current collection. It must not be a required one. -/
def dropKey (scan : Scan) : Option Scan :=
  match scan.keys with
  | some key :: outer => if key.required then none else some { scan with keys := none :: outer }
  | _ => some scan

/-- Remembers that a key may start here. -/
def saveKey (scan : Scan) : Option Scan :=
  if !scan.keyAllowed then some scan
  else do
    -- At the column of an open collection of entries, nothing but the next key can stand.
    let required := !scan.inFlow && scan.indents.head? == some scan.cursor.column
    let scan ← scan.dropKey
    let key : PossibleKey := ⟨required, scan.tokens.size, scan.cursor⟩
    some { scan with keys := some key :: scan.keys.drop 1 }

/-- Gives up possible keys that have become too long: a key ends in its line and within 1024
characters. -/
def dropStaleKeys (scan : Scan) : Option Scan := do
  let keys ← scan.keys.mapM fun key? =>
    match key? with
    | none => some none
    | some key =>
      -- A required key cannot be given up: its colon is missing.
      if key.cursor.line < scan.cursor.line || key.cursor.index + 1024 < scan.cursor.index then
        if key.required then none else some none
      else some (some key)
  some { scan with keys }

/-- Skips blanks, comments and the ends of lines. In block style the end of a line allows a key,
and a tab must not stand where a key can. -/
def skipGaps : Nat → Scan → Scan
  | 0, scan => scan
  | fuel + 1, scan =>
    let cursor := scan.cursor
    -- A mark of the byte order is skipped where the text starts, and nowhere else.
    let cursor := if cursor.index == 0 && cursor.at? '\ufeff' then cursor.skip 1 else cursor
    -- Where a key can start, a tab could be taken for indentation.
    let tabsAllowed := scan.inFlow || !scan.keyAllowed
    let cursor := cursor.skipWhile fun c => c == ' ' || (tabsAllowed && c == '\t')
    let cursor := if cursor.at? '#' then cursor.skipWhile (!isBreak ·) else cursor
    if cursor.atAny isBreak then
      skipGaps fuel { scan with
        cursor := cursor.readBreak.2
        keyAllowed := scan.keyAllowed || !scan.inFlow }
    else { scan with cursor }

def take (scan : Scan) (width : Nat) (keyAllowed : Bool) (token : Token) : Scan :=
  { scan.push token with cursor := scan.cursor.skip width, keyAllowed }

/-- The marker of the start or the end of a document. -/
def documentMarker (scan : Scan) (token : Token) : Option Scan := do
  let scan ← (scan.closeBlocks fun _ => false).dropKey
  some (scan.take 3 false token)

def openFlow (scan : Scan) (token : Token) : Option Scan := do
  let scan ← scan.saveKey
  some ({ scan with keys := none :: scan.keys }.take 1 true token)

def closeFlow (scan : Scan) (token : Token) : Option Scan := do
  let scan ← scan.dropKey
  -- Outside of brackets there is nothing to close, and the nodes refuse the token.
  let keys := if scan.inFlow then scan.keys.drop 1 else scan.keys
  some ({ scan with keys }.take 1 false token)

def entry (scan : Scan) : Option Scan := do
  -- In brackets the dash is left to the nodes, which have no place for it.
  guard (scan.inFlow || scan.keyAllowed)
  let scan := scan.openBlock scan.cursor.column scan.tokens.size .blockSequenceStart
  let scan ← scan.dropKey
  some (scan.take 1 true .blockEntry)

def explicitKey (scan : Scan) : Option Scan := do
  guard (scan.inFlow || scan.keyAllowed)
  let scan := scan.openBlock scan.cursor.column scan.tokens.size .blockMappingStart
  let scan ← scan.dropKey
  some (scan.take 1 (!scan.inFlow) .key)

/-- A colon: behind a possible key, or else behind a marked one. -/
def colon (scan : Scan) : Option Scan :=
  match scan.keys with
  | some key :: outer =>
    let scan := { scan with
      -- The key mark goes in front of what has turned out to be a key.
      tokens := scan.tokens.insertIdxIfInBounds key.position .key
      keys := none :: outer }
    -- The mapping starts where its first key does, in front of the key mark just put in.
    let scan := scan.openBlock key.cursor.column key.position .blockMappingStart
    some (scan.take 1 false .value)
  | _ => do
    guard (scan.inFlow || scan.keyAllowed)
    let scan := scan.openBlock scan.cursor.column scan.tokens.size .blockMappingStart
    some (scan.take 1 (!scan.inFlow) .value)

/-- A token that can be, or start, a key, as its reader finds it. -/
def content (scan : Scan) (read : Scan → Option (Token × Cursor)) : Option Scan := do
  let scan ← scan.saveKey
  let (token, cursor) ← read scan
  some { scan.push token with cursor, keyAllowed := false }

/-- A plain scalar. A line that ends behind it allows a key again. -/
def plain (scan : Scan) : Option Scan := do
  let scan ← scan.saveKey
  -- Further lines of the scalar are indented more than the collection around it.
  let indent := match scan.indents with
    | [] => 0
    | column :: _ => column + 1
  let (text, broken, cursor) ← readPlain scan.inFlow indent scan.cursor
  some { scan.push (.scalar (.ofList text) .plain) with cursor, keyAllowed := broken }

def block (scan : Scan) (folded : Bool) : Option Scan := do
  let scan ← scan.dropKey
  let (text, cursor) ← readBlock folded scan.indents.head? scan.cursor
  let style := if folded then Style.folded else .literal
  some { scan.push (.scalar (.ofList text) style) with cursor, keyAllowed := true }

/-- Whether a character starts a plain scalar whatever follows it. -/
def startsPlain (c : Char) : Bool :=
  !(isGap c || "-?:,[]\x7b\x7d#&*!|>'\"%@\x60".toList.contains c)

/-- The next token, which starts with the character `c`. -/
def token (scan : Scan) (c : Char) : Option Scan :=
  let cursor := scan.cursor
  let gap := cursor.gapFollows
  if cursor.column == 0 && c == '%' then do
    let scan ← (scan.closeBlocks fun _ => false).dropKey
    let (directive, cursor) ← readDirective cursor
    some { scan.push (.directive directive) with cursor, keyAllowed := false }
  else if cursor.atMarker '-' then scan.documentMarker .documentStart
  else if cursor.atMarker '.' then scan.documentMarker .documentEnd
  else if c == '[' then scan.openFlow .flowSequenceStart
  else if c == '\x7b' then scan.openFlow .flowMappingStart
  else if c == ']' then scan.closeFlow .flowSequenceEnd
  else if c == '\x7d' then scan.closeFlow .flowMappingEnd
  else if c == ',' then scan.dropKey.map (·.take 1 true .flowEntry)
  else if c == '-' && gap then scan.entry
  else if c == '?' && (scan.inFlow || gap) then scan.explicitKey
  else if c == ':' && (scan.inFlow || gap) then scan.colon
  else if c == '*' then
    scan.content fun scan => (readAnchorName scan.cursor).map fun (name, next) =>
      (.alias name, next)
  else if c == '&' then
    scan.content fun scan => (readAnchorName scan.cursor).map fun (name, next) =>
      (.anchor name, next)
  else if c == '!' then
    scan.content fun scan => (readTag scan.inFlow scan.cursor).map fun (name, next) =>
      (.tag name, next)
  else if c == '|' && !scan.inFlow then scan.block false
  else if c == '>' && !scan.inFlow then scan.block true
  else if c == '\'' then
    scan.content fun scan => (readQuoted '\'' scan.cursor).map fun (text, next) =>
      (.scalar (.ofList text) .singleQuoted, next)
  else if c == '"' then
    scan.content fun scan => (readQuoted '"' scan.cursor).map fun (text, next) =>
      (.scalar (.ofList text) .doubleQuoted, next)
  -- A dash, a question mark or a colon that is none of the above starts a plain scalar.
  else if startsPlain c || (c == '-' && !(cursor.rest.drop 1).head?.any isBlank)
      || (!scan.inFlow && (c == '?' || c == ':') && !gap) then scan.plain
  else none

/-- All tokens up to the end of the text. -/
def run : Nat → Scan → Option (Array Token)
  | 0, _ => none
  | fuel + 1, scan => do
    let scan ← (skipGaps scan.cursor.steps scan).dropStaleKeys
    let column := scan.cursor.column
    -- Collections to the right of the next token have ended before it.
    let scan := scan.closeBlocks (· ≤ column)
    match scan.cursor.rest with
    | [] =>
      let scan ← (scan.closeBlocks fun _ => false).dropKey
      some scan.tokens
    | c :: _ => run fuel (← scan.token c)

end Scan

/-- The tokens of a text. A mark of the byte order may stand in front of it. -/
def Token.ofChars? (cs : List Char) : Option (Array Token) :=
  let cs := if cs.head? == some '\ufeff' then cs.drop 1 else cs
  let cursor := Cursor.ofChars cs
  if cs.all isAllowed then Scan.run cursor.steps { cursor } else none

end Syllabus.Yaml
