import Syllabus.Yaml.Cursor
import Syllabus.Yaml.Flow

/-!
# Syllabus: names in YAML

Names of anchors, tags and directives. A tag is written in full between angle brackets, or as a
handle, which a directive gives a meaning, with a suffix.
-/

namespace Syllabus.Yaml

/-- A tag as it is written: its handle, empty for a tag in full, and what follows. -/
structure TagName where
  handle : String
  suffix : String
deriving DecidableEq

/-- The name of an anchor or alias behind its mark, and the place behind it. -/
def readAnchorName (cursor : Cursor) : Option (String × Cursor) :=
  let (name, next) := (cursor.skip 1).span isNameChar
  -- A name ends at a gap or at a character that goes on with the structure.
  let ends := next.rest.head?.all fun c => isGap c || "?:,]\x7d%@\x60".toList.contains c
  if name.isEmpty || !ends then none else some (.ofList name, next)

/-- The handle of a tag at the start of the text, as far as it goes: an exclamation mark, which
may be followed by a name and a second mark. -/
def readHandle (cursor : Cursor) : List Char × Cursor :=
  let (name, next) := (cursor.skip 1).span isNameChar
  if next.at? '!' then ('!' :: name ++ ['!'], next.skip 1) else ('!' :: name, next)

/-- Whether a character may stand in a tag. In a tag in full, some more may. -/
def isTagChar (inFull : Bool) (c : Char) : Bool :=
  isNameChar c || ";/?:@&=+$.%!~*'()".toList.contains c || (inFull && ",[]".toList.contains c)

/-- The bytes that percent signs with two hexadecimal digits each stand for. -/
def readPercentBytes : List Char → Option (List UInt8 × List Char)
  | '%' :: a :: b :: rest => do
    let high ← hexValue? a
    let low ← hexValue? b
    let (bytes, rest) ← readPercentBytes rest
    some (.ofNat (16 * high + low) :: bytes, rest)
  | '%' :: _ => none
  | rest => some ([], rest)

/-- The characters of a tag with its percent signs resolved. -/
def resolvePercents : Nat → List Char → Option (List Char)
  | 0, _ => none
  | _, [] => some []
  | fuel + 1, c :: rest =>
    if c == '%' then do
      let (bytes, rest) ← readPercentBytes (c :: rest)
      let text ← String.fromUTF8? ⟨bytes.toArray⟩
      (resolvePercents fuel rest).map (text.toList ++ ·)
    else (resolvePercents fuel rest).map (c :: ·)

/-- The characters of a tag, and the place behind them. -/
def readTagChars (inFull : Bool) (cursor : Cursor) : Option (List Char × Cursor) := do
  let (written, next) := cursor.span (isTagChar inFull)
  let text ← resolvePercents (written.length + 1) written
  some (text, next)

/-- The tag at an exclamation mark, and the place behind it. -/
def readTag (inFlow : Bool) (cursor : Cursor) : Option (TagName × Cursor) := do
  let (tag, next) ←
    if (cursor.skip 1).at? '<' then do
      let (text, next) ← readTagChars true (cursor.skip 2)
      guard (!text.isEmpty && next.at? '>')
      some (TagName.mk "" (.ofList text), next.skip 1)
    else do
      let (handle, next) := readHandle cursor
      if 1 < handle.length && handle.getLast? == some '!' then do
        let (text, next) ← readTagChars false next
        guard !text.isEmpty
        some (TagName.mk (.ofList handle) (.ofList text), next)
      else do
        let (text, next) ← readTagChars false next
        -- What looked like a named handle without a second mark was the suffix of a bare one.
        let suffix := handle.drop 1 ++ text
        some (if suffix.isEmpty then TagName.mk "" "!" else TagName.mk "!" (.ofList suffix), next)
  -- A tag runs up to a gap; in brackets a comma may follow as well.
  guard (next.rest.head?.all isGap || (inFlow && next.at? ','))
  some (tag, next)

/-! ## Directives -/

/-- A line that says how the following document is to be read. -/
inductive Directive where
  | version (major minor : Nat)
  | tag (handle start : String)
deriving DecidableEq

/-- A number of up to nine digits. -/
def readVersionNumber (cursor : Cursor) : Option (Nat × Cursor) :=
  let (digits, next) := cursor.span Char.isDigit
  if digits.isEmpty || 9 < digits.length then none
  else some (digits.foldl (fun n c => 10 * n + (c.toNat - '0'.toNat)) 0, next)

/-- The directive at a percent sign, and the start of the next line. -/
def readDirective (cursor : Cursor) : Option (Directive × Cursor) := do
  let (name, next) := (cursor.skip 1).span isNameChar
  guard (startsWithGap next.rest)
  let next := next.skipWhile isBlank
  let (directive, next) ←
    if name == "YAML".toList then do
      let (major, next) ← readVersionNumber next
      guard (next.at? '.')
      let (minor, next) ← readVersionNumber (next.skip 1)
      some (Directive.version major minor, next)
    else if name == "TAG".toList then do
      guard (next.at? '!')
      let (handle, next) := readHandle next
      -- Here a named handle without its second mark is refused.
      guard (handle.length = 1 || handle.getLast? == some '!')
      guard (next.atAny isBlank)
      let (start, next) ← readTagChars true (next.skipWhile isBlank)
      guard (!start.isEmpty && startsWithGap next.rest)
      some (Directive.tag (.ofList handle) (.ofList start), next)
    else none
  some (directive, ← next.endOfLine?)

end Syllabus.Yaml
