import Syllabus.Template.Error
import Syllabus.Text.Split

/-!
# Syllabus: templates

A template is text with directives between the markers `<%` and `%>`. It is kept as the text
before the first directive and one segment for each directive: the command between the markers,
what it says, and the literal text that runs up to the next directive. Nothing of the source is
lost: `Template.source` puts it together again.
-/

namespace Syllabus

namespace Template

/-- A directive with the literal text behind it. -/
structure Segment where
  directive : Directive
  /-- The text between the markers. -/
  command : String
  /-- The text up to the next directive. -/
  literal : String
  /-- The line of the opening marker. -/
  line : Nat
deriving DecidableEq

end Template

/-- The text before the first directive, and the directives with the text behind them. -/
structure Template where
  name : String
  leading : String
  segments : List Template.Segment
deriving DecidableEq

namespace Template

/-- The marker in front of a command. -/
def openMarker : List Char := ['<', '%']

/-- The marker behind a command. -/
def closeMarker : List Char := ['%', '>']

/-- How many blocks may be open at once. -/
def maxOpenBlocks : Nat := 128

/-- The text that a template was read from. -/
def source (template : Template) : String :=
  template.segments.foldl (fun text segment =>
    text ++ "<%" ++ segment.command ++ "%>" ++ segment.literal) template.leading

/-- What is shown of a directive without an end: its first line, cut at forty characters. -/
def glimpse (body : List Char) : List Char :=
  let first := Text.trim (body.takeWhile (· != '\n'))
  -- The mark of the cut is not counted.
  if 40 < first.length then first.take 40 ++ ['…'] else first

/-- The segment of a piece of text behind an opening marker, or what is wrong with it and the text
to show. -/
def readSegment (line : Nat) (piece : List Char) : Except (Defect × List Char) Segment :=
  match Text.cutAt closeMarker piece with
  | none => .error (.unterminatedDirective, glimpse piece)
  | some (command, literal) =>
    match Directive.ofCommand? command with
    | none => .error (.unsupportedDirective, Text.trim command)
    | some directive => .ok ⟨directive, .ofList command, .ofList literal, line⟩

/-- The segments of the pieces behind the opening markers, the first of which stands on the given
line and has the given number. -/
def readSegments (name : String) (line number : Nat) :
    List (List Char) → Except Error (List Segment)
  | [] => .ok []
  | piece :: rest =>
    match readSegment line piece with
    | .error (defect, text) => .error (.malformed ⟨name, line, number⟩ defect (.ofList text))
    | .ok segment =>
      -- The next marker stands behind the whole piece.
      match readSegments name (line + Text.lineBreaks piece) (number + 1) rest with
      | .error e => .error e
      | .ok segments => .ok (segment :: segments)

/-- Reads a template. The first directive that is malformed is the error. -/
def parse (name text : String) : Except Error Template :=
  match Text.pieces openMarker text.toList with
  | [] => .ok ⟨name, "", []⟩
  | leading :: rest =>
    match readSegments name (1 + Text.lineBreaks leading) 1 rest with
    | .error e => .error e
    | .ok segments => .ok ⟨name, .ofList leading, segments⟩

/-- Where the directive with that index (counted from zero) stands. -/
def location (template : Template) (index : Nat) : Location where
  template := template.name
  line := (template.segments[index]?.map Segment.line).getD 0
  directive := index + 1

/-- The command with that index as it is shown in errors. -/
def commandText (template : Template) (index : Nat) : String :=
  (template.segments[index]?.map fun segment => Text.trimmed segment.command).getD ""

/-- The error of a defect at the directive with that index. -/
def malformedAt (template : Template) (index : Nat) (defect : Defect) : Error :=
  .malformed (template.location index) defect (template.commandText index)

end Template

end Syllabus
