import Syllabus.Text.Blank
import Syllabus.Text.Word

/-!
# Syllabus: directives

A directive is a command inside a template. There are five shapes, with blanks allowed between
their parts:

* `#name.field` writes a value,
* `foreach (var item in name.field) {` starts a block that is written once for each item,
* `if (item.flag) {` starts a block that is written when a flag is set,
* `} else {` parts the block of a conditional in two,
* `}` ends a block.

`Directive.ofCommand?` reads a command by scanning it once from left to right.
-/

namespace Syllabus

/-- A name and the fields to follow from its value. -/
structure Reference where
  name : String
  path : List String := []
deriving DecidableEq

namespace Reference

def pathText (reference : Reference) : String := ".".intercalate reference.path

def text (reference : Reference) : String :=
  ".".intercalate (reference.name :: reference.path)

/-- Whether a text is a name: at least one character, and only word characters. -/
def isName (cs : List Char) : Bool := !cs.isEmpty && cs.all Text.isWord

def read? (cs : List Char) : Option Reference :=
  match cs.splitOn '.' with
  | [] => none
  | name :: path =>
    if (name :: path).all isName then some ⟨.ofList name, path.map .ofList⟩ else none

end Reference

/-- A command inside a template. -/
inductive Directive where
  /-- Writes the value of the reference. -/
  | interpolation (value : Reference)
  /-- Opens a block that is written for each element of a sequence, bound to `item`. -/
  | loop (item : String) (source : Reference)
  /-- Opens a block that is written when the flag is set. -/
  | conditional (flag : Reference)
  /-- Closes the innermost open block. -/
  | close
  /-- Parts the innermost open block, a conditional. -/
  | alternative
deriving DecidableEq

namespace Directive

def opensBlock : Directive → Bool
  | loop .. | conditional .. => true
  | _ => false

/-! ## Reading commands -/

def afterText? (text : String) (cs : List Char) : Option (List Char) :=
  if text.toList.isPrefixOf cs then some (cs.drop text.toList.length) else none

/-- What follows a keyword, which must not run on into another word character. -/
def afterKeyword? (word : String) (cs : List Char) : Option (List Char) := do
  let rest ← afterText? word cs
  if rest.head?.any Text.isWord then none else some rest

/-- What follows at least one blank. -/
def afterBlanks? (cs : List Char) : Option (List Char) :=
  if cs.head?.any Text.isBlank then some (Text.trimStart cs) else none

/-- The longest run of characters that meet the test, of which there must be one, and what
follows. -/
def run? (test : Char → Bool) (cs : List Char) : Option (List Char × List Char) :=
  if cs.head?.any test then some (cs.takeWhile test, cs.dropWhile test) else none

/-- The names joined by dots at the start of the text, and what follows. -/
def reference? (cs : List Char) : Option (Reference × List Char) := do
  let (written, rest) ← run? (fun c => Text.isWord c || c == '.') cs
  let reference ← Reference.read? written
  some (reference, rest)

/-- Accepts `) {` and nothing more. -/
def blockStart? (cs : List Char) : Option Unit := do
  let rest ← afterText? ")" (Text.trimStart cs)
  let rest ← afterText? "\x7b" (Text.trimStart rest)
  guard (Text.trimStart rest).isEmpty

/-- The loop whose keyword has been read. -/
def loop? (cs : List Char) : Option Directive := do
  let rest ← afterText? "(" (Text.trimStart cs)
  let rest ← afterKeyword? "var" (Text.trimStart rest)
  let rest ← afterBlanks? rest
  let (item, rest) ← run? Text.isWord rest
  let rest ← afterBlanks? rest
  let rest ← afterKeyword? "in" rest
  let rest ← afterBlanks? rest
  let (source, rest) ← reference? rest
  blockStart? rest
  some (loop (.ofList item) source)

/-- The conditional whose keyword has been read. A flag is always a field of something. -/
def conditional? (cs : List Char) : Option Directive := do
  let rest ← afterText? "(" (Text.trimStart cs)
  let (flag, rest) ← reference? (Text.trimStart rest)
  blockStart? rest
  if flag.path.isEmpty then none else some (conditional flag)

/-- The alternative whose closing brace has been read. -/
def alternative? (cs : List Char) : Option Directive := do
  let rest ← afterKeyword? "else" (Text.trimStart cs)
  let rest ← afterText? "\x7b" (Text.trimStart rest)
  -- Blanks at the end have been cut off with those of the command.
  guard rest.isEmpty
  some alternative

/-- Reads a command without blanks at its ends. -/
def ofTrimmed? (cs : List Char) : Option Directive :=
  match cs with
  -- The mark cannot be anything else, so what follows it has to be a reference.
  | '#' :: rest => (Reference.read? (Text.trim rest)).map interpolation
  | ['}'] => some close
  | cs =>
    match afterKeyword? "foreach" cs with
    | some rest => loop? rest
    | none =>
      match afterKeyword? "if" cs with
      | some rest => conditional? rest
      | none => afterText? "\x7d" cs >>= alternative?

/-- The directive that a command spells, if it is one. -/
def ofCommand? (command : List Char) : Option Directive := ofTrimmed? (Text.trim command)

end Directive

end Syllabus
