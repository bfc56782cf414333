import Syllabus.Template.Bindings
import Syllabus.Template.Blocks

/-!
# Syllabus: rendering

Rendering walks over the segments of a template by their indices. At a directive that opens a
block it looks for the end of the block, renders the segments between, and goes on behind the end.
Each segment writes its literal text at the end of its turn; the literal behind an opening
directive belongs to the body and is written with it.

A failure leaves the destination with all that was written before it.
-/

namespace Syllabus.Template

/-- A text that grows, up to a number of bytes if it has a limit. -/
structure Destination where
  text : String := ""
  limit : Option Nat := none
deriving DecidableEq

def Destination.takes (destination : Destination) (s : String) : Bool :=
  destination.limit.all (destination.text.utf8ByteSize + s.utf8ByteSize ≤ ·)

/-- What a rendering changes as it goes. -/
structure Progress where
  bindings : Bindings
  destination : Destination := {}

abbrev Render := EStateM Error Progress

namespace Render

/-- Writes a text, all of it or nothing. -/
def write (s : String) : Render Unit := fun progress =>
  if progress.destination.takes s then
    .ok () { progress with destination.text := progress.destination.text ++ s }
  else .error .outputFull progress

/-- Writes a value portion by portion. What has been written stays if a portion is too much. -/
def writeValue (value : Value) : Render Unit := value.portions.forM write

def bind (name : String) (value : Value) : Render Unit :=
  modify fun progress => { progress with bindings := progress.bindings.bind name value }

/-- The result of something that neither writes nor binds. -/
def ofExcept {α : Type} : Except Error α → Render α
  | .ok value => pure value
  | .error e => throw e

end Render

/-- The value of a reference at the directive with that index. -/
def evaluate (template : Template) (bindings : Bindings) (index : Nat) (reference : Reference) :
    Except Error Value :=
  match bindings.values.find? reference.name with
  | none => .error (.unboundName (template.location index) reference.name)
  | some value =>
    match value.resolve reference.path with
    | .ok value => .ok value
    -- The first field that is missing is named, with the kind of what it was looked for in.
    | .error (field, kind) => .error (.unknownField (template.location index) field kind)

/-- The elements that a loop runs over. A name without fields means a named sequence before it
means a value. -/
def elements (template : Template) (bindings : Bindings) (index : Nat) (source : Reference) :
    Except Error (List Value) :=
  -- A sequence hides a value of the same name.
  match if source.path.isEmpty then bindings.sequences.find? source.name else none with
  | some items => .ok items
  | none =>
    match template.evaluate bindings index source with
    | .error e => .error e
    | .ok value =>
      match value.items? with
      | some items => .ok items
      | none => .error (.wrongKind (template.location index) source value.kind .sequence)

def flag (template : Template) (bindings : Bindings) (index : Nat) (reference : Reference) :
    Except Error Bool :=
  match template.evaluate bindings index reference with
  | .error e => .error e
  | .ok (.bool set) => .ok set
  -- Nothing but a flag counts as set or not set.
  | .ok value => .error (.wrongKind (template.location index) reference value.kind .boolean)

/-- The literal text of the segment with that index. -/
def literalAt (template : Template) (index : Nat) : String :=
  (template.segments[index]?.map Segment.literal).getD ""

/-- Renders the segments from `index` up to (not including) `stop`, inside `depth` blocks. Every
body starts behind its opening directive, so the distance from `index` to the end of the template
shrinks. -/
def renderFrom (template : Template) (depth index stop : Nat) : Render Unit :=
  if _inside : index < stop then
    match _found : template.segments[index]? with
    | none => pure ()
    | some segment =>
      match segment.directive with
      | .interpolation reference => do
        let value ← .ofExcept (template.evaluate (← get).bindings index reference)
        .writeValue value
        .write segment.literal
        template.renderFrom depth (index + 1) stop
      | .loop item source => do
        -- The source is looked at before the end of the block, so its errors come first.
        let items ← .ofExcept (template.elements (← get).bindings index source)
        match _end : template.closeFrom? (index + 1) false with
        | none => throw (template.malformedAt index .unmatchedOpenBlock)
        | some close =>
          items.forM fun element => do
            .write segment.literal
            -- The binding stays when the loop is over.
            .bind item element
            if depth < maxOpenBlocks then template.renderFrom (depth + 1) (index + 1) close
            else throw (template.malformedAt index .nestingTooDeep)
          .write (template.literalAt close)
          template.renderFrom depth (close + 1) stop
      | .conditional reference => do
        -- So is the flag of a conditional.
        let set ← .ofExcept (template.flag (← get).bindings index reference)
        match _ends : template.conditionalEnds? index with
        | none => throw (template.malformedAt index .unmatchedOpenBlock)
        | some (middle, close) =>
          -- The ends are both looked for, whichever part is to be rendered.
          if set then
            .write segment.literal
            if depth < maxOpenBlocks then template.renderFrom (depth + 1) (index + 1) middle
            else throw (template.malformedAt index .nestingTooDeep)
          else if middle < close then
            .write (template.literalAt middle)
            if depth < maxOpenBlocks then template.renderFrom (depth + 1) (middle + 1) close
            else throw (template.malformedAt index .nestingTooDeep)
          .write (template.literalAt close)
          template.renderFrom depth (close + 1) stop
      | .close => throw (template.malformedAt index .unexpectedClose)
      | .alternative => throw (template.malformedAt index .unexpectedAlternative)
  else pure ()
termination_by template.segments.length - index
decreasing_by
  all_goals have := (List.getElem?_eq_some_iff.mp _found).1
  · omega
  · omega
  · have := le_of_closeFrom? _end
    omega
  all_goals
    have := lt_of_conditionalEnds? _ends
    omega

/-- Renders a whole template. -/
def render (template : Template) : Render Unit := do
  .write template.leading
  template.renderFrom 0 0 template.segments.length

/-- The text of a template under bindings, or why there is none. -/
def renderText (template : Template) (bindings : Bindings) : Except Error String :=
  match template.render.run { bindings } with
  | .ok () progress => .ok progress.destination.text
  -- Of a failed rendering no text is given, though some may have been written.
  | .error e _ => .error e

end Syllabus.Template
