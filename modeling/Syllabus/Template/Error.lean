import Syllabus.Template.Directive

/-!
# Syllabus: what can go wrong with a template

Errors name the directive they arise at: by the template, the line of its opening marker and its
number among the directives, counted from one.
-/

namespace Syllabus.Template

/-- Where a directive stands. -/
structure Location where
  template : String
  line : Nat
  /-- The number of the directive, counted from one. -/
  directive : Nat
deriving DecidableEq

/-- How the text of a template can be malformed. -/
inductive Defect where
  | unterminatedDirective
  | unsupportedDirective
  | unmatchedOpenBlock
  | unexpectedClose
  | unexpectedAlternative
  | nestingTooDeep
deriving DecidableEq

/-- What a directive needs a value to be. -/
inductive Need where
  | sequence
  | boolean
deriving DecidableEq

/-- Why a template cannot be read or rendered. -/
inductive Error where
  /-- The text is malformed at a directive with that text. -/
  | malformed (location : Location) (defect : Defect) (text : String)
  | unboundName (location : Location) (name : String)
  /-- A value of that kind has no such field. -/
  | unknownField (location : Location) (field kind : String)
  | wrongKind (location : Location) (reference : Reference) (found : String) (need : Need)
  /-- The destination takes no more text. -/
  | outputFull
deriving DecidableEq

def Location.text (location : Location) : String :=
  s!"{location.template}:{location.line} (directive #{location.directive})"

def Defect.message : Defect → String
  | unterminatedDirective => "unterminated directive, '%>' not found"
  | unsupportedDirective =>
    "unsupported directive; expected '#name[.field]', 'foreach (var item in items) \x7b', "
      ++ "'if (item.flag) \x7b', '\x7d else \x7b' or '\x7d'"
  | unmatchedOpenBlock => "block is never closed, '<%\x7d%>' not found"
  | unexpectedClose => "'\x7d' outside of any open block"
  | unexpectedAlternative => "'\x7d else \x7b' outside of a conditional"
  | nestingTooDeep => "blocks nested too deeply"

def Need.text : Need → String
  | sequence => "a sequence"
  | boolean => "a boolean"

def Error.message : Error → String
  | malformed location defect text => s!"{location.text}: {defect.message}: `{text}`"
  | unboundName location name => s!"{location.text}: unbound name '{name}'"
  | unknownField location field kind => s!"{location.text}: unknown attribute '{field}' for {kind}"
  | wrongKind location reference found need =>
    s!"{location.text}: '{reference.text}' is {found}, expected {need.text}"
  -- The destination does not know where in the template the text comes from.
  | outputFull => "failed to write rendered output"

end Syllabus.Template
