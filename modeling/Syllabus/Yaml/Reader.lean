import Syllabus.Yaml.Node

/-!
# Syllabus: reading YAML

The datum of a text with a single document. Nothing is read from a text with a syntax error, even
behind what would be of interest, or with more than one document.
-/

namespace Syllabus.Yaml

/-- How many collections and aliases are followed into each other. -/
def maxDepth : Nat := 128

def read? (text : String) : Option Datum := do
  let tokens ← Token.ofChars? text.toList
  let (node, named) ← Node.ofTokens? tokens.toList
  some (node.toDatum named maxDepth)

end Syllabus.Yaml
