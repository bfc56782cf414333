import Syllabus.Table
import Syllabus.Yaml.Token

/-!
# Syllabus: nodes of YAML

The tokens of a document make up a node: a scalar, a sequence, a mapping, or an alias, which stands
for a node that was given a name before. What is left out between two marks is an empty plain
scalar.
-/

namespace Syllabus.Yaml

/-- A part of a document. -/
inductive Node where
  | scalar (text : String) (style : Style) (tag : Option String)
  | sequence (items : List Node)
  | mapping (entries : List (Node × Node))
  /-- The node with that number among the named ones. -/
  | alias (number : Nat)

/-- What is left out. -/
def Node.empty : Node := .scalar "" .plain none

/-- A document that is being read. -/
structure Parse where
  tokens : List Token
  /-- The meanings of tag handles. -/
  handles : Table String := []
  /-- The numbers of the names given so far. -/
  names : Table Nat := []
  /-- The named nodes read so far, by their numbers. -/
  named : List (Nat × Node) := []

abbrev Parser := StateT Parse Option

namespace Parser

def peek : Parser (Option Token) := fun parse => some (parse.tokens.head?, parse)

def skip : Parser Unit := fun parse => some ((), { parse with tokens := parse.tokens.drop 1 })

/-- Passes over a token if it comes next. -/
def accept (token : Token) : Parser Bool := do
  if (← peek) = some token then
    skip
    return true
  else return false

def isNext (tokens : List Token) : Parser Bool := do
  match ← peek with
  | some token => return tokens.contains token
  | none => return false

/-- The number of a name that is being given. Names given again keep the count of names. -/
def name (anchor : String) : Parser Nat := fun parse =>
  let number := parse.names.length
  some (number, { parse with names := parse.names.insert anchor number })

def keep (number : Nat) (node : Node) : Parser Unit := fun parse =>
  some ((), { parse with named := (number, node) :: parse.named })

/-- The meaning of a tag. One that says no more than that there is none is none. -/
def resolveTag (tag : TagName) : Parser (Option String) := fun parse =>
  if tag.handle = "" then some (if tag.suffix = "!" then none else some tag.suffix, parse)
  else (parse.handles.find? tag.handle).map fun start => (some (start ++ tag.suffix), parse)

/-- The anchor and the tag in front of a node, in either order. -/
def properties : Parser (Option String × Option TagName) := do
  match ← peek with
  | some (.anchor anchor) =>
    skip
    match ← peek with
    | some (.tag tag) => skip; return (some anchor, some tag)
    | _ => return (some anchor, none)
  | some (.tag tag) =>
    skip
    match ← peek with
    | some (.anchor anchor) => skip; return (some anchor, some tag)
    | _ => return (none, some tag)
  | _ => return (none, none)

mutual

/-- A node. Block collections are read if `block` is set, and with `bare` also a sequence that is
not indented. -/
def node (fuel : Nat) (block bare : Bool) : Parser Node :=
  match fuel with
  | 0 => failure
  | fuel + 1 => do
    match ← peek with
    | some (.alias anchor) =>
      skip
      match (← get).names.find? anchor with
      | some number => return .alias number
      | none => failure
    | _ =>
      let (anchor, tagName) ← properties
      let tag ← match tagName with
        | some tag => resolveTag tag
        | none => pure none
      -- The name is given before the node is read, so the node may hold aliases for itself.
      let number ← match anchor with
        | some anchor => some <$> name anchor
        | none => pure none
      let found ← content fuel block bare (anchor.isSome || tagName.isSome) tag
      match number with
      | some number => keep number found
      | none => pure ()
      return found

/-- What comes behind the anchor and the tag of a node. With either of them, it may be left
out. -/
def content (fuel : Nat) (block bare hasProperties : Bool) (tag : Option String) : Parser Node :=
  match fuel with
  | 0 => failure
  | fuel + 1 => do
    match ← peek with
    | some (.scalar text style) => skip; return .scalar text style tag
    | some .flowSequenceStart => skip; return .sequence (← flowItems fuel true)
    | some .flowMappingStart => skip; return .mapping (← flowEntries fuel true)
    | next =>
      if bare && next = some .blockEntry then return .sequence (← bareItems fuel)
      else if block && next = some .blockSequenceStart then
        skip
        return .sequence (← blockItems fuel)
      else if block && next = some .blockMappingStart then
        skip
        return .mapping (← blockEntries fuel)
      else if hasProperties then return .scalar "" .plain tag
      else failure

/-- A node, or what is left out before one of the tokens. -/
def nodeUnless (fuel : Nat) (ends : List Token) (block bare : Bool) : Parser Node :=
  match fuel with
  | 0 => failure
  | fuel + 1 => do
    if ← isNext ends then return .empty else node fuel block bare

/-- The items of an indented sequence up to its end. -/
def blockItems (fuel : Nat) : Parser (List Node) :=
  match fuel with
  | 0 => failure
  | fuel + 1 => do
    if ← accept .blockEntry then
      let item ← nodeUnless fuel [.blockEntry, .blockEnd] true false
      return item :: (← blockItems fuel)
    else if ← accept .blockEnd then return []
    else failure

/-- The items of a sequence that is not indented. It ends where no dash comes. -/
def bareItems (fuel : Nat) : Parser (List Node) :=
  match fuel with
  | 0 => failure
  | fuel + 1 => do
    if ← accept .blockEntry then
      let item ← nodeUnless fuel [.blockEntry, .key, .value, .blockEnd] true false
      return item :: (← bareItems fuel)
    else return []

/-- The entries of a mapping in block style up to its end. -/
def blockEntries (fuel : Nat) : Parser (List (Node × Node)) :=
  match fuel with
  | 0 => failure
  | fuel + 1 => do
    if ← accept .key then
      let key ← nodeUnless fuel [.key, .value, .blockEnd] true true
      let value ←
        if ← accept .value then nodeUnless fuel [.key, .value, .blockEnd] true true
        else pure .empty
      return (key, value) :: (← blockEntries fuel)
    else if ← accept .blockEnd then return []
    else failure

/-- The items of a sequence in brackets up to its end. A comma comes before each but the first. A
key makes an item a mapping of one entry. -/
def flowItems (fuel : Nat) (first : Bool) : Parser (List Node) :=
  match fuel with
  | 0 => failure
  | fuel + 1 => do
    if ← accept .flowSequenceEnd then return []
    else if !first && !(← accept .flowEntry) then failure
    else if ← accept .key then
      let item ← flowPair fuel
      return item :: (← flowItems fuel false)
    else if ← accept .flowSequenceEnd then return []
    else
      let item ← node fuel false false
      return item :: (← flowItems fuel false)

/-- The mapping of one entry behind a key mark in brackets. A key that is left out takes the mark
behind it with it. -/
def flowPair (fuel : Nat) : Parser Node :=
  match fuel with
  | 0 => failure
  | fuel + 1 => do
    let key ←
      -- The token is passed over even where it is a comma or the bracket.
      if ← isNext [.value, .flowEntry, .flowSequenceEnd] then skip; pure Node.empty
      else node fuel false false
    let value ←
      if ← accept .value then nodeUnless fuel [.flowEntry, .flowSequenceEnd] false false
      else pure .empty
    return .mapping [(key, value)]

/-- The entries of a mapping in braces up to its end. A comma comes before each but the first. -/
def flowEntries (fuel : Nat) (first : Bool) : Parser (List (Node × Node)) :=
  match fuel with
  | 0 => failure
  | fuel + 1 => do
    if ← accept .flowMappingEnd then return []
    else if !first && !(← accept .flowEntry) then failure
    else if ← accept .key then
      let key ← nodeUnless fuel [.value, .flowEntry, .flowMappingEnd] false false
      let value ←
        if ← accept .value then nodeUnless fuel [.flowEntry, .flowMappingEnd] false false
        else pure .empty
      return (key, value) :: (← flowEntries fuel false)
    else if ← accept .flowMappingEnd then return []
    else
      let key ← node fuel false false
      return (key, .empty) :: (← flowEntries fuel false)

end

/-- Takes in the directives in front of a document. A version or a handle is given once at
most. -/
def directives (fuel : Nat) (versionSeen : Bool) : Parser Bool :=
  match fuel with
  | 0 => failure
  | fuel + 1 => do
    match ← peek with
    | some (.directive (.version major minor)) =>
      guard (!versionSeen && major = 1 && (minor = 1 || minor = 2))
      skip
      let _ ← directives fuel true
      return true
    | some (.directive (.tag handle start)) =>
      guard ((← get).handles.find? handle).isNone
      modify fun parse => { parse with handles := parse.handles.insert handle start }
      skip
      let _ ← directives fuel versionSeen
      return true
    | _ => return false

/-- Passes over the marks behind a document. -/
def skipEnds : Nat → Parser Unit
  | 0 => failure
  | fuel + 1 => do if ← accept .documentEnd then skipEnds fuel else return ()

/-- The only document of a text, where there is one. -/
def document (fuel : Nat) : Parser Node := do
  let hasDirectives ← directives fuel false
  modify fun parse =>
    let complete (table : Table String) (handle start : String) : Table String :=
      if (table.find? handle).isNone then table.insert handle start else table
    { parse with
      handles := complete (complete parse.handles "!" "!") "!!" "tag:yaml.org,2002:" }
  let isMarked ← accept .documentStart
  -- Directives have to be followed by the marker of the start.
  guard (isMarked || !hasDirectives)
  let found ←
    if isMarked && ((← peek).isNone || (← isNext [.documentStart, .documentEnd])) then
      pure Node.empty
    else node fuel true false
  skipEnds fuel
  -- What is left would be a second document.
  guard (← peek).isNone
  return found

end Parser

/-- The document that tokens make up, and its named nodes. -/
def Node.ofTokens? (tokens : List Token) : Option (Node × List (Nat × Node)) :=
  match Parser.document (4 * tokens.length + 8) { tokens } with
  | some (node, parse) => some (node, parse.named)
  | none => none

/-! ## What a node says -/

/-- What a node says, where `depth` bounds how many collections and aliases are followed. A mapping
with a key that is no scalar says nothing. -/
def Node.toDatum (named : List (Nat × Node)) : Nat → Node → Datum
  | 0, _ => .other
  | depth + 1, node =>
    match node with
    | .scalar text style tag => .scalar (readingsOf text style tag)
    | .sequence items => .list (items.map (toDatum named depth)) false
    | .alias number =>
      match named.lookup number with
      | some node => toDatum named depth node
      | none => .other
    -- Keys are read as texts, whatever else they look like.
    | .mapping entries =>
      let entries? := entries.mapM fun (key, value) =>
        (toDatum named depth key).text?.map fun key => (key, toDatum named depth value)
      match entries? with
      | some entries => .record entries
      | none => .other

end Syllabus.Yaml
