import Syllabus.Course
import Syllabus.Site.Pipeline
import Syllabus.Text.Digits

/-!
# Syllabus: command lines

A command line names a command, followed by its operands and options in any order. A long option
may have its value behind an equals sign. Behind two dashes there are only operands. Options that
make a list may be given again; any other one only once.
-/

namespace Syllabus.Cli

/-- What the program is asked to do. -/
inductive Command where
  /-- Takes a course export into a stored program. -/
  | importExport (file : Path) (program : String) (order : List Id) (fileName : Option String)
    (id : Id) (level : Nat)
  | list
  /-- Makes the site of a program, or of all programs. -/
  | render (program : Option String) (all : Bool) (options : SiteOptions)
  /-- Reads template files and reports what is wrong with them. -/
  | check (files : List Path)

/-- Why a command line asks for nothing. -/
inductive Refusal where
  | usage
  | help
  | version
deriving DecidableEq

/-- An option of a command. -/
structure OptionKind where
  name : String
  letter : Option Char := none
  takesValue : Bool := true
  isList : Bool := false

/-- The operands and options of a command line. An option without a value counts as given with an
empty one. -/
structure Given where
  operands : List String := []
  options : List (String × String) := []

namespace Given

/-- The value of an option that is given at most once. -/
def value? (given : Given) (name : String) : Option String := given.options.lookup name

/-- The given line with one more option, which must not be there already, unless it is a list. -/
def addOption (given : Given) (kind : OptionKind) (value : String) : Except Refusal Given :=
  if !kind.isList && (given.value? kind.name).isSome then .error .usage
  else .ok { given with options := given.options ++ [(kind.name, value)] }

end Given

/-- Whether a word is an option, where an option can stand. -/
def looksLikeOption (word : String) : Bool :=
  match word.toList with
  | '-' :: _ :: _ => true
  | _ => false

/-- The name of a long option, and the value behind its equals sign. -/
def splitLong (word : List Char) : String × Option String :=
  let name := word.takeWhile (· != '=')
  (.ofList name, if name.length < word.length then some (.ofList (word.drop (name.length + 1)))
    else none)

/-- An option as it is written: its kind, and its value if that is in the same word. -/
def option? (kinds : List OptionKind) (word : List Char) :
    Except Refusal (OptionKind × Option String) :=
  match word with
  | '-' :: '-' :: rest =>
    let (name, value) := splitLong rest
    match kinds.find? (·.name = name) with
    | some kind => .ok (kind, value)
    | none => .error (if name = "help" && value.isNone then .help else .usage)
  | '-' :: letter :: rest =>
    match kinds.find? (·.letter == some letter) with
    | some kind =>
      -- Behind a letter the value may come at once or behind an equals sign.
      let value := if rest.head? == some '=' then rest.drop 1 else rest
      .ok (kind, if rest.isEmpty then none else some (.ofList value))
    | none => .error (if letter == 'h' then .help else .usage)
  | _ => .error .usage

/-- Sorts the words of a command line into operands and options. -/
def gather (kinds : List OptionKind) : List String → Given → Except Refusal Given
  | [], given => .ok given
  | word :: rest, given =>
    if word = "--" then .ok { given with operands := given.operands ++ rest }
    else if !looksLikeOption word then
      gather kinds rest { given with operands := given.operands ++ [word] }
    else
      match option? kinds word.toList with
      | .error e => .error e
      | .ok (kind, some value) =>
        if !kind.takesValue then .error .usage
        else
          match given.addOption kind value with
          | .error e => .error e
          | .ok given => gather kinds rest given
      | .ok (kind, none) =>
        if !kind.takesValue then
          match given.addOption kind "" with
          | .error e => .error e
          | .ok given => gather kinds rest given
        else
          match rest with
          | [] => .error .usage
          | value :: rest =>
            -- A value that looks like an option has to be given behind an equals sign.
            if looksLikeOption value || value = "--" then .error .usage
            else
              match given.addOption kind value with
              | .error e => .error e
              | .ok given => gather kinds rest given

/-- A number of 32 bits, with or without a sign. -/
def word? (s : String) : Except Refusal UInt32 :=
  let (negative, digits) := match s.toList with
    | '-' :: rest => (true, rest)
    | '+' :: rest => (false, rest)
    | cs => (false, cs)
  let n := Text.digitsValue digits
  if digits.isEmpty || !digits.all Char.isDigit || Nat.pow 2 32 ≤ n || (negative && n ≠ 0) then
    .error .usage
  else .ok (.ofNat n)

/-- A path. There is none without characters. -/
def path? (s : String) : Except Refusal Path := if s = "" then .error .usage else .ok ⟨s⟩

/-- A path that may be missing. -/
def optionalPath? : Option String → Except Refusal (Option Path)
  | none => .ok none
  | some s => (path? s).map some

/-- A number that may be missing and is zero then. -/
def numberOrZero? : Option String → Except Refusal UInt32
  | none => .ok 0
  | some s => word? s

def importOptions : List OptionKind := [
  { name := "program", letter := some 'p' }, { name := "order", isList := true },
  { name := "file-name" }, { name := "id" }, { name := "level" }]

def renderOptions : List OptionKind := [
  { name := "all", takesValue := false }, { name := "out" },
  { name := "dry-run", takesValue := false }, { name := "templates" }]

def readImport (words : List String) : Except Refusal Command := do
  let given ← gather importOptions words {}
  match given.operands, given.value? "program" with
  | [file], some program =>
    let lists := (given.options.filter (·.1 = "order")).map fun (_, value) => Text.fields ',' value
    let order ← lists.flatten.mapM word?
    .ok (.importExport (← path? file) program order (given.value? "file-name")
      (← numberOrZero? (given.value? "id")) (← numberOrZero? (given.value? "level")).toNat)
  | _, _ => .error .usage

def readRender (words : List String) : Except Refusal Command := do
  let given ← gather renderOptions words {}
  let all := (given.value? "all").isSome
  let options : SiteOptions := {
    out := ← optionalPath? (given.value? "out")
    templates := ← optionalPath? (given.value? "templates")
    dryRun := (given.value? "dry-run").isSome }
  match given.operands with
  | [] => .ok (.render none all options)
  -- A program cannot be named along with all of them.
  | [program] => if all then .error .usage else .ok (.render (some program) false options)
  | _ => .error .usage

def readCheck (words : List String) : Except Refusal Command := do
  let given ← gather [] words {}
  if given.operands.isEmpty then .error .usage else .ok (.check (← given.operands.mapM path?))

def readList (words : List String) : Except Refusal Command := do
  let given ← gather [] words {}
  if given.operands.isEmpty then .ok .list else .error .usage

def Command.ofArguments : List String → Except Refusal Command
  | "import" :: words => readImport words
  | "list" :: words => readList words
  | "render" :: words => readRender words
  | "check" :: words => readCheck words
  | "help" :: _ | "--help" :: _ | "-h" :: _ => .error .help
  | "--version" :: _ | "-V" :: _ => .error .version
  | _ => .error .usage

end Syllabus.Cli
