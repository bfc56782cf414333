import Syllabus.Text.Split

/-!
# Syllabus: paths

A path is kept as it is written, and joined and taken apart as written: `a//b` and `a/b` lead to
the same file, but are different paths. A part between slashes that is empty or a dot leads
nowhere new; only a dot at the start of a relative path counts as a component of its own.
-/

namespace Syllabus

/-- The path to a file or directory, as it is written. -/
structure Path where
  text : String
deriving DecidableEq

namespace Path

def isAbsolute (path : Path) : Bool := path.text.toList.head? == some '/'

/-- The path that leads on from a directory. An absolute path leads on from nowhere. -/
def join (directory path : Path) : Path :=
  if path.isAbsolute then path
  else if directory.text = "" || directory.text.toList.getLast? == some '/' then
    ⟨directory.text ++ path.text⟩
  else ⟨directory.text ++ "/" ++ path.text⟩

instance : HDiv Path String Path := ⟨fun directory name => directory.join ⟨name⟩⟩

/-- The names that lead from the start of the path to its end, dots included. -/
def names (path : Path) : List String :=
  (Text.fields '/' path.text).filter (· ≠ "")

/-- Whether the path is written as that of a directory. -/
def endsWithSlash (path : Path) : Bool := path.text.toList.getLast? == some '/'

/-! ## Ancestors -/

/-- Whether a part between slashes leads nowhere new. -/
def isIdle (part : String) : Bool := part = "" || part = "."

/-- The path of the first part and the other parts, given last part first. -/
def ofParts (first : String) (others : List String) : Path :=
  if first = "" && others.isEmpty then ⟨"/"⟩ else ⟨"/".intercalate (first :: others.reverse)⟩

/-- The paths above the path of these parts, which are given last part first. -/
def ancestorsOfParts (first : String) : List String → List Path
  | [] => if first = "" then [] else [⟨""⟩]
  | part :: before =>
    -- An idle part adds nothing to the path.
    if isIdle part then ancestorsOfParts first before
    -- Idle parts go together with the part behind them.
    else ofParts first (before.dropWhile isIdle) :: ancestorsOfParts first before

/-- The paths of the directories around the end of the path, the innermost first. -/
def ancestors (path : Path) : List Path :=
  match Text.fields '/' path.text with
  | [] => []
  | first :: rest => ancestorsOfParts first rest.reverse

/-- The path of the directory that the path leads into. -/
def parent? (path : Path) : Option Path := path.ancestors.head?

/-! ## File names -/

/-- The parts before the last component, and that component. -/
def splitLast? (path : Path) : Option (List String × String) :=
  match Text.fields '/' path.text with
  | [] => none
  | first :: rest =>
    match rest.reverse.dropWhile isIdle with
    | last :: before => some (first :: before.reverse, last)
    | [] => if first = "" || first = "." then none else some ([], first)

/-- The name of the file that the path leads to. -/
def fileName? (path : Path) : Option String :=
  path.splitLast?.bind fun (_, last) => if last = ".." then none else some last

/-- A file name without its extension, and the extension. A dot at the start belongs to the
name. -/
def splitExtension (name : String) : String × Option String :=
  match (Text.fields '.' name).reverse with
  | extension :: before =>
    -- Without a dot, or with its only dot in front, a name has no extension.
    if before.all (· = "") && before.length ≤ 1 then (name, none)
    else (".".intercalate before.reverse, some extension)
  | [] => (name, none)

/-- The name of the file without its extension. -/
def fileStem? (path : Path) : Option String :=
  path.fileName?.map fun name => (splitExtension name).1

def extensionOf (name : String) : Option String := (splitExtension name).2

def withExtension (path : Path) (extension : String) : Path :=
  match path.splitLast? with
  | some (before, last) =>
    if last = ".." then path
    else ⟨"/".intercalate (before ++ [(splitExtension last).1 ++ "." ++ extension])⟩
  | none => path

end Path

end Syllabus
