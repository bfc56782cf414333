import Syllabus.Files.Tree
import Syllabus.Program.Stored
import Syllabus.Yaml.Reader
import Syllabus.Yaml.Writer

/-!
# Syllabus: the store of programs

Below the home directory every program has a directory of its own, named by its key, with the
program in a file `program.yaml` and its site beside it. A program is saved by writing a new file
next to the old one and moving it into place.
-/

namespace Syllabus

/-- Why the store cannot do what is asked. -/
inductive StoreError where
  | io (fault : Fault)
  /-- The file at the path holds no program. -/
  | malformed (path : Path)
  | programNotFound (path : Path)
  | homeNotFound
deriving DecidableEq

def StoreError.message : StoreError → String
  | io fault => s!"I/O error: {fault.message}"
  | malformed path =>
    s!"failed to parse program at {path.text}: the text does not describe a program"
  | programNotFound path => s!"program not found at {path.text}"
  | homeNotFound => "cannot determine home directory; set $COURSEBOOK_HOME or $HOME"

namespace Store

/-! ## Places -/

def root (home : Path) : Path := home / ".coursebook"

def programs (home : Path) : Path := root home / "programs"

def programDirectory (home : Path) (key : String) : Path := programs home / key

/-- The name of the file in a program's directory that holds the program. -/
def programFileName : String := "program.yaml"

def programFile (home : Path) (key : String) : Path := programDirectory home key / programFileName

/-- The directory of a program's site, if no other is asked for. -/
def siteDirectory (home : Path) (key : String) : Path := programDirectory home key / "site"

/-- The home directory: the one that is set for this program, or else the user's. A directory that
is set to nothing is not set. -/
def home (own user : Option String) : Except StoreError Path :=
  match own.filter (· ≠ "") with
  | some directory => .ok ⟨directory⟩
  | none =>
    match user.filter (· ≠ "") with
    | some directory => .ok ⟨directory⟩
    | none => .error .homeNotFound

/-! ## Reading -/

def encode (program : Program) : String := Yaml.write program.toDatum

/-- The program that a text is the written form of. -/
def decode? (text : String) : Option Program := Yaml.read? text >>= Program.ofDatum?

def readProgram (tree : FileTree) (path : Path) : Except StoreError Program :=
  match tree.readText path with
  | .error fault => .error (.io fault)
  | .ok text =>
    match decode? text with
    | some program => .ok program
    | none => .error (.malformed path)

def load (tree : FileTree) (home : Path) (key : String) : Except StoreError Program :=
  let path := programFile home key
  if tree.contains path then readProgram tree path else .error (.programNotFound path)

/-- All programs with their keys, in the order of the keys. Directories without a program are
passed over. -/
def list (tree : FileTree) (home : Path) : Except StoreError (List (String × Program)) :=
  let directory := programs home
  if !tree.contains directory then .ok []
  else
    match tree.readDirectory directory with
    | .error fault => .error (.io fault)
    | .ok entries =>
      let keys := (Table.sorted (entries.filter (·.2.isDirectory))).map (·.1)
      -- A directory without a program is none of the store's.
      let keys := keys.filter fun key => tree.contains (programFile home key)
      keys.mapM fun key => (readProgram tree (programFile home key)).map fun program =>
        (key, program)

/-! ## Changing -/

def save (home : Path) (key : String) (program : Program) : FileAction StoreError Unit := do
  let directory := programDirectory home key
  if !(← FileAction.look (·.contains directory)) then
    FileAction.createDirectories .io directory
  -- The new file is complete before it takes the place of the old one.
  let temporary := directory / s!"{programFileName}.tmp"
  FileAction.change .io (·.writeFile temporary (encode program).toUTF8)
  FileAction.change .io (·.renameFile temporary (directory / programFileName))

/-- Puts a course into the program of a key, which is made if there is none, and saves it with the
level of its courses. -/
def upsert (home : Path) (key : String) (course : Course) : FileAction StoreError Program := do
  let stored ← FileAction.look (load · home key)
  let program ← match stored with
    | .ok program => pure program
    | .error (.programNotFound _) => pure (Program.named key)
    | .error e => throw e
  let program := (program.putCourse course).withCourseLevel
  save home key program
  return program

end Store

end Syllabus
