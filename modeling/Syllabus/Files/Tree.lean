import Syllabus.Files.Node
import Syllabus.Files.Path

/-!
# Syllabus: file trees

A tree of directories and files, and what programs do with one: look, read, create, write, rename
and remove. A path is followed name by name; every name but the last has to lead to a directory.
Names and paths are bounded in length and hold no zero byte. An operation on a single path either
succeeds or leaves the tree as it is.
-/

namespace Syllabus

/-- Why an operation on a file tree fails. -/
inductive Fault where
  | notFound
  | notADirectory
  | isADirectory
  | alreadyExists
  | busy
  | nameTooLong
  | zeroByte
  | notText
deriving DecidableEq

def Fault.message : Fault → String
  | notFound => "No such file or directory (os error 2)"
  | notADirectory => "Not a directory (os error 20)"
  | isADirectory => "Is a directory (os error 21)"
  | alreadyExists => "File exists (os error 17)"
  | busy => "Device or resource busy (os error 16)"
  | nameTooLong => "File name too long (os error 36)"
  | zeroByte => "file name contained an unexpected NUL byte"
  | notText => "stream did not contain valid UTF-8"

/-- A tree of files, and the directory that relative paths start from. -/
structure FileTree where
  root : Node := .directory []
  workingDirectory : List String := []

namespace FileTree

/-! ## Following paths -/

/-- How many bytes a name may take. -/
def maxNameBytes : Nat := 255

/-- How many bytes a path may take. -/
def maxPathBytes : Nat := 4095

/-- Follows one name from a location, which has to be a directory. -/
def step (tree : FileTree) (location : List String) (name : String) :
    Except Fault (List String) :=
  match tree.root.find? location with
  | none => .error .notFound
  | some (.file _) => .error .notADirectory
  | some (.directory _) =>
    if name = "." then .ok location
    else if name = ".." then .ok location.dropLast
    else if maxNameBytes < name.utf8ByteSize then .error .nameTooLong
    else .ok (location ++ [name])

/-- Where a path leads to. There need not be anything, but there has to be a directory around
it. -/
def locate (tree : FileTree) (path : Path) : Except Fault (List String) :=
  if path.text = "" then .error .notFound
  else if path.text.toList.contains '\x00' then .error .zeroByte
  else if maxPathBytes < path.text.utf8ByteSize then .error .nameTooLong
  else
    let start := if path.isAbsolute then [] else tree.workingDirectory
    (start ++ path.names).foldlM tree.step []

/-- What a path leads to. A path that is written as a directory's has to lead to one. -/
def find (tree : FileTree) (path : Path) : Except Fault (List String × Node) := do
  let location ← tree.locate path
  match tree.root.find? location with
  | none => .error .notFound
  | some (.file content) =>
    if path.endsWithSlash then .error .notADirectory else .ok (location, .file content)
  | some (.directory entries) => .ok (location, .directory entries)

def contains (tree : FileTree) (path : Path) : Bool :=
  match tree.find path with
  | .ok _ => true
  | .error _ => false

def isDirectory (tree : FileTree) (path : Path) : Bool :=
  match tree.find path with
  | .ok (_, node) => node.isDirectory
  | .error _ => false

/-! ## Reading -/

def readText (tree : FileTree) (path : Path) : Except Fault String := do
  match ← tree.find path with
  | (_, .directory _) => .error .isADirectory
  | (_, .file content) =>
    match String.fromUTF8? content with
    | some text => .ok text
    | none => .error .notText

def readDirectory (tree : FileTree) (path : Path) : Except Fault (List (String × Node)) := do
  match ← tree.find path with
  | (_, .directory entries) => .ok entries
  | (_, .file _) => .error .notADirectory

/-! ## Changing -/

/-- Whether the path ends in the name of something inside a directory. -/
def endsInName (path : Path) : Bool :=
  match path.names.getLast? with
  | none => false
  | some name => name ≠ "." && name ≠ ".."

/-- Creates a directory where there is nothing. -/
def createDirectory (tree : FileTree) (path : Path) : Except Fault FileTree := do
  let location ← tree.locate path
  match tree.root.find? location with
  | some _ => .error .alreadyExists
  | none => .ok { tree with root := tree.root.set (.directory []) location }

/-- Writes a file, which may or may not be there. -/
def writeFile (tree : FileTree) (path : Path) (content : ByteArray) : Except Fault FileTree := do
  let location ← tree.locate path
  match tree.root.find? location with
  | some (.directory _) => .error .isADirectory
  | some (.file _) =>
    if path.endsWithSlash then .error .notADirectory
    else .ok { tree with root := tree.root.set (.file content) location }
  | none =>
    -- There is nothing there, and no file is made under the name of a directory.
    if path.endsWithSlash then .error .isADirectory
    else .ok { tree with root := tree.root.set (.file content) location }

/-- Moves a file over another one or to where there is nothing. -/
def renameFile (tree : FileTree) (source target : Path) : Except Fault FileTree := do
  match ← tree.find source with
  | (_, .directory _) => .error .isADirectory
  | (old, .file content) =>
    let location ← tree.locate target
    -- The names for a directory itself and for its parent cannot be moved over.
    if !endsInName target then .error .busy
    else
      match tree.root.find? location with
      | some (.directory _) => .error .isADirectory
      | _ =>
        if target.endsWithSlash then .error .notADirectory
        -- A file moved onto itself stays.
        else if location = old then .ok tree
        else .ok { tree with root := (tree.root.remove old).set (.file content) location }

def removeFile (tree : FileTree) (path : Path) : Except Fault FileTree := do
  match ← tree.find path with
  | (_, .directory _) => .error .isADirectory
  | (location, .file _) => .ok { tree with root := tree.root.remove location }

/-- Removes a file, or a directory with all that is in it. -/
def removeAll (tree : FileTree) (path : Path) : Except Fault FileTree := do
  let (location, _) ← tree.find path
  if endsInName path then .ok { tree with root := tree.root.remove location } else .error .busy

end FileTree

/-! ## Sequences of changes -/

/-- A computation that works on a file tree. What it did before it failed stays done. -/
abbrev FileAction (ε α : Type) := EStateM ε FileTree α

namespace FileAction

variable {ε α : Type}

def look (f : FileTree → α) : FileAction ε α := fun tree => .ok (f tree) tree

/-- Takes a result from the tree, or fails. -/
def examine (onFault : Fault → ε) (f : FileTree → Except Fault α) : FileAction ε α := fun tree =>
  match f tree with
  | .ok value => .ok value tree
  | .error fault => .error (onFault fault) tree

/-- Changes the tree, or fails and leaves it. -/
def change (onFault : Fault → ε) (f : FileTree → Except Fault FileTree) : FileAction ε Unit :=
  fun tree =>
    match f tree with
    | .ok tree => .ok () tree
    | .error fault => .error (onFault fault) tree

/-- Moves a file over another one. If that fails, the file is removed. -/
def moveInto (onFault : Fault → ε) (source target : Path) : FileAction ε Unit := fun tree =>
  match tree.renameFile source target with
  | .ok tree => .ok () tree
  | .error fault =>
    match tree.removeFile source with
    | .ok tree => .error (onFault fault) tree
    | .error _ => .error (onFault fault) tree

/-- Creates the directory of the first path. Where one is missing around it, the other paths are
those of the directories around it. -/
def createAmong (onFault : Fault → ε) : List Path → FileAction ε Unit
  | [] => throw (onFault .notFound)
  | path :: around => fun tree =>
    if path.text = "" then .ok () tree
    else
      -- A directory that is there already is as good as one just made.
      let last (tree : FileTree) (failed : Fault) : EStateM.Result ε FileTree Unit :=
        if tree.isDirectory path then .ok () tree else .error (onFault failed) tree
      match tree.createDirectory path with
      | .ok tree => .ok () tree
      -- A directory around it is missing: it is made first, and then this one again.
      | .error .notFound =>
        match createAmong onFault around tree with
        | .error e tree => .error e tree
        | .ok () tree =>
          match tree.createDirectory path with
          | .ok tree => .ok () tree
          | .error fault => last tree fault
      | .error fault => last tree fault

/-- Creates a directory and those around it, where they are missing. -/
def createDirectories (onFault : Fault → ε) (path : Path) : FileAction ε Unit :=
  createAmong onFault (path :: path.ancestors)

end FileAction

end Syllabus
