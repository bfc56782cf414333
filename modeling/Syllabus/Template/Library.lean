import Syllabus.Files.Tree
import Syllabus.Template.BuiltIn
import Syllabus.Template.Render
import Syllabus.Text.Lowercase

/-!
# Syllabus: libraries of templates

The built-in templates together with those of a directory, which may replace them. A template is
named by its path below the directory, in small letters and without the ending `.tpl`. All
templates are read before any is rendered, so a malformed one is found at once.
-/

namespace Syllabus

namespace Template

/-- Why a library cannot be made, or does not render a template. -/
inductive LibraryError where
  | template (error : Error)
  | notFound (name : String)
  | unreadable (path : Path) (fault : Fault)
deriving DecidableEq

def LibraryError.message : LibraryError → String
  | template error => error.message
  | notFound name => s!"template '{name}' not found"
  | unreadable path fault => s!"template io error at {path.text}: {fault.message}"

/-- Templates by name, in the order of their names. -/
structure Library where
  templates : Table Template := []

end Template

mutual

/-- All files at a node and below it, by the names that lead to them joined by slashes. -/
def Node.filesBelow (name : String) : Node → List (String × ByteArray)
  | .file content => [(name, content)]
  | .directory entries => Node.filesAmong (name ++ "/") entries

/-- All files at the entries of a directory and below them. Their names start with `start`. -/
def Node.filesAmong (start : String) : List (String × Node) → List (String × ByteArray)
  | [] => []
  | (name, node) :: rest => node.filesBelow (start ++ name) ++ Node.filesAmong start rest

end

namespace Template.Library

/-- Whether a file below the directory is a template. -/
def isTemplateFile (name : String) : Bool :=
  ((Path.mk name).fileName?.bind Path.extensionOf) == some "tpl"

/-- The name of the template in a file below the directory. -/
def templateName (name : String) : String :=
  -- Neither capital letters nor the kind of slash make a difference to the name.
  let small := (Text.lowercase (name.map fun c => if c = '\\' then '/' else c)).toList
  let ending := ".tpl".toList
  if ending.isSuffixOf small then .ofList (small.take (small.length - ending.length))
  else .ofList small

/-- The texts of the templates in a directory. One that does not exist holds none.

The path of the directory is bounded in length as all paths are, but what lies below it is taken
from the tree as it is: the bound `FileTree.maxPathBytes` is left out for the paths of the
directories and files in it. So one whose path is longer than that is read here, where the operating
system refuses it. -/
def readTexts (tree : FileTree) (directory : Path) :
    Except LibraryError (List (String × String)) := do
  if !tree.contains directory then .ok [] else
  match tree.readDirectory directory with
  | .error fault => .error (.unreadable directory fault)
  | .ok entries =>
    -- Other files are passed over, readable or not.
    ((Node.filesAmong "" entries).filter (isTemplateFile ·.1)).mapM fun (name, content) =>
      match String.fromUTF8? content with
      | some text => .ok (templateName name, text)
      | none => .error (.unreadable (directory.join ⟨name⟩) .notText)

/-- The library with a template added, in place of any other of that name. -/
def add (library : Library) (name text : String) : Except LibraryError Library :=
  match parse name text with
  | .error e => .error (.template e)
  -- Kept in order, so that the order in which templates come does not show.
  | .ok template => .ok ⟨(library.templates.insert name template).sorted⟩

/-- The library of these texts. Of the malformed ones, the first by name is the error. -/
def ofTexts (texts : Table String) : Except LibraryError Library :=
  texts.sorted.foldlM (fun library (name, text) => library.add name text) {}

/-- The built-in templates, with those of a directory over them. -/
def load (tree : FileTree) (directory : Option Path) : Except LibraryError Library := do
  let texts ← match directory with
    | none => .ok []
    | some directory => readTexts tree directory
  -- A text of the directory takes the place of the built-in one of its name, which is then not
  -- read.
  ofTexts (texts.foldl (fun table (name, text) => Table.insert table name text) builtIn)

def get (library : Library) (name : String) : Except LibraryError Template :=
  match library.templates.find? name with
  | some template => .ok template
  | none => .error (.notFound name)

def render (library : Library) (name : String) (bindings : Bindings) :
    Except LibraryError String := do
  let template ← library.get name
  match template.renderText bindings with
  | .ok text => .ok text
  | .error e => .error (.template e)

/-- The pages of a program's site with their paths: the page of the program, then every page in
the order of courses, lessons and pages. -/
def renderSite (library : Library) (program : Program) (root : Path) :
    Except LibraryError (List (Path × String)) := do
  -- The page of the program is rendered first, so its errors win.
  let index ← library.render programName (.forProgram program)
  let pages ← (program.courses.flatMap fun course =>
    course.pages.map fun (lesson, page) => (course, lesson, page)).mapM
      fun (course, lesson, page) => do
        let text ← library.render pageName (.forPage program course lesson page)
        .ok (root / course.directoryName / s!"Lesson_{page.id.toNat}.html", text)
  .ok ((root / "Course.html", index) :: pages)

end Template.Library

end Syllabus
