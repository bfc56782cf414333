import Syllabus.Cli.Arguments
import Syllabus.Cli.Table
import Syllabus.Export.Import

/-!
# Syllabus: running commands

What a command prints, what it changes, and how it ends. A failure is told by what was tried and the
chain of its causes.
-/

namespace Syllabus.Cli

/-- What a command leaves on the terminal. -/
structure Report where
  code : Nat
  /-- The lines of the standard output. -/
  output : List String := []
  /-- The lines of the error output. -/
  errors : List String := []
deriving DecidableEq

/-- What was tried and why it failed, from the outermost to the innermost cause. -/
structure Failure where
  /-- What had been printed before. -/
  output : List String := []
  causes : List String

def Failure.report (failure : Failure) : Report where
  code := 1
  output := failure.output
  errors := match failure.causes with
    | [] => []
    | first :: rest => s!"error: {first}" :: rest.map fun cause => s!"  caused by: {cause}"

abbrev Work := FileAction Failure

/-! ## Chains of causes -/

def libraryCauses (e : Template.LibraryError) : List String :=
  match e with
  | .unreadable _ fault => [e.message, fault.message]
  | _ => [e.message]

def storeCauses (e : StoreError) : List String :=
  match e with
  | .io fault => [e.message, fault.message]
  | _ => [e.message]

def siteCauses (e : SiteError) : List String :=
  match e with
  | .render cause => e.message :: libraryCauses cause
  | .store cause => e.message :: storeCauses cause
  | .io _ fault => [e.message, fault.message]
  | .malformedLedger => [e.message]

/-- Turns the error of an action into what was tried and its causes. -/
def attempting {ε α : Type} (what : String) (causes : ε → List String) (action : FileAction ε α) :
    Work α :=
  action.adaptExcept fun e => { causes := what :: causes e }

/-- The text of a file that the command line names. -/
def readFile (path : Path) (printed : List String) : Work String :=
  FileAction.examine (fun fault =>
    { output := printed, causes := [s!"cannot read '{path.text}'", fault.message] })
    (·.readText path)

/-- A result that does not depend on the files. -/
def orFail {ε α : Type} (what : String) (causes : ε → List String) (result : Except ε α) : Work α :=
  match result with
  | .ok value => pure value
  | .error e => throw { causes := what :: causes e }

/-! ## Commands -/

def runImport (home : Path) (file : Path) (program : String) (order : List Id)
    (fileName : Option String) (id : Id) (level : Nat) : Work (List String) := do
  let text ← readFile file []
  let options : ImportOptions := { order, fileName := fileName.or file.fileStem? }
  let imported ← orFail s!"failed to import '{file.text}'" (fun (e : ImportError) => [e.message])
    (importCourse text options)
  -- The number and the level come from the command line and not from the export.
  let course := { imported.course with id, level := .ofGroup level }
  let directory := course.directoryName
  let stored ← attempting s!"failed to save program '{program}'" storeCauses
    (Store.upsert home program course)
  let images := imported.images
  let about := [
    s!"✓ Imported '{course.name}' into program '{program}' "
      ++ s!"({course.pages.length} pages, {stored.courses.length} courses total)",
    s!"  Pages render to: {directory}/"]
  -- Images are not copied: the reader of the report is told where they belong.
  if images.isEmpty then return about
  else
    return about
      ++ s!"  {images.length} image(s) referenced; place them under {directory}/images/"
      :: images.map fun image => s!"    - {image}"

/-- The row of a program in the list. -/
def programRow (key : String) (program : Program) : List String :=
  -- The numbers of lessons and pages are those of all courses together.
  let lessons := program.courses.foldr (·.lessons.length + ·) 0
  let pages := program.courses.foldr (·.pages.length + ·) 0
  [key, program.name, program.level.text, toString program.courses.length, toString lessons,
    toString pages]

def runList (home : Path) : Work (List String) := do
  let programs ← attempting "failed to read the program store" storeCauses
    (FileAction.look (Store.list · home) >>= MonadExcept.ofExcept)
  -- An empty store is no failure.
  if programs.isEmpty then
    return ["No programs stored.", "Run: coursebook import <export.json> --program <name>"]
  else
    return Table.render ["program", "name", "level", "courses", "lessons", "pages"]
      (programs.map fun (key, program) => programRow key program)

def reportLines (dryRun : Bool) (report : SiteReport) : List String :=
  let mark := if dryRun then "[dry-run] " else ""
  let unchanged := report.writes.length - report.written
  -- In a dry run the pages that would be written count as written.
  let counts := s!"({report.written} written, {unchanged} unchanged)"
  s!"{mark}✓ '{report.program}' rendered to {report.site.text} {counts}"
    :: report.writes.filterMap fun write =>
      match write.outcome with
      | .written => some s!"  ✎  {write.path.text}"
      | .wouldWrite => some s!"  ~  {write.path.text}"
      -- Pages that stay as they are go into the count alone.
      | .unchanged => none

def runRenderAll (now : Instant) (home : Path) (options : SiteOptions) : Work (List String) := do
  let reports ← attempting "render --all failed" siteCauses (Site.run now home .all options)
  if reports.isEmpty then
    return ["No programs stored. Run `coursebook import` first."]
  else return reports.flatMap (reportLines options.dryRun)

def runRender (now : Instant) (home : Path) (program : String) (options : SiteOptions) :
    Work (List String) := do
  let reports ← attempting s!"render failed for '{program}'" siteCauses
    (Site.run now home (.program program) options)
  return reports.flatMap (reportLines options.dryRun)

/-- What is said of a template, and whether it is malformed. -/
def checkLine (file : Path) (text : String) : String × Bool :=
  -- The nesting is looked at only where every directive can be read.
  let checked := do
    let template ← Template.parse file.text text
    template.checkNesting
    .ok template.segments.length
  match checked with
  | .ok count => (s!"ok {file.text} ({count} directives)", false)
  | .error e => (s!"error {e.message}", true)

/-- Checks templates in order. The count of malformed ones comes with what is said. -/
def checkFiles : List Path → List String → Nat → Work (List String × Nat)
  | [], printed, failed => return (printed, failed)
  | file :: rest, printed, failed => do
    let text ← readFile file printed
    let (line, malformed) := checkLine file text
    checkFiles rest (printed ++ [line]) (failed + malformed.toNat)

def runCheck (files : List Path) : Work (List String) := do
  let (printed, failed) ← checkFiles files [] 0
  -- Malformed files do not end the check: they are counted, and told of at the end.
  if 0 < failed then
    throw {
      output := printed
      causes := [s!"{failed} of {files.length} template(s) failed to parse"] }
  else return printed

/-- Runs a command. The home directory is looked for where it is needed. -/
def Command.work (now : Instant) (home : Except StoreError Path) : Command → Work (List String)
  | importExport file program order fileName id level => do
    -- A file that cannot be read is reported before a home that is missing.
    match home with
    | .ok home => runImport home file program order fileName id level
    | .error e =>
      let text ← readFile file []
      let options : ImportOptions := { order, fileName := fileName.or file.fileStem? }
      let _ ← orFail s!"failed to import '{file.text}'" (fun (e : ImportError) => [e.message])
        (importCourse text options)
      throw { causes := s!"failed to save program '{program}'" :: storeCauses e }
  | list => do
    let home ← orFail "failed to read the program store" storeCauses home
    runList home
  | render program all options => do
    let home ← orFail "could not determine home directory" storeCauses home
    if all then runRenderAll now home options
    else
      match program with
      | some program => runRender now home program options
      | none => throw { causes := ["provide a program name or use --all"] }
  | check files => runCheck files

/-- Runs a command line on a file tree: the report, and the tree afterwards. -/
def run (now : Instant) (home : Except StoreError Path) (arguments : List String)
    (tree : FileTree) : Report × FileTree :=
  match Command.ofArguments arguments with
  | .error .version => ({ code := 0, output := ["coursebook 0.1.0"] }, tree)
  | .error .help => ({ code := 0, output := usage }, tree)
  -- Of the refusals only a misused command line is a failure.
  | .error .usage => ({ code := 2, errors := usage }, tree)
  | .ok command =>
    match command.work now home tree with
    | .ok output tree => ({ code := 0, output }, tree)
    | .error failure tree => (failure.report, tree)
where
  /-- How the program is used. -/
  usage : List String := [
    "coursebook import <export.json> --program <name> [--order 1,2,3] [--file-name NAME] "
      ++ "[--id N] [--level N]",
    "coursebook list",
    "coursebook render <program> [--out DIR] [--dry-run] [--templates DIR]",
    "coursebook render --all [--out DIR] [--dry-run] [--templates DIR]",
    "coursebook check <template-file>..."]

end Syllabus.Cli
