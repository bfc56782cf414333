import Syllabus.Site.Ledger
import Syllabus.Template.Library

/-!
# Syllabus: writing pages

A page is written with line feeds alone at the ends of its lines. If its digest is the one that was
kept for its path and there still is something at the path, nothing is done. Otherwise the text goes
to a file beside the page, which is then moved into place, and the new digest is kept.
-/

namespace Syllabus

/-- What became of a page. -/
inductive Outcome where
  | written
  | unchanged
  /-- It would have been written, but nothing was to be changed. -/
  | wouldWrite
deriving DecidableEq

/-- A page with what became of it. -/
structure PageWrite where
  outcome : Outcome
  path : Path
deriving DecidableEq

/-- Why a site cannot be made. -/
inductive SiteError where
  | render (error : Template.LibraryError)
  | store (error : StoreError)
  | io (path : Path) (fault : Fault)
  | malformedLedger
deriving DecidableEq

def SiteError.message : SiteError → String
  | render error => s!"render error: {error.message}"
  | store error => s!"store error: {error.message}"
  | io path fault => s!"I/O error at {path.text}: {fault.message}"
  | malformedLedger => "hash store JSON error: the text does not describe a ledger"

def SiteError.ofLedger : LedgerError → SiteError
  | .io path fault => .io path fault
  | .malformed => .malformedLedger

namespace Site

/-- A text with each carriage return and line feed replaced by a line feed. -/
def unifyLineEnds : List Char → List Char
  | '\r' :: '\n' :: rest => '\n' :: unifyLineEnds rest
  | c :: rest => c :: unifyLineEnds rest
  | [] => []

def pageText (content : String) : String := .ofList (unifyLineEnds content.toList)

/-- The file that a page is written to before it is moved into place. -/
def temporaryPath (path : Path) : Path := ⟨path.text ++ ".coursebook.tmp"⟩

/-- Writes a page. The digests change only if the page is written. -/
def writePage (path : Path) (content : String) (digests : Digests) (dryRun : Bool) :
    FileAction SiteError (PageWrite × Digests) := do
  -- The digest is that of the text as it is written.
  let text := pageText content
  let digest := Digest.ofText text
  let isThere ← FileAction.look (·.contains path)
  if digests.find? path.text = some digest && isThere then
    return (⟨.unchanged, path⟩, digests)
  else if dryRun then
    return (⟨.wouldWrite, path⟩, digests)
  else
    let temporary := temporaryPath path
    -- Both files lie in one directory, unless the path ends in a slash.
    for directory in [path.parent?, temporary.parent?].filterMap id do
      FileAction.createDirectories (.io directory) directory
    FileAction.change (.io temporary) (·.writeFile temporary text.toUTF8)
    FileAction.moveInto (.io path) temporary path
    return (⟨.written, path⟩, digests.insert path.text digest)

/-- Writes pages in order, up to the first that fails. -/
def writePages (dryRun : Bool) : List (Path × String) → Digests →
    FileAction SiteError (List PageWrite × Digests)
  | [], digests => return ([], digests)
  | (path, content) :: rest, digests => do
    let (write, digests) ← writePage path content digests dryRun
    let (writes, digests) ← writePages dryRun rest digests
    return (write :: writes, digests)

end Site

end Syllabus
