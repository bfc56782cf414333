import Syllabus.Site.Page

/-!
# Syllabus: making sites

A site is made from a stored program: all its pages are rendered before the first is written, the
pages are written, and the ledger is saved. A dry run stops short of every change and tells what
would be written.
-/

namespace Syllabus

/-- How sites are made. -/
structure SiteOptions where
  /-- The directory of the site; for several programs, of their sites. -/
  out : Option Path := none
  /-- The directory of templates that replace the built-in ones. -/
  templates : Option Path := none
  dryRun : Bool := false

/-- The site of a program, and what became of its pages. -/
structure SiteReport where
  program : String
  site : Path
  writes : List PageWrite
deriving DecidableEq

/-- How many pages were written, or would have been. -/
def SiteReport.written (report : SiteReport) : Nat :=
  (report.writes.filter (·.outcome ≠ .unchanged)).length

/-- Which programs to make the sites of. -/
inductive Scope where
  | all
  | program (key : String)
deriving DecidableEq

namespace Site

/-- Lifts a result that only looks at the tree. -/
def lift {ε α : Type} (wrap : ε → SiteError) (f : FileTree → Except ε α) :
    FileAction SiteError α := fun tree =>
  match f tree with
  | .ok value => .ok value tree
  | .error e => .error (wrap e) tree

/-- The templates to use. -/
def loadLibrary (options : SiteOptions) : FileAction SiteError Template.Library :=
  lift .render (Template.Library.load · options.templates)

/-- Makes the site of a program in a directory. -/
def makeWith (library : Template.Library) (now : Instant) (home : Path) (key : String)
    (site : Path) (dryRun : Bool) : FileAction SiteError SiteReport := do
  let program ← lift .store (Store.load · home key)
  -- Every page is rendered before anything is changed.
  let pages ← lift .render fun _ => library.renderSite program site
  let ledger ← lift .ofLedger (Ledger.load now · home key)
  let (writes, digests) ← writePages dryRun pages ledger.digests
  if !dryRun then
    (Ledger.save home key { syncedAt := now, digests }).adaptExcept .ofLedger
  return { program := key, site, writes }

def make (now : Instant) (home : Path) (key : String) (options : SiteOptions) :
    FileAction SiteError SiteReport := do
  let library ← loadLibrary options
  let site := options.out.getD (Store.siteDirectory home key)
  makeWith library now home key site options.dryRun

/-- Makes the sites of programs in order, up to the first that fails. -/
def makeEach (library : Template.Library) (now : Instant) (home : Path) (options : SiteOptions) :
    List String → FileAction SiteError (List SiteReport)
  | [] => return []
  | key :: rest => do
    let site := match options.out with
      | some out => out / key
      | none => Store.siteDirectory home key
    let report ← makeWith library now home key site options.dryRun
    let reports ← makeEach library now home options rest
    return report :: reports

def makeAll (now : Instant) (home : Path) (options : SiteOptions) :
    FileAction SiteError (List SiteReport) := do
  let library ← loadLibrary options
  let programs ← lift .store (Store.list · home)
  makeEach library now home options (programs.map (·.1))

def run (now : Instant) (home : Path) (scope : Scope) (options : SiteOptions) :
    FileAction SiteError (List SiteReport) :=
  match scope with
  | .all => makeAll now home options
  | .program key => do
    let report ← make now home key options
    return [report]

end Site

end Syllabus
