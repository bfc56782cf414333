import Syllabus.Files.Digest
import Syllabus.Instant
import Syllabus.Json.Printer
import Syllabus.Json.Record
import Syllabus.Store

/-!
# Syllabus: ledgers of written pages

For every program the digest of each page that was last written is kept with the path of the page,
so that pages that have not changed need not be written again. The ledger of a program is a JSON
file beside the store.
-/

namespace Syllabus

abbrev Digests := Table String

/-- The digests of a program's pages, and when they were taken. -/
structure Ledger where
  syncedAt : Instant
  digests : Digests := []

/-- Why a ledger cannot be read or saved. -/
inductive LedgerError where
  | io (path : Path) (fault : Fault)
  | malformed
deriving DecidableEq

namespace Ledger

def file (home : Path) (key : String) : Path := Store.root home / "hashes" / s!"{key}.json"

def encode (ledger : Ledger) : String :=
  "\x7b\n  \"synced_at\": " ++ Json.quote ledger.syncedAt.text
    ++ ",\n  \"files\": " ++ Json.prettyStrings 1 ledger.digests ++ "\n\x7d"

/-- Reads the digests of a ledger. Of a repeated path the last entry counts. -/
def digests? : Json.Raw → Option Digests
  | .object entries =>
    entries.foldlM (fun digests (path, digest) => do
      let path ← Json.decodeString path
      let digest ← digest.text?
      some (Table.insert digests path digest)) []
  | _ => none

/-- Reads the written form of a ledger. Where it does not say when it was written, that is
`now`. -/
def decode? (now : Instant) (text : String) : Option Ledger := do
  let raw ← Json.Raw.read? text.toList
  -- Either part may be missing.
  match ← raw.fields? ["synced_at", "files"] with
  | [syncedAt, digests] =>
    some {
      syncedAt := ← orElse? now (fun raw => raw.text? >>= Instant.ofString?) syncedAt
      digests := ← orElse? [] digests? digests }
  | _ => none

/-- The ledger of a program. One that was never saved is empty. -/
def load (now : Instant) (tree : FileTree) (home : Path) (key : String) :
    Except LedgerError Ledger :=
  let path := file home key
  if !tree.contains path then .ok { syncedAt := now }
  else
    match tree.readText path with
    | .error fault => .error (.io path fault)
    | .ok text =>
      match decode? now text with
      | some ledger => .ok ledger
      | none => .error .malformed

/-- Saves the ledger of a program: writes a new file and moves it into place. A file that cannot be
moved is removed. -/
def save (home : Path) (key : String) (ledger : Ledger) : FileAction LedgerError Unit := do
  let path := file home key
  match path.parent? with
  | none => throw (.io path .notFound)
  | some directory =>
    FileAction.createDirectories (.io directory) directory
    let temporary := path.withExtension "json.tmp"
    FileAction.change (.io temporary) (·.writeFile temporary ledger.encode.toUTF8)
    FileAction.moveInto (.io path) temporary path

end Ledger

end Syllabus
