import Std.Time.DateTime
import Syllabus.Cli.Run

/-!
# Syllabus: the program

Runs a command on the files of the machine. All that the command may look at is first read into a
file tree, the command is run on that tree, and what it changed there is changed on the machine.
Nothing is decided here but where to look.
-/

namespace Syllabus.Machine

/-- The text of the absolute path of these names. -/
def place (names : List String) : String := "/" ++ "/".intercalate names

/-- The names that lead from the root to the end of a path which starts at a directory. -/
def namesFrom (directory : List String) (path : Path) : List String :=
  path.names.foldl (fun names name =>
    if name = "." then names
    else if name = ".." then names.dropLast
    else names ++ [name]) (if path.isAbsolute then [] else directory)

/-- The files and directories that a command looks at. -/
def sources (home : Option Path) : Cli.Command → List Path
  | .importExport file .. => file :: stored
  | .list => stored
  | .render _ _ options => stored ++ options.out.toList ++ options.templates.toList
  | .check files => files
where
  /-- The directory of all that is kept. -/
  stored : List Path := (home.map Store.root).toList

/-- What is at a place. Of a directory the entries are read, too, if it is read in full. -/
partial def readNode (full : Bool) (names : List String) : IO (Option Node) := do
  let path := (← IO.currentDir) / place names
  if ← path.isDir then
    let mut entries := #[]
    if full then
      for entry in ← path.readDir do
        if let some node ← readNode true (names ++ [entry.fileName]) then
          entries := entries.push (entry.fileName, node)
    return some (.directory entries.toList)
  else if ← path.pathExists then return some (.file (← IO.FS.readBinFile path))
  else return none

/-- A tree with what is on the machine at the end of the names and on the way there. -/
def readInto (full : Bool) (root : Node) (names : List String) : IO Node := do
  let onTheWay ← (List.range names.length).foldlM (fun (root : Node) i => do
    let way := names.take i
    -- What has been read for another path is not read again.
    if (root.find? way).isSome then return root
    else return (← readNode false way).elim root (root.set · way)) root
  return (← readNode full names).elim onTheWay (onTheWay.set · names)

/-- Makes the machine agree with a new node where it differs from the old one. -/
partial def writeChanges (names : List String) (old : Option Node) (new : Node) : IO Unit := do
  let path := place names
  match new, old with
  | .file content, some (.file before) =>
    if content != before then writeFile path content
  | .file content, _ => writeFile path content
  | .directory entries, old =>
    let before ← match old with
      | some (.directory before) => pure before
      | _ => do
        IO.FS.createDir path
        pure []
    -- Only files are ever removed: no command takes a directory away.
    for (name, _) in before do
      if (Table.find? entries name).isNone then IO.FS.removeFile (place (names ++ [name]))
    for (name, node) in entries do
      writeChanges (names ++ [name]) (Table.find? before name) node
where
  /-- Writes a file beside the place and moves it there. -/
  writeFile (path : String) (content : ByteArray) : IO Unit := do
    IO.FS.writeBinFile (path ++ ".new") content
    IO.FS.rename (path ++ ".new") path

end Syllabus.Machine

open Syllabus in
def main (arguments : List String) : IO UInt32 := do
  let home := Store.home (← IO.getEnv "COURSEBOOK_HOME") (← IO.getEnv "HOME")
  let directory := Path.names ⟨toString (← IO.currentDir)⟩
  -- A command line that asks for nothing needs no files.
  let looked := match Cli.Command.ofArguments arguments with
    | .ok command => Machine.sources home.toOption command
    | .error _ => []
  let root ← (looked.map (Machine.namesFrom directory)).foldlM (Machine.readInto true)
    (← Machine.readInto false (.directory []) directory)
  let passed ← Std.Time.Timestamp.now
  let some now := Instant.ofEpoch? passed.toNanosecondsSinceUnixEpoch.toInt.toNat
    | throw (IO.userError "the clock shows no time that can be stored")
  let (report, tree) := Cli.run now home arguments { root, workingDirectory := directory }
  -- What a command changed before it failed stays changed, too.
  Machine.writeChanges [] (some root) tree.root
  report.output.forM fun line => IO.println line
  report.errors.forM fun line => IO.eprintln line
  return report.code.toUInt32
