import Syllabus.Proofs.Files.Spelling
import Syllabus.Proofs.Site.History
import Syllabus.Proofs.Site.PageAdditions
import Syllabus.Proofs.Store.Saving

/-!
# Syllabus: programs beside each other

Whatever is written for a program goes into its directory, to its ledger, or to the file that is
moved over the ledger. None of this is in the directory of another program, nor is it the ledger of
another one, even if the keys look like names of ledgers or of temporary files. So a program stays
as it is when others are stored and their sites are made.

* **`performs_of_worksOn`**: a step that works on a program keeps to what is reserved for it.
* **`spared_of_worksOn`**, **`spared_of_steps`**: what such steps leave to another program.
* **`isolated`**: together with what a run leaves to its own program.
-/

namespace Syllabus.Store

open FileTree FileAction Template.Library

variable {home : Path} {key other : String} {start place : List String}

/-! ## What is reserved for a program -/

/-- The names, from the directory of the store on, that lead to what is reserved for a program: its
directory, its ledger, and the file that is moved over the ledger. -/
def slots (key : String) : List (List String) :=
  [["programs", key], ["hashes", key ++ ".json"], ["hashes", key ++ ".json.tmp"]]

/-- Whether a place is reserved for a program. -/
def Reserved (home : Path) (key : String) (start place : List String) : Prop :=
  ∃ slot ∈ slots key, (root home).place start ++ slot <+: place

/-- The directory and the ledger of a program are not among what is reserved for another one. -/
theorem not_slot_of_other (hother : other ≠ key) {slot : List String} (hslot : slot ∈ slots other) :
    slot ≠ ["programs", key] ∧ slot ≠ ["hashes", key ++ ".json"] := by
  -- A key may hold dots, so that the ending alone has to tell the two files apart.
  have htemporary : other ++ ".json.tmp" ≠ key ++ ".json" := by
    intro hsame
    have hlast := congrArg (fun name => name.toList.getLast?) hsame
    simp at hlast
  simp only [slots, List.mem_cons, List.not_mem_nil, or_false] at hslot
  rcases hslot with rfl | rfl | rfl
  · exact ⟨by simpa using hother, by simp⟩
  · exact ⟨by simp, by simpa using hother⟩
  · exact ⟨by simp, by simpa using htemporary⟩

/-- A name in a directory of the store lies below the store. -/
theorem place_in_store (start : List String) (home : Path) {directory name : String}
    (hdirectory : Path.IsName directory) (hname : Path.IsName name) :
    (root home / directory / name).place start
      = (root home).place start ++ [directory, name] := by
  -- Each name leads one step further down.
  rw [Path.place_div start _ hname, Path.place_div start _ hdirectory, List.append_assoc]
  rfl

/-- The ending of ledgers stays in the directory. -/
theorem isEnding_json : Path.IsEnding ".json" := ⟨by decide, by decide, by decide⟩

/-- The directory of a program is the one named by its key. -/
theorem place_programDirectory (start : List String) (home : Path) (hkey : Path.IsName key) :
    (programDirectory home key).place start = (root home).place start ++ ["programs", key] :=
  place_in_store start home (by decide) hkey

/-- The ledger of a program has the key and an ending for a name. -/
theorem place_ledger (start : List String) (home : Path) (hkey : Path.IsName key) :
    (Ledger.file home key).place start = (root home).place start ++ ["hashes", key ++ ".json"] :=
  place_in_store start home (by decide) (hkey.append isEnding_json)

/-- The file that is moved over a ledger lies beside it. -/
theorem ledgerTemporary_eq (home : Path) (hkey : Path.IsName key) :
    (Ledger.file home key).withExtension "json.tmp"
      = root home / "hashes" / (key ++ ".json.tmp") := by
  have hjson : key ++ "." ++ "json" = key ++ ".json" := String.append_assoc
  have hname : Path.IsName (key ++ "." ++ "json") := hjson ▸ hkey.append isEnding_json
  -- The last extension is taken off, whatever dots the key has.
  have hextension : (root home / "hashes" / (key ++ "." ++ "json")).withExtension "json.tmp"
      = root home / "hashes" / (key ++ "." ++ "json.tmp") :=
    Path.withExtension_div _ hkey.nonempty hname (by decide) (by decide)
  rw [hjson, String.append_assoc] at hextension
  exact hextension

theorem isName_ledgerTemporary (hkey : Path.IsName key) : Path.IsName (key ++ ".json.tmp") :=
  hkey.append ⟨by decide, by decide, by decide⟩

/-! ## Paths to it -/

/-- Whether a path leads to what is reserved for a program, and does not go back up unless the home
directory does. -/
structure LeadsTo (home : Path) (key : String) (start : List String) (path : Path) : Prop where
  reserved : Reserved home key start (path.place start)
  noParent : ".." ∉ home.names → ".." ∉ path.names

namespace LeadsTo

variable {path : Path}

/-- A path to one of the slots leads there. -/
theorem in_store {directory name : String} (hslot : [directory, name] ∈ slots key)
    (hdirectory : Path.IsName directory) (hname : Path.IsName name) :
    LeadsTo home key start (root home / directory / name) where
  reserved := by
    have hplace := place_in_store start home hdirectory hname
    exact ⟨[directory, name], hslot, hplace ▸ List.prefix_rfl⟩
  noParent := by
    intro hhome
    -- The names of the path are those of the home directory and three proper ones.
    rw [Path.names_div _ hname.nonempty hname.noSlash,
      Path.names_div _ hdirectory.nonempty hdirectory.noSlash, root,
      Path.names_div _ (by decide) (by decide)]
    simp [hhome, hname.notParent.symm, hdirectory.notParent.symm]

/-- What leads on from a path is reserved, too. -/
theorem div (h : LeadsTo home key start path) {name : String} (hname : Path.IsName name) :
    LeadsTo home key start (path / name) where
  reserved := by
    obtain ⟨slot, hslot, hplace⟩ := h.reserved
    refine ⟨slot, hslot, hplace.trans ?_⟩
    rw [Path.place_div start _ hname]
    exact List.prefix_append _ _
  noParent := by
    intro hhome
    rw [Path.names_div _ hname.nonempty hname.noSlash]
    simp [h.noParent hhome, hname.notParent.symm]

theorem programDirectory (hkey : Path.IsName key) :
    LeadsTo home key start (programDirectory home key) :=
  in_store List.mem_cons_self (by decide) hkey

theorem ledger (hkey : Path.IsName key) : LeadsTo home key start (Ledger.file home key) :=
  in_store (.tail _ List.mem_cons_self) (by decide) (hkey.append isEnding_json)

theorem ledgerTemporary (hkey : Path.IsName key) :
    LeadsTo home key start ((Ledger.file home key).withExtension "json.tmp") := by
  rw [ledgerTemporary_eq home hkey]
  exact in_store (by simp [slots]) (by decide) (isName_ledgerTemporary hkey)

end LeadsTo

/-! ## Operations that keep to it -/

/-- Whether an operation changes only files that are reserved for a program and, unless the home
directory goes back up, directories on the way to what is reserved for it. -/
structure KeepsTo (home : Path) (key : String) (start : List String) (operation : Operation) :
    Prop where
  files : ∀ path ∈ operation.files, Reserved home key start (path.place start)
  paths : ".." ∉ home.names → ∀ path ∈ operation.paths,
    ∃ place, Reserved home key start place ∧ path.place start <+: place

/-- Replacing a file below what is reserved keeps to it. -/
theorem keepsTo_of_replacing {directories : List Path} {temporary target : Path}
    (htemporary : LeadsTo home key start temporary) (htarget : LeadsTo home key start target)
    (hdirectories : ∀ directory ∈ directories,
      ∃ path, LeadsTo home key start path ∧ directory ∈ path :: path.ancestors)
    {operation : Operation} (h : Replacing directories temporary target operation) :
    KeepsTo home key start operation := by
  have hleads {path : Path} (hpath : path = temporary ∨ path = target) :
      LeadsTo home key start path := by
    rcases hpath with rfl | rfl
    · exact htemporary
    · exact htarget
  -- The files are the two that lead there; other paths are of directories around them.
  refine ⟨fun path hpath => (hleads (h.mem_files hpath)).reserved, fun hhome path hpath => ?_⟩
  rcases h.mem_paths hpath with hfile | ⟨directory, hdirectory, haround⟩
  · exact ⟨_, (hleads hfile).reserved, List.prefix_rfl⟩
  · -- A directory that is made lies around one that leads to what is reserved.
    obtain ⟨inner, hinner, hbetween⟩ := hdirectories directory hdirectory
    have hup {path around : Path} (hnoParent : ".." ∉ path.names)
        (haround : around ∈ path :: path.ancestors) :
        around.place start <+: path.place start ∧ ".." ∉ around.names := by
      rcases List.mem_cons.mp haround with rfl | hmem
      · exact ⟨List.prefix_rfl, hnoParent⟩
      · exact Path.place_ancestor hnoParent hmem start
    obtain ⟨hinside, hnoParent⟩ := hup (hinner.noParent hhome) hbetween
    exact ⟨_, hinner.reserved, (hup hnoParent haround).1.trans hinside⟩

/-- A file that lies in its own directory is replaced with nothing but that directory made. -/
theorem exists_leadsTo_of_parent {path directory : Path} (h : LeadsTo home key start path)
    (hparent : path.parent? = some directory) :
    ∃ path, LeadsTo home key start path ∧ directory ∈ path :: path.ancestors :=
  ⟨path, h, .tail _ (List.mem_of_head? hparent)⟩

/-- Saving the program keeps to what is reserved for it. -/
theorem keepsTo_of_storing (hkey : Path.IsName key) {operation : Operation}
    (h : storing home key operation) : KeepsTo home key start operation := by
  have hdirectory : LeadsTo home key start (programDirectory home key) := .programDirectory hkey
  refine keepsTo_of_replacing (hdirectory.div isName_temporaryFileName)
    (hdirectory.div isName_programFileName) (fun directory hmem => ?_) h
  rw [List.mem_singleton.mp hmem]
  exact ⟨_, hdirectory, List.mem_cons_self⟩

theorem keepsTo_of_saving (hkey : Path.IsName key) {operation : Operation}
    (h : Ledger.saving home key operation) : KeepsTo home key start operation := by
  have hledger : LeadsTo home key start (Ledger.file home key) := .ledger hkey
  refine keepsTo_of_replacing (.ledgerTemporary hkey) hledger (fun directory hmem => ?_) h
  exact exists_leadsTo_of_parent hledger (Option.mem_toList.mp hmem)

/-- The temporary file of a page stands beside it. -/
theorem temporaryPath_div (directory : Path) {name : String} (hname : Path.IsName name) :
    Site.temporaryPath (directory / name) = directory / (name ++ ".coursebook.tmp") := by
  have htemporary := hname.append Site.isEnding_temporaryPath
  have htext : (Site.temporaryPath (directory / name)).text
      = (directory / (name ++ ".coursebook.tmp")).text := by
    rw [Path.text_div directory htemporary.noSlash, Site.temporaryPath,
      Path.text_div directory hname.noSlash, String.append_assoc]
  exact congrArg Path.mk htext

/-- A page in a reserved directory is written there. -/
theorem keepsTo_of_writing {directory : Path} (hdirectory : LeadsTo home key start directory)
    {name : String} (hname : Path.IsName name) {operation : Operation}
    (h : Site.writing (directory / name) operation) : KeepsTo home key start operation := by
  have hpage := hdirectory.div hname
  have htemporary : LeadsTo home key start (Site.temporaryPath (directory / name)) := by
    rw [temporaryPath_div directory hname]
    exact hdirectory.div (hname.append Site.isEnding_temporaryPath)
  refine keepsTo_of_replacing htemporary hpage (fun around hmem => ?_) h
  simp only [List.mem_filterMap, List.mem_cons, List.not_mem_nil, or_false] at hmem
  obtain ⟨parent, hparent, haround⟩ := hmem
  -- Either directory lies around one of the two files.
  rcases hparent with rfl | rfl
  · exact exists_leadsTo_of_parent hpage haround
  · exact exists_leadsTo_of_parent htemporary haround

/-- The pages of a site that is made where it is by default. -/
theorem keepsTo_of_making (hkey : Path.IsName key) {program : Program}
    (hnames : ∀ course ∈ program.courses, Path.IsName course.directoryName) {operation : Operation}
    (h : Site.MakeOperation (sitePaths (siteDirectory home key) program) home key operation) :
    KeepsTo home key start operation := by
  cases h with
  | ledger hsaving => exact keepsTo_of_saving hkey hsaving
  | @page path hpath hwriting =>
    have hsite : LeadsTo home key start (siteDirectory home key) :=
      (LeadsTo.programDirectory hkey).div (by decide)
    -- The page of the program, or that of a lesson in the directory of its course.
    rcases mem_sitePaths_iff.mp hpath with rfl | ⟨course, hcourse, id, _, rfl⟩
    · exact keepsTo_of_writing hsite (by decide) hwriting
    · exact keepsTo_of_writing (hsite.div (hnames course hcourse)) (isName_pageFileName id) hwriting

/-! ## Steps -/

/-- Steps that store a program, put a course into it, or make its site in its own directory. -/
inductive WorksOn (home : Path) (key : String) (tree : FileTree) : Site.Step → Prop where
  | save (program : Program) : WorksOn home key tree (.save home key program)
  | upsert (course : Course) : WorksOn home key tree (.upsert home key course)
  | run (now : Instant) {options : SiteOptions} (hout : options.out = none)
      (hnames : ∀ program, load tree home key = .ok program →
        ∀ course ∈ program.courses, Path.IsName course.directoryName) :
      WorksOn home key tree (.run now home (.program key) options)

variable {tree later : FileTree} {step : Site.Step}

/-- Whether it succeeds or fails, a step keeps to what is reserved for the program. -/
theorem performs_of_worksOn (hkey : Path.IsName key) (h : WorksOn home key tree step) :
    Performs (KeepsTo home key start) tree (step.apply tree) := by
  cases h with
  | save program =>
    exact (does_save home key program tree).mono fun _ hstoring => keepsTo_of_storing hkey hstoring
  | upsert course =>
    exact (does_upsert home key course tree).mono fun _ hstoring => keepsTo_of_storing hkey hstoring
  | @run now options hout hnames =>
    refine (Site.performs_run_program now home key options tree).mono fun operation hmaking => ?_
    obtain ⟨program, hload, hmaking⟩ := hmaking
    -- By default the site is in the directory of the program.
    rw [hout] at hmaking
    exact keepsTo_of_making hkey (hnames program hload) hmaking

/-- What is left of a program: all files in its directory and its ledger, and all directories. Even
no directory is added, unless the home directory goes back up. -/
structure Spared (home : Path) (key : String) (tree later : FileTree) : Prop where
  workingDirectory : later.workingDirectory = tree.workingDirectory
  directories : ∀ place, tree.HasDirectory place → later.HasDirectory place
  files : ∀ place, (programDirectory home key).place tree.workingDirectory <+: place →
    later.fileAt place = tree.fileAt place
  ledger : later.fileAt ((Ledger.file home key).place tree.workingDirectory)
    = tree.fileAt ((Ledger.file home key).place tree.workingDirectory)
  nodes : ".." ∉ home.names → ∀ path ∈ [programDirectory home key, Ledger.file home key],
    later.root.find? (path.place tree.workingDirectory)
      = tree.root.find? (path.place tree.workingDirectory)

theorem Spared.refl (home : Path) (key : String) (tree : FileTree) : Spared home key tree tree :=
  ⟨rfl, fun _ h => h, fun _ _ => rfl, rfl, fun _ _ _ => rfl⟩

/-- What is spared twice is spared. -/
theorem Spared.trans {between : FileTree} (h : Spared home key tree between)
    (hnext : Spared home key between later) : Spared home key tree later := by
  have hworking := h.workingDirectory
  obtain ⟨hworking', hdirectories, hfiles, hledger, hnodes⟩ := hnext
  -- Both are said of the directory that relative paths start from, which stays.
  rw [hworking] at hworking' hfiles hledger hnodes
  refine ⟨hworking', fun place hplace => hdirectories place (h.directories place hplace),
    fun place hplace => (hfiles place hplace).trans (h.files place hplace),
    hledger.trans h.ledger, fun hhome path hpath => ?_⟩
  exact (hnodes hhome path hpath).trans (h.nodes hhome path hpath)

/-- What is reserved for one program contains neither the directory nor the ledger of another. -/
theorem not_prefix_of_reserved (hkey : Path.IsName key) (hother : other ≠ key)
    (h : Reserved home other start place) {path : Path}
    (hpath : path ∈ [programDirectory home key, Ledger.file home key]) :
    ¬ path.place start <+: place := by
  intro hinside
  obtain ⟨slot, hslot, hplace⟩ := h
  have hlength : slot.length = 2 := by
    simp only [slots, List.mem_cons, List.not_mem_nil, or_false] at hslot
    rcases hslot with rfl | rfl | rfl <;> rfl
  -- The slots of one program are none of another.
  have hslots := not_slot_of_other hother hslot
  -- Two ways down to one place that are equally long are one.
  have hsame {directory name : String}
      (hdown : (root home).place start ++ [directory, name] <+: place) :
      slot = [directory, name] := by
    have hinside := List.prefix_of_prefix_length_le hplace hdown (by simp [hlength])
    exact (List.prefix_append_right_inj _).mp hinside |>.eq_of_length hlength
  simp only [List.mem_cons, List.not_mem_nil, or_false] at hpath
  rcases hpath with rfl | rfl
  · -- What lies there would lie in a slot of the other program.
    rw [place_programDirectory start home hkey] at hinside
    exact hslots.1 (hsame hinside)
  · rw [place_ledger start home hkey] at hinside
    exact hslots.2 (hsame hinside)

/-- **One step.** A program is left as it is by what works on another one. -/
theorem spared_of_worksOn (hname : Path.IsName other) (hkey : Path.IsName key)
    (hother : other ≠ key) (h : WorksOn home other tree step) :
    Spared home key tree (step.apply tree) := by
  have hperforms : Performs (KeepsTo home other tree.workingDirectory) tree (step.apply tree) :=
    performs_of_worksOn hname h
  have hchanges : Changes (Reserved home other tree.workingDirectory) tree (step.apply tree) :=
    hperforms.changes fun operation hkeeps path hpath => hkeeps.files path hpath
  have hapart {place : List String} (hreserved : Reserved home other tree.workingDirectory place)
      {path : Path} (hpath : path ∈ [programDirectory home key, Ledger.file home key]) :
      ¬ path.place tree.workingDirectory <+: place :=
    not_prefix_of_reserved hkey hother hreserved hpath
  -- Files, the ledger, and all that is below the two paths, in this order.
  refine ⟨hchanges.workingDirectory, hchanges.directories, fun place hplace => ?_, ?_,
    fun hhome path hpath => ?_⟩
  · exact hchanges.files place fun hreserved => hapart hreserved (by simp) hplace
  · exact hchanges.files _ fun hreserved => hapart hreserved (by simp) List.prefix_rfl
  · refine hperforms.find?_eq fun operation hkeeps around haround hinside => ?_
    obtain ⟨place, hreserved, hplace⟩ := hkeeps.paths hhome around haround
    exact hapart hreserved hpath (hinside.trans hplace)

/-- **Many steps.** A program is left as it is by whatever is done to others, one after another. -/
theorem spared_of_steps (hkey : Path.IsName key)
    (h : Relation.ReflTransGen (fun tree later => ∃ other step, Path.IsName other ∧ other ≠ key
      ∧ WorksOn home other tree step ∧ later = step.apply tree) tree later) :
    Spared home key tree later := by
  -- On the steps, the last of which works on some other program.
  induction h with
  | refl => exact .refl home key tree
  | tail _ hstep ih =>
    obtain ⟨other, step, hname, hother, hworks, rfl⟩ := hstep
    exact ih.trans (spared_of_worksOn hname hkey hother hworks)

/-- **Programs do not touch each other.** What works on one program leaves all that is in the
directory of another one, and its ledger. Making a site, even elsewhere, leaves the file of its own
program. -/
theorem isolated (hname : Path.IsName other) (hkey : Path.IsName key) (hother : other ≠ key)
    (h : WorksOn home other tree step) :
    Spared home key tree (step.apply tree)
      ∧ ∀ now options,
        (after (Site.run now home (.program other) options) tree).fileAt
            ((programFile home other).place tree.workingDirectory)
          = tree.fileAt ((programFile home other).place tree.workingDirectory) := by
  refine ⟨spared_of_worksOn hname hkey hother h, fun now options => ?_⟩
  have hchanges : Changes SiteFile tree (after (Site.run now home (.program other) options) tree) :=
    keeps_run now home (.program other) options rfl
  -- The file of a program is none of those that sites consist of.
  exact hchanges.files _ fun hsite => not_ownFile_of_siteFile hname hsite (.inl rfl)

namespace Neighbours

/-- A program with a course, of which there are no pages. -/
def program : Program where
  name := "A"
  courses := [{ fileName := some "x", name := "C" }]

def atHome : Path := ⟨"home"⟩

/-- A program is stored by the name that the ledger of another one has. -/
def stored : FileTree where
  root := .directory [("home", .directory [(".coursebook", .directory [("programs", .directory
    [("a", .directory [("program.yaml", .file (encode program).toUTF8)]),
      ("a.json", .directory [("program.yaml", .file "name: B".toUTF8)])])])])]

theorem load_stored : load stored atHome "a" = .ok program := by
  decide +kernel

def noon : Instant := ⟨⟨2024, 2, 29, by decide⟩, 43200, 0⟩

/-- A run of the other program works on that one only. -/
theorem worksOn_run : WorksOn atHome "a" stored (.run noon atHome (.program "a") {}) := by
  refine .run noon rfl fun found hload => ?_
  -- The one course has a directory with a proper name.
  rw [load_stored] at hload
  cases hload
  decide

/-- The file of the program as it is after making its site in any way. -/
theorem isolated_stored :
    Spared atHome "a.json" stored (after (Site.run noon atHome (.program "a") {}) stored)
      ∧ ∀ now options, (after (Site.run now atHome (.program "a") options) stored).fileAt
        ["home", ".coursebook", "programs", "a", "program.yaml"]
          = some (encode program).toUTF8 := by
  obtain ⟨hspared, hown⟩ := isolated (by decide) (by decide : Path.IsName "a.json")
    (by decide) worksOn_run
  have hfile : stored.fileAt ["home", ".coursebook", "programs", "a", "program.yaml"]
      = some (encode program).toUTF8 := by
    decide +kernel
  exact ⟨hspared, fun now options => (hown now options).trans hfile⟩

end Neighbours

end Syllabus.Store
