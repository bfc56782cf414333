import Syllabus.Proofs.Files.Additions
import Syllabus.Proofs.Store.BuiltPrograms
import Syllabus.Proofs.Store.OwnDirectories
import Syllabus.Proofs.Text.ByteOrder

/-!
# Syllabus: the list of the programs

A store is listed by looking for program files in the directories that are there, and a program is
loaded by its key. Both agree on a store that has grown from an empty one: whatever is saved, put
and made, a program file is there for just those keys under which a program has been saved. What
carries this is that nothing else is ever in the place of a program file, neither a file nor a
directory.

* **`Orderly`**: what holds of the store after each step; **`Orderly.of_aside`** and
  **`Orderly.save`** keep it.
* **`Orderly.exists_list`**: how an orderly store is listed.
* **`IsEmpty`**, **`Grown`**: what becomes of an empty store; **`list_of_grown`**: listing and
  loading there, and **`list_of_home`** for the home directories that are there or never go up.
-/

namespace Syllabus.Store

open FileTree FileAction

variable {home : Path} {key : String} {keys : List String} {program : Program}
  {tree later : FileTree}

/-! ## What is listed -/

/-- The keys under which a list looks for programs. -/
def listedKeys (home : Path) (entries : List (String × Node)) (tree : FileTree) : List String :=
  (Table.names (Table.sorted (entries.filter (·.2.isDirectory)))).filter fun key =>
    tree.contains (programFile home key)

/-- A store without programs lists none. -/
theorem list_of_missing (hmissing : tree.contains (programs home) = false) :
    list tree home = .ok [] := by
  unfold list
  simp [hmissing]

/-- Otherwise each of these programs is read. -/
theorem list_of_read {entries : List (String × Node)}
    (hthere : tree.contains (programs home) = true)
    (hread : tree.readDirectory (programs home) = .ok entries) :
    list tree home = (listedKeys home entries tree).mapM fun key =>
      (readProgram tree (programFile home key)).map fun program => (key, program) := by
  unfold list
  simp only [hthere, hread]
  rfl

/-- A program that is there is loaded from where the list reads it. -/
theorem load_of_contains (hthere : tree.contains (programFile home key) = true) :
    load tree home key = readProgram tree (programFile home key) := by
  unfold load
  simp only [hthere, if_true]

/-- Where everything succeeds, each item is paired with its result. -/
theorem exists_mapM {α β ε : Type} {f : α → Except ε β} {items : List α}
    (h : ∀ item ∈ items, ∃ value, f item = .ok value) :
    ∃ pairs, items.mapM (fun item => (f item).map fun value => (item, value)) = .ok pairs
      ∧ pairs.map (·.1) = items ∧ ∀ pair ∈ pairs, f pair.1 = .ok pair.2 := by
  induction items with
  | nil => exact ⟨[], rfl, rfl, fun _ hpair => absurd hpair List.not_mem_nil⟩
  | cons item items ih =>
    obtain ⟨⟨value, hvalue⟩, hitems⟩ := List.forall_mem_cons.mp h
    obtain ⟨pairs, hpairs, hnames, hvalues⟩ := ih hitems
    refine ⟨(item, value) :: pairs, ?_, congrArg _ hnames,
      List.forall_mem_cons.mpr ⟨hvalue, hvalues⟩⟩
    rw [List.mapM_cons, hvalue, hpairs]
    rfl

/-! ## Orderly stores -/

/-- Whether a program can be listed and its site made: the names of its directories are names, and
what is written for it can be read back. -/
structure Storable (program : Program) : Prop where
  directories : ∀ course ∈ program.courses, Path.IsName course.directoryName
  readsBack : decode? (encode program) = some program

/-- What holds of a store in which programs have been saved under some keys: each of them is there,
and nothing is in the place of another one. -/
structure Orderly (home : Path) (keys : List String) (tree : FileTree) : Prop where
  proper : tree.Proper
  noFile : tree.fileAt ((programs home).place tree.workingDirectory) = none
  only : ∀ ⦃name node⦄, tree.root.find?
    ((programs home).place tree.workingDirectory ++ [name, programFileName]) = some node →
      name ∈ keys
  held : ∀ key ∈ keys, Path.IsName key
    ∧ ∃ program, Storable program ∧ tree.Holds (programFile home key) (encode program)

namespace Orderly

/-- **What leaves the programs.** No file in the place of a program is changed, and no directory is
made there. -/
theorem of_aside (h : Orderly home keys tree) (hproper : later.Proper)
    (hchanges : Changes (Aside home tree.workingDirectory) tree later)
    (hmade : ∀ place, later.HasDirectory place →
      tree.HasDirectory place ∨ ¬ ProgramPlace home tree.workingDirectory place) :
    Orderly home keys later := by
  have hworking := hchanges.workingDirectory
  refine ⟨hproper, ?_, fun name node hnode => ?_, fun key hkey => ?_⟩
  · rw [hworking, hchanges.files _ fun haside => haside.1 rfl]
    exact h.noFile
  · rw [hworking] at hnode
    have hplace : ProgramPlace home tree.workingDirectory _ := ⟨name, rfl⟩
    -- A file is what it was, and a directory is not made in such a place.
    cases node with
    | file content =>
      have hfile := fileAt_eq_some_iff.mpr hnode
      rw [hchanges.files _ fun haside => haside.2 hplace] at hfile
      exact h.only (fileAt_eq_some_iff.mp hfile)
    | directory entries =>
      obtain ⟨others, hothers⟩ := (hmade _ ⟨entries, hnode⟩).resolve_right (not_not_intro hplace)
      exact h.only hothers
  · obtain ⟨hname, program, hstorable, hholds⟩ := h.held key hkey
    refine ⟨hname, program, hstorable, hholds.of_changes hchanges fun haside => haside.2 ?_⟩
    exact ⟨key, place_programFile _ home hname⟩

/-- A save that fails leaves the store orderly. -/
theorem saveFailed (h : Orderly home keys tree) (hway : WayApart home tree.workingDirectory)
    (hkey : Path.IsName key) (hproper : later.Proper)
    (hfailed : FailedSave home key program tree later) : Orderly home keys later := by
  refine h.of_aside hproper (hfailed.changes.mono ?_) fun place hplace => ?_
  · rintro _ rfl
    exact aside_temporaryFile hkey
  · exact (hfailed.made hplace).imp_right (not_programPlace_of_onTheWay hway hkey)

/-- **What saves a program.** It is there, and the others are as they were. -/
theorem save (h : Orderly home keys tree) (hway : WayApart home tree.workingDirectory)
    (hkey : Path.IsName key) (hproper : later.Proper) (hstorable : Storable program)
    (hwhole : WholeSave home key program tree later) : Orderly home (key :: keys) later := by
  have hworking := hwhole.changes.workingDirectory
  refine ⟨hproper, ?_, fun name node hnode => ?_, fun other hother => ?_⟩
  · rw [hworking, hwhole.changes.files]
    · exact h.noFile
    · intro hown
      obtain ⟨name, _, hsame⟩ := exists_of_ownFile hkey hown
      simp at hsame
  · rw [hworking] at hnode
    -- A program place is that of the saved program or of another one.
    by_cases hown : OwnFile home key tree.workingDirectory
        ((programs home).place tree.workingDirectory ++ [name, programFileName])
    · obtain ⟨_, _, hsame⟩ := exists_of_ownFile hkey hown
      have hnames := List.append_cancel_left hsame
      exact List.mem_cons.mpr (.inl (List.cons.inj hnames).1)
    · refine .tail _ ?_
      cases node with
      | file content =>
        have hfile := fileAt_eq_some_iff.mpr hnode
        rw [hwhole.changes.files _ hown] at hfile
        exact h.only (fileAt_eq_some_iff.mp hfile)
      | directory entries =>
        obtain ⟨others, hothers⟩ := (hwhole.made ⟨entries, hnode⟩).resolve_right fun hmade =>
          not_programPlace_of_onTheWay hway hkey hmade ⟨name, rfl⟩
        exact h.only hothers
  · -- Under its key is the new program, under all others what was there.
    by_cases hsame : other = key
    · rw [hsame]
      exact ⟨hkey, program, hstorable, hwhole.holds⟩
    · obtain ⟨hname, stored, hstored, hholds⟩ :=
        h.held other ((List.mem_cons.mp hother).resolve_left hsame)
      refine ⟨hname, stored, hstored, hholds.of_changes hwhole.changes ?_⟩
      exact not_ownFile_of_other hkey hname hsame (.inl rfl)

/-! ## What is loaded -/

/-- Each of the keys has a program that is loaded. -/
theorem load_of_mem (h : Orderly home keys tree) (hkey : key ∈ keys) :
    ∃ program, Storable program ∧ load tree home key = .ok program := by
  obtain ⟨_, program, hstorable, hholds⟩ := h.held key hkey
  exact ⟨program, hstorable, load_of_holds hholds hstorable.readsBack⟩

/-- A program is there just for these keys. -/
theorem contains_iff (h : Orderly home keys tree) (hkey : Path.IsName key) :
    tree.contains (programFile home key) = true ↔ key ∈ keys := by
  constructor
  · intro hthere
    obtain ⟨location, node, hfind⟩ := exists_of_contains hthere
    obtain ⟨hlocate, hnode⟩ := of_find hfind
    obtain ⟨rfl, _⟩ := eq_place_of_locate hlocate
    rw [place_programFile _ home hkey] at hnode
    exact h.only hnode
  · intro hmem
    obtain ⟨_, _, _, hholds⟩ := h.held key hmem
    exact hholds.contains

/-- What is loaded has been saved. -/
theorem of_load (h : Orderly home keys tree) (hkey : Path.IsName key)
    (hload : load tree home key = .ok program) : key ∈ keys ∧ Storable program := by
  have hthere : tree.contains (programFile home key) = true := by
    by_contra hmissing
    unfold load at hload
    simp only [hmissing] at hload
    cases hload
  have hmem := (h.contains_iff hkey).mp hthere
  obtain ⟨stored, hstored, hfound⟩ := h.load_of_mem hmem
  rw [hload] at hfound
  cases hfound
  exact ⟨hmem, hstored⟩

/-- A course is put into a program that can be listed, or into a new one. -/
theorem storable_of_upsert (h : Orderly home keys tree) (hkey : Path.IsName key) {course : Course}
    (hcourse : Path.IsName course.directoryName)
    (hupsert : upsert home key course tree = .ok program later)
    (hread : decode? (encode program) = some program) : Storable program := by
  refine ⟨fun other hother => ?_, hread⟩
  obtain ⟨before, hbefore, rfl, _⟩ := exists_of_upsert hupsert
  rcases Program.mem_putLeveled hother with rfl | hold
  · exact hcourse
  · rcases hbefore with hload | ⟨rfl, _⟩
    · exact (h.of_load hkey hload).2.directories other hold
    · cases hold

/-! ## What is in an orderly store -/

/-- The directory of all programs lists its entries, if it is there. -/
theorem readDirectory_eq (h : Orderly home keys tree)
    (hthere : tree.contains (programs home) = true) :
    ∃ entries, tree.readDirectory (programs home) = .ok entries
      ∧ tree.root.find? ((programs home).place tree.workingDirectory)
        = some (.directory entries) := by
  obtain ⟨location, node, hfind⟩ := exists_of_contains hthere
  obtain ⟨hlocate, hnode⟩ := of_find hfind
  obtain ⟨rfl, _⟩ := eq_place_of_locate hlocate
  cases node with
  | file content =>
    have hnone := h.noFile
    rw [fileAt_eq_some_iff.mpr hnode] at hnone
    cases hnone
  | directory entries =>
    refine ⟨entries, ?_, hnode⟩
    rw [readDirectory, hfind]
    rfl

/-- Where a program is, there is the directory of all programs. -/
theorem contains_programs (h : Orderly home keys tree) (hkey : key ∈ keys) :
    tree.contains (programs home) = true := by
  obtain ⟨hname, program, _, hholds⟩ := h.held key hkey
  have hdirectory := contains_of_located isName_programFileName (Path.text_div_ne_empty _ hname)
    hholds.located
  obtain ⟨location, node, hfind⟩ := exists_of_contains hdirectory
  exact contains_of_located hname (Path.text_div_ne_empty _ (by decide)) (of_find hfind).1

section Entries

variable {entries : List (String × Node)}

/-- **The keys that are found.** They are those under which a program has been saved. -/
theorem mem_listedKeys (h : Orderly home keys tree)
    (hentries : tree.root.find? ((programs home).place tree.workingDirectory)
      = some (.directory entries)) :
    key ∈ listedKeys home entries tree ↔ key ∈ keys := by
  have hnodup : (Table.names entries).Nodup := h.proper.distinct _ _ hentries
  have hfind (name : String) (rest : List String) :
      tree.root.find? ((programs home).place tree.workingDirectory ++ name :: rest)
        = (Table.find? entries name).bind (·.find? rest) := by
    rw [Node.find?_append, hentries]
    exact Node.find?_directory_cons entries name rest
  have hmem : key ∈ Table.names (Table.sorted (entries.filter (·.2.isDirectory)))
      ↔ ∃ node, (key, node) ∈ entries ∧ node.isDirectory = true := by
    rw [(Table.names_sorted_perm _).mem_iff]
    simp [Table.names]
  rw [listedKeys, List.mem_filter, hmem]
  constructor
  · rintro ⟨⟨node, hentry, _⟩, hthere⟩
    have hplace := hfind key []
    rw [Table.find?_eq_some_of_mem hnodup hentry] at hplace
    have hname := h.proper.names (hplace.trans (Node.find?_nil node)) key (by simp)
    exact (h.contains_iff hname).mp hthere
  · intro hkey
    obtain ⟨hname, program, _, hholds⟩ := h.held key hkey
    refine ⟨?_, (h.contains_iff hname).mpr hkey⟩
    have hplace := fileAt_eq_some_iff.mp hholds.file
    rw [place_programFile _ home hname, hfind] at hplace
    obtain ⟨node, hnode, hfile⟩ := Option.bind_eq_some_iff.mp hplace
    refine ⟨node, Table.mem_of_find? hnode, ?_⟩
    -- Only a directory has anything in it.
    cases node with
    | file content => cases hfile
    | directory others => rfl

/-- They are in ascending order, and none is repeated. -/
theorem pairwise_listedKeys (h : Orderly home keys tree)
    (hentries : tree.root.find? ((programs home).place tree.workingDirectory)
      = some (.directory entries)) :
    (listedKeys home entries tree).Pairwise fun first second =>
      Text.bytes first < Text.bytes second := by
  have hnodup : (Table.names entries).Nodup := h.proper.distinct _ _ hentries
  have hsorted := Table.pairwise_sorted (entries.filter (·.2.isDirectory))
  have hdistinct : (Table.names (Table.sorted (entries.filter (·.2.isDirectory)))).Nodup :=
    Table.nodup_sorted (hnodup.sublist (List.filter_sublist.map _))
  refine .filter _ (((List.pairwise_map.mpr hsorted).and hdistinct).imp ?_)
  rintro first second ⟨hle, hdiffer⟩
  exact Text.bytes_lt (String.not_le.mp fun hge => hdiffer (String.le_antisymm hle hge))

end Entries

/-- **How an orderly store is listed.** -/
theorem exists_list (h : Orderly home keys tree) :
    ∃ pairs, list tree home = .ok pairs
      ∧ (pairs.map (·.1)).Pairwise (fun first second => Text.bytes first < Text.bytes second)
      ∧ (∀ key, key ∈ pairs.map (·.1) ↔ key ∈ keys)
      ∧ ∀ pair ∈ pairs, load tree home pair.1 = .ok pair.2 := by
  cases hthere : tree.contains (programs home) with
  | false =>
    refine ⟨[], list_of_missing hthere, .nil, fun key => ?_,
      fun _ hpair => absurd hpair List.not_mem_nil⟩
    refine iff_of_false List.not_mem_nil fun hkey => ?_
    rw [h.contains_programs hkey] at hthere
    cases hthere
  | true =>
    obtain ⟨entries, hread, hentries⟩ := h.readDirectory_eq hthere
    have hload {key : String} (hkey : key ∈ keys) :
        load tree home key = readProgram tree (programFile home key) := by
      obtain ⟨hname, _⟩ := h.held key hkey
      exact load_of_contains ((h.contains_iff hname).mpr hkey)
    have hreadable : ∀ key ∈ listedKeys home entries tree,
        ∃ program, readProgram tree (programFile home key) = .ok program := by
      intro key hkey
      have hmem := (h.mem_listedKeys hentries).mp hkey
      obtain ⟨program, _, hprogram⟩ := h.load_of_mem hmem
      exact ⟨program, (hload hmem).symm.trans hprogram⟩
    -- Every program can be read, so the list is not stopped by one that cannot.
    obtain ⟨pairs, hpairs, hnames, hprograms⟩ := exists_mapM hreadable
    refine ⟨pairs, (list_of_read hthere hread).trans hpairs, ?_, fun key => ?_,
      fun pair hpair => ?_⟩
    · rw [hnames]
      exact h.pairwise_listedKeys hentries
    · rw [hnames]
      exact h.mem_listedKeys hentries
    · have hkey : pair.1 ∈ keys := by
        rw [← h.mem_listedKeys hentries, ← hnames]
        exact List.mem_map_of_mem hpair
      exact (hload hkey).trans (hprograms pair hpair)

/-! ## Runs -/

/-- The making of a site in the directory of its program. -/
structure InOwnDirectory (home : Path) (making : Site.Making) : Prop where
  sameHome : making.home = home
  isName : Path.IsName making.key
  ownSite : making.site = siteDirectory home making.key

/-- A site that is made in the directory of its program leaves all programs. -/
theorem perform (h : Orderly home keys tree) (hway : WayApart home tree.workingDirectory)
    {making : Site.Making} (hmaking : InOwnDirectory home making) :
    Orderly home keys (after making.perform tree)
      ∧ (after making.perform tree).workingDirectory = tree.workingDirectory := by
  obtain ⟨rfl, hkey, hsite⟩ := hmaking
  have hperforms := Site.performs_makeWith making.library making.now making.home making.key
    making.site making.dryRun tree
  have hadds : AddsOnly (fun _ => True) (¬ ProgramPlace making.home tree.workingDirectory ·)
      tree _ :=
    hperforms.addsOnly (fun _ _ _ _ => trivial) fun path hoperation => by
      obtain ⟨program, hload, hcreate⟩ := hoperation
      rw [hsite] at hcreate
      exact not_programPlace_of_making hway hkey (h.of_load hkey hload).2.directories hcreate
  have hchanges : Changes SiteFile tree _ :=
    hperforms.changes fun operation hoperation path hpath => by
      obtain ⟨program, _, hmaking⟩ := hoperation
      obtain ⟨ending, hending, hsuffix⟩ := siteOperation_of_making hmaking path hpath
      exact siteFile_of_suffix hending hsuffix _
  exact ⟨h.of_aside (hperforms.proper h.proper) (hchanges.mono fun _ => aside_of_siteFile)
    hadds.directories, hperforms.workingDirectory⟩

/-- Making several sites leaves the store orderly. -/
theorem performAll (h : Orderly home keys tree) (hway : WayApart home tree.workingDirectory)
    {makings : List Site.Making} (hmakings : ∀ making ∈ makings, InOwnDirectory home making) :
    Orderly home keys (after (Site.performAll makings) tree) := by
  -- On the makings, up to one that fails.
  induction makings generalizing tree with
  | nil => exact h
  | cons making rest ih =>
    obtain ⟨hmaking, hrest⟩ := List.forall_mem_cons.mp hmakings
    obtain ⟨hfirst, hworking⟩ := h.perform hway hmaking
    cases hresult : making.perform tree with
    | error e later =>
      rw [after_of_error hresult] at hfirst
      rw [show after (Site.performAll (making :: rest)) tree = later from
        after_bind_of_error hresult]
      exact hfirst
    | ok report later =>
      rw [after_of_ok hresult] at hfirst hworking
      rw [Site.after_performAll_cons_of_ok hresult]
      exact ih hfirst (hworking ▸ hway) hrest

/-- **Runs.** Whatever sites are made, each in the directory of its program, all programs are
left. -/
theorem run (h : Orderly home keys tree) (hway : WayApart home tree.workingDirectory)
    (now : Instant) {scope : Scope} {options : SiteOptions} (hout : options.out = none)
    (hscope : ∀ name, scope = .program name → Path.IsName name) :
    Orderly home keys (after (Site.run now home scope options) tree) := by
  rcases Site.run_eq now home scope options tree with ⟨e, _, hrun⟩ | hrun
  · rw [after_of_error hrun]
    exact h
  · have hmakings : ∀ making ∈ Site.makings now home scope options tree,
        InOwnDirectory home making := by
      intro making hmem
      unfold Site.makings at hmem
      split at hmem
      · exact absurd hmem List.not_mem_nil
      · split at hmem
        · rw [List.mem_singleton.mp hmem, hout]
          exact ⟨rfl, hscope _ rfl, rfl⟩
        · -- All programs are made into sites, each in its own directory.
          obtain ⟨pairs, hlist, _, hkeys, _⟩ := h.exists_list
          rw [hlist] at hmem
          obtain ⟨name, hname, rfl⟩ := List.mem_map.mp hmem
          refine ⟨rfl, (h.held name ((hkeys name).mp hname)).1, ?_⟩
          simp only [Site.makingAmong, hout]
    unfold after
    rw [hrun]
    exact h.performAll hway hmakings

end Orderly

/-! ## Stores that grow -/

/-- Whether the store of a home directory is empty: there is no program, the directory of all
programs is no file, and what may have to be made on the way to it is in the place of no program.
Nothing has to be made on the way if the home directory is there. -/
structure IsEmpty (home : Path) (tree : FileTree) : Prop where
  noFile : tree.fileAt ((programs home).place tree.workingDirectory) = none
  noProgram : ∀ place, ProgramPlace home tree.workingDirectory place → tree.root.find? place = none
  wayApart : WayApart home tree.workingDirectory

/-- If there is no program, nothing on the way is in the place of one as long as the home directory
is there, or its path never goes back up. -/
theorem isEmpty_of_home (hfile : tree.fileAt ((programs home).place tree.workingDirectory) = none)
    (hnone : ∀ place, ProgramPlace home tree.workingDirectory place →
      tree.root.find? place = none)
    (hhome : tree.isDirectory home = true ∧ (root home).text.utf8ByteSize ≤ maxPathBytes
      ∨ ".." ∉ home.names) : IsEmpty home tree where
  noFile := hfile
  noProgram := hnone
  wayApart := by
    rcases hhome with ⟨hthere, hlong⟩ | hdown
    · obtain ⟨location, hlocate⟩ := exists_locate_root hthere hlong
      exact wayApart_of_locate hnone hlocate
    · exact wayApart_of_noParent hdown _

/-- What becomes of a tree when programs are saved, courses are put into programs and sites are made
in the directories of their programs, with success or not, and the keys under which a program has
been saved. -/
inductive Grown (home : Path) (start : FileTree) : List String → FileTree → Prop where
  | start : Grown home start [] start
  | saved {keys : List String} {tree later : FileTree} {key : String} {program : Program}
      (h : Grown home start keys tree) (hkey : Path.IsName key) (hstorable : Storable program)
      (hsave : save home key program tree = .ok () later) : Grown home start (key :: keys) later
  | unsaved {keys : List String} {tree later : FileTree} {key : String} {program : Program}
      {e : StoreError} (h : Grown home start keys tree) (hkey : Path.IsName key)
      (hsave : save home key program tree = .error e later) : Grown home start keys later
  | put {keys : List String} {tree later : FileTree} {key : String} {course : Course}
      {program : Program} (h : Grown home start keys tree) (hkey : Path.IsName key)
      (hcourse : Path.IsName course.directoryName)
      (hupsert : upsert home key course tree = .ok program later)
      (hread : decode? (encode program) = some program) : Grown home start (key :: keys) later
  | unput {keys : List String} {tree later : FileTree} {key : String} {course : Course}
      {e : StoreError} (h : Grown home start keys tree) (hkey : Path.IsName key)
      (hupsert : upsert home key course tree = .error e later) : Grown home start keys later
  | run {keys : List String} {tree : FileTree} (h : Grown home start keys tree) (now : Instant)
      {scope : Scope} {options : SiteOptions} (hout : options.out = none)
      (hscope : ∀ name, scope = .program name → Path.IsName name) :
      Grown home start keys (after (Site.run now home scope options) tree)

/-- An empty store is orderly without keys. -/
theorem orderly_of_isEmpty (hproper : tree.Proper) (h : IsEmpty home tree) :
    Orderly home [] tree where
  proper := hproper
  noFile := h.noFile
  only name node hnode := by
    rw [h.noProgram _ ⟨name, rfl⟩] at hnode
    cases hnode
  held key hkey := absurd hkey List.not_mem_nil

/-- A store grows by operations on files. -/
theorem Grown.performs {start final : FileTree} (h : Grown home start keys final) :
    Performs (fun _ => True) start final := by
  have hstep {allowed : Operation → Prop} {ε α : Type} {action : FileAction ε α}
      {tree : FileTree} (hbefore : Performs (fun _ => True) start tree)
      (haction : Does allowed action) : Performs (fun _ => True) start (after action tree) :=
    hbefore.trans ((haction tree).mono fun _ _ => trivial)
  -- On the steps by which it has grown.
  induction h with
  | start => exact .refl _
  | @saved _ _ _ key program _ _ _ hsave ih =>
    exact after_of_ok hsave ▸ hstep ih (does_save home key program)
  | @unsaved _ _ _ key program _ _ _ hsave ih =>
    exact after_of_error hsave ▸ hstep ih (does_save home key program)
  | @put _ _ _ key course _ _ _ _ hupsert _ ih =>
    exact after_of_ok hupsert ▸ hstep ih (does_upsert home key course)
  | @unput _ _ _ key course _ _ _ hupsert ih =>
    exact after_of_error hupsert ▸ hstep ih (does_upsert home key course)
  | run _ now _ _ ih => exact hstep ih (does_run now home _ _)

/-- **Stores stay orderly.** -/
theorem orderly_of_grown {start final : FileTree} (hproper : start.Proper)
    (hempty : IsEmpty home start) (h : Grown home start keys final) : Orderly home keys final := by
  have hway {keys : List String} {tree : FileTree} (h : Grown home start keys tree) :
      WayApart home tree.workingDirectory := h.performs.workingDirectory ▸ hempty.wayApart
  have hlater {keys : List String} {tree : FileTree} (h : Grown home start keys tree) :
      tree.Proper := h.performs.proper hproper
  -- On the steps, each of which keeps the store orderly, whether it succeeds or not.
  induction h with
  | start => exact orderly_of_isEmpty hproper hempty
  | saved h hkey hstorable hsave ih =>
    exact ih.save (hway h) hkey (hlater (h.saved hkey hstorable hsave)) hstorable
      (wholeSave_of_ok hsave)
  | unsaved h hkey hsave ih =>
    exact ih.saveFailed (hway h) hkey (hlater (h.unsaved hkey hsave))
      (failedSave_of_error hkey hsave)
  | put h hkey hcourse hupsert hread ih =>
    obtain ⟨_, _, _, hsave⟩ := exists_of_upsert hupsert
    exact ih.save (hway h) hkey (hlater (h.put hkey hcourse hupsert hread))
      (ih.storable_of_upsert hkey hcourse hupsert hread) (wholeSave_of_ok hsave)
  | unput h hkey hupsert ih =>
    rcases of_upsert_error hupsert with rfl | ⟨_, program, hsave⟩
    · exact ih
    · exact ih.saveFailed (hway h) hkey (hlater (h.unput hkey hupsert))
        (failedSave_of_error hkey hsave)
  | run h now hout hscope ih => exact ih.run (hway h) now hout hscope

/-- **Listing and loading.** A store that has grown from an empty one can be listed. The list has
one pair for every key under which a program has been saved, in ascending order of the bytes of the
keys, each with the program that is loaded by the key. -/
theorem list_of_grown {start final : FileTree} (hproper : start.Proper)
    (hempty : IsEmpty home start) (h : Grown home start keys final) :
    ∃ pairs, list final home = .ok pairs
      ∧ (pairs.map (·.1)).Pairwise (fun first second => Text.bytes first < Text.bytes second)
      ∧ (∀ key, key ∈ pairs.map (·.1) ↔ key ∈ keys)
      ∧ ∀ pair ∈ pairs, load final home pair.1 = .ok pair.2 :=
  (orderly_of_grown hproper hempty h).exists_list

/-- So it is wherever the home directory is there before, or its path never goes back up, if there
is neither a program yet nor a file in the place of the directory of all programs. -/
theorem list_of_home {start final : FileTree} (hproper : start.Proper)
    (hfile : start.fileAt ((programs home).place start.workingDirectory) = none)
    (hnone : ∀ place, ProgramPlace home start.workingDirectory place →
      start.root.find? place = none)
    (hhome : start.isDirectory home = true ∧ (root home).text.utf8ByteSize ≤ maxPathBytes
      ∨ ".." ∉ home.names)
    (h : Grown home start keys final) :
    ∃ pairs, list final home = .ok pairs
      ∧ (pairs.map (·.1)).Pairwise (fun first second => Text.bytes first < Text.bytes second)
      ∧ (∀ key, key ∈ pairs.map (·.1) ↔ key ∈ keys)
      ∧ ∀ pair ∈ pairs, load final home pair.1 = .ok pair.2 :=
  (orderly_of_grown hproper (isEmpty_of_home hfile hnone hhome) h).exists_list

/-! ## Programs that are saved out of order -/

namespace OutOfOrder

open SameDirectory

/-- What is stored under a key is stored under another one as well, and all sites are made. -/
@[irreducible] def afterBoth : FileTree := after (save atHome "b" afterFirst) first

def afterRun : FileTree := after (Site.run Neighbours.noon atHome .all {}) afterBoth

/-- The second save writes the first program. -/
theorem save_first : save atHome "b" afterFirst first = .ok () afterBoth := by
  unfold afterBoth
  exact eq_ok_of_valueOf (by decide +kernel)

/-- The tree of the start is proper. -/
theorem proper_start : start.Proper where
  distinct := by
    refine .of_entries (by decide) fun entry hentry => ?_
    rw [List.mem_singleton.mp hentry]
    exact Node.distinct_empty
  names place node hnode := by
    cases place with
    | nil => nofun
    | cons name rest =>
      rw [start, Node.find?_directory_cons] at hnode
      obtain ⟨child, hchild, hrest⟩ := Option.bind_eq_some_iff.mp hnode
      obtain ⟨rfl, rfl⟩ : name = "home" ∧ child = .directory [] := by
        simpa using Table.mem_of_find? hchild
      -- The home directory is empty.
      cases rest with
      | nil => decide
      | cons other rest => cases hrest
  working := nofun

theorem isEmpty_start : IsEmpty atHome start := by
  refine isEmpty_of_home (by decide) ?_ (.inr (by decide))
  rintro _ ⟨name, rfl⟩
  rfl

theorem grown_afterRun : Grown atHome start ["b", "k"] afterRun := by
  obtain ⟨_, hput, hread⟩ := of_start
  have hfirst : upsert atHome "k" numbered start = .ok afterFirst first := by
    unfold first
    exact eq_ok_of_valueOf hput
  have hstored : Grown atHome start ["k"] first :=
    .put .start (by decide) (by decide) hfirst hread
  exact .run (.saved hstored (by decide) ⟨by decide, hread⟩ save_first) Neighbours.noon rfl nofun

/-- The one that was saved first is listed last. -/
theorem list_afterRun : Grown atHome start ["b", "k"] afterRun
    ∧ ∃ pairs, list afterRun atHome = .ok pairs ∧ pairs.map (·.1) = ["b", "k"] := by
  obtain ⟨pairs, hlist, hsorted, hkeys, _⟩ :=
    list_of_grown proper_start isEmpty_start grown_afterRun
  refine ⟨grown_afterRun, pairs, hlist, ?_⟩
  have hnodup : (pairs.map (·.1)).Nodup := hsorted.imp fun hless hsame => by
    rw [hsame] at hless
    exact List.lt_irrefl _ hless
  have hperm : (pairs.map (·.1)).Perm ["b", "k"] :=
    (List.perm_ext_iff_of_nodup hnodup (by decide)).mpr hkeys
  refine hperm.eq_of_pairwise (fun _ _ _ _ hless hmore => ?_) hsorted (by decide)
  exact absurd hmore (List.lt_asymm hless)

end OutOfOrder

end Syllabus.Store
