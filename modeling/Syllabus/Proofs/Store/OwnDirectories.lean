import Syllabus.Proofs.Site.Isolation
import Syllabus.Proofs.Store.WholeSaves

/-!
# Syllabus: the directories of a store

Saving programs and making their sites makes directories of the store and, where they are missing,
those on the way to it. None of them is where the file of a program would be, unless the way to the
store leads through such a place itself.

* **`WayApart`**: the home directories whose way does not: by **`wayApart_of_locate`** those that
  are there, and by **`wayApart_of_noParent`** those whose path never goes back up.
* **`not_programPlace_of_onTheWay`**, **`not_programPlace_of_making`**: what is made.
-/

namespace Syllabus.Store

open FileTree FileAction Template.Library

variable {home : Path} {key : String} {start place : List String} {program : Program}

/-! ## The places of programs -/

/-- Whether a place is where the program of some key would be. -/
def ProgramPlace (home : Path) (start place : List String) : Prop :=
  ∃ name, place = (programs home).place start ++ [name, programFileName]

/-- Whether a place is neither that of a program nor that of the directory of all programs. -/
def Aside (home : Path) (start place : List String) : Prop :=
  place ≠ (programs home).place start ∧ ¬ ProgramPlace home start place

/-- The programs are in a directory of the store. -/
theorem place_programs (start : List String) (home : Path) :
    (programs home).place start = (root home).place start ++ ["programs"] :=
  Path.place_div start _ (by decide)

/-- Files of sites are no programs. -/
theorem aside_of_siteFile (h : SiteFile place) : Aside home start place := by
  obtain ⟨ending, hending, before, last, rfl, hsuffix⟩ := h
  -- Neither name ends as a file of a site does.
  have hnone : ∀ name ∈ ["programs", programFileName], ∀ ending ∈ siteEndings,
      ¬ ending.toList <:+ name.toList := by decide
  constructor
  · intro hsame
    rw [place_programs] at hsame
    obtain ⟨_, rfl⟩ := List.append_singleton_inj.mp hsame
    exact hnone _ (by simp) _ hending hsuffix
  · rintro ⟨name, hsame⟩
    rw [List.append_cons (programs home |>.place start)] at hsame
    obtain ⟨_, rfl⟩ := List.append_singleton_inj.mp hsame
    exact hnone _ (by simp) _ hending hsuffix

theorem aside_temporaryFile (hkey : Path.IsName key) :
    Aside home start ((temporaryFile home key).place start) := by
  -- It lies two names below the directory of all programs, and its own name is another.
  rw [place_temporaryFile start home hkey]
  refine ⟨by simp, ?_⟩
  rintro ⟨name, hsame⟩
  have hnames := List.append_cancel_left hsame
  exact absurd (List.cons.inj (List.cons.inj hnames).2).1 (by decide)

/-! ## The directories of a store -/

/-- The directories that some names lead to from the directory of the store. -/
inductive InStore (home : Path) : List String → Path → Prop where
  | self : InStore home [] (root home)
  | inside {names : List String} {directory : Path} {name : String}
      (h : InStore home names directory) (hname : Path.IsName name) :
      InStore home (names ++ [name]) (directory / name)

/-- Whether no directory on the way to a store is in the place of a program. None is on the way to
that of a home directory whose path never goes back up. -/
def WayApart (home : Path) (start : List String) : Prop :=
  ∀ path ∈ root home :: (root home).ancestors, ¬ ProgramPlace home start (path.place start)

/-- A home without detours leads through none of its own programs. -/
theorem wayApart_of_noParent (hhome : ".." ∉ home.names) (start : List String) :
    WayApart home start := by
  rintro path hpath ⟨name, hplace⟩
  have hroot : ".." ∉ (root home).names := by
    rw [root, Path.names_div _ (by decide) (by decide)]
    simp [hhome]
  -- Without a step back, what is around the store is a beginning of its place.
  have haround : path.place start <+: (root home).place start := by
    rcases List.mem_cons.mp hpath with rfl | hmem
    · exact List.prefix_rfl
    · exact (Path.place_ancestor hroot hmem start).1
  have hlength := haround.length_le
  rw [hplace, place_programs] at hlength
  simp only [List.length_append, List.length_cons, List.length_nil] at hlength
  -- A program lies deeper than the store.
  omega

/-- Nor is any on the way to that of a home directory that is there, unless there is a program: all
directories around it are there. -/
theorem wayApart_of_locate {tree : FileTree} {location : List String}
    (hnone : ∀ place, ProgramPlace home tree.workingDirectory place →
      tree.root.find? place = none)
    (h : tree.locate (root home) = .ok location) : WayApart home tree.workingDirectory := by
  intro path hpath hplace
  rcases List.mem_cons.mp hpath with rfl | haround
  · obtain ⟨name, hsame⟩ := hplace
    rw [place_programs] at hsame
    simp at hsame
  · obtain ⟨before, hfields⟩ := Path.exists_fields_div home
    -- Each directory around a path that is followed is there, and the place of a program is not.
    obtain ⟨entries, hentries⟩ := hasDirectory_of_mem_ancestors (hfields ".coursebook" (by decide))
      (by decide) h haround
    rw [hnone _ hplace] at hentries
    cases hentries

/-- From a home directory that is there, the path of the store is followed unless it is too long. -/
theorem exists_locate_root {tree : FileTree} (hhome : tree.isDirectory home = true)
    (hlong : (root home).text.utf8ByteSize ≤ maxPathBytes) :
    ∃ location, tree.locate (root home) = .ok location := by
  obtain ⟨hlocate, hdirectory⟩ := isDirectory_iff.mp hhome
  obtain ⟨_, hzero, _, hfollow⟩ := locate_eq_ok_iff.mp hlocate
  -- Only the bound on the length is left to be asked for.
  refine ⟨_, locate_div_of_directory (by decide) ?_ (by decide) hlong hfollow hdirectory⟩
  -- There is only a slash between the path of the home directory and the name.
  rw [Path.text_div _ (by decide), Path.lead]
  split
  · rw [String.toList_append, List.contains_append, hzero]
    rfl
  · rw [String.append_assoc, String.toList_append, List.contains_append, hzero]
    rfl

namespace InStore

variable {names : List String} {directory path : Path} {name : String}

/-- A directory in the store is a name in another one. -/
theorem exists_div (h : InStore home names directory) :
    ∃ (around : Path) (name : String), Path.IsName name ∧ directory = around / name := by
  cases h with
  | self => exact ⟨home, _, by decide, rfl⟩
  | inside _ hname => exact ⟨_, _, hname, rfl⟩

theorem place_eq (h : InStore home names directory) (start : List String) :
    directory.place start = (root home).place start ++ names := by
  induction h with
  | self => simp
  | inside _ hname ih => rw [Path.place_div start _ hname, ih, List.append_assoc]

/-- What is around a directory of a store is in the store, or on the way to it. -/
theorem around (h : InStore home names directory)
    (hpath : path ∈ directory :: directory.ancestors) (start : List String) :
    path ∈ root home :: (root home).ancestors
      ∨ ∃ front, front <+: names ∧ path.place start = (root home).place start ++ front := by
  induction h with
  | self => exact .inl hpath
  | @inside names directory name h hname ih =>
    obtain ⟨around, last, hlast, hdirectory⟩ := h.exists_div
    -- What is around it is around the directory that it lies in, or is this one.
    rw [hdirectory, Path.ancestors_div_div hlast hname, ← hdirectory] at hpath
    rcases List.mem_cons.mp hpath with rfl | hmem
    · exact .inr ⟨_, List.prefix_rfl, (h.inside hname).place_eq start⟩
    · refine (ih hmem).imp_right fun ⟨front, hfront, hplace⟩ => ?_
      exact ⟨front, hfront.trans (List.prefix_append _ _), hplace⟩

/-- No directory of a store is in the place of a program, nor is one around it. -/
theorem not_programPlace (h : InStore home names directory) (hway : WayApart home start)
    (hnames : ∀ name, ¬ ["programs", name, programFileName] <+: names)
    (hpath : path ∈ directory :: directory.ancestors) :
    ¬ ProgramPlace home start (path.place start) := by
  -- Outside of the store the way is apart; inside the names would have to be those of a program.
  rcases h.around hpath start with hroot | ⟨front, hfront, hplace⟩
  · exact hway path hroot
  · rintro ⟨name, hprogram⟩
    rw [hplace, place_programs, List.append_assoc] at hprogram
    rw [List.append_cancel_left hprogram] at hfront
    exact hnames name hfront

/-- The directory of a program is in the store. -/
theorem programDirectory (hkey : Path.IsName key) :
    InStore home ["programs", key] (programDirectory home key) :=
  (self.inside (by decide)).inside hkey

theorem siteDirectory (hkey : Path.IsName key) :
    InStore home ["programs", key, "site"] (siteDirectory home key) :=
  (programDirectory hkey).inside (by decide)

theorem hashes : InStore home ["hashes"] (root home / "hashes") := self.inside (by decide)

end InStore

/-! ## The directories that are made -/

/-- No directory on the way to a program is in the place of one's file. -/
theorem not_programPlace_of_onTheWay (hway : WayApart home start) (hkey : Path.IsName key)
    (h : OnTheWay home key start place) : ¬ ProgramPlace home start place := by
  obtain ⟨path, hpath, rfl⟩ := h
  exact (InStore.programDirectory hkey).not_programPlace hway (by simp) hpath

/-- The directory of a page is that of the site, or that of a course in it. -/
theorem not_programPlace_of_writing (hway : WayApart home start) {names : List String}
    {directory path : Path} (hdirectory : InStore home names directory)
    (hnames : ∀ name, ¬ ["programs", name, programFileName] <+: names) {name : String}
    (hname : Path.IsName name) (h : Site.writing (directory / name) (.create path)) :
    ¬ ProgramPlace home start (path.place start) := by
  obtain ⟨around, last, hlast, hdiv⟩ := hdirectory.exists_div
  cases h with
  | @create parent _ hparent haround =>
    rw [temporaryPath_div directory hname, hdiv, Path.parent?_div_div hlast hname,
      Path.parent?_div_div hlast (hname.append Site.isEnding_temporaryPath), ← hdiv] at hparent
    obtain rfl : parent = directory := by simpa using hparent
    exact hdirectory.not_programPlace hway hnames haround

/-- No directory that is made for a site is. -/
theorem not_programPlace_of_making (hway : WayApart home start) (hkey : Path.IsName key)
    (hnames : ∀ course ∈ program.courses, Path.IsName course.directoryName) {path : Path}
    (h : Site.MakeOperation (sitePaths (siteDirectory home key) program) home key (.create path)) :
    ¬ ProgramPlace home start (path.place start) := by
  have hsite : InStore home _ (siteDirectory home key) := .siteDirectory hkey
  have hother : "site" ≠ programFileName := by decide
  cases h with
  | @page page hpage hwriting =>
    -- The page of the program is in its directory, and the others one further down.
    rcases mem_sitePaths_iff.mp hpage with rfl | ⟨course, hcourse, id, _, rfl⟩
    · exact not_programPlace_of_writing hway hsite (by simp [hother.symm]) (by decide) hwriting
    · exact not_programPlace_of_writing hway (hsite.inside (hnames course hcourse))
        (by simp [hother.symm]) (isName_pageFileName id) hwriting
  | ledger hsaving =>
    cases hsaving with
    | @create directory _ hdirectory haround =>
      -- Ledgers lie beside the programs.
      have hparent : (Ledger.file home key).parent? = some (root home / "hashes") :=
        Path.parent?_div_div (by decide) (hkey.append isEnding_json)
      rw [hparent] at hdirectory
      obtain rfl : directory = root home / "hashes" := by simpa using hdirectory
      exact InStore.hashes.not_programPlace hway (by simp) haround

end Syllabus.Store
