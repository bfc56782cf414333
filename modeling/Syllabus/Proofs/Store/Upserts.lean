import Syllabus.Proofs.Program.Courses
import Syllabus.Proofs.Site.History
import Syllabus.Proofs.Store.Saving

/-!
# Syllabus: courses put into a stored program

A program is stored in a file of its own, which only storing this very program changes. So when
courses are put into it one after the other, each one is put into the program that the one before
has left, whatever is done to other programs on the way.

* **`Upserted.stored`**: what is stored when courses have been put.
* **`load_of_upserted`**: what is then loaded, and what putting the last course again does.
-/

namespace Syllabus.Store

open FileTree FileAction

variable {home : Path} {key : String} {course : Course} {program before : Program}
  {tree later : FileTree}

/-! ## Putting courses -/

/-- A program that is held and can be read back is loaded. -/
theorem load_of_holds (hholds : tree.Holds (programFile home key) (encode program))
    (hread : decode? (encode program) = some program) : load tree home key = .ok program := by
  unfold load readProgram
  simp only [hholds.contains, if_true, hholds.readText, hread]

/-- Adding a course to a program that is there saves it with the course put in. -/
theorem upsert_of_load (h : load tree home key = .ok before) :
    upsert home key course tree
      = (save home key (before.putLeveled course)
        >>= fun _ => pure (before.putLeveled course)) tree := by
  refine (FileAction.bind_ok rfl).trans ?_
  simp only [h]
  rfl

/-- Where there is none a new one is saved. -/
theorem upsert_of_notFound {path : Path} (h : load tree home key = .error (.programNotFound path)) :
    upsert home key course tree
      = (save home key ((Program.named key).putLeveled course)
        >>= fun _ => pure ((Program.named key).putLeveled course)) tree := by
  refine (FileAction.bind_ok rfl).trans ?_
  simp only [h]
  rfl

/-- With any other error nothing is done. -/
theorem upsert_of_error {e : StoreError} (h : load tree home key = .error e)
    (hother : ∀ path, e ≠ .programNotFound path) :
    upsert home key course tree = .error e tree := by
  refine (FileAction.bind_ok rfl).trans ?_
  simp only [h]
  -- Of the errors only a missing program is made good.
  cases e with
  | programNotFound path => exact absurd rfl (hother path)
  | io fault | malformed path | homeNotFound => rfl

/-- A course is put into the program that is stored, or else into a new one. -/
theorem exists_of_upsert (h : upsert home key course tree = .ok program later) :
    ∃ before, (load tree home key = .ok before ∨ before = Program.named key
        ∧ ∃ path, load tree home key = .error (.programNotFound path))
      ∧ program = before.putLeveled course ∧ save home key program tree = .ok () later := by
  -- Behind the program that was found, a course is put and the result is saved.
  have hsaved {before : Program}
      (h : (save home key (before.putLeveled course)
        >>= fun _ => pure (before.putLeveled course)) tree = .ok program later) :
      program = before.putLeveled course ∧ save home key program tree = .ok () later := by
    obtain ⟨_, _, hsave, h⟩ := FileAction.exists_of_bind_eq_ok h
    cases h
    exact ⟨rfl, hsave⟩
  cases hload : load tree home key with
  | ok before =>
    rw [upsert_of_load hload] at h
    exact ⟨before, .inl rfl, hsaved h⟩
  | error e =>
    -- A program that is not found is made new; other errors are passed on.
    by_cases hother : ∀ path, e ≠ .programNotFound path
    · rw [upsert_of_error hload hother] at h
      cases h
    · push Not at hother
      obtain ⟨path, rfl⟩ := hother
      rw [upsert_of_notFound hload] at h
      exact ⟨.named key, .inr ⟨rfl, path, rfl⟩, hsaved h⟩

/-- A file that holds no program is left as it is, and is the only reason to say so. -/
theorem upsert_malformed_iff {path : Path} :
    upsert home key course tree = .error (.malformed path) later
      ↔ load tree home key = .error (.malformed path) ∧ later = tree := by
  -- Saving never calls a program malformed, so it must have been loaded so.
  have hsaved {before : Program} (h : (save home key (before.putLeveled course)
      >>= fun _ => pure (before.putLeveled course)) tree = .error (.malformed path) later) :
      False := by
    rcases of_bind_eq_error h with hsave | ⟨_, _, _, h⟩
    · obtain ⟨fault, hfault⟩ := exists_fault_of_save hsave
      cases hfault
    · cases h
  constructor
  · intro h
    cases hload : load tree home key with
    | ok before =>
      rw [upsert_of_load hload] at h
      exact (hsaved h).elim
    | error e =>
      by_cases hother : ∀ path, e ≠ .programNotFound path
      · rw [upsert_of_error hload hother] at h
        cases h
        exact ⟨rfl, rfl⟩
      · push Not at hother
        obtain ⟨path, rfl⟩ := hother
        rw [upsert_of_notFound hload] at h
        exact (hsaved h).elim
  · rintro ⟨hload, rfl⟩
    exact upsert_of_error hload fun _ => nofun

/-! ## Sequences of courses -/

/-- Whether a program is stored, with nothing left from storing it, and can be read back. -/
structure Stored (home : Path) (key : String) (program : Program) (tree : FileTree) : Prop where
  holds : tree.Holds (programFile home key) (encode program)
  noTemporary : tree.fileAt ((temporaryFile home key).place tree.workingDirectory) = none
  readsBack : decode? (encode program) = some program

namespace Stored

theorem load_eq (h : Stored home key program tree) : load tree home key = .ok program :=
  load_of_holds h.holds h.readsBack

/-- Changes to other files keep a program stored. -/
theorem of_changes {places : List String → Prop} (h : Stored home key program tree)
    (hchanges : Changes places tree later)
    (hown : ∀ place, places place → ¬ OwnFile home key tree.workingDirectory place) :
    Stored home key program later where
  holds := h.holds.of_changes hchanges fun hplace => hown _ hplace (.inl rfl)
  noTemporary := by
    -- The place is the same, since relative paths still start from the same directory.
    rw [hchanges.workingDirectory, hchanges.files _ fun hplace => hown _ hplace (.inr rfl)]
    exact h.noTemporary
  readsBack := h.readsBack

/-- What has been saved is stored, if it can be read back. -/
theorem of_saved (h : Saved home key program tree)
    (hread : decode? (encode program) = some program) : Stored home key program tree :=
  ⟨h.holds, fileAt_eq_none h.moved, hread⟩

/-- One more course is put into the program that is stored. -/
theorem upsert (h : Stored home key before tree)
    (hupsert : Store.upsert home key course tree = .ok program later)
    (hread : decode? (encode program) = some program) :
    program = before.putLeveled course ∧ Stored home key program later := by
  obtain ⟨found, hfound, hprogram, hsave⟩ := exists_of_upsert hupsert
  refine ⟨?_, .of_saved (saved hsave) hread⟩
  rcases hfound with hload | ⟨_, path, hload⟩
  · rw [h.load_eq] at hload
    cases hload
    exact hprogram
  · rw [h.load_eq] at hload
    cases hload

end Stored

/-- Steps that work on other programs, or make sites of any. -/
inductive Elsewhere (home : Path) (key : String) : Site.Step → Prop where
  | save {other : String} (hname : Path.IsName other) (hother : other ≠ key) (program : Program) :
      Elsewhere home key (.save home other program)
  | upsert {other : String} (hname : Path.IsName other) (hother : other ≠ key) (course : Course) :
      Elsewhere home key (.upsert home other course)
  | run (now : Instant) (anyHome : Path) (scope : Scope) (options : SiteOptions) :
      Elsewhere home key (.run now anyHome scope options)

/-- What is done elsewhere leaves the program stored as it is, whether it succeeds or fails. -/
theorem Stored.elsewhere (hkey : Path.IsName key) (h : Stored home key program tree)
    {step : Site.Step} (hstep : Elsewhere home key step) :
    Stored home key program (step.apply tree) := by
  -- Saving, adding a course and running are the three kinds of steps.
  cases hstep with
  | @save other hname hother otherProgram =>
    have hkeeps : Keeps tree.workingDirectory (OwnFile home other tree.workingDirectory)
        (Store.save home other otherProgram) :=
      (does_save home other otherProgram).keeps_of_replacing (.inr rfl) (.inl rfl)
    exact h.of_changes (hkeeps rfl) fun _ => not_ownFile_of_other hkey hname hother
  | @upsert other hname hother course =>
    have hkeeps : Keeps tree.workingDirectory (OwnFile home other tree.workingDirectory)
        (Store.upsert home other course) :=
      (does_upsert home other course).keeps_of_replacing (.inr rfl) (.inl rfl)
    exact h.of_changes (hkeeps rfl) fun _ => not_ownFile_of_other hkey hname hother
  | run now anyHome scope options =>
    exact h.of_changes (keeps_run now anyHome scope options rfl)
      fun _ => not_ownFile_of_siteFile hkey

/-- Courses that have been put one after the other where no program was stored, each with success
and such that what was written can be read back, and anything done elsewhere in between. -/
inductive Upserted (home : Path) (key : String) (start : FileTree) :
    List Course → FileTree → Prop where
  | first {course : Course} {program : Program} {later : FileTree}
      (hnew : ∀ stored, load start home key ≠ .ok stored)
      (hupsert : upsert home key course start = .ok program later)
      (hread : decode? (encode program) = some program) : Upserted home key start [course] later
  | again {courses : List Course} {course : Course} {program : Program} {tree later : FileTree}
      (h : Upserted home key start courses tree)
      (hupsert : upsert home key course tree = .ok program later)
      (hread : decode? (encode program) = some program) :
      Upserted home key start (courses ++ [course]) later
  | elsewhere {courses : List Course} {tree : FileTree} {step : Site.Step}
      (h : Upserted home key start courses tree) (hstep : Elsewhere home key step) :
      Upserted home key start courses (step.apply tree)

namespace Upserted

variable {start final : FileTree} {courses : List Course}

/-- The program that is stored is the one that the courses make. -/
theorem stored (hkey : Path.IsName key) (h : Upserted home key start courses final) :
    Stored home key (Program.collected key courses) final := by
  -- On how the tree has come about: a first course, one more, or something elsewhere.
  induction h with
  | @first course program later hnew hupsert hread =>
    obtain ⟨found, hfound, rfl, hsave⟩ := exists_of_upsert hupsert
    rcases hfound with hload | ⟨rfl, _⟩
    · exact absurd hload (hnew found)
    · exact .of_saved (saved hsave) hread
  | again _ hupsert hread ih =>
    obtain ⟨rfl, hstored⟩ := ih.upsert hupsert hread
    rw [Program.collected_concat]
    exact hstored
  | elsewhere _ hstep ih => exact ih.elsewhere hkey hstep

theorem exists_last (h : Upserted home key start courses final) :
    ∃ before last, courses = before ++ [last] := by
  induction h with
  | @first course => exact ⟨[], course, rfl⟩
  | @again courses course => exact ⟨courses, course, rfl⟩
  | elsewhere _ _ ih => exact ih

end Upserted

/-- Putting the last course again leaves the tree as it is, also if it fails. -/
theorem Stored.putAgain (hkey : Path.IsName key)
    (h : Stored home key (before.putLeveled course) tree) :
    Store.upsert home key course tree = .ok (before.putLeveled course) tree
      ∨ ∃ fault, Store.upsert home key course tree = .error (.io fault) tree := by
  rw [upsert_of_load h.load_eq, Program.putLeveled_putLeveled]
  have hsave := save_of_holds hkey h.holds h.noTemporary
  -- The file is written anew with what it holds, or it cannot be written.
  split at hsave
  · exact .inl (FileAction.bind_ok hsave)
  · exact .inr ⟨_, FileAction.bind_error hsave⟩

/-- A course that has just been put can be put again, which changes nothing. -/
theorem upsert_upsert (hkey : Path.IsName key) (h : upsert home key course tree = .ok program later)
    (hread : decode? (encode program) = some program) :
    upsert home key course later = .ok program later := by
  obtain ⟨before, _, rfl, hsave⟩ := exists_of_upsert h
  have hsaved := saved hsave
  rw [upsert_of_load (load_of_holds hsaved.holds hread), Program.putLeveled_putLeveled]
  exact FileAction.bind_ok (hsaved.save_eq hkey)

/-- **Putting courses into a stored program.** Where no program is stored under a key, courses are
put one after the other, with anything done elsewhere in between. Then the program that is loaded is
named after the key and has the last course for every directory, in the order in which the
directories came up, with the levels of its courses, if they say anything. Putting the last course
again changes nothing: at once, it succeeds with the same program, and later it leaves all files as
they are. A file that holds no program is left as it is as well. -/
theorem load_of_upserted (hkey : Path.IsName key) :
    (∀ {start courses final}, Upserted home key start courses final →
      load final home key = .ok (Program.collected key courses)
        ∧ (Program.collected key courses).name = key
        ∧ Program.Collects key courses (Program.collected key courses)
        ∧ ∃ last, courses.getLast? = some last
          ∧ after (upsert home key last) final = final
          ∧ ∀ program later, upsert home key last final = .ok program later →
            program = Program.collected key courses)
      ∧ (∀ {course program tree later}, upsert home key course tree = .ok program later →
        decode? (encode program) = some program → upsert home key course later = .ok program later)
      ∧ ∀ {course tree path later}, upsert home key course tree = .error (.malformed path) later
        ↔ load tree home key = .error (.malformed path) ∧ later = tree := by
  refine ⟨fun {start courses final} h => ?_, upsert_upsert hkey, upsert_malformed_iff⟩
  have hstored := h.stored hkey
  have hcollects := Program.collects_collected key courses
  refine ⟨hstored.load_eq, ?_, hcollects, ?_⟩
  · -- Its name has been that of a new program all along.
    rw [hcollects.isNew]
    rfl
  · obtain ⟨before, last, rfl⟩ := h.exists_last
    -- The stored program is the one that the last course was put into.
    rw [Program.collected_concat] at hstored ⊢
    refine ⟨last, List.getLast?_concat, ?_⟩
    -- Putting the last course again changes nothing, whether or not the file can be written.
    rcases hstored.putAgain hkey with hput | ⟨fault, hput⟩
    · refine ⟨after_of_ok hput, fun program later hlater => ?_⟩
      rw [hput] at hlater
      cases hlater
      rfl
    · refine ⟨after_of_error hput, fun program later hlater => ?_⟩
      rw [hput] at hlater
      cases hlater

/-! ## Directories with the same name -/

namespace SameDirectory

/-- A course in the directory of its number, and one in a directory of the same name. -/
def numbered : Course := { id := 7, name := "Tones", level := { beginner := true } }

def named : Course := { id := 8, fileName := some "7", name := "Cases" }

/-- An empty home directory. -/
def start : FileTree where
  root := .directory [("home", .directory [])]

def atHome : Path := ⟨"home"⟩

def afterFirst : Program where
  name := "k"
  level := { beginner := true }
  courses := [numbered]

def afterSecond : Program where
  name := "k"
  level := { beginner := true }
  courses := [named]

@[irreducible] def first : FileTree := after (upsert atHome "k" numbered) start

/-- The same course is put into another program. -/
def other : Site.Step := .upsert atHome "m" numbered

@[irreducible] def second : FileTree := after (upsert atHome "k" named) (other.apply first)

/-- There is no program at the start, and the first course makes one that can be read back. -/
theorem of_start : load start atHome "k" = .error (.programNotFound (programFile atHome "k"))
    ∧ valueOf (upsert atHome "k" numbered start) = some afterFirst
    ∧ decode? (encode afterFirst) = some afterFirst := by
  decide +kernel

/-- The second course is in the same directory and takes the place of the first. -/
theorem of_first : valueOf (upsert atHome "k" named (other.apply first)) = some afterSecond
    ∧ decode? (encode afterSecond) = some afterSecond := by
  decide +kernel

theorem upserted : Upserted atHome "k" start [numbered, named] second := by
  obtain ⟨hmissing, hput, hread⟩ := of_start
  obtain ⟨hput', hread'⟩ := of_first
  have hfirst : upsert atHome "k" numbered start = .ok afterFirst first := by
    unfold first
    exact eq_ok_of_valueOf hput
  have hsecond : upsert atHome "k" named (other.apply first) = .ok afterSecond second := by
    unfold second
    exact eq_ok_of_valueOf hput'
  have hnew (stored : Program) : load start atHome "k" ≠ .ok stored := by
    rw [hmissing]
    nofun
  exact .again (.elsewhere (.first hnew hfirst hread)
    (.upsert (by decide) (by decide) numbered)) hsecond hread'

/-- The later course takes the place of the one whose number is the name of its directory. The level
stays, since the later course names no stage. -/
theorem load_second : load second atHome "k" = .ok afterSecond
    ∧ after (upsert atHome "k" named) second = second := by
  obtain ⟨hload, _, _, last, hlast, hagain, _⟩ :=
    (load_of_upserted (by decide : Path.IsName "k")).1 upserted
  have hcollected : Program.collected "k" [numbered, named] = afterSecond := by decide
  cases hlast
  exact ⟨hload.trans (congrArg _ hcollected), hagain⟩

end SameDirectory

end Syllabus.Store
