import Syllabus.Proofs.Program.StoredForm
import Syllabus.Proofs.Store.Upserts

/-!
# Syllabus: programs read back

The stored form of a program says all of it. So where the notation keeps scalars, lists and records
as they were written, a program that has been saved is loaded again as it was.

* **`load_of_saved`**: saving and loading.
-/

namespace Syllabus

/-- Whether the notation keeps a datum: what is read from its text is what was written. -/
def Yaml.readsBack (datum : Datum) : Bool := (Yaml.read? (Yaml.write datum)).any datum.readsAs

namespace Store

open FileAction

theorem decode?_encode {program : Program} (h : Yaml.readsBack program.toDatum = true) :
    decode? (encode program) = some program := by
  -- What is read of the notation has the datum in it, and this is enough.
  obtain ⟨found, hread, hfound⟩ := (Option.any_eq_true ..).mp h
  rw [decode?, encode, hread]
  exact lossless_program program found hfound

/-- **Saving and loading.** Every program is what its stored form stands for. When it has been saved
under a key, in a notation that keeps this form, it is loaded again. -/
theorem load_of_saved :
    (∀ program : Program, Program.ofDatum? program.toDatum = some program)
      ∧ ∀ {home : Path} {key : String} {program : Program} {tree later : FileTree},
        Path.IsName key → Yaml.readsBack program.toDatum = true →
        save home key program tree = .ok () later → load later home key = .ok program := by
  refine ⟨fun program => lossless_program program _ (Datum.readsAs_refl _), ?_⟩
  intro home key program tree later _ hkept hsave
  -- The file holds the text, and the text stands for the program.
  exact load_of_holds (saved hsave).holds (decode?_encode hkept)

namespace LikeNothing

/-- A program with texts that look like something else: nothing, a number, an empty list. -/
def program : Program where
  name := ""
  kind := some "null"
  level := { beginner := true, advanced := true }
  cover := some "[]"
  courses := [{ id := 4294967295, name := "12", fileName := some "" }]

/-- An empty home directory. -/
def start : FileTree where
  root := .directory [("home", .directory [])]

theorem readsBack_program : Yaml.readsBack program.toDatum = true := by decide +kernel

theorem save_program : valueOf (save ⟨"home"⟩ "k" program start) = some () := by decide +kernel

/-- Such a program is loaded as it was saved. -/
theorem load_program :
    load (after (save ⟨"home"⟩ "k" program) start) ⟨"home"⟩ "k" = .ok program :=
  load_of_saved.2 (by decide) readsBack_program (eq_ok_of_valueOf save_program)

end LikeNothing

end Store

end Syllabus
