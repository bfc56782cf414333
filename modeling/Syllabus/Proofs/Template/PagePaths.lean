import Syllabus.Proofs.Files.Names
import Syllabus.Template.Library

/-!
# Syllabus: the paths of pages

Whatever the templates are, the paths of a site depend on the program and the directory alone: one
for the page of the program, and one for each page of each course, by the directory of the course
and the number of the page.

* **`Library.paths_of_renderSite`**: the paths of the pages that are rendered.
-/

namespace Syllabus.Template.Library

open Syllabus.Path (IsName)

/-! ## Names of files -/

/-- A number is written in decimal digits. -/
theorem toString_toList (n : Nat) : (toString n).toList = Nat.toDigits 10 n := by
  rw [Nat.toString_eq_ofList_toDigits, String.toList_ofList]

theorem isDigit_of_mem_toString {n : Nat} {c : Char} (h : c ∈ (toString n).toList) :
    c.isDigit = true := by
  rw [toString_toList] at h
  exact Nat.isDigit_of_mem_toDigits (by omega) (by omega) h

/-- The name of the file of a page. -/
def pageFileName (id : Id) : String := s!"Lesson_{id.toNat}.html"

theorem pageFileName_eq (id : Id) :
    pageFileName id = "Lesson_" ++ toString id.toNat ++ ".html" := rfl

/-- The name of a page's file is a fixed text, the digits of the id, and an ending. -/
theorem pageFileName_toList (id : Id) :
    (pageFileName id).toList
      = "Lesson_".toList ++ (toString id.toNat).toList ++ ".html".toList := by
  rw [pageFileName_eq, String.toList_append, String.toList_append]

/-- The name of a page's file is a proper name. -/
theorem isName_pageFileName (id : Id) : IsName (pageFileName id) := by
  have hlist := pageFileName_toList id
  have hfirst {other : String} (hother : other.toList.head? ≠ some 'L') :
      pageFileName id ≠ other := by
    rintro rfl
    rw [hlist] at hother
    exact hother rfl
  refine ⟨hfirst (by decide), fun hslash => ?_, hfirst (by decide), hfirst (by decide)⟩
  rw [hlist, List.mem_append, List.mem_append] at hslash
  -- A slash is in none of the three parts.
  rcases hslash with (hslash | hslash) | hslash
  · exact absurd hslash (by decide)
  · exact absurd (isDigit_of_mem_toString hslash) (by decide)
  · exact absurd hslash (by decide)

theorem pageFileName_ne (id : Id) : pageFileName id ≠ "Course.html" := by
  intro hsame
  have hlist := pageFileName_toList id
  rw [hsame] at hlist
  have hhead := congrArg List.head? hlist
  exact absurd hhead (by simp)

/-- Pages of different ids have different names. -/
theorem pageFileName_injective : Function.Injective pageFileName := by
  intro id other hsame
  have hlist := congrArg String.toList hsame
  rw [pageFileName_toList, pageFileName_toList, List.append_assoc, List.append_assoc] at hlist
  have hdigits := List.append_cancel_right (List.append_cancel_left hlist)
  rw [toString_toList, toString_toList] at hdigits
  have hnumber := congrArg (Nat.ofDigitChars 10 · 0) hdigits
  simp only [Nat.ofDigitChars_ten_toDigits] at hnumber
  exact UInt32.toNat_inj.mp hnumber

/-- The digits of a number are a proper name too. -/
theorem isName_toString (n : Nat) : IsName (toString n) := by
  have hdigit {c : Char} (hc : c.isDigit = false) : c ∉ (toString n).toList := by
    intro hmem
    rw [isDigit_of_mem_toString hmem] at hc
    cases hc
  have hdot : '.' ∉ (toString n).toList := hdigit (by decide)
  refine ⟨Nat.repr_ne_empty, hdigit (by decide), ?_, ?_⟩
  · intro hself
    exact hdot (by rw [hself]; decide)
  · intro hparent
    exact hdot (by rw [hparent]; decide)

/-! ## Paths of sites -/

/-- What each result says of its item, all results say of all items. -/
theorem map_of_mapM {ε α β γ : Type} {f : α → Except ε β} {pathOf : α → γ} {pathIn : β → γ}
    (hf : ∀ item result, f item = .ok result → pathIn result = pathOf item) {items : List α}
    {results : List β} (h : items.mapM f = .ok results) :
    results.map pathIn = items.map pathOf := by
  induction items generalizing results with
  | nil =>
    cases h
    rfl
  | cons item items ih =>
    rw [List.mapM_cons] at h
    obtain ⟨first, hfirst, h⟩ := exists_of_bind_eq_ok h
    obtain ⟨rest, hrest, h⟩ := exists_of_bind_eq_ok h
    cases h
    show pathIn first :: rest.map pathIn = pathOf item :: items.map pathOf
    rw [hf item first hfirst, ih hrest]

def pagePath (root : Path) (course : Course) (id : Id) : Path :=
  root / course.directoryName / pageFileName id

/-- The paths of the pages of a course. -/
def coursePaths (root : Path) (course : Course) : List Path :=
  course.pageIds.map (pagePath root course)

/-- The paths of a program's site. -/
def sitePaths (root : Path) (program : Program) : List Path :=
  root / "Course.html" :: program.courses.flatMap (coursePaths root)

/-- The paths of a site are that of the program and those of the pages of its courses. -/
theorem mem_sitePaths_iff {root path : Path} {program : Program} :
    path ∈ sitePaths root program ↔ path = root / "Course.html"
      ∨ ∃ course ∈ program.courses, ∃ id ∈ course.pageIds, path = pagePath root course id := by
  simp only [sitePaths, coursePaths, List.mem_cons, List.mem_flatMap, List.mem_map, eq_comm]

/-- **The paths of a site.** Every page that is rendered has the path of its number in the directory
of its course. -/
theorem paths_of_renderSite {library : Library} {program : Program} {root : Path}
    {pages : List (Path × String)} (h : library.renderSite program root = .ok pages) :
    pages.map (·.1) = sitePaths root program := by
  obtain ⟨index, _, h⟩ := exists_of_bind_eq_ok h
  obtain ⟨others, hothers, h⟩ := exists_of_bind_eq_ok h
  cases h
  -- Rendering a page does not change where it goes.
  have hpaths : others.map (·.1) = (program.courses.flatMap fun course =>
      course.pages.map fun found => (course, found.1, found.2)).map
        fun found => pagePath root found.1 found.2.2.id := by
    refine map_of_mapM (fun item result hrender => ?_) hothers
    obtain ⟨text, _, hrender⟩ := exists_of_bind_eq_ok hrender
    cases hrender
    rfl
  rw [List.map_cons, hpaths, sitePaths, List.map_flatMap]
  simp only [List.map_map]
  unfold coursePaths Course.pageIds
  simp only [List.map_map]
  rfl

end Syllabus.Template.Library
