import Syllabus.Proofs.Files.Changes
import Syllabus.Proofs.Template.PagePaths
import Syllabus.Site.Pipeline

/-!
# Syllabus: kinds of files

Pages, ledgers, programs and the files that are moved over them are told apart by the endings of
their names. So whatever the directories are called, writing a file of one kind never touches a file
of another.

* **`FileKind.eq_of_endsIn`**: no place is that of two kinds.
* **`of_page`**, **`of_ledger`**, **`of_programFile`**, **`of_temporaryPath`**: the kinds of the
  paths that are written.
-/

namespace Syllabus

/-- What a file of a site or a store is for. -/
inductive FileKind where
  | page
  | ledger
  | program
  | temporary
deriving DecidableEq

namespace FileKind

/-- The ending of the names of files of a kind. -/
def ending : FileKind → String
  | page => ".html"
  | ledger => ".json"
  | program => ".yaml"
  | temporary => ".tmp"

/-- Whether the place is that of a file of the kind. -/
def Of (kind : FileKind) (place : List String) : Prop := Path.EndsIn kind.ending place

/-- The endings of the kinds stay in the directory. -/
theorem isEnding_ending (kind : FileKind) : Path.IsEnding kind.ending := by
  cases kind <;> exact ⟨by decide, by decide, by decide⟩

/-- No place is that of two kinds. -/
theorem eq_of_endsIn {kind other : FileKind} {place : List String} (h : kind.Of place)
    (hother : other.Of place) : kind = other := by
  obtain ⟨before, last, rfl, hlast⟩ := h
  obtain ⟨before', last', hsame, hlast'⟩ := hother
  obtain ⟨rfl, rfl⟩ := List.append_singleton_inj.mp hsame
  -- Of two endings of one name, one is an ending of the other; none of the four is.
  have hcompare := List.suffix_or_suffix_of_suffix hlast hlast'
  revert hcompare
  cases kind <;> cases other <;> decide

/-- So a place of one kind is that of neither of two others. -/
theorem Of.not_or {kind first second : FileKind} {place : List String} (h : kind.Of place)
    (hother : kind ≠ first ∧ kind ≠ second) : ¬ (first.Of place ∨ second.Of place) := by
  rintro (hfirst | hsecond)
  · exact hother.1 (eq_of_endsIn h hfirst)
  · exact hother.2 (eq_of_endsIn h hsecond)

/-- A path whose text ends so leads to a place of this kind. -/
theorem of_place {kind : FileKind} {path : Path}
    (h : kind.ending.toList <:+ path.text.toList) (start : List String) :
    kind.Of (path.place start) :=
  Path.endsIn_place kind.isEnding_ending h start

end FileKind

/-! ## Endings of paths -/

/-- A path ends as the name in the directory does. -/
theorem Path.suffix_div {ending name : String} (h : ending.toList <:+ name.toList)
    (directory : Path) : ending.toList <:+ (directory / name).text.toList := by
  show ending.toList <:+ (directory.join ⟨name⟩).text.toList
  unfold Path.join
  split
  · exact h
  · split
    · rw [String.toList_append]
      exact h.trans (List.suffix_append _ _)
    · rw [String.toList_append]
      exact h.trans (List.suffix_append _ _)

/-- The last part is at the end of the joined ones. -/
theorem suffix_intercalate (separator : List Char) (before : List (List Char)) (last : List Char) :
    last <:+ separator.intercalate (before ++ [last]) := by
  induction before with
  | nil =>
    rewrite [List.nil_append, List.intercalate_singleton]
    exact List.suffix_rfl
  | cons first before ih =>
    -- What stands before the last part is not empty, so there is a separator.
    rw [List.cons_append, List.intercalate_cons_of_ne_nil (by simp), List.append_assoc]
    exact ih.trans ((List.suffix_append _ _).trans (List.suffix_append _ _))

/-- Putting another extension on a file puts it at the end. -/
theorem Path.suffix_withExtension {ending : String} (hending : Path.IsEnding ending)
    {path : Path} (h : ending.toList <:+ path.text.toList) (extension : String) :
    extension.toList <:+ (path.withExtension extension).text.toList := by
  obtain ⟨before, last, hsplit, hparent⟩ := Path.exists_splitLast? hending h
  rw [Path.withExtension, hsplit]
  simp only [if_neg hparent, String.toList_intercalate, List.map_append, List.map_cons,
    List.map_nil, String.toList_append]
  exact (List.suffix_append _ _).trans (suffix_intercalate _ _ _)

/-! ## The files of sites and stores -/

section Endings

variable (start : List String)

/-- The temporary file of a page is of that kind. -/
theorem of_temporaryPath (path : Path) :
    FileKind.temporary.Of ((Site.temporaryPath path).place start) := by
  apply FileKind.of_place
  rw [Site.temporaryPath, String.toList_append]
  -- The ending that is put on is longer than that of its kind and ends in it.
  exact List.IsSuffix.trans (by decide) (List.suffix_append _ ".coursebook.tmp".toList)

/-- The text of a ledger's path has the ending of ledgers. -/
theorem suffix_ledger (home : Path) (key : String) :
    FileKind.ledger.ending.toList <:+ (Ledger.file home key).text.toList := by
  apply Path.suffix_div
  rw [String.toList_append]
  exact List.suffix_append _ _

theorem of_ledger (home : Path) (key : String) :
    FileKind.ledger.Of ((Ledger.file home key).place start) :=
  FileKind.of_place (suffix_ledger home key) start

theorem of_ledgerTemporary (home : Path) (key : String) :
    FileKind.temporary.Of (((Ledger.file home key).withExtension "json.tmp").place start) := by
  apply FileKind.of_place
  -- The extension takes the place of the one that ledgers have.
  have hextension := Path.suffix_withExtension FileKind.ledger.isEnding_ending
    (suffix_ledger home key) "json.tmp"
  exact List.IsSuffix.trans (by decide) hextension

/-- A ledger is never in the place of the file that is moved over it. -/
theorem place_ledger_ne_temporary (home : Path) (key : String) :
    (Ledger.file home key).place start
      ≠ ((Ledger.file home key).withExtension "json.tmp").place start := by
  intro hsame
  have htemporary := of_ledgerTemporary start home key
  rw [← hsame] at htemporary
  -- One place would be of both kinds.
  cases FileKind.eq_of_endsIn htemporary (of_ledger start home key)

/-- A program is in a place of programs. -/
theorem of_programFile (directory : Path) :
    FileKind.program.Of ((directory / Store.programFileName).place start) :=
  FileKind.of_place (Path.suffix_div (by decide) directory) start

theorem of_programTemporary (directory : Path) :
    FileKind.temporary.Of ((directory / s!"{Store.programFileName}.tmp").place start) :=
  FileKind.of_place (Path.suffix_div (by decide) directory) start

/-- The paths of a site have the ending of pages. -/
theorem suffix_sitePath {site path : Path} {program : Program}
    (h : path ∈ Template.Library.sitePaths site program) :
    FileKind.page.ending.toList <:+ path.text.toList := by
  rcases Template.Library.mem_sitePaths_iff.mp h with hpath | ⟨course, _, id, _, hpath⟩
  · rw [hpath]
    exact Path.suffix_div (by decide) site
  · rw [hpath]
    apply Path.suffix_div
    show _ <:+ String.toList ("Lesson_" ++ toString id.toNat ++ ".html")
    rw [String.toList_append]
    exact List.suffix_append _ _

theorem suffix_page {library : Template.Library} {program : Program} {site : Path}
    {pages : List (Path × String)} (h : library.renderSite program site = .ok pages)
    {page : Path × String} (hpage : page ∈ pages) :
    FileKind.page.ending.toList <:+ page.1.text.toList := by
  have hpath : page.1 ∈ Template.Library.sitePaths site program := by
    rw [← Template.Library.paths_of_renderSite h]
    exact List.mem_map_of_mem hpage
  exact suffix_sitePath hpath

theorem of_page {library : Template.Library} {program : Program} {site : Path}
    {pages : List (Path × String)} (h : library.renderSite program site = .ok pages)
    {page : Path × String} (hpage : page ∈ pages) :
    FileKind.page.Of (page.1.place start) :=
  FileKind.of_place (suffix_page h hpage) start

end Endings

end Syllabus
