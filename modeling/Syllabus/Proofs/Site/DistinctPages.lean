import Syllabus.Proofs.Export.CoursePages
import Syllabus.Proofs.Files.Spelling
import Syllabus.Proofs.Store.BuiltPrograms
import Syllabus.Proofs.Template.BuiltInPages
import Syllabus.Proofs.Template.PagePaths

/-!
# Syllabus: pages with files of their own

A program that is built by putting imported courses has no two courses of one directory, and no
course has two pages of one number. So the paths of its site differ, provided that the directories
are still told apart when they are put behind that of the site: a slash at the end makes no
difference there, and an absolute name leads away from the site.

* **`nodup_sitePaths`**: what tells directories and names apart tells the paths of a site apart.
* **`distinct_pages`**: the paths of a site, and the places that they lead to.
-/

namespace Syllabus.Template.Library

open Syllabus.Path (IsName IsPlain)

/-! ## Paths of sites -/

section Distinct

variable {γ δ : Type} {view : Path → γ} {root : Path} {program : Program}

/-- Where a view of paths tells names apart, and the directories that they are in, and these are
those of different courses, the paths of a site differ in it. -/
theorem nodup_sitePaths (around : Path → δ)
    (hview : ∀ {directory other name name'}, IsName name → IsName name' →
      view (directory / name) = view (other / name') →
        around directory = around other ∧ name = name')
    (hdirectories : ∀ course ∈ program.courses, ∀ other ∈ program.courses,
      around (root / course.directoryName) = around (root / other.directoryName) →
        course.directoryName = other.directoryName)
    (hdistinct : (program.courses.map Course.directoryName).Nodup)
    (hids : ∀ course ∈ program.courses, course.pageIds.Nodup) :
    ((sitePaths root program).map view).Nodup := by
  rw [sitePaths, List.map_cons, List.nodup_cons, List.map_flatMap]
  refine ⟨fun hmem => ?_, List.nodup_flatMap.mpr ⟨fun course hcourse => ?_, ?_⟩⟩
  · -- The page of the program has another name than the pages of courses.
    obtain ⟨course, _, hmem⟩ := List.mem_flatMap.mp hmem
    obtain ⟨path, hpath, hsame⟩ := List.mem_map.mp hmem
    obtain ⟨id, _, rfl⟩ := List.mem_map.mp hpath
    exact pageFileName_ne id (hview (isName_pageFileName id) (by decide) hsame).2
  · -- Within a course the numbers tell the pages apart.
    rw [coursePaths, List.map_map]
    refine (hids course hcourse).map_on fun id _ other _ hsame => ?_
    have hnames := hview (isName_pageFileName id) (isName_pageFileName other) hsame
    exact pageFileName_injective hnames.2
  · -- Pages of two courses are in two directories.
    have hcourses := List.pairwise_map.mp hdistinct
    refine hcourses.imp_of_mem fun {course other} hcourse hother hne seen hseen hseen' => ?_
    obtain ⟨path, hpath, rfl⟩ := List.mem_map.mp hseen
    obtain ⟨path', hpath', hsame⟩ := List.mem_map.mp hseen'
    obtain ⟨id, _, rfl⟩ := List.mem_map.mp hpath
    obtain ⟨id', _, rfl⟩ := List.mem_map.mp hpath'
    have haround := (hview (isName_pageFileName id') (isName_pageFileName id) hsame).1
    exact hne (hdirectories course hcourse other hother haround.symm)

/-- Relative names tell directories apart, unless they differ in a slash at the end. -/
theorem nodup_sitePaths_of_relative
    (hrelative : ∀ course ∈ program.courses, (Path.mk course.directoryName).isAbsolute = false)
    (hslash : ∀ course ∈ program.courses, ∀ other ∈ program.courses,
      course.directoryName ≠ other.directoryName ++ "/")
    (hdistinct : (program.courses.map Course.directoryName).Nodup)
    (hids : ∀ course ∈ program.courses, course.pageIds.Nodup) :
    (sitePaths root program).Nodup := by
  have hjoined (course : Course) (hcourse : course ∈ program.courses) :
      (root / course.directoryName).lead = root.lead ++ Path.lead ⟨course.directoryName⟩ :=
    Path.lead_join root (hrelative course hcourse)
  rw [← List.map_id (sitePaths root program)]
  refine nodup_sitePaths Path.lead ?_ ?_ hdistinct hids
  · intro directory other name name' hname hname' hsame
    exact Path.div_injective hname.noSlash hname'.noSlash hsame
  · intro course hcourse other hother hlead
    rw [hjoined course hcourse, hjoined other hother, String.append_right_inj] at hlead
    -- Two names lead to one directory only if one of them has a slash more.
    rcases Path.eq_or_slash_of_lead_eq hlead with hsame | hbehind | hbehind
    · exact hsame
    · exact absurd hbehind (hslash course hcourse other hother)
    · exact absurd hbehind (hslash other hother course hcourse)

/-- Names without detours lead to directories of their own. -/
theorem nodup_places_of_isPlain (start : List String)
    (hplain : ∀ course ∈ program.courses, IsPlain course.directoryName)
    (hdistinct : (program.courses.map Course.directoryName).Nodup)
    (hids : ∀ course ∈ program.courses, course.pageIds.Nodup) :
    ((sitePaths root program).map (Path.place start)).Nodup := by
  have hplace (course : Course) (hcourse : course ∈ program.courses) :=
    Path.place_div_of_isPlain start root (hplain course hcourse)
  refine nodup_sitePaths (Path.place start) ?_ ?_ hdistinct hids
  · intro directory other name name' hname hname' hsame
    rw [Path.place_div start directory hname, Path.place_div start other hname'] at hsame
    exact List.append_singleton_inj.mp hsame
  · intro course hcourse other hother hsame
    rw [hplace course hcourse, hplace other hother, List.append_cancel_left_eq] at hsame
    exact (hplain course hcourse).eq_of_names_eq (hplain other hother) hsame

end Distinct

/-- A course without a file name has its number for the name of its directory. -/
theorem isPlain_directoryName {course : Course} (h : ∀ name ∈ course.fileName, IsPlain name) :
    IsPlain course.directoryName := by
  unfold Course.directoryName
  cases hname : course.fileName with
  | none => exact (isName_toString course.id.toNat).isPlain
  | some name => exact h name hname

/-- The directory of a course is relative if its file name is. -/
theorem isAbsolute_directoryName {course : Course}
    (h : ∀ name ∈ course.fileName, (Path.mk name).isAbsolute = false) :
    (Path.mk course.directoryName).isAbsolute = false := by
  unfold Course.directoryName
  cases hname : course.fileName with
  | none => exact (isName_toString course.id.toNat).isPlain.isAbsolute
  | some name => exact h name hname

/-- **Pages have files of their own.** A program is built by putting imported courses, one after the
other, into what is stored. Where the file names that its courses are given are relative, and no two
names of directories differ in a slash at the end alone, all paths of its site are different. Where
the file names are written without detours, the paths lead to different places. -/
theorem distinct_pages {home : Path} {key : String} {program : Program} {library : Library}
    {root : Path} {pages : List (Path × String)}
    (hbuilt : Store.Built home key Course.IsImported program)
    (hrender : library.renderSite program root = .ok pages) :
    ((∀ course ∈ program.courses, ∀ name ∈ course.fileName, (Path.mk name).isAbsolute = false) →
      (∀ course ∈ program.courses, ∀ other ∈ program.courses,
        course.directoryName ≠ other.directoryName ++ "/") →
      (pages.map (·.1)).Nodup)
    ∧ ((∀ course ∈ program.courses, ∀ name ∈ course.fileName, IsPlain name) →
      ∀ start, (pages.map (·.1.place start)).Nodup) := by
  have hids : ∀ course ∈ program.courses, course.pageIds.Nodup :=
    fun course hcourse => (hbuilt.of_mem course hcourse).nodup_pageIds
  have hpaths := paths_of_renderSite hrender
  constructor
  · intro hrelative hslash
    rw [hpaths]
    exact nodup_sitePaths_of_relative
      (fun course hcourse => isAbsolute_directoryName (hrelative course hcourse)) hslash
      hbuilt.distinct hids
  · intro hplain start
    -- Where the pages lead to depends on their paths only.
    have hplaces :
        pages.map (·.1.place start) = (sitePaths root program).map (Path.place start) := by
      rw [← hpaths, List.map_map]
      rfl
    rw [hplaces]
    exact nodup_places_of_isPlain start
      (fun course hcourse => isPlain_directoryName (hplain course hcourse)) hbuilt.distinct hids

/-! ## A slash at the end of a name -/

namespace SlashBehind

open Store FileAction

/-- An export with one page. -/
def text : String :=
  "[[\"C\",null],\x7b\"1\":[\"L\",null]\x7d,\x7b\"1\":[null,[\"t\"]]\x7d]"

/-- The course that is made of it. -/
def course (fileName : String) : Course where
  fileName := some fileName
  name := "C"
  lessons := [{ id := 1, name := "L", pages := [{ id := 1, rule := some "t" }] }]

/-- The text is imported under both names. -/
theorem importCourse_text : ∀ fileName ∈ ["x", "x/"],
    importCourse text { fileName := some fileName } = .ok ⟨course fileName, []⟩ := by
  decide +kernel

theorem isImported_course {fileName : String} (h : fileName ∈ ["x", "x/"]) :
    (course fileName).IsImported :=
  ⟨text, _, _, 0, .unknown, importCourse_text fileName h, rfl⟩

/-- An export with two lessons and three pages. -/
def widerText : String :=
  "[[\"D\",null],\x7b\"1\":[\"L\",null],\"2\":[\"M\",null]\x7d,"
  ++ "\x7b\"3\":[null,[\"t\"]],\"4\":[null,[\"u\"]],\"5\":[null,[\"v\"]]\x7d]"

def widerExport : Export where
  name := some "D"
  lessons := [(1, ⟨some "L", none⟩), (2, ⟨some "M", none⟩)]
  items := [(3, ⟨none, some "t"⟩), (4, ⟨none, some "u"⟩), (5, ⟨none, some "v"⟩)]

/-- Two of the pages go to the first lesson. -/
def options : ImportOptions where
  order := [1, 3, 4, 2, 5]
  fileName := some "y"

def pages : List Page :=
  [{ id := 3, rule := some "t" }, { id := 4, rule := some "u" }, { id := 5, rule := some "v" }]

/-- The course that is made of it in a directory of another name. -/
def wider : Course where
  fileName := some "y"
  name := "D"
  lessons := [{ id := 1, name := "L", pages := pages.take 2 },
    { id := 2, name := "M", pages := pages.drop 2 }]

/-- The wider text has two lessons and three pages, and no images. -/
theorem of_widerText : Export.read? widerText = some widerExport ∧ widerExport.pages = pages
    ∧ widerExport.images = [] := by
  decide +kernel

theorem importCourse_widerText : importCourse widerText options = .ok ⟨wider, []⟩ := by
  obtain ⟨hread, hpages, himages⟩ := of_widerText
  have hnames : unlessEmpty (some "L") = some "L" ∧ unlessEmpty (some "M") = some "M"
      ∧ unlessEmpty (some "D") = some "D" ∧ unlessEmpty none = none := by decide
  -- The order names lessons and pages in the order of their numbers.
  have hlessons : widerExport.orderedLessons options.order
      = [{ id := 1, name := "L" }, { id := 2, name := "M" }] := by
    simp [Export.orderedLessons, widerExport, hnames, Export.inOrder, Export.rank,
      Export.comesBefore, List.mergeSort, options, List.findIdx_cons]
  have horder : Export.inOrder options.order Page.id pages = pages := by
    simp [Export.inOrder, pages, Export.rank, Export.comesBefore, List.mergeSort, options,
      List.findIdx_cons]
  rw [importCourse, hread]
  unfold Export.toCourse
  simp only [hpages, himages, hlessons, horder]
  decide +kernel

theorem isImported_wider : wider.IsImported :=
  ⟨widerText, _, _, 0, .unknown, importCourse_widerText, rfl⟩

/-- An empty home directory. -/
def start : FileTree where
  root := .directory [("home", .directory [])]

def atHome : Path := ⟨"home"⟩

/-- The program with these courses. -/
def program (courses : List Course) : Program where
  name := "k"
  courses

/-- Two courses in directories of different names. -/
def beside : Program := program [course "x", wider]

@[irreducible] def first : FileTree := after (upsert atHome "k" (course "x")) start

/-- There is no program yet, and the first course makes one. -/
theorem of_start : Store.load start atHome "k" = .error (.programNotFound (programFile atHome "k"))
    ∧ valueOf (upsert atHome "k" (course "x") start) = some (program [course "x"]) := by
  decide +kernel

theorem load_first : Store.load first atHome "k" = .ok (program [course "x"]) := by decide +kernel

/-- Two other courses are put beside the first one. -/
theorem of_first : valueOf (save atHome "k" beside first) = some ()
    ∧ valueOf (save atHome "k" (program [course "x", course "x/"]) first) = some () := by
  decide +kernel

theorem built_first : Built atHome "k" Course.IsImported (program [course "x"]) := by
  obtain ⟨hmissing, hput⟩ := of_start
  refine .put (isImported_course (by decide)) (fun before hload => ?_) (eq_ok_of_valueOf hput)
  rw [hmissing] at hload
  cases hload

/-- A course that is put beside the first one makes up a program with it. -/
theorem built_second {other : Course} (hother : other.IsImported)
    (hput : (program [course "x"]).putLeveled other = program [course "x", other])
    (hsave : valueOf (save atHome "k" (program [course "x", other]) first) = some ()) :
    Built atHome "k" Course.IsImported (program [course "x", other]) := by
  have hupsert : upsert atHome "k" other first = _ := upsert_of_load load_first
  rw [hput] at hupsert
  refine .put hother (fun before hbefore => ?_)
    (hupsert.trans (FileAction.bind_ok (eq_ok_of_valueOf hsave)))
  rw [load_first] at hbefore
  cases hbefore
  exact built_first

/-- The program with the wider course beside the first one has been built from imported courses. -/
theorem built_beside : Built atHome "k" Course.IsImported beside :=
  built_second isImported_wider (by decide) of_first.1

theorem built_shared : Built atHome "k" Course.IsImported (program [course "x", course "x/"]) :=
  built_second (isImported_course (by decide)) (by decide) of_first.2

/-- The pages of two courses in directories of different names, and that of the program, have files
of their own. -/
theorem distinct_beside : ∃ library, (∀ tree, Library.load tree none = .ok library)
    ∧ ∃ pages, library.renderSite beside ⟨"o"⟩ = .ok pages
      ∧ (pages.map (·.1)).Nodup ∧ (pages.map (·.1.place [])).Nodup := by
  obtain ⟨library, hload, hrender⟩ := exists_builtIn
  refine ⟨library, hload, _, hrender _ _, ?_⟩
  obtain ⟨htexts, hplaces⟩ := distinct_pages built_beside (hrender beside ⟨"o"⟩)
  exact ⟨htexts (by decide) (by decide), hplaces (by decide) []⟩

/-- With a course in the directory of the same name and a slash behind it, both courses have their
page in one file. -/
theorem shared_second : ∃ library, (∀ tree, Library.load tree none = .ok library)
    ∧ ∃ program, Built atHome "k" Course.IsImported program
      ∧ ∃ pages, library.renderSite program ⟨"o"⟩ = .ok pages ∧ ¬ (pages.map (·.1)).Nodup := by
  obtain ⟨library, hload, hrender⟩ := exists_builtIn
  refine ⟨library, hload, _, built_shared, _, hrender _ _, ?_⟩
  rw [paths_of_renderSite (hrender (program [course "x", course "x/"]) ⟨"o"⟩)]
  decide +kernel

/-- An absolute name can be that of a directory in the site as well. -/
example : pagePath ⟨"/o"⟩ (course "x") 1 = pagePath ⟨"/o"⟩ (course "/o/x") 1 := by decide +kernel

end SlashBehind

end Syllabus.Template.Library
