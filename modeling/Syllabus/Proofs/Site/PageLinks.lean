import Syllabus.Proofs.Site.DistinctPages

/-!
# Syllabus: where the links of pages lead

The built-in templates link pages by the names of their files: the page of a program to the first
page of each course, and the pages of a course to one another. Number zero stands for no page. The
pages of a course leave out a link to it; the page of a program does not, so the link to a course
without pages leads nowhere.

* **`Path.follow`**: where a link leads from the page that it stands in.
* **`links_lead`**: which links lead to a page of the site.
-/

namespace Syllabus

/-- The path that a link leads to from the page that it stands in. -/
def Path.follow (page : Path) (link : String) : Path := ⟨page.around ++ link⟩

/-- A link is followed from the directory of the page it stands on. -/
theorem Path.follow_div {directory : Path} {name : String} (h : '/' ∉ name.toList) (link : String) :
    (directory / name).follow link = ⟨directory.lead ++ link⟩ := by
  rw [follow, around_div directory h]

/-! ## Numbers of pages -/

namespace Course

variable {course : Course} {id last : Id} {ids : List Id}

/-- The id before another is one of the ids, or the one in front of all. -/
theorem previousIn_mem (h : previousIn id last ids ≠ 0) : previousIn id last ids ∈ last :: ids := by
  induction ids generalizing last with
  | nil => exact absurd rfl h
  | cons first rest ih =>
    rw [previousIn] at h ⊢
    split at h
    · next hfound =>
      rw [if_pos hfound]
      exact List.mem_cons_self
    · next hother =>
      rw [if_neg hother]
      exact .tail _ (ih h)

/-- The id behind another is one of the ids. -/
theorem nextIn_mem (h : nextIn id ids ≠ 0) : nextIn id ids ∈ ids := by
  -- On the ids, up to the one that is looked for.
  induction ids with
  | nil => exact absurd rfl h
  | cons first rest ih =>
    rw [nextIn] at h ⊢
    split at h
    · next hfound =>
      rw [if_pos hfound]
      cases rest with
      | nil => exact absurd rfl h
      | cons second rest => exact .tail _ List.mem_cons_self
    · next hother =>
      rw [if_neg hother]
      exact .tail _ (ih h)

/-- The page before a page, if there is one, is a page of the course. -/
theorem previousPageId_mem (h : course.previousPageId id ≠ 0) :
    course.previousPageId id ∈ course.pageIds := by
  rcases List.mem_cons.mp (previousIn_mem h) with hnone | hmem
  · exact absurd hnone h
  · exact hmem

/-- The next page is a page of the course. -/
theorem nextPageId_mem (h : course.nextPageId id ≠ 0) :
    course.nextPageId id ∈ course.pageIds := nextIn_mem h

theorem firstPageId_mem_of_lesson {lesson : Lesson} (hlesson : lesson ∈ course.lessons)
    (hpages : lesson.pages ≠ []) : lesson.firstPageId ∈ course.pageIds := by
  obtain ⟨page, rest, hpage⟩ := List.exists_cons_of_ne_nil hpages
  have hfirst : lesson.firstPageId = page.id := by rw [Lesson.firstPageId, hpage]; rfl
  rw [pageIds_eq, hfirst]
  exact List.mem_flatMap.mpr ⟨lesson, hlesson, List.mem_map_of_mem (by simp [hpage])⟩

/-- Where no lesson is empty, a course with pages has a first one. -/
theorem firstPageId_mem (hlessons : ∀ lesson ∈ course.lessons, lesson.pages ≠ [])
    (hpages : course.pages ≠ []) : course.firstPageId ∈ course.pageIds := by
  cases hall : course.lessons with
  | nil => exact absurd (by rw [pages, hall]; rfl) hpages
  | cons lesson rest =>
    have hlesson : lesson ∈ course.lessons := by simp [hall]
    have hfirst : course.firstPageId = lesson.firstPageId := by rw [firstPageId, hall]; rfl
    rw [hfirst]
    exact firstPageId_mem_of_lesson hlesson (hlessons lesson hlesson)

end Course

namespace Template

open Library (pageFileName pagePath sitePaths)

/-! ## Links -/

/-- The link to a course in the page of its program. -/
def courseLink (course : Course) : String :=
  course.directoryName ++ "/" ++ pageFileName course.firstPageId

/-- The links to the neighbours of a page. Number zero is no page. -/
def neighbourLinks (course : Course) (page : Page) : List String :=
  ([course.previousPageId page.id, course.nextPageId page.id].filter (· ≠ 0)).map pageFileName

/-- The links to the lessons in a page of their course. -/
def lessonLinks (course : Course) : List String :=
  course.lessons.map fun lesson => pageFileName lesson.firstPageId

/-- The end of a link to a page, taken apart. -/
theorem closing_eq : ".html\">" = ".html" ++ "\">" := by decide

/-- The line of a course has the link to it. -/
theorem courseLine_eq (course : Course) :
    courseLine course = "<li><a href=\"" ++ courseLink course ++ "\">" ++ course.name ++ "</a> ("
      ++ toString (lessonCount course) ++ " lessons)</li>" := by
  have hslash : "/Lesson_" = "/" ++ "Lesson_" := by decide
  unfold courseLine courseLink
  rw [Library.pageFileName_eq, hslash, closing_eq]
  simp only [String.append_assoc]

/-- The lines of a neighbour have the link to its page, if there is one. -/
theorem neighbourLine_eq (relation label : String) (id : Id) :
    neighbourLine relation label id = ([id].filter (· ≠ 0)).map fun id =>
      "<a class=\"" ++ relation ++ "\" href=\"" ++ pageFileName id ++ "\">" ++ label ++ "</a>" := by
  have hopening : "\" href=\"Lesson_" = "\" href=\"" ++ "Lesson_" := by decide
  unfold neighbourLine
  rw [hopening, closing_eq]
  split
  · next hzero =>
    rw [List.filter_cons_of_neg (by simp [hzero])]
    rfl
  · next hzero =>
    rw [List.filter_cons_of_pos (by simpa using hzero), List.filter_nil, List.map_singleton,
      Library.pageFileName_eq]
    simp only [String.append_assoc]

/-- The line of a lesson has the link to its first page. -/
theorem lessonLine_eq (lesson : Lesson) :
    lessonLine lesson
      = "<li><a href=\"" ++ pageFileName lesson.firstPageId ++ "\">" ++ lesson.name
        ++ "</a></li>" := by
  have hopening : "<li><a href=\"Lesson_" = "<li><a href=\"" ++ "Lesson_" := by decide
  unfold lessonLine
  rw [hopening, closing_eq, Library.pageFileName_eq]
  simp only [String.append_assoc]

/-! ## Where they lead -/

/-- Whether the file name of a course, if it has one, is a single component. -/
def SingleComponent (course : Course) : Prop :=
  ∀ name ∈ course.fileName, name ≠ "" ∧ '/' ∉ name.toList

/-- Such a course is in a directory of one name. -/
theorem SingleComponent.directoryName {course : Course} (h : SingleComponent course) :
    course.directoryName ≠ "" ∧ '/' ∉ course.directoryName.toList := by
  unfold Course.directoryName
  cases hname : course.fileName with
  | none =>
    have hnumber := Library.isName_toString course.id.toNat
    exact ⟨hnumber.nonempty, hnumber.noSlash⟩
  | some name => exact h name hname

/-- A link to a page from another page of the course. -/
theorem follow_pageFileName (root : Path) (course : Course) (id other : Id) :
    (pagePath root course id).follow (pageFileName other) = pagePath root course other := by
  rw [pagePath, Path.follow_div (Library.isName_pageFileName id).noSlash]
  have htext := Path.text_div (root / course.directoryName)
    (Library.isName_pageFileName other).noSlash
  exact congrArg Path.mk htext.symm

/-- A link to a course from the page of the program. -/
theorem follow_courseLink (root : Path) {course : Course} (h : SingleComponent course) :
    (root / "Course.html").follow (courseLink course)
      = pagePath root course course.firstPageId := by
  obtain ⟨hempty, hslash⟩ := h.directoryName
  have hlead : (root / course.directoryName).lead = root.lead ++ (course.directoryName ++ "/") := by
    rw [← Path.lead_of_noSlash hempty hslash]
    exact Path.lead_join root (Path.isAbsolute_of_noSlash hslash)
  have htext := Path.text_div (root / course.directoryName)
    (Library.isName_pageFileName course.firstPageId).noSlash
  rw [hlead] at htext
  rw [Path.follow_div (by decide), courseLink, ← String.append_assoc, pagePath]
  exact congrArg Path.mk htext.symm

section Site

variable {root : Path} {program : Program} {course : Course}

/-- The path that a page of a course would have is that of a page just if the course has it. -/
theorem pagePath_mem_iff (hsingle : ∀ course ∈ program.courses, SingleComponent course)
    (hdistinct : (program.courses.map Course.directoryName).Nodup)
    (hcourse : course ∈ program.courses) {id : Id} :
    pagePath root course id ∈ sitePaths root program ↔ id ∈ course.pageIds := by
  rw [Library.mem_sitePaths_iff]
  constructor
  · rintro (hindex | ⟨other, hother, otherId, hid, hsame⟩)
    · have hnames := Path.div_injective (Library.isName_pageFileName id).noSlash (by decide) hindex
      exact absurd hnames.2 (Library.pageFileName_ne id)
    · have hnames := Path.div_injective (Library.isName_pageFileName id).noSlash
        (Library.isName_pageFileName otherId).noSlash hsame
      -- Both paths are a directory of one name and a file in it, so the two directories are one.
      obtain ⟨_, hslash⟩ := (hsingle course hcourse).directoryName
      obtain ⟨_, hslash'⟩ := (hsingle other hother).directoryName
      have hdirectory := Path.eq_of_lead_div hslash hslash' hnames.1
      obtain rfl := List.inj_on_of_nodup_map hdistinct hcourse hother hdirectory
      rw [Library.pageFileName_injective hnames.2]
      exact hid
  · intro hid
    exact .inr ⟨course, hcourse, id, hid, rfl⟩

/-- Which links in the pages of a program lead to a page. -/
structure LinksLead (root : Path) (program : Program) (paths : List Path) : Prop where
  /-- Those to courses do unless the course has no pages. -/
  courses : ∀ course ∈ program.courses,
    (root / "Course.html").follow (courseLink course) ∈ paths ↔ course.pages ≠ []
  /-- All links in the pages of courses do. -/
  pages : ∀ course ∈ program.courses, ∀ lesson page, (lesson, page) ∈ course.pages →
    ∀ link ∈ neighbourLinks course page ++ lessonLinks course,
      (pagePath root course page.id).follow link ∈ paths

/-- In a program of imported courses all links lead to a page of the site. -/
theorem linksLead_sitePaths (himported : ∀ course ∈ program.courses, course.IsImported)
    (hsingle : ∀ course ∈ program.courses, SingleComponent course)
    (hdistinct : (program.courses.map Course.directoryName).Nodup) :
    LinksLead root program (sitePaths root program) where
  courses course hcourse := by
    rw [follow_courseLink root (hsingle course hcourse),
      pagePath_mem_iff hsingle hdistinct hcourse]
    constructor
    · intro hfirst hnone
      rw [Course.pageIds, hnone] at hfirst
      cases hfirst
    · exact Course.firstPageId_mem (himported course hcourse).pages_ne_nil
  pages course hcourse lesson page _ link hlink := by
    -- Every link is the name of the file of a page of the course.
    have hpage : ∃ id ∈ course.pageIds, pageFileName id = link := by
      rcases List.mem_append.mp hlink with hneighbour | hlesson
      · obtain ⟨id, hid, rfl⟩ := List.mem_map.mp hneighbour
        obtain ⟨hmem, hsome⟩ := List.mem_filter.mp hid
        refine ⟨id, ?_, rfl⟩
        rcases List.mem_pair.mp hmem with rfl | rfl
        · exact Course.previousPageId_mem (by simpa using hsome)
        · exact Course.nextPageId_mem (by simpa using hsome)
      · obtain ⟨other, hother, rfl⟩ := List.mem_map.mp hlesson
        have hpages := (himported course hcourse).pages_ne_nil other hother
        exact ⟨_, Course.firstPageId_mem_of_lesson hother hpages, rfl⟩
    obtain ⟨id, hid, rfl⟩ := hpage
    rw [follow_pageFileName, pagePath_mem_iff hsingle hdistinct hcourse]
    exact hid

end Site

/-- **Links lead to pages.** A program is built by putting imported courses whose file names, where
given, are single components. The built-in templates make its site, in which every link in the page
of a course leads to a page of the site. So does the link to a course in the page of the program,
just if the course has pages. -/
theorem links_lead {home : Path} {key : String} {program : Program} (root : Path)
    (hbuilt : Store.Built home key Course.IsImported program)
    (hsingle : ∀ course ∈ program.courses, SingleComponent course) :
    ∃ library, (∀ tree, Library.load tree none = .ok library)
      ∧ library.renderSite program root = .ok (builtInPages program root)
      ∧ LinksLead root program ((builtInPages program root).map (·.1)) := by
  obtain ⟨library, hload, hrender⟩ := exists_builtIn
  refine ⟨library, hload, hrender program root, ?_⟩
  rw [Library.paths_of_renderSite (hrender program root)]
  exact linksLead_sitePaths hbuilt.of_mem hsingle hbuilt.distinct

open Library.SlashBehind in
/-- The page of a program with two courses leads to both. The page in the middle of the second one
leads to those before and behind it, the latter in another lesson, and to both lessons. -/
theorem links_of_beside : ∃ library, (∀ tree, Library.load tree none = .ok library)
    ∧ library.renderSite beside ⟨"o"⟩ = .ok (builtInPages beside ⟨"o"⟩)
    ∧ (∀ listed ∈ beside.courses, (Path.mk "o" / "Course.html").follow (courseLink listed)
      ∈ (builtInPages beside ⟨"o"⟩).map (·.1))
    ∧ ∃ lesson page, (lesson, page) ∈ wider.pages
      ∧ neighbourLinks wider page = ["Lesson_3.html", "Lesson_5.html"]
      ∧ lessonLinks wider = ["Lesson_3.html", "Lesson_5.html"]
      ∧ ∀ link ∈ neighbourLinks wider page ++ lessonLinks wider,
        (pagePath ⟨"o"⟩ wider page.id).follow link ∈ (builtInPages beside ⟨"o"⟩).map (·.1) := by
  have hsingle : ∀ listed ∈ beside.courses, SingleComponent listed := by
    unfold SingleComponent
    decide
  obtain ⟨library, hload, hrender, hlinks⟩ := links_lead ⟨"o"⟩ built_beside hsingle
  have hpages : ∀ listed ∈ beside.courses, listed.pages ≠ [] := by decide
  have hwider : wider ∈ beside.courses := .tail _ List.mem_cons_self
  -- The page in the middle has neighbours on both sides.
  obtain ⟨lesson, page, hpage, hlines⟩ : ∃ lesson page, (lesson, page) ∈ wider.pages
      ∧ neighbourLinks wider page = ["Lesson_3.html", "Lesson_5.html"]
      ∧ lessonLinks wider = ["Lesson_3.html", "Lesson_5.html"] :=
    ⟨wider.lessons[0], pages[1], by decide⟩
  exact ⟨library, hload, hrender,
    fun listed hlisted => (hlinks.courses listed hlisted).mpr (hpages listed hlisted),
    lesson, page, hpage, hlines.1, hlines.2, hlinks.pages wider hwider lesson page hpage⟩

/-! ## A course without pages -/

namespace NoPages

open Store FileAction

/-- An export with one lesson and no items. -/
def text : String := "[[\"C\",null],\x7b\"1\":[\"L\",null]\x7d,\x7b\x7d]"

def course : Course where
  fileName := some "x"
  name := "C"

/-- An empty home directory. -/
def start : FileTree where
  root := .directory [("home", .directory [])]

def atHome : Path := ⟨"home"⟩

def program : Program where
  name := "k"
  courses := [course]

/-- The text is imported as a course without pages. -/
theorem importCourse_text :
    importCourse text { fileName := some "x" } = .ok ⟨course, []⟩ := by
  decide +kernel

/-- In the store there is no such program yet, and adding the course makes it one. -/
theorem of_start : Store.load start atHome "k" = .error (.programNotFound (programFile atHome "k"))
    ∧ valueOf (upsert atHome "k" course start) = some program := by
  decide +kernel

theorem built_program : Built atHome "k" Course.IsImported program := by
  obtain ⟨hmissing, hput⟩ := of_start
  have himported : course.IsImported := ⟨text, _, _, 0, .unknown, importCourse_text, rfl⟩
  refine .put himported (fun before hload => ?_) (eq_ok_of_valueOf hput)
  rw [hmissing] at hload
  cases hload

/-- The lesson is left out of the course, since it has no page, and the link to the course leads to
a page that is not there. -/
theorem dead_link : Built atHome "k" Course.IsImported program
    ∧ (∀ course ∈ program.courses, SingleComponent course)
    ∧ ∃ library, (∀ tree, Library.load tree none = .ok library)
      ∧ library.renderSite program ⟨"o"⟩ = .ok (builtInPages program ⟨"o"⟩)
      ∧ courseLine course ∈ indexLines program
      ∧ (Path.mk "o" / "Course.html").follow (courseLink course)
        ∉ (builtInPages program ⟨"o"⟩).map (·.1) := by
  obtain ⟨library, hload, hrender⟩ := exists_builtIn
  refine ⟨built_program, ?_, library, hload, hrender program ⟨"o"⟩, ?_, ?_⟩
  · unfold SingleComponent
    decide
  · decide +kernel
  · rw [Library.paths_of_renderSite (hrender program ⟨"o"⟩)]
    decide +kernel

end NoPages

end Template

end Syllabus
