import Syllabus.Template.Library

/-!
# Syllabus: libraries of two templates

A library that has the template of the program's page and that of a lesson's pages, and the site
that it makes of a program.

* **`Library.ofTexts_pair`**: two texts that can be read make a library.
* **`Library.renderSite_of_render`**: where every page is rendered, so is the site.
-/

namespace Syllabus.Template.Library

/-- The library with a template for the program's page and one for a lesson's pages. -/
def pair (ofProgram ofPage : Template) : Library := ⟨[(programName, ofProgram), (pageName, ofPage)]⟩

theorem add_of_parse {library : Library} {name text : String} {template : Template}
    (h : parse name text = .ok template) :
    library.add name text = .ok ⟨(library.templates.insert name template).sorted⟩ := by
  unfold add
  rw [h]

theorem sorted_pair {α : Type} (first second : α) :
    Table.sorted [(programName, first), (pageName, second)]
      = [(programName, first), (pageName, second)] := by
  have hle : programName ≤ pageName := by decide
  simp [Table.sorted, List.mergeSort, hle]

theorem ofTexts_pair {programText pageText : String} {ofProgram ofPage : Template}
    (hprogram : parse programName programText = .ok ofProgram)
    (hpage : parse pageName pageText = .ok ofPage) :
    ofTexts [(programName, programText), (pageName, pageText)] = .ok (pair ofProgram ofPage) := by
  have hfirst : add {} programName programText = .ok ⟨[(programName, ofProgram)]⟩ := by
    rw [add_of_parse hprogram]
    show Except.ok (Library.mk (Table.sorted [_])) = _
    rw [Table.sorted, List.mergeSort_singleton]
  have hsecond : add ⟨[(programName, ofProgram)]⟩ pageName pageText
      = .ok (pair ofProgram ofPage) := by
    rw [add_of_parse hpage]
    show Except.ok (Library.mk (Table.sorted [_, _])) = _
    rw [sorted_pair]
    rfl
  rw [ofTexts, sorted_pair, List.foldlM_cons]
  show (add {} programName programText >>= _) = _
  rw [hfirst]
  show (add _ pageName pageText >>= _) = _
  rw [hsecond]
  rfl

theorem render_of_get {library : Library} {name text : String} {template : Template}
    {bindings : Bindings} (hget : library.get name = .ok template)
    (hrender : template.renderText bindings = .ok text) :
    library.render name bindings = .ok text := by
  rw [render, hget]
  dsimp only [Bind.bind, Except.bind]
  rw [hrender]

/-- The pages of a program's lessons with their paths, in the order of courses, lessons and pages,
where each has the given text. -/
def lessonPages (program : Program) (root : Path) (textOf : Course → Lesson → Page → String) :
    List (Path × String) :=
  program.courses.flatMap fun course => course.lessons.flatMap fun lesson =>
    lesson.pages.map fun page =>
      (root / course.directoryName / s!"Lesson_{page.id.toNat}.html", textOf course lesson page)

theorem renderSite_of_render {library : Library} {program : Program} {root : Path}
    {index : String} {textOf : Course → Lesson → Page → String}
    (hindex : library.render programName (.forProgram program) = .ok index)
    (hpages : ∀ course lesson page,
      library.render pageName (.forPage program course lesson page)
        = .ok (textOf course lesson page)) :
    library.renderSite program root
      = .ok ((root / "Course.html", index) :: lessonPages program root textOf) := by
  unfold renderSite lessonPages
  simp only [hindex, hpages]
  show (List.mapM (fun x => (pure _ : Except _ _)) _ >>= _) = _
  rw [List.mapM_pure, List.map_flatMap]
  simp only [Course.pages, List.map_flatMap, List.map_map]
  rfl

end Syllabus.Template.Library
