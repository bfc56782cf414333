import Syllabus.Proofs.Program.LevelGroups
import Syllabus.Template.Bindings

/-!
# Syllabus: the views that a template can reach

A template goes from a page to its lesson, from there to the course, down to other lessons, and so
on without end. Views carry what they lie in from one to the next, so what they carry has to be
right wherever a template comes to.

* **`Reached`**: the values that fields and items lead to.
* **`View.PartOf.within_field`**, **`within_of_reached`**: one step, and any number of them.
* **`placed_of_reached`**: every view that is reached shows its place in the program.
-/

namespace Syllabus.Template

/-- The values that are reached from names by following fields and taking items. -/
inductive Reached (bindings : Bindings) : Value → Prop where
  | variable (name : String) {value : Value} (h : bindings.values.find? name = some value) :
      Reached bindings value
  | sequence (name : String) {items : List Value} {item : Value}
      (h : bindings.sequences.find? name = some items) (hitem : item ∈ items) :
      Reached bindings item
  | fields (path : List String) {value next : Value} (h : Reached bindings value)
      (hpath : value.resolve path = .ok next) : Reached bindings next
  | item {value item : Value} {items : List Value} (h : Reached bindings value)
      (hitems : value.items? = some items) (hitem : item ∈ items) : Reached bindings item

/-! ## What belongs to a program -/

/-- Whether a view is one of a program, with each part in the one that it carries for it. The
courses of a level are all courses of the program that have it. -/
def View.PartOf (program : Program) : View → Prop
  | .program p => p = program
  | .levelGroup p level group => p = program ∧ group = program.courses.filter (·.level = level)
  | .course p c => p = program ∧ c ∈ program.courses
  | .lesson p c l => p = program ∧ c ∈ program.courses ∧ l ∈ c.lessons
  | .page p c l pg => p = program ∧ c ∈ program.courses ∧ l ∈ c.lessons ∧ pg ∈ l.pages

/-- Whether all views in a value are of one program. -/
inductive Value.Within (program : Program) : Value → Prop where
  | null : Within program .null
  | bool (value : Bool) : Within program (.bool value)
  | int (value : Int) : Within program (.int value)
  | text (value : String) : Within program (.text value)
  | date (value : Date) : Within program (.date value)
  | list {items : List Value} (h : ∀ item ∈ items, item.Within program) :
      Within program (.list items)
  | view {view : View} (h : view.PartOf program) : Within program (.view view)

attribute [simp] Value.Within.null Value.Within.bool Value.Within.int Value.Within.text
  Value.Within.date

variable {program : Program} {course : Course} {lesson : Lesson} {page : Page} {view : View}
  {value next : Value} {name : String}

namespace Value

/-- A list belongs to a program if its items do. -/
@[simp] theorem within_list_iff {items : List Value} :
    (Value.list items).Within program ↔ ∀ item ∈ items, item.Within program :=
  ⟨fun h => by cases h with | list h => exact h, .list⟩

/-- A view belongs to a program if it is a part of it. -/
@[simp] theorem within_view_iff : (Value.view view).Within program ↔ view.PartOf program :=
  ⟨fun h => by cases h with | view h => exact h, .view⟩

/-- An optional text is within every program. -/
@[simp] theorem within_ofOptionalText (s : Option String) : (ofOptionalText s).Within program := by
  cases s <;> simp [ofOptionalText]

@[simp] theorem within_ofNat (n : Nat) : (ofNat n).Within program := .int _

@[simp] theorem within_ofPosition (position : Option Nat) :
    (ofPosition position).Within program := by
  cases position <;> simp [ofPosition]

@[simp] theorem within_ofId (id : Id) : (ofId id).Within program := .int _

@[simp] theorem within_ofDate (date : Option Date) :
    (date.elim Value.null Value.date).Within program := by
  cases date <;> simp

end Value

/-! ## One step -/

namespace View

/-- Views of courses are within a program if the courses are its own. -/
theorem within_courses_iff {group : List Course} :
    (courses program group).Within program ↔ ∀ course ∈ group, course ∈ program.courses := by
  simp [courses, PartOf]

/-- A field of a view leads to nothing but views of the program. -/
theorem PartOf.within_field (h : view.PartOf program) (hfield : view.field? name = some value) :
    value.Within program := by
  -- One case for each view, and in it one for each of its fields.
  cases view with
  | program p =>
    obtain rfl : p = program := h
    simp only [field?] at hfield
    unfold programField? at hfield
    split at hfield <;> cases hfield <;> simp [within_courses_iff]
  | levelGroup p level group =>
    obtain ⟨rfl, rfl⟩ := h
    simp only [field?] at hfield
    unfold levelGroupField? at hfield
    split at hfield <;> cases hfield <;> simp +contextual [within_courses_iff]
  | course p course =>
    obtain ⟨rfl, hcourse⟩ := h
    simp only [field?] at hfield
    unfold courseField? at hfield
    split at hfield <;> cases hfield <;> simp [PartOf, hcourse]
  | lesson p course lesson =>
    obtain ⟨rfl, hcourse, hlesson⟩ := h
    simp only [field?] at hfield
    unfold lessonField? at hfield
    split at hfield <;> cases hfield <;> simp [PartOf, hcourse, hlesson]
  | page p course lesson page =>
    obtain ⟨rfl, hcourse, hlesson, hpage⟩ := h
    simp only [field?] at hfield
    unfold pageField? at hfield
    split at hfield <;> cases hfield <;> simp [PartOf, hcourse, hlesson]

end View

namespace Value.Within

/-- A field of what is within a program is within it. -/
theorem field (h : value.Within program) (hfield : value.field? name = some next) :
    next.Within program := by
  cases h with
  | view h => exact h.within_field hfield
  | null | bool | int | text | date | list => cases hfield

theorem resolve {path : List String} (h : value.Within program)
    (hpath : value.resolve path = .ok next) : next.Within program := by
  -- On the path, one field after the other.
  induction path generalizing value with
  | nil =>
    cases hpath
    exact h
  | cons name path ih =>
    rw [Value.resolve] at hpath
    split at hpath
    · cases hpath
    · next hfield => exact ih (h.field hfield) hpath

theorem item {items : List Value} {item : Value} (h : value.Within program)
    (hitems : value.items? = some items) (hitem : item ∈ items) : item.Within program := by
  cases h with
  | list h =>
    cases hitems
    exact h item hitem
  | text s =>
    cases hitems
    obtain ⟨c, _, rfl⟩ := List.mem_map.mp hitem
    exact .text _
  -- Of the views only a group of a level has items, which are its courses.
  | @view view h =>
    cases view with
    | levelGroup p level group =>
      obtain ⟨rfl, rfl⟩ := h
      cases hitems
      obtain ⟨course, hcourse, rfl⟩ := List.mem_map.mp hitem
      exact .view ⟨rfl, List.mem_of_mem_filter hcourse⟩
    | program | course | lesson | page => cases hitems
  | null | bool | int | date => cases hitems

end Value.Within

/-! ## Any number of steps -/

/-- What the names of a page stand for at the start. -/
theorem within_of_values (hcourse : course ∈ program.courses) (hlesson : lesson ∈ course.lessons)
    (hpage : page ∈ lesson.pages)
    (h : (Bindings.forPage program course lesson page).values.find? name = some value) :
    value.Within program := by
  simp only [Bindings.forPage, Bindings.forLesson, Bindings.forCourse, Bindings.forProgram,
    Bindings.bind, Bindings.bindSequence, Table.find?_insert, Table.find?_nil] at h
  -- The four names that are bound, from the last to the first.
  split at h
  · cases h
    exact .view ⟨rfl, hcourse, hlesson, hpage⟩
  · split at h
    · cases h
      exact .view ⟨rfl, hcourse, hlesson⟩
    · split at h
      · cases h
        exact .view ⟨rfl, hcourse⟩
      · split at h
        · cases h
          exact .view (rfl : program = program)
        · cases h

/-- The courses by level, the only sequence with a name, are all courses of their levels. -/
theorem within_of_sequences {items : List Value}
    (h : (Bindings.forPage program course lesson page).sequences.find? name = some items)
    (hvalue : value ∈ items) : value.Within program := by
  simp only [Bindings.forPage, Bindings.forLesson, Bindings.forCourse, Bindings.forProgram,
    Bindings.bind, Bindings.bindSequence, Table.find?_insert, Table.find?_nil] at h
  split at h
  · cases h
    obtain ⟨group, hgroup, rfl⟩ := List.mem_map.mp hvalue
    exact .view ⟨rfl, (Program.grouped_coursesByLevel program).courses_eq group hgroup⟩
  · cases h

/-- All that a page's template can reach is within the program. -/
theorem within_of_reached (hcourse : course ∈ program.courses) (hlesson : lesson ∈ course.lessons)
    (hpage : page ∈ lesson.pages)
    (h : Reached (Bindings.forPage program course lesson page) value) : value.Within program := by
  -- On how it is reached: by a name, a field or an item.
  induction h with
  | «variable» _ h => exact within_of_values hcourse hlesson hpage h
  | sequence _ h hitem => exact within_of_sequences h hitem
  | fields _ _ hpath ih => exact ih.resolve hpath
  | item _ hitems hitem ih => exact ih.item hitems hitem

/-! ## Places in the program -/

namespace View

/-- What a part of a program lies in, by the name of the field that leads there. -/
inductive LiesIn : View → String → View → Prop where
  | program {program : Program} {course : Course} (h : course ∈ program.courses) :
      LiesIn (.course program course) "program" (.program program)
  | course {program : Program} {course : Course} {lesson : Lesson} (h : lesson ∈ course.lessons) :
      LiesIn (.lesson program course lesson) "course" (.course program course)
  | lesson {program : Program} {course : Course} {lesson : Lesson} {page : Page}
      (h : page ∈ lesson.pages) :
      LiesIn (.page program course lesson page) "lesson" (.lesson program course lesson)
  | courseOfPage {program : Program} {course : Course} {lesson : Lesson} {page : Page}
      (hlesson : lesson ∈ course.lessons) (hpage : page ∈ lesson.pages) :
      LiesIn (.page program course lesson page) "course" (.course program course)

/-- What the parts lie in that a view lists. The courses of a level lie in the program. -/
def around : View → View
  | .levelGroup program _ _ => .program program
  | view => view

/-- The fields with the parts of a view, and the field of a part that leads back up. -/
def downAndUp : List (String × String) :=
  [("courses", "program"), ("lessons", "course"), ("pages", "lesson")]

/-- Whether a view shows its place in a program. -/
structure IsPlaced (program : Program) (view : View) : Prop where
  partOf : view.PartOf program
  /-- The fields for what a view lies in lead there, and to nothing else. -/
  ancestors : ∀ name ∈ ["lesson", "course", "program"], ∀ value,
    view.field? name = some value ↔ ∃ above, value = .view above ∧ view.LiesIn name above
  /-- From the parts of a view it goes back to the view itself. -/
  back : ∀ names ∈ downAndUp, ∀ value items, view.field? names.1 = some value →
    value.items? = some items → ∀ item ∈ items, item.field? names.2 = some (.view view.around)
  backFromItems : ∀ items, view.items? = some items →
    ∀ item ∈ items, item.field? "program" = some (.view view.around)

/-- The fields for what a view lies in are just the views it lies in. -/
theorem PartOf.ancestors (h : view.PartOf program) :
    ∀ name ∈ ["lesson", "course", "program"], ∀ value,
      view.field? name = some value ↔ ∃ above, value = .view above ∧ view.LiesIn name above := by
  intro name hname value
  constructor
  · intro hfield
    simp only [List.mem_cons, List.not_mem_nil, or_false] at hname
    -- A course lies in one view, a lesson in two, and a page in three.
    cases view with
    | program p | levelGroup p level group => rcases hname with rfl | rfl | rfl <;> cases hfield
    | course p c =>
      obtain ⟨rfl, hcourse⟩ := h
      rcases hname with rfl | rfl | rfl <;> cases hfield
      exact ⟨_, rfl, .program hcourse⟩
    | lesson p c l =>
      obtain ⟨_, _, hlesson⟩ := h
      rcases hname with rfl | rfl | rfl <;> cases hfield
      exact ⟨_, rfl, .course hlesson⟩
    | page p c l pg =>
      obtain ⟨_, _, hlesson, hpage⟩ := h
      rcases hname with rfl | rfl | rfl <;> cases hfield
      · exact ⟨_, rfl, .lesson hpage⟩
      · exact ⟨_, rfl, .courseOfPage hlesson hpage⟩
  · rintro ⟨above, rfl, habove⟩
    cases habove <;> rfl

/-- From an item the field back leads to the view it came from. -/
theorem back (view : View) : ∀ names ∈ downAndUp, ∀ value items,
    view.field? names.1 = some value → value.items? = some items →
      ∀ item ∈ items, item.field? names.2 = some (.view view.around) := by
  intro names hnames value items hfield hitems item hitem
  simp only [downAndUp, List.mem_cons, List.not_mem_nil, or_false] at hnames
  cases view <;> rcases hnames with rfl | rfl | rfl <;> cases hfield <;> cases hitems <;>
    obtain ⟨part, _, rfl⟩ := List.mem_map.mp hitem <;> rfl

/-- From a course of a group the field back leads to the group's program. -/
theorem back_of_items (view : View) : ∀ items, view.items? = some items →
    ∀ item ∈ items, item.field? "program" = some (.view view.around) := by
  intro items hitems item hitem
  cases view with
  | levelGroup p level group =>
    cases hitems
    obtain ⟨part, _, rfl⟩ := List.mem_map.mp hitem
    rfl
  | program | course | lesson | page => cases hitems

/-- A part of the program is in its place. -/
theorem PartOf.isPlaced (h : view.PartOf program) : view.IsPlaced program :=
  ⟨h, h.ancestors, view.back, view.back_of_items⟩

end View

/-- **Every view that is reached is in place.** From the names that a page can use, fields and items
lead to nothing but views of parts of the program, each in the parts that it really lies in. Its
fields for these lead there, and from its own parts the way leads back to it. -/
theorem placed_of_reached (hcourse : course ∈ program.courses) (hlesson : lesson ∈ course.lessons)
    (hpage : page ∈ lesson.pages)
    (h : Reached (Bindings.forPage program course lesson page) (.view view)) :
    view.IsPlaced program :=
  (Value.within_view_iff.mp (within_of_reached hcourse hlesson hpage h)).isPlaced

namespace SharedLesson

/-! Two courses with the same lesson, so that a page of one is a page of the other as well. -/

def ruleSeven : Page := { id := 7 }

def nouns : Lesson := { id := 1, name := "Nouns", pages := [ruleSeven] }

def tones : Course := { id := 1, name := "Tones", lessons := [nouns] }

def cases : Course := { id := 2, name := "Cases", lessons := [nouns] }

def grammar : Program := { name := "Grammar", courses := [tones, cases] }

/-- From a page up to the program, and down to the same page in the other course. -/
theorem reached_inCases : Reached (Bindings.forPage grammar tones nouns ruleSeven)
    (.view (.page grammar cases nouns ruleSeven)) := by
  have hpage : Reached (Bindings.forPage grammar tones nouns ruleSeven)
      (.view (.page grammar tones nouns ruleSeven)) := .variable "page" rfl
  have hcourses := hpage.fields ["lesson", "course", "program", "courses"] rfl
  have hcases := hcourses.item rfl (.tail _ (.head _))
  have hnouns := (hcases.fields ["lessons"] rfl).item rfl (.head _)
  exact (hnouns.fields ["pages"] rfl).item rfl (.head _)

/-- There the page is in place, in the course that it has been reached through. -/
theorem placed_inCases : tones ∈ grammar.courses ∧ nouns ∈ tones.lessons ∧ ruleSeven ∈ nouns.pages
    ∧ (View.page grammar cases nouns ruleSeven).IsPlaced grammar
    ∧ (View.page grammar cases nouns ruleSeven).field? "course"
      = some (.view (.course grammar cases)) := by
  have hcourse : tones ∈ grammar.courses := by decide
  have hlesson : nouns ∈ tones.lessons := by decide
  have hpage : ruleSeven ∈ nouns.pages := by decide
  have hplaced := placed_of_reached hcourse hlesson hpage reached_inCases
  refine ⟨hcourse, hlesson, hpage, hplaced, ?_⟩
  obtain ⟨_, _, hnouns, hseven⟩ := hplaced.partOf
  exact (hplaced.ancestors "course" (by simp) _).mpr ⟨_, rfl, .courseOfPage hnouns hseven⟩

end SharedLesson

end Syllabus.Template
