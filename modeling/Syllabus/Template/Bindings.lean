import Syllabus.Template.Value

/-!
# Syllabus: bindings

What the names in a template stand for while it is rendered: values, and named sequences that only
loops look at. A rendering starts from the bindings it is given, and its loops bind their items.
-/

namespace Syllabus.Template

/-- The names that a template can use. -/
structure Bindings where
  values : Table Value := []
  sequences : Table (List Value) := []

namespace Bindings

/-- Binds a name to a value, in place of what it was bound to. -/
def bind (bindings : Bindings) (name : String) (value : Value) : Bindings :=
  { bindings with values := bindings.values.insert name value }

def bindSequence (bindings : Bindings) (name : String) (items : List Value) : Bindings :=
  { bindings with sequences := bindings.sequences.insert name items }

/-- Binds the keys of a JSON object. Any other value binds nothing. -/
def ofJson : Json → Bindings
  | .object entries =>
    -- Sequences of the data are bound as values; a loop takes them from there.
    entries.foldl (fun bindings (key, item) => bindings.bind key (.ofJson item)) {}
  | _ => {}

/-- What the page of a program can use: the program, and its courses by level. -/
def forProgram (program : Program) : Bindings :=
  ({} : Bindings).bind "program" (.view (.program program))
    |>.bindSequence "courses_by_level" (program.coursesByLevel.map fun (level, courses) =>
      .view (.levelGroup program level courses))

/-- What a page about a course can use besides. -/
def forCourse (program : Program) (course : Course) : Bindings :=
  (forProgram program).bind "course" (.view (.course program course))

/-- What a page about a lesson can use besides. -/
def forLesson (program : Program) (course : Course) (lesson : Lesson) : Bindings :=
  (forCourse program course).bind "lesson" (.view (.lesson program course lesson))

/-- What a page of a lesson can use besides. -/
def forPage (program : Program) (course : Course) (lesson : Lesson) (page : Page) : Bindings :=
  (forLesson program course lesson).bind "page" (.view (.page program course lesson page))

end Bindings

end Syllabus.Template
