/-!
# Syllabus: tables with names as keys

A table is a list of named entries in the order in which the names came up. The view of a table is
`find?`; each operation says what it does to that view. Replacing an entry keeps its place, so a
table whose new entry is taken out again is the table it was.
-/

namespace Syllabus

/-- Entries by name. The first entry of a name counts. -/
abbrev Table (α : Type) := List (String × α)

namespace Table

variable {α : Type}

def find? (table : Table α) (name : String) : Option α :=
  match table with
  | [] => none
  | (key, entry) :: rest => if key = name then some entry else find? rest name

/-- The table with the entry of a name set, in its place or at the end. -/
def insert (table : Table α) (name : String) (entry : α) : Table α :=
  match table with
  | [] => [(name, entry)]
  | (key, old) :: rest =>
    if key = name then (key, entry) :: rest else (key, old) :: insert rest name entry

/-- The table without a name. -/
def erase (table : Table α) (name : String) : Table α :=
  table.filter fun (key, _) => key ≠ name

/-- All names, in order. -/
def names (table : Table α) : List String := table.map (·.1)

/-- The table in the order of its names. -/
def sorted (table : Table α) : Table α := table.mergeSort fun a b => a.1 ≤ b.1

/-- Nothing is found in the empty table. -/
@[simp] theorem find?_nil (name : String) : find? ([] : Table α) name = none := rfl

/-- What has been set is found, and under all other names what was found before. -/
theorem find?_insert (table : Table α) (name other : String) (entry : α) :
    (table.insert name entry).find? other
      = if name = other then some entry else table.find? other := by
  induction table with
  | nil => simp [insert, find?]
  | cons first rest ih =>
    obtain ⟨key, old⟩ := first
    by_cases hk : key = name <;> by_cases ho : key = other <;> grind [insert, find?]

theorem find?_erase (table : Table α) (name other : String) :
    (table.erase name).find? other = if name = other then none else table.find? other := by
  induction table with
  | nil => simp [erase]
  | cons first rest ih =>
    obtain ⟨key, old⟩ := first
    by_cases hk : key = name <;> by_cases ho : key = other <;> grind [erase, find?]

end Table

end Syllabus
