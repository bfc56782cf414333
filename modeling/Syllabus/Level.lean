import Syllabus.Text.Blank
import Syllabus.Text.Split

/-!
# Syllabus: language levels

A level is the set of stages of learning that a course, or a whole program, is meant for. Levels
are joined as sets are, and compared by the number whose bits they are: 1 for beginners, 2 for
intermediate and 4 for advanced learners.
-/

namespace Syllabus

/-- A set of stages of learning. -/
structure Level where
  beginner : Bool := false
  intermediate : Bool := false
  advanced : Bool := false
deriving DecidableEq

namespace Level

/-- The level of a course about which nothing is known. -/
def unknown : Level := {}

/-- Whether no stage is named. -/
def isUnknown (level : Level) : Bool := level == unknown

/-- The number whose bits are the stages. -/
def bits (level : Level) : Nat :=
  level.beginner.toNat + 2 * level.intermediate.toNat + 4 * level.advanced.toNat

def union (a b : Level) : Level where
  beginner := a.beginner || b.beginner
  intermediate := a.intermediate || b.intermediate
  advanced := a.advanced || b.advanced

/-- Whether the first level has every stage of the second. -/
def contains (a b : Level) : Bool := a.union b == a

/-- The level of an exported group number, counted from one. -/
def ofGroup : Nat → Level
  | 1 => { beginner := true }
  | 2 => { intermediate := true }
  | 3 => { advanced := true }
  -- Group numbers beyond the third name no stage.
  | _ => unknown

/-- The stages with their names, in ascending order. -/
def named : List (Level × String) :=
  [(ofGroup 1, "Beginner"), (ofGroup 2, "Intermediate"), (ofGroup 3, "Advanced")]

/-- The names of the stages of a level, or the word for the level without any. -/
def text (level : Level) : String :=
  if level.isUnknown then "Unknown"
  else ", ".intercalate ((named.filter fun (stage, _) => level.contains stage).map (·.2))

/-- Whether two words are the same when case is put aside. Names of stages are ASCII words. -/
def sameWord (a b : List Char) : Bool := a.map Char.toLower == b.map Char.toLower

def ofWord? (word : List Char) : Option Level :=
  -- The word for no stage is read, too, since it is what is written for such a level.
  if sameWord word "unknown".toList then some unknown
  else (named.find? fun (_, name) => sameWord name.toList word).map (·.1)

/-- Reads the words between commas, of which blank ones say nothing, and joins their levels. The
error is the first word that names no stage. -/
def read (cs : List Char) : Except (List Char) Level :=
  -- The first word at fault ends the reading; what stands behind it is not looked at.
  ((cs.splitOn ',').map Text.trim |>.filter (!·.isEmpty)).foldlM (fun level word =>
    match ofWord? word with
    | some stage => .ok (level.union stage)
    | none => .error word) unknown

def ofString (s : String) : Except (List Char) Level := read s.toList

/-- What to say of a word that names no stage. -/
def unknownWordMessage (word : List Char) : String :=
  s!"unknown language level '{String.ofList word}'; expected: beginner, intermediate, advanced"

end Level

end Syllabus
