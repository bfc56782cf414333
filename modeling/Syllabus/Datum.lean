/-!
# Syllabus: data without a notation

A datum is what a stored text says once its notation is put aside: scalars, lists and records. A
scalar carries everything it can be read as, because one spelling may be read in more than one
way: `12` is a number where a number is wanted and a text where a text is wanted.

A record is read by the names its reader declares. Other entries are passed over; a declared name
that comes up twice makes the record unreadable.
-/

namespace Syllabus

/-- What a scalar says where something optional is wanted. -/
inductive Presence where
  | present
  | absent
  /-- It can be neither taken nor left. -/
  | refused
deriving DecidableEq

/-- What a scalar can be read as. -/
structure Scalar where
  /-- What it reads as where a text is wanted. -/
  text? : Option String := none
  /-- What it reads as where a whole number is wanted. -/
  number? : Option Nat := none
  /-- What it says where something optional is wanted. -/
  presence : Presence := .present
  /-- Whether it reads as a list without items. -/
  isEmptyList : Bool := false
deriving DecidableEq

/-- Scalars, lists and records. -/
inductive Datum where
  | scalar (value : Scalar)
  /-- A list; in some notations it can also be read as a record whose entries stand in the order
  of declaration. -/
  | list (items : List Datum) (positional : Bool)
  | record (entries : List (String × Datum))
  /-- What no reader of this library accepts. -/
  | other

namespace Datum

def ofText (s : String) : Datum := .scalar { text? := some s }

def ofNat (n : Nat) : Datum := .scalar { number? := some n }

def text? : Datum → Option String
  | .scalar value => value.text?
  | _ => none

/-- Reads a number of 32 bits. -/
def word? : Datum → Option UInt32
  | .scalar value => do
    -- A number beyond 32 bits is not cut but refused.
    let n ← value.number?
    if n < Nat.pow 2 32 then some (.ofNat n) else none
  | _ => none

/-- Reads something that may be absent. -/
def optional? {α : Type} (read : Datum → Option α) : Datum → Option (Option α)
  | .scalar value =>
    match value.presence with
    | .present => (read (.scalar value)).map some
    | .absent => some none
    | .refused => none
  -- A list or a record is never absent.
  | datum => (read datum).map some

def list? {α : Type} (read : Datum → Option α) : Datum → Option (List α)
  -- Some notations write a list without items as a scalar.
  | .scalar value => if value.isEmptyList then some [] else none
  | .list items _ => items.mapM read
  | _ => none

end Datum

/-! ## Entries by declared names -/

/-- The entries of the declared names, in the order of declaration. -/
def entriesOf? {α : Type} (declared : List String) (entries : List (String × α)) :
    Option (List (Option α)) :=
  declared.mapM fun name =>
    match entries.filter fun (key, _) => key = name with
    | [] => some none
    | [(_, value)] => some (some value)
    -- A name that comes up twice is an error even if both entries agree.
    | _ => none

/-- The items of a list in the place of declared entries. The last ones may be missing. -/
def itemsAsEntries? {α : Type} (declared : List String) (items : List α) :
    Option (List (Option α)) :=
  -- More items than names would leave some of them without a name.
  if items.length ≤ declared.length then
    some (items.map some ++ List.replicate (declared.length - items.length) none)
  else none

/-- Reads an entry that must be there. -/
def required? {α β : Type} (read : α → Option β) (entry : Option α) : Option β := entry >>= read

/-- Reads an entry that is replaced by a value where it is missing. -/
def orElse? {α β : Type} (default : β) (read : α → Option β) : Option α → Option β
  | none => some default
  | some entry => read entry

def Datum.fields? (declared : List String) : Datum → Option (List (Option Datum))
  | .record entries => entriesOf? declared entries
  | .list items true => itemsAsEntries? declared items
  | _ => none

end Syllabus
