import Syllabus.Text.Blank
import Syllabus.Text.Digits

/-!
# Syllabus: calendar dates

Dates of the Gregorian calendar, extended to all years before and after its introduction, with
year zero. A date is written `YYYY-MM-DD`; years beyond four digits and negative years carry a
sign.
-/

namespace Syllabus

/-- Whether February of the year has 29 days. -/
def isLeapYear (year : Int) : Bool :=
  year % 4 == 0 && (year % 100 != 0 || year % 400 == 0)

/-- The number of days of a month. There is no month but those from 1 to 12. -/
def daysInMonth (year : Int) (month : Nat) : Nat :=
  match month with
  | 1 | 3 | 5 | 7 | 8 | 10 | 12 => 31
  | 4 | 6 | 9 | 11 => 30
  | 2 => if isLeapYear year then 29 else 28
  | _ => 0

/-- The dates that can be stored. -/
def Date.Exists (year : Int) (month day : Nat) : Prop :=
  -- One year short, at either end, of what 19 bits with a sign can hold.
  -262143 ≤ year ∧ year ≤ 262142 ∧ 1 ≤ day ∧ day ≤ daysInMonth year month

instance (year : Int) (month day : Nat) : Decidable (Date.Exists year month day) := by
  unfold Date.Exists; infer_instance

/-- A date of the calendar. -/
structure Date where
  year : Int
  month : Nat
  day : Nat
  exists_ : Date.Exists year month day
deriving DecidableEq

namespace Date

/-- The date of that year, month and day, if the calendar has it. -/
def of? (year : Int) (month day : Nat) : Option Date :=
  -- The proof goes into the date, so that no other date can be made.
  if h : Date.Exists year month day then some ⟨year, month, day, h⟩ else none

/-- A year has at least four digits; it is signed when it is negative or has more. -/
def yearChars (year : Int) : List Char :=
  if year < 0 then '-' :: Text.padded 4 year.natAbs
  -- Only beyond four digits a sign is needed to tell where the year starts.
  else if year ≤ 9999 then Text.padded 4 year.natAbs
  else '+' :: Text.padded 4 year.natAbs

def chars (date : Date) : List Char :=
  yearChars date.year ++ '-' :: Text.padded 2 date.month ++ '-' :: Text.padded 2 date.day

def text (date : Date) : String := .ofList date.chars

/-- A year at the start of the text: signed with any number of digits, or unsigned with up to
four. -/
def readYear : List Char → Option (Int × List Char)
  -- Behind a sign the digits may be as many as there are.
  | '-' :: cs => (Text.readDigits cs.length cs).map fun (n, rest) => (-n, rest)
  | '+' :: cs => (Text.readDigits cs.length cs).map fun (n, rest) => (n, rest)
  | cs => (Text.readDigits 4 cs).map fun (n, rest) => (n, rest)

/-- What follows a hyphen, which may stand behind blanks. -/
def readHyphen (cs : List Char) : Option (List Char) :=
  match Text.trimStart cs with
  | '-' :: rest => some rest
  | _ => none

/-- Reads a date. Blanks may stand before each number, before each hyphen, and at the end. -/
def read? (cs : List Char) : Option Date := do
  let (year, rest) ← readYear (Text.trimStart cs)
  let rest ← readHyphen rest
  let (month, rest) ← Text.readDigits 2 (Text.trimStart rest)
  let rest ← readHyphen rest
  let (day, rest) ← Text.readDigits 2 (Text.trimStart rest)
  -- Nothing may follow but blanks.
  guard (Text.trimStart rest).isEmpty
  of? year month day

def ofString? (s : String) : Option Date := read? s.toList

end Date

end Syllabus
