import Syllabus.Date

/-!
# Syllabus: instants

Points in time by universal time, to the nanosecond. A text may give another offset from universal
time; it is taken off when the text is read. A leap second is the sixty-first of its minute.
-/

namespace Syllabus

namespace Date

/-- The day after, if it can be stored. -/
def next? (date : Date) : Option Date :=
  (of? date.year date.month (date.day + 1)).or
    ((of? date.year (date.month + 1) 1).or (of? (date.year + 1) 1 1))

/-- The day before, if it can be stored. -/
def previous? (date : Date) : Option Date :=
  (of? date.year date.month (date.day - 1)).or
    ((of? date.year (date.month - 1) (daysInMonth date.year (date.month - 1))).or
      (of? (date.year - 1) 12 31))

/-- The date so many days later, if it can be stored. -/
def later? (date : Date) : Nat → Option Date
  | 0 => some date
  | days + 1 => date.next? >>= (later? · days)

end Date

/-- A point in time. -/
structure Instant where
  date : Date
  /-- Seconds from the start of the day, leap seconds left out. -/
  seconds : Nat
  /-- Nanoseconds from the start of the second; from 10 ^ 9 on they lie in the leap second after
  it. -/
  nanoseconds : Nat
deriving DecidableEq

namespace Instant

/-- What follows a character that may stand behind blanks. -/
def readMark (mark : Char) (cs : List Char) : Option (List Char) :=
  match Text.trimStart cs with
  | c :: rest => if c == mark then some rest else none
  | [] => none

/-- A number of up to two digits behind blanks. -/
def readPair (cs : List Char) : Option (Nat × List Char) := Text.readDigits 2 (Text.trimStart cs)

/-- A fraction of a second in nanoseconds, if there is a point. Digits beyond nine are passed
over. -/
def readFraction : List Char → Option (Nat × List Char)
  | '.' :: rest =>
    let digits := rest.takeWhile Char.isDigit
    if digits.isEmpty then none
    else
      let kept := digits.take 9
      some (Text.digitsValue kept * Nat.pow 10 (9 - kept.length), rest.dropWhile Char.isDigit)
  | cs => some (0, cs)

/-- Exactly two digits. -/
def readTwoDigits : List Char → Option (Nat × List Char)
  | a :: b :: rest =>
    if a.isDigit && b.isDigit then some (Text.digitsValue [a, b], rest) else none
  | _ => none

/-- The offset from universal time in seconds: one of the names of universal time, or signed hours
and minutes. -/
def readOffset (cs : List Char) : Option (Int × List Char) :=
  if (cs.take 3).map Char.toLower == ['u', 't', 'c'] then some (0, cs.drop 3)
  else
    match cs with
    | [] => none
    | sign :: rest =>
      if sign == 'Z' || sign == 'z' then some (0, rest)
      else if sign == '+' || sign == '-' || sign == '−' then do
        let (hours, rest) ← readTwoDigits rest
        let (minutes, rest) ←
          -- Between hours and minutes there may be colons and blanks, or nothing.
          readTwoDigits (rest.dropWhile fun c => c == ':' || Text.isBlank c)
        guard (minutes < 60)
        let size : Int := hours * 3600 + minutes * 60
        some (if sign == '+' then size else -size, rest)
      else none

/-- The instant at the given local time of a date, where local time is `offset` seconds ahead. -/
def ofLocal? (date : Date) (seconds nanoseconds : Nat) (offset : Int) : Option Instant := do
  -- An offset of a day or more is none.
  guard (offset.natAbs < 86400)
  let time : Int := seconds - offset
  if time < 0 then
    let date ← date.previous?
    some ⟨date, (time + 86400).toNat, nanoseconds⟩
  else if 86400 ≤ time then
    let date ← date.next?
    some ⟨date, (time - 86400).toNat, nanoseconds⟩
  else some ⟨date, time.toNat, nanoseconds⟩

/-- Reads a date, a time and an offset. Blanks may stand before each of their parts, and one blank
may stand for the letter between date and time. -/
def read? (cs : List Char) : Option Instant := do
  let (year, rest) ← Date.readYear (Text.trimStart cs)
  let (month, rest) ← readPair (← readMark '-' rest)
  let (day, rest) ← readPair (← readMark '-' rest)
  let rest ← match rest with
    | c :: rest => if c == 'T' || c == 't' || c == ' ' then some rest else none
    | [] => none
  let (hour, rest) ← readPair rest
  let (minute, rest) ← readPair (← readMark ':' rest)
  let (second, rest) ← readPair (← readMark ':' rest)
  let (nanoseconds, rest) ← readFraction rest
  let (offset, rest) ← readOffset (Text.trimStart rest)
  guard (Text.trimStart rest).isEmpty
  guard (hour < 24 && minute < 60 && second ≤ 60)
  let date ← Date.of? year month day
  -- A leap second is kept as the second before it with a further second of nanoseconds.
  let leap := second == 60
  ofLocal? date (hour * 3600 + minute * 60 + (if leap then 59 else second))
    (if leap then nanoseconds + Nat.pow 10 9 else nanoseconds) offset

def ofString? (s : String) : Option Instant := read? s.toList

/-- The instant so many nanoseconds after the start of the year 1970. -/
def ofEpoch? (nanoseconds : Nat) : Option Instant := do
  let seconds := nanoseconds / Nat.pow 10 9
  let start ← Date.of? 1970 1 1
  let date ← start.later? (seconds / 86400)
  some ⟨date, seconds % 86400, nanoseconds % Nat.pow 10 9⟩

/-- The fraction of a second with as many digits as it needs, in groups of three. -/
def fractionChars (nanoseconds : Nat) : List Char :=
  let n := nanoseconds % Nat.pow 10 9
  if n = 0 then []
  else if n % Nat.pow 10 6 = 0 then '.' :: Text.padded 3 (n / Nat.pow 10 6)
  else if n % Nat.pow 10 3 = 0 then '.' :: Text.padded 6 (n / Nat.pow 10 3)
  else '.' :: Text.padded 9 n

def text (instant : Instant) : String :=
  let second := instant.seconds % 60 + (if Nat.pow 10 9 ≤ instant.nanoseconds then 1 else 0)
  .ofList (instant.date.chars ++ 'T' :: Text.padded 2 (instant.seconds / 3600)
    ++ ':' :: Text.padded 2 (instant.seconds / 60 % 60)
    ++ ':' :: Text.padded 2 second ++ fractionChars instant.nanoseconds ++ ['Z'])

end Instant

end Syllabus
