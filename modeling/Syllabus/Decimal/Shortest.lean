/-!
# Syllabus: the fewest digits that read back

A floating-point number stands for all reals that round to it. Of the decimal numbers in that
interval the one with the fewest digits is written, and of several such the nearest.
-/

namespace Syllabus.Decimal

/-- A positive finite binary number `mantissa * 2 ^ exponent` with the widths of the interval that
rounds to it, in quarters of the last place. -/
structure Binary where
  mantissa : Nat
  exponent : Int
  /-- How far the interval reaches below the number. -/
  below : Nat
  /-- How far the interval reaches above the number. -/
  above : Nat := 2
deriving DecidableEq

/-- A decimal number `digits * 10 ^ exponent`. -/
structure Scientific where
  digits : Nat
  exponent : Int
deriving DecidableEq

namespace Binary

/-- The number that 63 bits encode, sign bit aside, where it is neither zero nor infinite. The
interval is narrower below a power of two, where the numbers are denser. -/
def ofBits (bits : Nat) : Binary :=
  let fraction := bits % Nat.pow 2 52
  let biased := bits / Nat.pow 2 52 % Nat.pow 2 11
  if biased = 0 then { mantissa := fraction, exponent := -1074, below := 2 }
  else
    { mantissa := Nat.pow 2 52 + fraction
      exponent := Int.ofNat biased - 1075
      below := if fraction = 0 ∧ biased ≠ 1 then 1 else 2 }

/-- `numerator` and `denominator` of `quarters / 4 * 2 ^ exponent / 10 ^ place`. -/
def scaled (b : Binary) (quarters : Nat) (place : Int) : Nat × Nat :=
  (quarters * Nat.pow 2 (b.exponent - 2).toNat * Nat.pow 10 (-place).toNat,
    Nat.pow 2 (2 - b.exponent).toNat * Nat.pow 10 place.toNat)

/-- Whether `digits * 10 ^ place` rounds to the number. The ends of the interval do so when the
mantissa is even. -/
def admits (b : Binary) (digits : Nat) (place : Int) : Bool :=
  let (low, unit) := b.scaled (4 * b.mantissa - b.below) place
  let (high, _) := b.scaled (4 * b.mantissa + b.above) place
  let at_ := digits * unit
  if b.mantissa % 2 = 0 then low ≤ at_ && at_ ≤ high else low < at_ && at_ < high

/-- The multiple of `10 ^ place` next to the number that rounds to it, if one does. Of two it is
the nearer, and the upper one at equal distance. -/
def nearest? (b : Binary) (place : Int) : Option Nat :=
  -- The neighbours of the number on this grid; no other multiple is nearer on its side.
  let (exact, unit) := b.scaled (4 * b.mantissa) place
  let lower := exact / unit
  let remainder := exact % unit
  let lowerFits := lower != 0 && b.admits lower place
  let upperFits := b.admits (lower + 1) place
  if upperFits && (!lowerFits || unit ≤ 2 * remainder) then some (lower + 1)
  else if lowerFits then some lower
  else none

/-- Searches the grids of powers of ten from `place` downwards. -/
def search (b : Binary) : Nat → Int → Scientific
  | 0, place => ⟨0, place⟩
  | tries + 1, place =>
    match b.nearest? place with
    | some digits => ⟨digits, place⟩
    | none => search b tries (place - 1)

/-- The shortest decimal number that rounds to the binary one. Seventeen digits always do; the
search starts above the first of them. -/
def shortest (b : Binary) : Scientific :=
  -- The number is less than two to the power of `length`.
  let length := Int.ofNat (Nat.log2 b.mantissa) + 1 + b.exponent
  b.search 24 (length * 30103 / 100000 + 1)

end Binary

/-- Zeros, in portions of sixty-four. -/
def zeroPortions (n : Nat) : List String :=
  let rest := n % 64
  List.replicate (n / 64) (.ofList (List.replicate 64 '0'))
    ++ if rest = 0 then [] else [.ofList (List.replicate rest '0')]

/-- Digits with the point in its place, without an exponent and without superfluous zeros, in the
portions that are written one after the other. -/
def Scientific.portions (s : Scientific) : List String :=
  let digits := Nat.toDigits 10 s.digits
  match s.exponent with
  | .ofNat zeros => .ofList digits :: zeroPortions zeros
  | .negSucc n =>
    let places := n + 1
    if places < digits.length then
      let whole := digits.length - places
      [.ofList (digits.take whole), ".", .ofList (digits.drop whole)]
    else
      -- No digit is left for the place before the point.
      "0." :: zeroPortions (places - digits.length) ++ [.ofList digits]

/-- The portions in which a floating-point number is written: the sign, and then the shortest digits
that read back, always positional. -/
def floatPortions (x : Float) : List String :=
  let bits := x.toBits.toNat
  let magnitude := bits % Nat.pow 2 63
  let body :=
    if magnitude = 0 then ["0"]
    else if magnitude = 0x7ff0000000000000 then ["inf"]
    else (Binary.ofBits magnitude).shortest.portions
  -- What is beyond infinity is no number, and has no sign.
  if 0x7ff0000000000000 < magnitude then ["NaN"]
  else if Nat.pow 2 63 ≤ bits then "-" :: body
  else body

/-- The text of a floating-point number. -/
def floatText (x : Float) : String := .join (floatPortions x)

end Syllabus.Decimal
