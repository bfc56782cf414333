import Syllabus.Text.Digits

/-!
# Syllabus: decimal literals

Numbers in decimal notation with a point and an exponent, and whether such a number is within the
range of floating-point numbers.
-/

namespace Syllabus.Decimal

/-- The decimal number `± digits * 10 ^ exponent`. -/
structure Literal where
  negative : Bool
  digits : Nat
  exponent : Int
deriving DecidableEq

/-- A sign at the start of the text, and what follows. -/
def readSign : List Char → Bool × List Char
  | '-' :: rest => (true, rest)
  | '+' :: rest => (false, rest)
  | cs => (false, cs)

namespace Literal

/-- An exponent that makes up the rest of the text; none there is an exponent of zero. -/
def readExponent : List Char → Option Int
  | [] => some 0
  | c :: rest =>
    if c == 'e' || c == 'E' then
      let (negative, digits) := readSign rest
      if digits.isEmpty || !digits.all Char.isDigit then none
      else some (if negative then -(Text.digitsValue digits) else Text.digitsValue digits)
    else none

/-- Reads an unsigned literal: digits, with a point before, among or behind them, and an
exponent. -/
def readUnsigned (negative : Bool) (cs : List Char) : Option Literal := do
  let (whole, rest) := cs.span Char.isDigit
  let (fraction, rest) :=
    match rest with
    | '.' :: behind => behind.span Char.isDigit
    | _ => ([], rest)
  guard !(whole.isEmpty && fraction.isEmpty)
  let exponent ← readExponent rest
  some ⟨negative, Text.digitsValue (whole ++ fraction), exponent - fraction.length⟩

def read? (cs : List Char) : Option Literal :=
  let (negative, rest) := readSign cs
  readUnsigned negative rest

/-- The exponent of the first digit, counted so that numbers from 0.1 to below 1 have zero. -/
def magnitude (l : Literal) : Int := (Nat.toDigits 10 l.digits).length + l.exponent

/-- Whether the literal rounds to a finite floating-point number: it does below the middle between
the largest such number and the next power of two. -/
def isFinite (l : Literal) : Bool :=
  -- Far from the limit the powers need not be computed.
  if l.digits = 0 || l.magnitude < 300 then true
  else if 310 < l.magnitude then false
  else l.digits * Nat.pow 10 l.exponent.toNat
    < (Nat.pow 2 1024 - Nat.pow 2 970) * Nat.pow 10 (-l.exponent).toNat

/-- The floating-point number nearest to the literal. -/
def toFloat (l : Literal) : Float :=
  let size : Float :=
    if l.digits = 0 || l.magnitude < -330 then 0
    else if !l.isFinite then 1 / 0
    else .ofScientific l.digits (l.exponent < 0) l.exponent.natAbs
  if l.negative then -size else size

end Literal

/-- Reads the text of a floating-point number: a literal, or one of the words for infinity and
for not being a number, in any case. -/
def readFloat? (s : String) : Option Float :=
  let (negative, rest) := readSign s.toList
  let word := String.ofList (rest.map Char.toLower)
  if word = "inf" || word = "infinity" then some (if negative then -1 / 0 else 1 / 0)
  else if word = "nan" then some (0 / 0)
  else (Literal.readUnsigned negative rest).map Literal.toFloat

end Syllabus.Decimal
