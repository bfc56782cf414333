/-!
# Syllabus: whole numbers in decimal digits

Reading runs of ASCII digits, and writing numbers with a least count of digits.
-/

namespace Syllabus.Text

def digitValue (c : Char) : Nat := c.toNat - '0'.toNat

/-- The number that a list of digits spells in base ten. -/
def digitsValue (digits : List Char) : Nat :=
  digits.foldl (fun value c => 10 * value + digitValue c) 0

/-- The number at the start of the text, of at most `most` digits, and what follows it. -/
def readDigits (most : Nat) (cs : List Char) : Option (Nat × List Char) :=
  let digits := (cs.take most).takeWhile Char.isDigit
  if digits.isEmpty then none else some (digitsValue digits, cs.drop digits.length)

/-- The decimal digits of a number, filled up with zeros in front to at least `least` digits. -/
def padded (least : Nat) (n : Nat) : List Char :=
  let digits := Nat.toDigits 10 n
  List.replicate (least - digits.length) '0' ++ digits

/-- A number below the bound, written in decimal without sign, blank or superfluous zero. -/
def readCanonical (bound : Nat) (cs : List Char) : Option Nat :=
  if cs.isEmpty || !cs.all Char.isDigit || (cs.head? == some '0' && cs.length != 1) then none
  else
    let n := digitsValue cs
    if n < bound then some n else none

end Syllabus.Text
