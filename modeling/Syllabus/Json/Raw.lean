/-!
# Syllabus: JSON texts as written

A JSON text is first read for its shape only. Numbers and strings keep their spelling, and an
object keeps all its entries in order, repeated keys included. What a spelling stands for is asked
later, where it matters: a string with half of a surrogate pair is no error in a part that nobody
looks at.
-/

namespace Syllabus.Json

/-- The shape of a JSON text. -/
inductive Raw where
  | null
  | bool (value : Bool)
  /-- A number in its spelling. -/
  | number (spelling : List Char)
  /-- A string as it stands between its quotes. -/
  | string (body : List Char)
  | array (items : List Raw)
  /-- An object with its keys as they stand between their quotes. -/
  | object (entries : List (List Char × Raw))

/-- Whether a character may stand between the parts of a JSON text. -/
def isSpace (c : Char) : Bool := c == ' ' || c == '\t' || c == '\n' || c == '\r'

/-- The text from its first character that is no space. -/
def skipSpace (cs : List Char) : List Char := cs.dropWhile isSpace

def isHex (c : Char) : Bool := c.isDigit || ('a' ≤ c && c ≤ 'f') || ('A' ≤ c && c ≤ 'F')

/-- The rest of a string behind its opening quote: its body and what follows the closing quote. -/
def readBody : List Char → Option (List Char × List Char)
  | [] => none
  | '"' :: rest => some ([], rest)
  | '\\' :: 'u' :: a :: b :: c :: d :: rest =>
    if [a, b, c, d].all isHex then
      (readBody rest).map fun (body, rest) => ('\\' :: 'u' :: a :: b :: c :: d :: body, rest)
    else none
  | '\\' :: c :: rest =>
    if "\"\\/bfnrt".toList.contains c then
      (readBody rest).map fun (body, rest) => ('\\' :: c :: body, rest)
    else none
  | c :: rest =>
    -- Control characters have to be escaped, and a backslash starts an escape that is known.
    if c.toNat < 0x20 || c == '\\' then none
    else (readBody rest).map fun (body, rest) => (c :: body, rest)

/-- At least one digit, and what follows the digits. -/
def readDigits (cs : List Char) : Option (List Char × List Char) :=
  match cs.span Char.isDigit with
  | ([], _) => none
  | found => some found

/-- The whole part of a number: zero alone, or digits that do not start with zero. -/
def readWhole : List Char → Option (List Char × List Char)
  | '0' :: rest => if rest.head?.any Char.isDigit then none else some (['0'], rest)
  | cs => readDigits cs

/-- A fraction, if there is a point. -/
def readFraction : List Char → Option (List Char × List Char)
  | '.' :: rest => (readDigits rest).map fun (digits, rest) => ('.' :: digits, rest)
  | cs => some ([], cs)

/-- An exponent, if there is its letter. -/
def readExponent : List Char → Option (List Char × List Char)
  | [] => some ([], [])
  | c :: rest =>
    if c == 'e' || c == 'E' then
      match rest with
      | s :: rest' =>
        if s == '+' || s == '-' then
          (readDigits rest').map fun (digits, rest) => (c :: s :: digits, rest)
        else (readDigits rest).map fun (digits, rest) => (c :: digits, rest)
      | [] => none
    else some ([], c :: rest)

/-- The spelling of a number at the start of the text, and what follows. -/
def readNumber (cs : List Char) : Option (List Char × List Char) := do
  let (sign, rest) := match cs with
    | '-' :: rest => (['-'], rest)
    | _ => ([], cs)
  let (whole, rest) ← readWhole rest
  let (fraction, rest) ← readFraction rest
  let (exponent, rest) ← readExponent rest
  some (sign ++ whole ++ fraction ++ exponent, rest)

mutual

/-- A value at the start of the text, and what follows. Each step of a value, an array or an
object takes one unit of `fuel`. -/
def readValue (fuel : Nat) (cs : List Char) : Option (Raw × List Char) :=
  match fuel with
  | 0 => none
  | fuel + 1 =>
    match skipSpace cs with
    | 'n' :: 'u' :: 'l' :: 'l' :: rest => some (.null, rest)
    | 't' :: 'r' :: 'u' :: 'e' :: rest => some (.bool true, rest)
    | 'f' :: 'a' :: 'l' :: 's' :: 'e' :: rest => some (.bool false, rest)
    | '"' :: rest => (readBody rest).map fun (body, rest) => (.string body, rest)
    | '[' :: rest =>
      match skipSpace rest with
      | ']' :: rest => some (.array [], rest)
      | rest => (readItems fuel rest).map fun (items, rest) => (.array items, rest)
    | '{' :: rest =>
      match skipSpace rest with
      | '}' :: rest => some (.object [], rest)
      | rest => (readEntries fuel rest).map fun (entries, rest) => (.object entries, rest)
    -- What is none of the above can only be a number.
    | cs => (readNumber cs).map fun (spelling, rest) => (.number spelling, rest)

/-- The items of an array up to its end. -/
def readItems (fuel : Nat) (cs : List Char) : Option (List Raw × List Char) :=
  match fuel with
  | 0 => none
  | fuel + 1 => do
    let (item, rest) ← readValue fuel cs
    match skipSpace rest with
    | ',' :: rest => (readItems fuel rest).map fun (items, rest) => (item :: items, rest)
    | ']' :: rest => some ([item], rest)
    | _ => none

/-- The entries of an object up to its end. -/
def readEntries (fuel : Nat) (cs : List Char) : Option (List (List Char × Raw) × List Char) :=
  match fuel with
  | 0 => none
  | fuel + 1 =>
    match skipSpace cs with
    | '"' :: rest => do
      let (key, rest) ← readBody rest
      match skipSpace rest with
      | ':' :: rest =>
        let (item, rest) ← readValue fuel rest
        match skipSpace rest with
        | ',' :: rest =>
          (readEntries fuel rest).map fun (entries, rest) => ((key, item) :: entries, rest)
        | '}' :: rest => some ([(key, item)], rest)
        | _ => none
      | _ => none
    | _ => none

end

/-- Reads a whole text, which holds one value and no more. Every two units of fuel use up a
character, so the fuel is enough. -/
def Raw.read? (cs : List Char) : Option Raw :=
  match readValue (2 * cs.length + 2) cs with
  | some (value, rest) => if (skipSpace rest).isEmpty then some value else none
  | none => none

/-! ## What a string stands for -/

def hexValue (c : Char) : Nat :=
  if c.isDigit then c.toNat - '0'.toNat else c.toLower.toNat - 'a'.toNat + 10

/-- The number that four hexadecimal digits spell. -/
def hexCode (a b c d : Char) : Nat :=
  ((hexValue a * 16 + hexValue b) * 16 + hexValue c) * 16 + hexValue d

/-- The character that the letter behind a backslash stands for. -/
def escaped : Char → Char
  | 'b' => '\x08'
  | 'f' => '\x0c'
  | 'n' => '\n'
  | 'r' => '\r'
  | 't' => '\t'
  | c => c

/-- The text that a string body stands for. A character beyond the first 65536 may be written as a
pair of surrogates; half a pair stands for nothing. -/
def decode : List Char → Option (List Char)
  | [] => some []
  | '\\' :: 'u' :: a :: b :: c :: d :: rest =>
    let high := hexCode a b c d
    -- The second half of a pair cannot come first.
    if 0xdc00 ≤ high && high ≤ 0xdfff then none
    else if 0xd800 ≤ high && high ≤ 0xdbff then
      match rest with
      | '\\' :: 'u' :: a :: b :: c :: d :: rest =>
        let low := hexCode a b c d
        if 0xdc00 ≤ low && low ≤ 0xdfff then
          (decode rest).map (Char.ofNat (0x10000 + (high - 0xd800) * 0x400 + (low - 0xdc00)) :: ·)
        else none
      | _ => none
    else (decode rest).map (Char.ofNat high :: ·)
  | '\\' :: c :: rest => (decode rest).map (escaped c :: ·)
  | c :: rest => (decode rest).map (c :: ·)

def decodeString (body : List Char) : Option String := (decode body).map .ofList

end Syllabus.Json
