/-!
# Syllabus: digests of files

The SHA-256 digest of a sequence of bytes, written in hexadecimal digits. The bytes are filled up
to blocks of 64, each block is spread out to 64 words, and every word turns the state of eight
words one step further.
-/

namespace Syllabus.Digest

/-- The words that are added in the 64 steps: the first 32 bits behind the point of the cube roots
of the first 64 primes. -/
def roundWords : List UInt32 := [
  0x428a2f98, 0x71374491, 0xb5c0fbcf, 0xe9b5dba5, 0x3956c25b, 0x59f111f1, 0x923f82a4, 0xab1c5ed5,
  0xd807aa98, 0x12835b01, 0x243185be, 0x550c7dc3, 0x72be5d74, 0x80deb1fe, 0x9bdc06a7, 0xc19bf174,
  0xe49b69c1, 0xefbe4786, 0x0fc19dc6, 0x240ca1cc, 0x2de92c6f, 0x4a7484aa, 0x5cb0a9dc, 0x76f988da,
  0x983e5152, 0xa831c66d, 0xb00327c8, 0xbf597fc7, 0xc6e00bf3, 0xd5a79147, 0x06ca6351, 0x14292967,
  0x27b70a85, 0x2e1b2138, 0x4d2c6dfc, 0x53380d13, 0x650a7354, 0x766a0abb, 0x81c2c92e, 0x92722c85,
  0xa2bfe8a1, 0xa81a664b, 0xc24b8b70, 0xc76c51a3, 0xd192e819, 0xd6990624, 0xf40e3585, 0x106aa070,
  0x19a4c116, 0x1e376c08, 0x2748774c, 0x34b0bcb5, 0x391c0cb3, 0x4ed8aa4a, 0x5b9cca4f, 0x682e6ff3,
  0x748f82ee, 0x78a5636f, 0x84c87814, 0x8cc70208, 0x90befffa, 0xa4506ceb, 0xbef9a3f7, 0xc67178f2]

/-- The eight words of a state. -/
structure State where
  a : UInt32
  b : UInt32
  c : UInt32
  d : UInt32
  e : UInt32
  f : UInt32
  g : UInt32
  h : UInt32
deriving DecidableEq

/-- The state before the first block: the first 32 bits behind the point of the square roots of
the first eight primes. -/
def State.initial : State :=
  ⟨0x6a09e667, 0xbb67ae85, 0x3c6ef372, 0xa54ff53a, 0x510e527f, 0x9b05688c, 0x1f83d9ab, 0x5be0cd19⟩

/-- Turns a word to the right. -/
def rotate (w n : UInt32) : UInt32 := (w >>> n) ||| (w <<< (32 - n))

/-- Sixteen words, and each further one from those 2, 7, 15 and 16 places before it. The words are
given and made last word first. -/
def extend : Nat → List UInt32 → List UInt32
  | 0, words => words
  | n + 1, words =>
    -- The head of the list is one place back, so a place `n` back stands at `n - 1`.
    let two := words.getD 1 0
    let fifteen := words.getD 14 0
    let s0 := rotate fifteen 7 ^^^ rotate fifteen 18 ^^^ (fifteen >>> 3)
    let s1 := rotate two 17 ^^^ rotate two 19 ^^^ (two >>> 10)
    extend n ((words.getD 15 0 + s0 + words.getD 6 0 + s1) :: words)

/-- One step with the word of the block and the word of the round. -/
def State.step (s : State) (word round : UInt32) : State :=
  let s1 := rotate s.e 6 ^^^ rotate s.e 11 ^^^ rotate s.e 25
  let choice := (s.e &&& s.f) ^^^ (~~~s.e &&& s.g)
  let t1 := s.h + s1 + choice + round + word
  let s0 := rotate s.a 2 ^^^ rotate s.a 13 ^^^ rotate s.a 22
  let majority := (s.a &&& s.b) ^^^ (s.a &&& s.c) ^^^ (s.b &&& s.c)
  -- All words move on by one place; the first and the fifth are new.
  ⟨t1 + (s0 + majority), s.a, s.b, s.c, s.d + t1, s.e, s.f, s.g⟩

def State.add (s t : State) : State :=
  ⟨s.a + t.a, s.b + t.b, s.c + t.c, s.d + t.d, s.e + t.e, s.f + t.f, s.g + t.g, s.h + t.h⟩

/-- Bytes as words, most significant byte first. -/
def wordsOf : List UInt8 → List UInt32
  | a :: b :: c :: d :: rest =>
    ((a.toUInt32 <<< 24) ||| (b.toUInt32 <<< 16) ||| (c.toUInt32 <<< 8) ||| d.toUInt32)
      :: wordsOf rest
  | _ => []

def State.addBlock (s : State) (block : List UInt32) : State :=
  let words := (extend 48 block.reverse).reverse
  s.add ((words.zip roundWords).foldl (fun s (word, round) => s.step word round) s)

/-- The state after all words, sixteen at a time. -/
def State.addWords (s : State) : Nat → List UInt32 → State
  -- Of padded bytes no words are left over here.
  | 0, _ => s
  | blocks + 1, words => (s.addBlock (words.take 16)).addWords blocks (words.drop 16)

/-- A number as bytes, most significant byte first. -/
def bytesOf (count n : Nat) : List UInt8 :=
  ((List.range count).map fun place => UInt8.ofNat (n / Nat.pow 256 place)).reverse

/-- The bytes followed by one bit, zeros, and their length in bits, to whole blocks. -/
def pad (bytes : List UInt8) : List UInt8 :=
  let length := bytes.length
  -- One byte and eight bytes of length are added, and zeros up to the next multiple of 64.
  bytes ++ 0x80 :: List.replicate ((119 - length % 64) % 64) 0 ++ bytesOf 8 (8 * length)

def hex (w : UInt32) : List Char :=
  let digits := Nat.toDigits 16 w.toNat
  List.replicate (8 - digits.length) '0' ++ digits

def ofBytes (bytes : ByteArray) : String :=
  let padded := pad bytes.toList
  let s := State.initial.addWords (padded.length / 64) (wordsOf padded)
  .ofList ([s.a, s.b, s.c, s.d, s.e, s.f, s.g, s.h].flatMap hex)

def ofText (text : String) : String := ofBytes text.toUTF8

end Syllabus.Digest
