namespace Flowplan.Digest

/-- The five words that a digest is made of. -/
structure Sha1State where
  a : UInt32
  b : UInt32
  c : UInt32
  d : UInt32
  e : UInt32
deriving DecidableEq, Repr

namespace Sha1State

def initial : Sha1State := ⟨0x67452301, 0xEFCDAB89, 0x98BADCFE, 0x10325476, 0xC3D2E1F0⟩

def add (s t : Sha1State) : Sha1State := ⟨s.a + t.a, s.b + t.b, s.c + t.c, s.d + t.d, s.e + t.e⟩

def words (s : Sha1State) : List UInt32 := [s.a, s.b, s.c, s.d, s.e]

end Sha1State

def rotateLeft (x : UInt32) (n : UInt32) : UInt32 := (x <<< n) ||| (x >>> (32 - n))

/-- The function and constant of a round. -/
def roundOf (t : Nat) (b c d : UInt32) : UInt32 × UInt32 :=
  if t < 20 then ((b &&& c) ||| (b.complement &&& d), 0x5A827999)
  else if t < 40 then (b ^^^ c ^^^ d, 0x6ED9EBA1)
  else if t < 60 then ((b &&& c) ||| (b &&& d) ||| (c &&& d), 0x8F1BBCDC)
  else (b ^^^ c ^^^ d, 0xCA62C1D6)

def round (s : Sha1State) (t : Nat) (word : UInt32) : Sha1State :=
  let (f, k) := roundOf t s.b s.c s.d
  ⟨rotateLeft s.a 5 + f + s.e + k + word, s.a, rotateLeft s.b 30, s.c, s.d⟩

/-- One more word from the last sixteen, the latest first. -/
def nextWord (latest : List UInt32) : UInt32 :=
  rotateLeft ((latest.getD 2 0) ^^^ (latest.getD 7 0) ^^^ (latest.getD 13 0) ^^^
    (latest.getD 15 0)) 1

/-- So many further words, the latest first. -/
def extend : Nat → List UInt32 → List UInt32
  | 0, latest => latest
  | n + 1, latest => extend n (nextWord latest :: latest)

def rounds (s : Sha1State) (t : Nat) : List UInt32 → Sha1State
  | [] => s
  | w :: rest => rounds (round s t w) (t + 1) rest

def block (s : Sha1State) (words : List UInt32) : Sha1State :=
  s.add (rounds s 0 (extend 64 words.reverse).reverse)

def wordOf (a b c d : UInt8) : UInt32 :=
  (a.toUInt32 <<< 24) ||| (b.toUInt32 <<< 16) ||| (c.toUInt32 <<< 8) ||| d.toUInt32

def wordsOf : List UInt8 → List UInt32
  | a :: b :: c :: d :: rest => wordOf a b c d :: wordsOf rest
  | _ => []

def bytesOf (w : UInt32) : List UInt8 :=
  [(w >>> 24).toUInt8, (w >>> 16).toUInt8, (w >>> 8).toUInt8, w.toUInt8]

/-- The bytes of a count, so many of them, the highest first. -/
def bigEndian (width n : Nat) : List UInt8 :=
  (List.range width).reverse.map fun i => UInt8.ofNat (n / Nat.pow 256 i % 256)

/-- The message with a one bit, zeros and its length in bits, in whole blocks of 64 bytes. -/
def padded (message : List UInt8) : List UInt8 :=
  let zeros := (64 - (message.length + 9) % 64) % 64
  message ++ [0x80] ++ List.replicate zeros 0 ++ bigEndian 8 (8 * message.length)

def blocks : Nat → List UInt32 → List (List UInt32)
  | 0, _ => []
  | n + 1, words => words.take 16 :: blocks n (words.drop 16)

/-- The twenty bytes of a message's digest. -/
def sha1 (message : List UInt8) : List UInt8 :=
  let words := wordsOf (padded message)
  ((blocks (words.length / 16) words).foldl block .initial).words.flatMap bytesOf

end Flowplan.Digest
