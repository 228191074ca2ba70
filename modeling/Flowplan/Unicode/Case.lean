import Flowplan.Unicode.CaseTable

namespace Flowplan.Unicode

private def mapped (runs : List CaseRun) (n : Nat) : Nat :=
  (runs.findSome? (·.image? n)).getD n

def upperChar (c : Char) : List Char :=
  if c.toNat < 0x80 then [c.toUpper]
  else match longUpper.lookup c.toNat with
    | some l => l.map Char.ofNat
    | none => [Char.ofNat (mapped upperRuns c.toNat)]

/-- Lower case without regard to context. -/
def lowerChar (c : Char) : List Char :=
  if c.toNat < 0x80 then [c.toLower]
  else if c.toNat == 0x130 then ['i', Char.ofNat 0x307]
  else [Char.ofNat (mapped lowerRuns c.toNat)]

def isCasedLetter (c : Char) : Bool :=
  if c.toNat < 0x80 then c.isAlpha else casedLetters.contains c.toNat

def isCaseIgnorable (c : Char) : Bool :=
  if c.toNat < 0x80 then [0x27, 0x2E, 0x3A, 0x5E, 0x60].contains c.toNat
  else caseIgnorable.contains c.toNat

/-- The next character that case context does not look through is a cased letter. -/
def meetsCased (cs : List Char) : Bool :=
  match cs.dropWhile isCaseIgnorable with
  | c :: _ => isCasedLetter c
  | [] => false

/-- A capital sigma that ends a word has its own lower case. -/
def lowerIn (before : List Char) (c : Char) (after : List Char) : List Char :=
  if c.toNat == 0x3A3 then
    if meetsCased before && !meetsCased after then [Char.ofNat 0x3C2] else [Char.ofNat 0x3C3]
  else lowerChar c

def lowerChars : (before : List Char) → (acc : List Char) → List Char → List Char
  | _, acc, [] => acc.reverse
  | before, acc, c :: after =>
    lowerChars (c :: before) ((lowerIn before c after).reverse ++ acc) after

def upper (s : String) : String :=
  String.ofList (s.toList.flatMap upperChar)

def lower (s : String) : String :=
  String.ofList (lowerChars [] [] s.toList)

end Flowplan.Unicode
