import Flowplan.Unicode.Blank

namespace Flowplan.Text

def startsWith (s head : String) : Bool := head.toList.isPrefixOf s.toList

def endsWith (s tail : String) : Bool := tail.toList.isSuffixOf s.toList

/-- The rest of a text after a head that it starts with. -/
def after? (head s : String) : Option String :=
  if startsWith s head then some (String.ofList (s.toList.drop head.toList.length)) else none

def trimmed (drop : Char → Bool) (cs : List Char) : List Char :=
  ((cs.dropWhile drop).reverse.dropWhile drop).reverse

/-- A text without blanks at its ends. -/
def trim (s : String) : String := String.ofList (trimmed Unicode.isBlank s.toList)

def take (n : Nat) (s : String) : String := String.ofList (s.toList.take n)

/-- The first characters of a text; a negative count leaves out that many at the end. -/
def cut (n : Int) (s : String) : String :=
  let cs := s.toList
  String.ofList (cs.take (if n < 0 then (cs.length + n).toNat else n.toNat))

/-- The pieces between the occurrences of a character. -/
def pieces (sep : Char) (cs : List Char) : List (List Char) :=
  cs.foldr step [[]]
where
  step (c : Char) : List (List Char) → List (List Char)
    | [] => [[c]]
    | p :: ps => if c == sep then [] :: p :: ps else (c :: p) :: ps

/-- The text before the last occurrence of a character, if it occurs, and the text after it. -/
def splitLast (sep : Char) (cs : List Char) : Option (List Char × List Char) :=
  let back := cs.reverse
  match back.dropWhile (· != sep) with
  | [] => none
  | _ :: before => some (before.reverse, (back.takeWhile (· != sep)).reverse)

/-- The text before the first occurrence of a character, if it occurs, and the text after it. -/
def splitFirst (sep : Char) (cs : List Char) : Option (List Char × List Char) :=
  match cs.dropWhile (· != sep) with
  | [] => none
  | _ :: rest => some (cs.takeWhile (· != sep), rest)

def replicate (n : Nat) (c : Char) : String := String.ofList (List.replicate n c)

/-- Zeros before a number, after its sign, up to a width that counts the sign. -/
def zeroPadded (width : Nat) (n : Int) : String :=
  let digits := toString n.natAbs
  if n < 0 then "-" ++ replicate (width - 1 - digits.length) '0' ++ digits
  else replicate (width - digits.length) '0' ++ digits

def hexDigits (width n : Nat) : String :=
  let digits := String.ofList (Nat.toDigits 16 n)
  replicate (width - digits.length) '0' ++ digits

/-- A text in which each line break is a line feed. -/
def plainBreaks : List Char → List Char
  | '\r' :: '\n' :: rest => '\n' :: plainBreaks rest
  | '\r' :: rest => '\n' :: plainBreaks rest
  | c :: rest => c :: plainBreaks rest
  | [] => []

theorem splitFirst_eq_none {sep : Char} {cs : List Char} :
    splitFirst sep cs = none ↔ sep ∉ cs := by
  unfold splitFirst
  induction cs with
  | nil => simp
  | cons c cs ih =>
    by_cases h : c = sep
    · subst h; simp
    · have : (c != sep) = true := by simpa using h
      simp only [List.dropWhile_cons, this, if_true, List.mem_cons, not_or]
      constructor
      · intro hn
        refine ⟨fun e => h e.symm, ?_⟩
        apply ih.1
        split at hn <;> simp_all
      · rintro ⟨-, hn⟩
        have := ih.2 hn
        split at this <;> simp_all

end Flowplan.Text
