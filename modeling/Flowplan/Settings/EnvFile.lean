import Flowplan.Table
import Flowplan.Text.Basic

/-!
Files of environment variables: a name, an equals sign and a value on each line. Values may be
quoted, hold escapes and line breaks between their quotes, and refer to variables set before.
-/

namespace Flowplan.EnvFile

/-- What a line sets; a name alone has no value. -/
structure Binding where
  name : String
  value : Option String
deriving DecidableEq, Repr

def quote : Char := Char.ofNat 39

/-- A blank that does not end a line. -/
def isGap (c : Char) : Bool := Unicode.isBlank c && c != '\n'

def isNameChar (c : Char) : Bool := c != '=' && c != '#' && !Unicode.isBlank c

/-- What follows the next line break. -/
def afterLine (cs : List Char) : List Char := (cs.dropWhile (· != '\n')).tail

/-- The word `export` may stand in front of a name. -/
def afterExport (cs : List Char) : List Char :=
  let word := "export".toList
  let rest := cs.drop word.length
  if word.isPrefixOf cs && (rest.head?.any isGap) then rest.dropWhile isGap else cs

/-- The name at the start of a line, which a comment does not have. -/
def name? (cs : List Char) : Option (Option String × List Char) :=
  match cs with
  | [] => none
  | c :: rest =>
    if c == '#' then some (none, cs)
    else if c == quote then
      match Text.splitFirst quote rest with
      | some (n :: name, rest) => some (some (String.ofList (n :: name)), rest)
      | _ => none
    else
      match cs.takeWhile isNameChar with
      | [] => none
      | name => some (some (String.ofList name), cs.dropWhile isNameChar)

/-- The characters before the mark that ends a quotation, and those after it. A mark after a
backslash ends it only where no later mark does. -/
def quotation? (mark : Char) : List Char → Option (List Char × List Char)
  | [] => none
  | '\\' :: c :: rest =>
    if c == mark then
      match quotation? mark rest with
      | some (inside, rest) => some ('\\' :: c :: inside, rest)
      | none => some (['\\'], rest)
    else (quotation? mark (c :: rest)).map fun (inside, rest) => ('\\' :: inside, rest)
  | c :: rest =>
    if c == mark then some ([], rest)
    else (quotation? mark rest).map fun (inside, rest) => (c :: inside, rest)

/-- What a character stands for after a backslash in a quotation. -/
def escaped? (mark c : Char) : Option Char :=
  if c == '\\' || c == quote then some c
  else if mark != '"' then none
  else match c with
    | '"' => some '"'
    | 'a' => some (Char.ofNat 7)
    | 'b' => some (Char.ofNat 8)
    | 'f' => some (Char.ofNat 12)
    | 'n' => some '\n'
    | 'r' => some '\r'
    | 't' => some '\t'
    | 'v' => some (Char.ofNat 11)
    | _ => none

def unescape (mark : Char) : List Char → List Char
  | [] => []
  | '\\' :: c :: rest => match escaped? mark c with
    | some d => d :: unescape mark rest
    | none => '\\' :: unescape mark (c :: rest)
  | c :: rest => c :: unescape mark rest

/-- A blank and a hash start a comment. -/
def beforeComment : List Char → List Char
  | [] => []
  | c :: rest =>
    if Unicode.isBlank c && (rest.dropWhile Unicode.isBlank).head? == some '#' then []
    else c :: beforeComment rest

/-- The value after an equals sign and what follows it, unless a quotation is not closed. -/
def value? (cs : List Char) : Option (String × List Char) :=
  match cs with
  | [] => some ("", [])
  | c :: rest =>
    if c == quote || c == '"' then
      (quotation? c rest).map fun (inside, rest) => (String.ofList (unescape c inside), rest)
    else
      let line := cs.takeWhile (· != '\n')
      some (String.ofList (Text.trimmed Unicode.isBlank (beforeComment line)),
        cs.dropWhile (· != '\n'))

def afterComment (cs : List Char) : List Char :=
  let rest := cs.dropWhile isGap
  if rest.head? == some '#' then rest.dropWhile (· != '\n') else cs

/-- The binding, if the line holds nothing more than a comment after it. -/
def ending (b : Option Binding) (cs : List Char) : Option Binding × List Char :=
  let rest := afterComment cs
  match rest.dropWhile isGap with
  | [] => (b, [])
  | '\n' :: rest => (b, rest)
  | _ => (none, afterLine rest)

def bindingOf (name : Option String) (value : Option String) : Option Binding :=
  name.map (Binding.mk · value)

/-- The binding of the next line that is not blank, and what follows that line; a line of another
form has none. -/
def statement (cs : List Char) : Option Binding × List Char :=
  let cs := afterExport (cs.dropWhile Unicode.isBlank)
  match name? cs with
  | none => (none, afterLine cs)
  | some (name, cs) =>
    match cs.dropWhile isGap with
    | '=' :: cs =>
      let cs := cs.dropWhile isGap
      match value? cs with
      | none => (none, afterLine cs)
      | some (value, cs) => ending (bindingOf name (some value)) cs
    | cs => ending (bindingOf name none) cs

def bindings (cs : List Char) : List Binding :=
  if cs.isEmpty then []
  else
    let s := statement cs
    if _h : s.2.length < cs.length then s.1.toList ++ bindings s.2 else s.1.toList
termination_by cs.length

/-- A reference to a variable at the start of the characters, with the value for when it is not
set, and what follows it. -/
def reference? : List Char → Option (List Char × List Char × List Char)
  | '$' :: '{' :: cs =>
    let name := cs.takeWhile fun c => c != '}' && c != ':'
    match cs.dropWhile fun c => c != '}' && c != ':' with
    | '}' :: rest => some (name, [], rest)
    | ':' :: '-' :: cs => match cs.dropWhile (· != '}') with
      | '}' :: rest => some (name, cs.takeWhile (· != '}'), rest)
      | _ => none
    | _ => none
  | _ => none

theorem length_reference? {cs name other rest : List Char}
    (h : reference? cs = some (name, other, rest)) : rest.length < cs.length := by
  unfold reference? at h
  split at h
  · rename_i tail
    have hl : (tail.dropWhile fun c => c != '}' && c != ':').length ≤ tail.length :=
      (List.dropWhile_sublist _).length_le
    split at h
    · rename_i hd
      simp only [Option.some.injEq, Prod.mk.injEq] at h
      obtain ⟨-, -, rfl⟩ := h
      rw [hd] at hl
      simp only [List.length_cons] at hl ⊢
      omega
    · rename_i inner hd
      have hi : (inner.dropWhile (· != '}')).length ≤ inner.length :=
        (List.dropWhile_sublist _).length_le
      rw [hd] at hl
      split at h
      · rename_i he
        simp only [Option.some.injEq, Prod.mk.injEq] at h
        obtain ⟨-, -, rfl⟩ := h
        rw [he] at hi
        simp only [List.length_cons] at hl hi ⊢
        omega
      · simp at h
    · simp at h
  · simp at h

/-- Variables with their values; one that is named without a value has none. -/
abbrev Variables := Table String (Option String)

def lookUp (known : Variables) (name other : List Char) : List Char :=
  match Table.get? known (String.ofList name) with
  | some value => (value.getD "").toList
  | none => other

/-- A value with the values of variables in the place of references to them. -/
def expand (known : Variables) (cs : List Char) : List Char :=
  match _h : reference? cs with
  | some (name, other, rest) => lookUp known name other ++ expand known rest
  | none => match cs with
    | [] => []
    | c :: rest => c :: expand known rest
termination_by cs.length
decreasing_by
  · exact length_reference? _h
  · simp

/-- One more variable; its value may refer to those of the file and of the environment. -/
def add (environment file : Variables) (b : Binding) : Variables :=
  Table.set file b.name (b.value.map fun v =>
    String.ofList (expand (Table.merge environment file) v.toList))

/-- The variables that a file sets. -/
def read (environment : Variables) (text : String) : Variables :=
  (bindings (Text.plainBreaks text.toList)).foldl (add environment) []

end Flowplan.EnvFile
