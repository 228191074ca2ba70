import Flowplan.Json.Basic
import Flowplan.Text.Basic

namespace Flowplan.Template

open Flowplan.Json

def opening : String := "\x7b\x7b "

def closing : String := " \x7d\x7d"

/-- The expression for a path into the incoming data. -/
def data (path : String) : String := opening ++ "$json." ++ path ++ closing

/-- The expression for a secret. -/
def secret (name : String) : String := opening ++ "$vars." ++ name ++ closing

def secretMark : String := "secrets."

def expression (reference : String) : String :=
  let reference := Text.trim reference
  match Text.after? secretMark reference with
  | some name => secret name
  | none => data reference

/-- The reference of a placeholder at the start of the characters, and what follows it: two opening
braces, at least one character that is no closing brace, two closing braces. -/
def placeholder? : List Char → Option (List Char × List Char)
  | '{' :: '{' :: cs =>
    match cs.dropWhile (· != '}') with
    | '}' :: '}' :: rest =>
      match cs.takeWhile (· != '}') with
      | [] => none
      | reference => some (reference, rest)
    | _ => none
  | _ => none

theorem length_placeholder? {cs reference rest : List Char}
    (h : placeholder? cs = some (reference, rest)) : rest.length < cs.length := by
  unfold placeholder? at h
  split at h
  · rename_i tail
    have hl : (tail.dropWhile (· != '}')).length ≤ tail.length :=
      (List.dropWhile_sublist _).length_le
    split at h
    · rename_i hd
      rw [hd] at hl
      split at h
      · simp at h
      · simp only [Option.some.injEq, Prod.mk.injEq] at h
        obtain ⟨-, rfl⟩ := h
        simp only [List.length_cons] at hl ⊢
        omega
    · simp at h
  · simp at h

/-- A text as runs of characters and the references between them. -/
inductive Piece where
  | plain (c : Char)
  | placeholder (reference : List Char)
deriving DecidableEq, Repr

/-- The placeholders of a text from the left, none overlapping another, and its other characters. -/
def scan (cs : List Char) : List Piece :=
  match _h : placeholder? cs with
  | some (reference, rest) => .placeholder reference :: scan rest
  | none => match cs with
    | [] => []
    | c :: rest => .plain c :: scan rest
termination_by cs.length
decreasing_by
  · exact length_placeholder? _h
  · simp

def Piece.compile : Piece → List Char
  | .plain c => [c]
  | .placeholder reference => (expression (String.ofList reference)).toList

/-- A text with an expression in the place of each placeholder. -/
def compile (text : String) : String :=
  String.ofList ((scan text.toList).flatMap Piece.compile)

mutual

/-- A value with every string in it compiled; keys and other values stay. -/
def compileValue : Json → Json
  | .str s => .str (compile s)
  | .arr vs => .arr (compileItems vs)
  | .obj ms => .obj (compileMembers ms)
  | v => v

def compileItems : List Json → List Json
  | [] => []
  | v :: rest => compileValue v :: compileItems rest

def compileMembers : List (String × Json) → List (String × Json)
  | [] => []
  | (k, v) :: rest => (k, compileValue v) :: compileMembers rest

end

end Flowplan.Template
