import Flowplan.Json.Reader
import Flowplan.Proofs.ReaderDigits
import Mathlib.Data.Nat.Log

/-!
How the reader takes a number apart: its whole part, a fraction and an exponent, up to a character
that can belong to none of them.
-/

namespace Flowplan.Json.Reader
set_option autoImplicit true

open Decimal (Binary64 tenTo)

/-- Characters, if any, that do not go on with a number. -/
def Stops (cs : List Char) : Prop :=
  ∀ c ∈ cs.head?, c.isDigit = false ∧ c ≠ '.' ∧ c ≠ 'e' ∧ c ≠ 'E'

theorem Stops.nil : Stops [] := fun _ h => nomatch h

theorem forall_head?_cons {p : Char → Prop} (h : p c) : ∀ d ∈ (c :: cs).head?, p d := by
  intro d hd
  obtain rfl : c = d := Option.some.inj hd
  exact h

theorem Stops.cons (h : c.isDigit = false ∧ c ≠ '.' ∧ c ≠ 'e' ∧ c ≠ 'E') : Stops (c :: cs) :=
  forall_head?_cons h

/-- One or more digits. -/
structure IsDigits (ds : List Char) : Prop where
  nonempty : ds ≠ []
  digits : ∀ c ∈ ds, c.isDigit = true

theorem digitsValue_eq (ds : List Char) : digitsValue ds = Nat.ofDigitChars 10 ds 0 := by
  simp only [digitsValue, Nat.ofDigitChars, Nat.mul_comm _ 10]
  rfl

theorem digitsValue_toDigits (n : Nat) : digitsValue (Nat.toDigits 10 n) = n := by
  rw [digitsValue_eq, Nat.ofDigitChars_ten_toDigits]

theorem digitsValue_append_zeros (ds : List Char) (k : Nat) :
    digitsValue (ds ++ List.replicate k '0') = digitsValue ds * tenTo k := by
  rw [digitsValue_eq, digitsValue_eq, Nat.ofDigitChars_append, Nat.ofDigitChars_replicate_zero,
    Nat.mul_comm]
  rfl

theorem digitsValue_zeros_append (k : Nat) (ds : List Char) :
    digitsValue (List.replicate k '0' ++ ds) = digitsValue ds := by
  rw [digitsValue_eq, digitsValue_eq, Nat.ofDigitChars_append, Nat.ofDigitChars_replicate_zero,
    Nat.mul_zero]

theorem isDigits_toDigits (n : Nat) : IsDigits (Nat.toDigits 10 n) where
  nonempty := Nat.toDigits_ne_nil
  digits _ h := Nat.isDigit_of_mem_toDigits (by decide) (by decide) h

theorem takeWhile_digits (h : IsDigits ds) (hrest : ∀ c ∈ rest.head?, c.isDigit = false) :
    (ds ++ rest).takeWhile Char.isDigit = ds := by
  rw [List.takeWhile_append_of_pos h.digits]
  cases rest with
  | nil => rw [List.takeWhile_nil, List.append_nil]
  | cons c cs => rw [List.takeWhile_cons_of_neg (by simp [hrest c rfl]), List.append_nil]

theorem dropWhile_digits (h : IsDigits ds) (hrest : ∀ c ∈ rest.head?, c.isDigit = false) :
    (ds ++ rest).dropWhile Char.isDigit = rest := by
  rw [List.dropWhile_append_of_pos h.digits]
  cases rest with
  | nil => rfl
  | cons c cs => rw [List.dropWhile_cons_of_neg (by simp [hrest c rfl])]

theorem fraction_point (h : IsDigits ds) (hrest : ∀ c ∈ rest.head?, c.isDigit = false) :
    fraction ('.' :: (ds ++ rest)) = (ds, rest) := by
  rw [fraction, takeWhile_digits h hrest, dropWhile_digits h hrest]
  split
  · exact absurd rfl h.nonempty
  · rfl

theorem fraction_none (h : ∀ c ∈ rest.head?, c ≠ '.') : fraction rest = ([], rest) := by
  unfold fraction
  split
  · exact absurd rfl (h '.' rfl)
  · rfl

theorem exponent_none (h : ∀ c ∈ rest.head?, c ≠ 'e' ∧ c ≠ 'E') :
    exponent rest = (none, rest) := by
  cases rest with
  | nil => rfl
  | cons c cs =>
    obtain ⟨he, hE⟩ := h c rfl
    have hmark : ¬ (c == 'e' || c == 'E') = true := by simp [he, hE]
    exact if_neg hmark

/-- The exponent after its sign. -/
def signedExponent (negative : Bool) (start digits : List Char) : Option Int × List Char :=
  match digits.takeWhile Char.isDigit with
  | [] => (none, start)
  | ds => (some (if negative then -(digitsValue ds : Int) else digitsValue ds),
      digits.dropWhile Char.isDigit)

theorem exponent_minus (cs : List Char) :
    exponent ('e' :: '-' :: cs) = signedExponent true ('e' :: '-' :: cs) cs := rfl

theorem exponent_plus (cs : List Char) :
    exponent ('e' :: '+' :: cs) = signedExponent false ('e' :: '+' :: cs) cs := rfl

theorem signedExponent_digits (negative : Bool) (start : List Char) (h : IsDigits ds)
    (hrest : ∀ c ∈ rest.head?, c.isDigit = false) :
    signedExponent negative start (ds ++ rest) =
      (some (if negative then -(digitsValue ds : Int) else digitsValue ds), rest) := by
  rw [signedExponent, takeWhile_digits h hrest, dropWhile_digits h hrest]
  split
  · exact absurd rfl h.nonempty
  · rfl

/-- The whole part of a number: digits without a zero in front, or a zero by itself. -/
structure IsWhole (ds : List Char) : Prop extends IsDigits ds where
  leading : ds.head? = some '0' → ds = ['0']

theorem number?_of_whole (negative : Bool) (h : IsWhole ds)
    (hrest : ∀ c ∈ rest.head?, c.isDigit = false) :
    number? negative (ds ++ rest) = some (numberTail negative ds rest) := by
  cases ds with
  | nil => exact absurd rfl h.nonempty
  | cons d more =>
    by_cases hzero : d = '0'
    · subst hzero
      obtain rfl : more = [] := (List.cons.inj (h.leading rfl)).2
      rfl
    · have htake := takeWhile_digits h.toIsDigits hrest
      have hdrop := dropWhile_digits h.toIsDigits hrest
      unfold number?
      split
      · rename_i heq
        exact absurd (List.cons.inj heq).1 hzero
      · rw [htake, hdrop]

theorem numberTail_integer (negative : Bool) (hrest : Stops rest) (h : ds.length ≤ maxDigits) :
    numberTail negative ds rest =
      .ok (.int (if negative then -(digitsValue ds : Int) else digitsValue ds), rest) := by
  have hfraction := fraction_none fun c hc => (hrest c hc).2.1
  have hexponent := exponent_none fun c hc => (hrest c hc).2.2
  simp only [numberTail, hfraction, hexponent]
  exact (if_pos rfl).trans (if_neg (Nat.not_lt.2 h))

theorem numberTail_point (negative : Bool) (hds : IsDigits ds) (hrest : Stops rest) :
    numberTail negative whole ('.' :: (ds ++ rest)) =
      .ok (.real (.ofDecimal negative (digitsValue (whole ++ ds)) (-ds.length)), rest) := by
  have hfraction := fraction_point hds fun c hc => (hrest c hc).1
  have hexponent := exponent_none fun c hc => (hrest c hc).2.2
  simp only [numberTail, hfraction, hexponent]
  rw [if_neg (by simp [hds.nonempty])]
  simp

/-- A number with an exponent, and a fraction before that or none. -/
theorem numberTail_exponent (negative : Bool)
    (hfraction : fraction cs = (ds, mark)) (hexponent : exponent mark = (some power, rest)) :
    numberTail negative whole cs =
      .ok (.real (.ofDecimal negative (digitsValue (whole ++ ds)) (power - ds.length)), rest) := by
  simp only [numberTail, hfraction, hexponent]
  rw [if_neg (by simp)]
  rfl

end Flowplan.Json.Reader
