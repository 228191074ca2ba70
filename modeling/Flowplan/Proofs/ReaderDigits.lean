import Flowplan.Json.Encoding
import Flowplan.Proofs.ExceptLaws

namespace Flowplan
set_option autoImplicit true

open Flowplan.Json

namespace Json

/-- So many digits one after the other among the characters. -/
def HasDigitRun (n : Nat) (cs : List Char) : Prop :=
  ∃ ds, ds <:+: cs ∧ ds.length = n ∧ ∀ c ∈ ds, c.isDigit = true

theorem HasDigitRun.mono (h : HasDigitRun n cs) (hs : cs <:+ cs') : HasDigitRun n cs' := by
  obtain ⟨ds, hds, hlen, hdigits⟩ := h
  exact ⟨ds, hds.trans hs.isInfix, hlen, hdigits⟩

namespace Reader

variable {α β : Type}

/-- What a reader leaves is the end of its characters, and where it refuses an integer for its
digits, more digits than are allowed stand there one after the other. -/
def Tracks (cs : List Char) : Result α → Prop
  | .ok (_, rest) => rest <:+ cs
  | .error (.hugeInteger n) => maxDigits < n ∧ HasDigitRun n cs
  | .error (.fault _ _) => True
  | .error .tooDeep => True

namespace Tracks

theorem mono {r : Result α} (h : Tracks cs r) (hs : cs <:+ cs') : Tracks cs' r := by
  cases r with
  | ok found => exact List.IsSuffix.trans h hs
  | error e =>
    cases e with
    | hugeInteger n => exact ⟨h.1, h.2.mono hs⟩
    | _ => trivial

/-- A refusal is passed on, whatever was to be read. -/
theorem error {e : Refusal} (h : Tracks cs (.error e : Result α)) :
    Tracks cs (.error e : Result β) := by
  cases e with
  | hugeInteger n => exact h
  | _ => trivial

end Tracks

theorem stringBody_tracks (start : List Char) (acc : List Nat) (cs : List Char) :
    Tracks cs (stringBody start acc cs) := by
  fun_induction stringBody start acc cs with
  | case3 acc a b c d e rest n hn ih => exact ih.mono (List.suffix_append ['\\', 'u', a, b, c, d] _)
  | case6 acc c rest hc hu n hn ih => exact ih.mono (List.suffix_append ['\\', c] _)
  | case8 acc c rest => exact List.suffix_cons c rest
  | case10 acc c rest h₁ h₂ h₃ hq hn ih => exact ih.mono (List.suffix_cons c rest)
  | _ => trivial

theorem text_tracks (start rest : List Char) : Tracks rest (text start rest) := by
  have hbody := stringBody_tracks start [] rest
  rw [text]
  split
  · rename_i h
    rw [h] at hbody
    exact hbody.error
  · rename_i h
    rw [h] at hbody
    exact hbody

theorem fraction_suffix (cs : List Char) : (fraction cs).2 <:+ cs := by
  unfold fraction
  split
  · split
    · exact List.suffix_refl _
    · exact (List.dropWhile_suffix _).trans (List.suffix_cons _ _)
  · exact List.suffix_refl _

theorem exponent_suffix (cs : List Char) : (exponent cs).2 <:+ cs := by
  unfold exponent
  split
  · rename_i e rest
    split
    · dsimp only
      split
      · exact List.suffix_refl _
      · apply (List.dropWhile_suffix _).trans
        -- A sign before the digits is left out.
        split
        · exact List.suffix_append [e, '-'] _
        · exact List.suffix_append [e, '+'] _
        · exact List.suffix_cons e rest
    · exact List.suffix_refl _
  · exact List.suffix_refl _

/-- An integer is refused for the digits of its whole part. -/
theorem numberTail_tracks (negative : Bool) (rest : List Char)
    (h : ∀ c ∈ whole, c.isDigit = true) :
    Tracks (whole ++ rest) (numberTail negative whole rest) := by
  have hrest : (exponent (fraction rest).2).2 <:+ whole ++ rest :=
    (exponent_suffix _).trans ((fraction_suffix rest).trans (List.suffix_append whole rest))
  simp only [numberTail]
  split
  · split
    · rename_i hmany
      exact ⟨hmany, whole, (List.prefix_append whole rest).isInfix, rfl, h⟩
    · exact hrest
  · exact hrest

theorem number?_tracks (h : number? negative cs = some r) : Tracks cs r := by
  unfold number? at h
  split at h
  · rename_i rest
    obtain rfl := Option.some.inj h
    exact numberTail_tracks negative rest (by simp)
  · split at h
    · simp at h
    · obtain rfl := Option.some.inj h
      have hdigits : ∀ c ∈ cs.takeWhile Char.isDigit, c.isDigit = true :=
        List.all_eq_true.1 List.all_takeWhile
      have htake := numberTail_tracks negative (cs.dropWhile Char.isDigit) hdigits
      rwa [List.takeWhile_append_dropWhile] at htake

theorem constant?_suffix (h : constant? cs = some (v, rest)) : rest <:+ cs := by
  obtain ⟨⟨word, w⟩, -, hfound⟩ := List.exists_of_findSome?_eq_some h
  dsimp only at hfound
  split at hfound
  · obtain ⟨rfl, rfl⟩ := Prod.mk.inj (Option.some.inj hfound)
    exact List.drop_suffix _ _
  · simp at hfound

theorem scalar_tracks (cs : List Char) : Tracks cs (scalar cs) := by
  unfold scalar
  split
  · rename_i r h
    exact constant?_suffix h
  · dsimp only
    have hnumber (negative : Bool) (digits : List Char) (hd : digits <:+ cs) :
        Tracks cs ((number? negative digits).getD (.error (.fault .missingValue cs))) := by
      cases h : number? negative digits with
      | none => trivial
      | some r => exact (number?_tracks h).mono hd
    split
    · exact hnumber true _ (List.suffix_cons '-' _)
    · exact hnumber false _ (List.suffix_refl _)

theorem skip_suffix (cs : List Char) : skip cs <:+ cs := List.dropWhile_suffix _

theorem suffix_of_skip (hs : rest <:+ cs) (h : skip rest = c :: more) : more <:+ cs :=
  (List.suffix_cons c more).trans (h ▸ (skip_suffix rest).trans hs)

mutual

/-- The fuel carries the induction: every part is read with one less. -/
theorem value_tracks (fuel room : Nat) (cs : List Char) : Tracks cs (value fuel room cs) := by
  match fuel with
  | 0 => trivial
  | fuel + 1 =>
    unfold value
    split
    · rename_i rest
      have htext := text_tracks ('"' :: rest) rest
      split
      · rename_i h
        rw [h] at htext
        exact htext.error.mono (List.suffix_cons '"' rest)
      · rename_i h
        rw [h] at htext
        exact htext.trans (List.suffix_cons '"' rest)
    · rename_i rest
      have hrest := List.suffix_cons '[' rest
      split
      · trivial
      · split
        · rename_i h
          exact suffix_of_skip hrest h
        · exact (items_tracks fuel _ [] _).mono ((skip_suffix rest).trans hrest)
    · rename_i rest
      have hrest := List.suffix_cons '{' rest
      split
      · trivial
      · split
        · rename_i h
          exact suffix_of_skip hrest h
        · exact (members_tracks fuel _ [] _).mono ((skip_suffix rest).trans hrest)
    · exact scalar_tracks cs

theorem items_tracks (fuel room : Nat) (acc : List Json) (cs : List Char) :
    Tracks cs (items fuel room acc cs) := by
  match fuel with
  | 0 => trivial
  | fuel + 1 =>
    have hvalue := value_tracks fuel room cs
    unfold items
    split
    · rename_i h
      rw [h] at hvalue
      exact hvalue
    · rename_i h
      rw [h] at hvalue
      split
      · rename_i hclose
        exact suffix_of_skip hvalue hclose
      · rename_i hcomma
        have hmore := suffix_of_skip hvalue hcomma
        exact (items_tracks fuel room _ _).mono ((skip_suffix _).trans hmore)
      · trivial

theorem members_tracks (fuel room : Nat) (acc : List (String × Json)) (cs : List Char) :
    Tracks cs (members fuel room acc cs) := by
  match fuel with
  | 0 => trivial
  | fuel + 1 =>
    unfold members
    split
    · rename_i rest
      have hrest := List.suffix_cons '"' rest
      have hkey := (text_tracks ('"' :: rest) rest).mono hrest
      split
      · rename_i h
        rw [h] at hkey
        exact hkey.error
      · rename_i h
        rw [h] at hkey
        split
        · rename_i more hcolon
          have hmore := suffix_of_skip hkey hcolon
          have hvalue := (value_tracks fuel room _).mono ((skip_suffix more).trans hmore)
          split
          · rename_i h
            rw [h] at hvalue
            exact hvalue
          · rename_i h
            rw [h] at hvalue
            split
            · rename_i hclose
              exact suffix_of_skip hvalue hclose
            · rename_i hcomma
              have hnext := suffix_of_skip hvalue hcomma
              exact (members_tracks fuel room _ _).mono ((skip_suffix _).trans hnext)
            · trivial
        · trivial
    · trivial

end

theorem ne_of_isDigit {c d : Char} (hc : c.isDigit = true) (hd : d.isDigit = false) : c ≠ d := by
  rintro rfl
  simp [hc] at hd

theorem constant?_of_isDigit (hc : c.isDigit = true) : constant? (c :: cs) = none := by
  have hwords : ∀ p ∈ constants, (p.1.head?.any fun d => !d.isDigit) = true :=
    List.all_eq_true.1 rfl
  refine List.findSome?_eq_none_iff.2 fun p hp => if_neg ?_
  obtain ⟨d, word, hword, hd⟩ : ∃ d word, p.1 = d :: word ∧ d.isDigit = false := by
    have h := hwords p hp
    cases hword : p.1 with
    | nil => simp [hword] at h
    | cons d word => exact ⟨d, word, rfl, by simpa [hword] using h⟩
  have hne : (d == c) = false := beq_eq_false_iff_ne.2 (ne_of_isDigit hc hd).symm
  simp [hword, List.isPrefixOf, hne]

end Reader

end Json

end Flowplan
