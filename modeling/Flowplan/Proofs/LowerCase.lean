import Flowplan.Unicode.Blank
import Flowplan.Unicode.Case

/-!
The lower case of a text. It does not tell ASCII letters from their capitals, also where it depends on
the letters around.
-/

namespace Flowplan.Unicode
set_option autoImplicit true

variable {c : Char} {before acc cs : List Char}

theorem toLower_of_not_ascii (h : ¬ c.toNat < 128) : c.toLower = c := by
  have hupper : ¬ (c.val ≥ 'A'.val ∧ c.val ≤ 'Z'.val) := by
    rintro ⟨-, hle⟩
    have hlow : c.toNat ≤ 90 := hle
    omega
  exact dif_neg hupper

/-- What does not tell the ASCII letters from their lower case does not do so for any character. -/
theorem apply_toLower {f : Char → α} (h : ∀ n < 128, f (Char.ofNat n).toLower = f (Char.ofNat n))
    (c : Char) : f c.toLower = f c := by
  by_cases hc : c.toNat < 128
  · have hf := h c.toNat hc
    rwa [Char.ofNat_toNat] at hf
  · rw [toLower_of_not_ascii hc]

@[simp] theorem isBlank_toLower (c : Char) : isBlank c.toLower = isBlank c :=
  apply_toLower (by decide) c

@[simp] theorem isCaseIgnorable_toLower (c : Char) :
    isCaseIgnorable c.toLower = isCaseIgnorable c :=
  apply_toLower (by decide) c

@[simp] theorem isCasedLetter_toLower (c : Char) : isCasedLetter c.toLower = isCasedLetter c :=
  apply_toLower (by decide) c

@[simp] theorem lowerChar_toLower (c : Char) : lowerChar c.toLower = lowerChar c :=
  apply_toLower (by decide) c

theorem isSigma_toLower (c : Char) : (c.toLower.toNat == 0x3A3) = (c.toNat == 0x3A3) :=
  apply_toLower (f := fun c => c.toNat == 0x3A3) (by decide) c

theorem meetsCased_map_toLower (cs : List Char) :
    meetsCased (cs.map Char.toLower) = meetsCased cs := by
  have hignorable : isCaseIgnorable ∘ Char.toLower = isCaseIgnorable :=
    funext isCaseIgnorable_toLower
  simp only [meetsCased, List.dropWhile_map, hignorable]
  cases cs.dropWhile isCaseIgnorable <;> simp

theorem lowerIn_map_toLower (before : List Char) (c : Char) (after : List Char) :
    lowerIn (before.map Char.toLower) c.toLower (after.map Char.toLower) =
      lowerIn before c after := by
  simp only [lowerIn, meetsCased_map_toLower, lowerChar_toLower, isSigma_toLower]

theorem lowerChars_map_toLower (before acc cs : List Char) :
    lowerChars (before.map Char.toLower) acc (cs.map Char.toLower) = lowerChars before acc cs := by
  induction cs generalizing before acc with
  | nil => rfl
  | cons c cs ih =>
    simp only [List.map_cons, lowerChars, lowerIn_map_toLower]
    exact ih (c :: before) _

theorem lower_eq_of_toLower {s t : String}
    (h : s.toList.map Char.toLower = t.toList.map Char.toLower) : lower s = lower t := by
  have hs := lowerChars_map_toLower [] [] s.toList
  rw [h] at hs
  rw [lower, lower, ← hs]
  exact congrArg String.ofList (lowerChars_map_toLower [] [] t.toList)

theorem lowerChars_ne_nil (h : acc ≠ []) : lowerChars before acc cs ≠ [] := by
  induction cs generalizing before acc with
  | nil => simpa [lowerChars] using h
  | cons c cs ih => exact ih (by simp [h])

theorem lowerIn_ne_nil (before : List Char) (c : Char) (after : List Char) :
    lowerIn before c after ≠ [] := by
  unfold lowerIn lowerChar
  split
  · split <;> simp
  · split
    · simp
    · split <;> simp

theorem lower_ne_empty {s : String} (h : s ≠ "") : lower s ≠ "" := by
  intro he
  have hnil : lowerChars [] [] s.toList = [] := by simpa [lower] using congrArg String.toList he
  cases hs : s.toList with
  | nil => exact h (String.toList_eq_nil_iff.1 hs)
  | cons c cs =>
    rw [hs, lowerChars] at hnil
    exact lowerChars_ne_nil (by simp [lowerIn_ne_nil]) hnil

end Flowplan.Unicode
