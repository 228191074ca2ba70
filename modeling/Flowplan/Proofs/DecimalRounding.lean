import Flowplan.Decimal.Binary64
import Mathlib.Data.Nat.Log
import Mathlib.Tactic.Ring

/-!
Rounding depends on the value of a ratio and not on how it is written, and what can be represented
is not changed by it.
-/

namespace Flowplan.Decimal
set_option autoImplicit true

theorem twoTo_pos (n : Nat) : 0 < twoTo n := Nat.pow_pos (by decide)

theorem twoTo_mono (h : m ≤ n) : twoTo m ≤ twoTo n := Nat.pow_le_pow_right (by decide) h

theorem tenTo_pos (n : Nat) : 0 < tenTo n := Nat.pow_pos (by decide)

theorem tenTo_add (m n : Nat) : tenTo (m + n) = tenTo m * tenTo n := Nat.pow_add 10 m n

theorem divNearest_mul_right (num den : Nat) (hc : 0 < c) :
    divNearest (num * c) (den * c) = divNearest num den := by
  have hscale : 2 * (num % den * c) = 2 * (num % den) * c := (Nat.mul_assoc 2 _ c).symm
  simp only [divNearest, Nat.mul_div_mul_right _ _ hc, Nat.mul_mod_mul_right, hscale,
    Nat.mul_lt_mul_right hc]

theorem divNearest_of_dvd (n : Nat) (hd : 0 < d) : divNearest (n * d) d = n := by
  simp [divNearest, Nat.mul_div_cancel n hd, hd]

namespace Binary64

/-- The rounded magnitude of a ratio, by its bits. -/
def roundedBits (num den : Nat) : Nat :=
  let scaled := num * unitsOfOne
  let lost := lostBits (scaled / den)
  min (lost * exponentBit + divNearest scaled (den * twoTo lost)) infiniteBits

theorem ofRatio_eq (negative : Bool) (num den : Nat) :
    ofRatio negative num den = withSign negative (roundedBits num den) := rfl

theorem roundedBits_mul_right (num den : Nat) (hc : 0 < c) :
    roundedBits (num * c) (den * c) = roundedBits num den := by
  have hscaled : num * c * unitsOfOne = num * unitsOfOne * c := Nat.mul_right_comm ..
  have hdivisor (k : Nat) : den * c * k = den * k * c := Nat.mul_right_comm ..
  simp only [roundedBits, hscaled, hdivisor, Nat.mul_div_mul_right _ _ hc,
    divNearest_mul_right _ _ hc]

theorem roundedBits_congr (hden : 0 < den) (hden' : 0 < den') (h : num * den' = num' * den) :
    roundedBits num den = roundedBits num' den' := by
  calc
    roundedBits num den = roundedBits (num * den') (den * den') :=
      (roundedBits_mul_right num den hden').symm
    _ = roundedBits (num' * den) (den' * den) := by rw [h, Nat.mul_comm den]
    _ = roundedBits num' den' := roundedBits_mul_right num' den' hden

theorem toDigits_mul_tenTo (hn : 0 < n) (k : Nat) :
    Nat.toDigits 10 (n * tenTo k) = Nat.toDigits 10 n ++ List.replicate k '0' := by
  induction k with
  | zero => simp [tenTo]
  | succ k ih =>
    have hpos : 0 < n * tenTo k := Nat.mul_pos hn (tenTo_pos k)
    have hnext : n * tenTo (k + 1) = 10 * (n * tenTo k) + 0 := by
      rw [tenTo_add]
      simp only [tenTo, Nat.pow_eq, pow_one]
      ring
    rw [hnext, ← Nat.toDigits_append_toDigits (by decide) hpos (by decide), ih,
      List.replicate_succ', List.append_assoc]
    rfl

theorem digitCount_mul_tenTo (hn : 0 < n) (k : Nat) :
    digitCount (n * tenTo k) = digitCount n + k := by
  rw [digitCount, digitCount, toDigits_mul_tenTo hn, List.length_append, List.length_replicate]

/-- The magnitude of a decimal, by its bits. -/
def decimalBits (digits : Nat) (exponent : Int) : Nat :=
  let size := exponent + digitCount digits
  if digits = 0 then 0
  else if 310 < size then infiniteBits
  else if size < -330 then 0
  else roundedBits (digits * tenTo exponent.toNat) (tenTo (-exponent).toNat)

theorem ofDecimal_eq (negative : Bool) (digits : Nat) (exponent : Int) :
    ofDecimal negative digits exponent = withSign negative (decimalBits digits exponent) := by
  simp only [ofDecimal, decimalBits]
  split
  · rfl
  · split
    · rfl
    · split
      · rfl
      · exact ofRatio_eq ..

/-- Zeros at the end of the digits count as much as the exponent. -/
theorem decimalBits_mul_tenTo (digits k : Nat) (exponent : Int) :
    decimalBits (digits * tenTo k) exponent = decimalBits digits (exponent + k) := by
  rcases Nat.eq_zero_or_pos digits with rfl | hpos
  · simp [decimalBits]
  · have hne : digits ≠ 0 := hpos.ne'
    have hne' : digits * tenTo k ≠ 0 := (Nat.mul_pos hpos (tenTo_pos k)).ne'
    have hsize : exponent + ((digitCount digits + k : Nat) : Int) =
        exponent + k + digitCount digits := by omega
    have hratio : digits * tenTo k * tenTo exponent.toNat * tenTo (-(exponent + k)).toNat =
        digits * tenTo (exponent + k).toNat * tenTo (-exponent).toNat := by
      simp only [Nat.mul_assoc, ← tenTo_add]
      congr 2
      omega
    simp only [decimalBits, hne, hne', if_false, digitCount_mul_tenTo hpos, hsize,
      roundedBits_congr (tenTo_pos _) (tenTo_pos _) hratio]

/-- The bits of a number without its sign. -/
def unsignedBits (x : Binary64) : Nat := x.bits.toNat % signBit

theorem signBit_eq : signBit = exponentBit * exponentRange := by decide

theorem unsignedBits_eq (x : Binary64) :
    x.unsignedBits = x.exponentField * exponentBit + x.fraction := by
  rw [unsignedBits, signBit_eq, Nat.mod_mul, exponentField, fraction, Nat.mul_comm exponentBit,
    Nat.add_comm]

theorem eq_withSign (x : Binary64) : x = withSign x.negative x.unsignedBits := by
  have hlt : x.bits.toNat < 2 ^ 64 := x.bits.toNat_lt
  have hbits : (if x.negative then signBit + x.unsignedBits else x.unsignedBits) =
      x.bits.toNat := by
    have hsign : signBit = 2 ^ 63 := rfl
    cases hnegative : x.negative with
    | true =>
      have hle : signBit ≤ x.bits.toNat := of_decide_eq_true hnegative
      rw [if_pos rfl, unsignedBits]
      rw [hsign] at hle ⊢
      omega
    | false =>
      have hlt : ¬ signBit ≤ x.bits.toNat := of_decide_eq_false hnegative
      exact Nat.mod_eq_of_lt (Nat.not_le.1 hlt)
  rw [withSign, hbits, UInt64.ofNat_toNat]

theorem withSign_injective {sign : Bool} (hm : m < signBit) (hn : n < signBit)
    (h : withSign sign m = withSign sign n) : m = n := by
  have hbits := congrArg (fun x => x.bits.toNat) h
  simp only [withSign, UInt64.toNat_ofNat'] at hbits
  simp only [signBit, twoTo, Nat.pow_eq] at hm hn hbits
  cases sign <;> simp only [Bool.false_eq_true, if_false, if_true] at hbits <;> omega

theorem roundedBits_le (num den : Nat) : roundedBits num den ≤ infiniteBits := Nat.min_le_right ..

theorem decimalBits_le (digits : Nat) (exponent : Int) :
    decimalBits digits exponent ≤ infiniteBits := by
  simp only [decimalBits]
  split
  · exact Nat.zero_le _
  · split
    · exact Nat.le_refl _
    · split
      · exact Nat.zero_le _
      · exact roundedBits_le ..

theorem infiniteBits_lt : infiniteBits < signBit := by decide

theorem fraction_lt (x : Binary64) : x.fraction < exponentBit := Nat.mod_lt _ (twoTo_pos 52)

/-- A number that is a power of two times a whole number of 53 bits loses no bits. -/
theorem lostBits_mul (hlow : exponentBit ≤ m) (hhigh : m < 2 * exponentBit) (e : Nat) :
    lostBits (m * twoTo e) = e := by
  have hm : 0 < m := Nat.lt_of_lt_of_le (twoTo_pos 52) hlow
  have hne : m * twoTo e ≠ 0 := (Nat.mul_pos hm (twoTo_pos e)).ne'
  have hlog : (m * twoTo e).log2 = 52 + e := by
    rw [Nat.log2_eq_iff hne]
    constructor
    · rw [Nat.pow_add]
      exact Nat.mul_le_mul_right _ hlow
    · have hpow : 2 ^ (52 + e + 1) = 2 * exponentBit * twoTo e := by
        simp only [exponentBit, twoTo, Nat.pow_eq]
        ring
      rw [hpow]
      exact (Nat.mul_lt_mul_right (twoTo_pos e)).2 hhigh
  rw [lostBits, hlog, Nat.add_sub_cancel_left]

theorem lostBits_of_lt (h : n < exponentBit) : lostBits n = 0 := by
  rcases Nat.eq_zero_or_pos n with rfl | hpos
  · rfl
  · have hlog : n.log2 < 52 := (Nat.log2_lt hpos.ne').2 h
    rw [lostBits]
    omega

/-- What can be represented is its own rounding. -/
theorem roundedBits_units {x : Binary64} (hfinite : x.isFinite = true) :
    roundedBits x.units unitsOfOne = x.unsignedBits := by
  have hone : 0 < unitsOfOne := twoTo_pos _
  have hcancel : x.units * unitsOfOne / unitsOfOne = x.units := Nat.mul_div_cancel _ hone
  have hround (k : Nat) : divNearest (x.units * unitsOfOne) (unitsOfOne * k) =
      divNearest x.units k := by
    rw [Nat.mul_comm unitsOfOne, divNearest_mul_right _ _ hone]
  have hfield : x.exponentField < 2047 := of_decide_eq_true hfinite
  have hfraction := x.fraction_lt
  have hfits : x.unsignedBits ≤ infiniteBits := by
    rw [unsignedBits_eq, infiniteBits]
    have hmul : x.exponentField * exponentBit + exponentBit ≤ 2047 * exponentBit := by
      rw [← Nat.succ_mul]
      exact Nat.mul_le_mul_right _ hfield
    omega
  simp only [roundedBits, hcancel, hround]
  suffices hbits : lostBits x.units * exponentBit + divNearest x.units (twoTo (lostBits x.units)) =
      x.unsignedBits by
    rw [hbits, Nat.min_eq_left hfits]
  rw [unsignedBits_eq]
  by_cases hzero : x.exponentField = 0
  · have hunits : x.units = x.fraction := if_pos hzero
    rw [hunits, lostBits_of_lt hfraction, hzero]
    have hone : divNearest x.fraction (twoTo 0) = x.fraction :=
      (congrArg (divNearest · 1) (Nat.mul_one _).symm).trans (divNearest_of_dvd _ Nat.one_pos)
    rw [hone]
  · have hunits : x.units = (exponentBit + x.fraction) * twoTo (x.exponentField - 1) :=
      if_neg hzero
    rw [hunits, lostBits_mul (by omega) (by omega), divNearest_of_dvd _ (twoTo_pos _),
      ← Nat.add_assoc, ← Nat.succ_mul, Nat.succ_eq_add_one, Nat.sub_add_cancel (by omega)]

theorem unsignedBits_lt (x : Binary64) : x.unsignedBits < signBit := Nat.mod_lt _ (twoTo_pos 63)

theorem bits_withSign (sign : Bool) (h : m < signBit) :
    (withSign sign m).bits.toNat = if sign then signBit + m else m := by
  have hlt : (if sign then signBit + m else m) < 2 ^ 64 := by
    have hsign : signBit = 2 ^ 63 := rfl
    rw [hsign] at h ⊢
    cases sign <;> simp only [Bool.false_eq_true, if_false, if_true] <;> omega
  exact Nat.mod_eq_of_lt hlt

theorem unsignedBits_withSign (sign : Bool) (h : m < signBit) :
    (withSign sign m).unsignedBits = m := by
  rw [unsignedBits, bits_withSign sign h]
  cases sign with
  | true => rw [if_pos rfl, Nat.add_mod_left, Nat.mod_eq_of_lt h]
  | false => exact Nat.mod_eq_of_lt h

theorem negative_withSign (sign : Bool) (h : m < signBit) : (withSign sign m).negative = sign := by
  rw [negative, bits_withSign sign h]
  cases sign with
  | true => exact decide_eq_true (Nat.le_add_right ..)
  | false => exact decide_eq_false (Nat.not_le.2 h)

/-- The parts of a number other than its sign are those of its magnitude. -/
theorem exponentField_eq (x : Binary64) :
    x.exponentField = x.unsignedBits / exponentBit := by
  rw [unsignedBits, signBit_eq, Nat.mod_mul_right_div_self, exponentField]

theorem fraction_eq (x : Binary64) : x.fraction = x.unsignedBits % exponentBit := by
  rw [unsignedBits, signBit_eq, Nat.mod_mul_right_mod, fraction]

theorem units_congr {x y : Binary64} (h : x.unsignedBits = y.unsignedBits) :
    x.units = y.units := by
  simp only [units, exponentField_eq, fraction_eq, h]

theorem isFinite_congr {x y : Binary64} (h : x.unsignedBits = y.unsignedBits) :
    x.isFinite = y.isFinite := by
  simp only [isFinite, exponentField_eq, h]

theorem unsignedBits_eq_zero {x : Binary64} : x.unsignedBits = 0 ↔ x.units = 0 := by
  rw [unsignedBits_eq, units]
  have hbit : 0 < exponentBit := twoTo_pos 52
  by_cases h : x.exponentField = 0
  · rw [if_pos h, h, Nat.zero_mul, Nat.zero_add]
  · have hpow := twoTo_pos (x.exponentField - 1)
    rw [if_neg h]
    have hfield : x.exponentField * exponentBit ≠ 0 := Nat.mul_ne_zero h hbit.ne'
    have hmagnitude : (exponentBit + x.fraction) * twoTo (x.exponentField - 1) ≠ 0 :=
      Nat.mul_ne_zero (by omega) hpow.ne'
    constructor
    · intro hzero
      exact absurd (Nat.eq_zero_of_add_eq_zero_right hzero) hfield
    · intro hzero
      exact absurd hzero hmagnitude

theorem units_lt {x : Binary64} (hfinite : x.isFinite = true) : x.units < twoTo 2098 := by
  have hfield : x.exponentField < 2047 := of_decide_eq_true hfinite
  have hfraction := x.fraction_lt
  have hbit : exponentBit + exponentBit = twoTo 53 := by decide
  rw [units]
  split
  · exact hfraction.trans_le (twoTo_mono (by decide))
  · calc
      (exponentBit + x.fraction) * twoTo (x.exponentField - 1)
      _ < twoTo 53 * twoTo (x.exponentField - 1) :=
        Nat.mul_lt_mul_of_pos_right (by omega) (twoTo_pos _)
      _ = twoTo (53 + (x.exponentField - 1)) := (Nat.pow_add 2 _ _).symm
      _ ≤ twoTo 2098 := twoTo_mono (by omega)

theorem digitCount_le_iff (hk : 0 < k) : digitCount n ≤ k ↔ n < tenTo k :=
  Nat.length_toDigits_le_iff (by decide) hk

theorem decimalBits_zero (power : Int) : decimalBits 0 power = 0 := by simp [decimalBits]

theorem decimalBits_of_ratio (hn : 0 < n) (hden : 0 < den) {power : Int}
    (hlow : -330 ≤ power + digitCount n) (hhigh : power + digitCount n ≤ 310)
    (h : n * tenTo power.toNat * den = num * tenTo (-power).toNat) :
    decimalBits n power = roundedBits num den := by
  simp only [decimalBits]
  rw [if_neg hn.ne', if_neg (by omega), if_neg (by omega)]
  exact roundedBits_congr (tenTo_pos _) hden h

/-- The power of five that makes the least positive number a power of ten. -/
theorem fives_bounds : tenTo 743 ≤ Nat.pow 5 unitExponent ∧
    twoTo 2098 * Nat.pow 5 unitExponent < tenTo 1384 := by
  decide +kernel

theorem tenTo_zero : tenTo 0 = 1 := rfl

theorem tenTo_eq (k : Nat) : tenTo k = Nat.pow 5 k * twoTo k := Nat.mul_pow 5 2 k

/-- All digits of a finite number, written out, round to the number. -/
theorem decimalBits_units {x : Binary64} (hfinite : x.isFinite = true) (hpos : 0 < x.units) :
    decimalBits (x.units * Nat.pow 5 unitExponent) (-unitExponent) = x.unsignedBits := by
  have hten := tenTo_eq unitExponent
  obtain ⟨hleast, hmost⟩ := fives_bounds
  generalize Nat.pow 5 unitExponent = fives at hten hleast hmost ⊢
  have hfives : 0 < fives := (tenTo_pos 743).trans_le hleast
  have hmany : ¬ digitCount (x.units * fives) ≤ 743 := by
    rw [digitCount_le_iff (by decide), Nat.not_lt]
    exact hleast.trans (Nat.le_mul_of_pos_left _ hpos)
  have hfew : digitCount (x.units * fives) ≤ 1384 := by
    rw [digitCount_le_iff (by decide)]
    exact (Nat.mul_lt_mul_of_pos_right (units_lt hfinite) hfives).trans hmost
  have hexponent : unitExponent = 1074 := rfl
  have hwhole : (-(unitExponent : Int)).toNat = 0 := by omega
  have hpart : (- -(unitExponent : Int)).toNat = unitExponent := by omega
  rw [← roundedBits_units hfinite]
  refine decimalBits_of_ratio (Nat.mul_pos hpos hfives) (twoTo_pos unitExponent) (by omega)
    (by omega) ?_
  rw [hwhole, hpart, hten, tenTo_zero, Nat.mul_one, Nat.mul_assoc]

end Binary64
end Flowplan.Decimal
