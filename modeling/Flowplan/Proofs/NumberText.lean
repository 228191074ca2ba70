import Flowplan.Json.Printer
import Flowplan.Proofs.DecimalRounding
import Flowplan.Proofs.NumberReading

/-!
The text of a number reads back as the number.
-/

namespace Flowplan
set_option autoImplicit true

open Flowplan.Json Flowplan.Json.Reader

namespace Decimal

/-- The first of the digits is not zero. -/
structure Digits.Proper (d : Digits) : Prop extends IsDigits d.digits where
  leading : d.digits.head? ≠ some '0'

/-- What the digits stand for, rounded, by its bits. -/
def Digits.bits (d : Digits) : Nat :=
  Binary64.decimalBits (digitsValue d.digits) (d.point - d.digits.length)

theorem exists_append_zeros (ds : List Char) :
    ∃ k, ds = dropTrailingZeros ds ++ List.replicate k '0' := by
  have hsplit := congrArg List.reverse
    (List.takeWhile_append_dropWhile (p := (· == '0')) (l := ds.reverse))
  have hall := List.all_eq_true.1 (List.all_takeWhile (p := (· == '0')) (l := ds.reverse))
  have hzeros := List.eq_replicate_of_mem fun c hc => beq_iff_eq.1 (hall c hc)
  rw [List.reverse_append, List.reverse_reverse, hzeros, List.reverse_replicate] at hsplit
  exact ⟨_, hsplit.symm⟩

theorem head?_toDigits (hn : 0 < n) : (Nat.toDigits 10 n).head? ≠ some '0' := by
  induction n using Nat.strongRecOn with
  | ind n ih =>
    rw [Nat.toDigits_eq_if (by decide)]
    split
    · rw [List.head?_cons, ne_eq, Option.some.injEq, Nat.digitChar_eq_zero]
      exact hn.ne'
    · rw [List.head?_append_of_ne_nil _ Nat.toDigits_ne_nil]
      exact ih (n / 10) (by omega) (by omega)

/-- The digits of an integer times a power of ten stand for it. -/
theorem Digits.ofScaled_proper (hn : 0 < n) (exponent : Int) :
    (ofScaled n exponent).Proper ∧
      (ofScaled n exponent).bits = Binary64.decimalBits n exponent := by
  obtain ⟨k, hk⟩ := exists_append_zeros (Nat.toDigits 10 n)
  have hleading := head?_toDigits hn
  have hdigits := (isDigits_toDigits n).digits
  have hvalue := digitsValue_toDigits n
  have hlength := congrArg List.length hk
  rw [hk] at hleading hdigits hvalue
  rw [digitsValue_append_zeros] at hvalue
  rw [List.length_append, List.length_replicate] at hlength
  have hne : dropTrailingZeros (Nat.toDigits 10 n) ≠ [] := by
    intro hnil
    rw [hnil] at hvalue
    exact hn.ne ((Nat.zero_mul _).symm.trans hvalue)
  rw [List.head?_append_of_ne_nil _ hne] at hleading
  refine ⟨⟨⟨hne, fun c hc => hdigits c (List.mem_append_left _ hc)⟩, hleading⟩, ?_⟩
  have hpoint : (ofScaled n exponent).point - (ofScaled n exponent).digits.length =
      exponent + k := by
    simp only [ofScaled]
    omega
  rw [bits, hpoint, ← Binary64.decimalBits_mul_tenTo]
  exact congrArg (Binary64.decimalBits · exponent) hvalue

namespace Binary64

theorem bits_of_readsBack? {x : Binary64} {n : Nat} {power : Int} (hsign : x.negative = false)
    (h : x.readsBack? count = some (n, power)) : decimalBits n power = x.unsignedBits := by
  unfold readsBack? at h
  obtain ⟨m, hfound, heq⟩ := Option.map_eq_some_iff.1 h
  obtain ⟨rfl, hpower⟩ := Prod.mk.inj heq
  have hread := List.find?_some hfound
  rw [hpower, beq_iff_eq, ofDecimal_eq, eq_withSign x, hsign] at hread
  exact withSign_injective ((decimalBits_le ..).trans_lt infiniteBits_lt) x.unsignedBits_lt hread

theorem fiveTo_pos (k : Nat) : 0 < Nat.pow 5 k := Nat.pow_pos (by decide)

/-- Either the shortest digits were seen to read back, or they are all digits there are. -/
theorem shortest_cases (x : Binary64) :
    (∃ count n power, x.readsBack? count = some (n, power) ∧ x.shortest = .ofScaled n power) ∨
      x.shortest = .ofScaled (x.units * Nat.pow 5 unitExponent) (-unitExponent) := by
  unfold shortest
  cases hfound : (List.range' 1 17).findSome? x.readsBack? with
  | none => exact .inr rfl
  | some r =>
    obtain ⟨count, -, hcount⟩ := List.exists_of_findSome?_eq_some hfound
    exact .inl ⟨count, r.1, r.2, hcount, rfl⟩

/-- The digits of the shortest text stand for the number. -/
theorem shortest_bits {x : Binary64} (hfinite : x.isFinite = true) (hsign : x.negative = false)
    (hpos : 0 < x.units) : x.shortest.Proper ∧ x.shortest.bits = x.unsignedBits := by
  rcases shortest_cases x with ⟨count, n, power, hread, hshortest⟩ | hshortest
  · have hbits := bits_of_readsBack? hsign hread
    have hn : 0 < n := by
      refine Nat.pos_of_ne_zero ?_
      rintro rfl
      rw [decimalBits_zero] at hbits
      exact hpos.ne' (unsignedBits_eq_zero.1 hbits.symm)
    rw [hshortest, ← hbits]
    exact Digits.ofScaled_proper hn power
  · rw [hshortest, ← decimalBits_units hfinite hpos]
    exact Digits.ofScaled_proper (Nat.mul_pos hpos (fiveTo_pos unitExponent)) _

end Binary64

end Decimal

namespace Json.Reader

/-- Characters that are read as a number up to a character that cannot go on with it; the value
depends on the sign before them. -/
def IsNumber (cs : List Char) (v : Bool → Json) : Prop :=
  ∀ sign rest, Stops rest → number? sign (cs ++ rest) = some (.ok (v sign, rest))

theorem IsDigits.append (h : IsDigits ds) (h' : ∀ c ∈ ds', c.isDigit = true) :
    IsDigits (ds ++ ds') where
  nonempty hnil := h.nonempty (List.append_eq_nil_iff.1 hnil).1
  digits c hc := (List.mem_append.1 hc).elim (h.digits c) (h' c)

theorem isDigit_of_mem_zeros (h : c ∈ List.replicate k '0') : c.isDigit = true := by
  rw [List.eq_of_mem_replicate h]
  rfl

theorem isWhole_zero : IsWhole ['0'] where
  nonempty := List.cons_ne_nil _ _
  digits c hc := by
    rw [List.mem_singleton.1 hc]
    rfl
  leading _ := rfl

theorem isWhole_toDigits (n : Nat) : IsWhole (Nat.toDigits 10 n) := by
  rcases Nat.eq_zero_or_pos n with rfl | hpos
  · exact isWhole_zero
  · exact ⟨isDigits_toDigits n, fun h => absurd h (Decimal.head?_toDigits hpos)⟩

theorem isNumber_toDigits (h : (Nat.toDigits 10 n).length ≤ maxDigits) :
    IsNumber (Nat.toDigits 10 n) fun sign => .int (if sign then -(n : Int) else n) := by
  intro sign rest hrest
  rw [number?_of_whole sign (isWhole_toDigits n) fun c hc => (hrest c hc).1,
    numberTail_integer sign hrest h, digitsValue_toDigits]

end Json.Reader

namespace Decimal.Digits

variable {d : Digits}

theorem Proper.isWhole_of_head (hds : IsDigits ds) (h : ds.head? = d.digits.head?)
    (hd : d.Proper) : IsWhole ds :=
  ⟨hds, fun hzero => absurd (h.symm.trans hzero) hd.leading⟩

theorem isNumber_point {n : Nat} (hwhole : IsWhole whole) (hpart : IsDigits part)
    (h : Binary64.decimalBits (digitsValue (whole ++ part)) (-part.length) = n) :
    IsNumber (whole ++ '.' :: part) fun sign => .real (Binary64.withSign sign n) := by
  intro sign rest hrest
  have hhead : ∀ c ∈ ('.' :: (part ++ rest)).head?, c.isDigit = false := forall_head?_cons rfl
  rw [List.append_assoc, List.cons_append, number?_of_whole sign hwhole hhead,
    numberTail_point sign hpart hrest, Binary64.ofDecimal_eq, h]

theorem toList_zeros (k : Nat) : (zeros k).toList = List.replicate k '0' := String.toList_ofList

/-- Below one: a zero, then the point, zeros and the digits. -/
theorem isNumber_below_one (h : d.Proper) (hpoint : d.point ≤ 0) :
    IsNumber ("0." ++ zeros (-d.point).toNat ++ String.ofList d.digits).toList
      fun sign => .real (Binary64.withSign sign d.bits) := by
  have htext : ("0." ++ zeros (-d.point).toNat ++ String.ofList d.digits).toList =
      ['0'] ++ '.' :: (List.replicate (-d.point).toNat '0' ++ d.digits) := by
    simp only [String.toList_append, String.toList_ofList, toList_zeros]
    rfl
  have hvalue : digitsValue (['0'] ++ (List.replicate (-d.point).toNat '0' ++ d.digits)) =
      digitsValue d.digits :=
    digitsValue_zeros_append ((-d.point).toNat + 1) d.digits
  rw [htext]
  refine isNumber_point isWhole_zero ⟨?_, ?_⟩ ?_
  · exact fun hnil => h.nonempty (List.append_eq_nil_iff.1 hnil).2
  · exact fun c hc => (List.mem_append.1 hc).elim isDigit_of_mem_zeros (h.digits c)
  · rw [hvalue, bits, List.length_append, List.length_replicate]
    congr 1
    omega

/-- A whole number: the digits and zeros, and a zero after the point. -/
theorem isNumber_without_fraction (h : d.Proper) (hpoint : (d.digits.length : Int) ≤ d.point) :
    IsNumber (String.ofList d.digits ++ zeros (d.point.toNat - d.digits.length) ++ ".0").toList
      fun sign => .real (Binary64.withSign sign d.bits) := by
  obtain ⟨k, hk⟩ : ∃ k, k = d.point.toNat - d.digits.length := ⟨_, rfl⟩
  have htext : (String.ofList d.digits ++ zeros (d.point.toNat - d.digits.length) ++
      ".0").toList = d.digits ++ List.replicate k '0' ++ '.' :: ['0'] := by
    simp only [String.toList_append, String.toList_ofList, toList_zeros, ← hk]
    rfl
  have hvalue : digitsValue (d.digits ++ List.replicate k '0' ++ ['0']) =
      digitsValue d.digits * tenTo (k + 1) := by
    rw [← digitsValue_append_zeros, List.replicate_succ', List.append_assoc]
  rw [htext]
  refine isNumber_point ?_ isWhole_zero.toIsDigits ?_
  · exact h.isWhole_of_head (h.toIsDigits.append fun c hc => isDigit_of_mem_zeros hc)
      (List.head?_append_of_ne_nil _ h.nonempty)
  · rw [hvalue, Binary64.decimalBits_mul_tenTo, bits]
    congr 1
    simp only [List.length_singleton]
    omega

/-- The point stands among the digits. -/
theorem isNumber_with_fraction (h : d.Proper) (hlow : 0 < d.point)
    (hhigh : d.point < d.digits.length) :
    IsNumber (String.ofList (d.digits.take d.point.toNat) ++ "." ++
        String.ofList (d.digits.drop d.point.toNat)).toList
      fun sign => .real (Binary64.withSign sign d.bits) := by
  have hsplit := List.take_append_drop d.point.toNat d.digits
  have htext : (String.ofList (d.digits.take d.point.toNat) ++ "." ++
      String.ofList (d.digits.drop d.point.toNat)).toList =
      d.digits.take d.point.toNat ++ '.' :: d.digits.drop d.point.toNat := by
    simp only [String.toList_append, String.toList_ofList, List.append_assoc]
    rfl
  rw [htext]
  refine isNumber_point ?_ ⟨?_, fun c hc => h.digits c (List.mem_of_mem_drop hc)⟩ ?_
  · refine h.isWhole_of_head ⟨?_, fun c hc => h.digits c (List.mem_of_mem_take hc)⟩ ?_
    · intro hnil
      have hlength := congrArg List.length hnil
      rw [List.length_take, List.length_nil] at hlength
      omega
    · rw [List.head?_take, if_neg (by omega)]
  · intro hnil
    have hlength := congrArg List.length hnil
    rw [List.length_drop, List.length_nil] at hlength
    omega
  · rw [hsplit, bits, List.length_drop]
    congr 1
    omega

theorem isNumber_positional (h : d.Proper) :
    IsNumber d.positional.toList fun sign => .real (Binary64.withSign sign d.bits) := by
  unfold positional
  simp only
  split
  · exact isNumber_below_one h (by omega)
  · split
    · exact isNumber_without_fraction h (by omega)
    · exact isNumber_with_fraction h (by omega) (by omega)

theorem twoDigits_read (n : Nat) :
    IsDigits (twoDigits n).toList ∧ digitsValue (twoDigits n).toList = n := by
  have htext : (toString n).toList = Nat.toDigits 10 n := Nat.toList_repr
  have hdigits := isDigits_toDigits n
  unfold twoDigits
  split
  · have hpadded : ("0" ++ toString n).toList = List.replicate 1 '0' ++ Nat.toDigits 10 n := by
      rw [String.toList_append, htext]
      rfl
    rw [hpadded, digitsValue_zeros_append, digitsValue_toDigits]
    exact ⟨⟨List.cons_ne_nil _ _, fun c hc =>
      (List.mem_append.1 hc).elim isDigit_of_mem_zeros (hdigits.digits c)⟩, rfl⟩
  · rw [htext, digitsValue_toDigits]
    exact ⟨hdigits, rfl⟩

/-- The exponent that a text in scientific notation ends with. -/
def mark (power : Int) : List Char :=
  'e' :: (if power < 0 then '-' else '+') :: (twoDigits power.natAbs).toList

theorem exponent_mark (power : Int) (hrest : Stops rest) :
    Reader.exponent (mark power ++ rest) = (some power, rest) := by
  obtain ⟨hdigits, hvalue⟩ := twoDigits_read power.natAbs
  have hstop : ∀ c ∈ rest.head?, c.isDigit = false := fun c hc => (hrest c hc).1
  unfold mark
  by_cases hsign : power < 0
  · rw [if_pos hsign, List.cons_append, List.cons_append, exponent_minus,
      signedExponent_digits true _ hdigits hstop, hvalue, if_pos rfl]
    congr 2
    omega
  · rw [if_neg hsign, List.cons_append, List.cons_append, exponent_plus,
      signedExponent_digits false _ hdigits hstop, hvalue, if_neg (by simp)]
    congr 2
    omega

theorem number?_mark {n : Nat} (sign : Bool) (hwhole : IsWhole whole) (hrest : Stops rest)
    (hhead : ∀ c ∈ cs.head?, c.isDigit = false)
    (hfraction : fraction cs = (part, mark power ++ rest))
    (h : Binary64.decimalBits (digitsValue (whole ++ part)) (power - part.length) = n) :
    number? sign (whole ++ cs) = some (.ok (.real (Binary64.withSign sign n), rest)) := by
  rw [number?_of_whole sign hwhole hhead,
    numberTail_exponent sign hfraction (exponent_mark power hrest), Binary64.ofDecimal_eq, h]

theorem isNumber_scientific (h : d.Proper) :
    IsNumber d.scientific.toList fun sign => .real (Binary64.withSign sign d.bits) := by
  obtain ⟨digits, point⟩ := d
  intro sign rest hrest
  have hsign (b : Prop) [Decidable b] : (if b then "e-" else "e+").toList =
      ['e', if b then '-' else '+'] := by
    split <;> rfl
  cases digits with
  | nil => exact absurd rfl h.nonempty
  | cons c more =>
    have hone : IsDigits [c] := ⟨List.cons_ne_nil _ _, fun d hd =>
      h.digits d (List.mem_singleton.1 hd ▸ List.mem_cons_self)⟩
    have hwhole : IsWhole [c] := h.isWhole_of_head hone rfl
    cases more with
    | nil =>
      have htext : (scientific ⟨[c], point⟩).toList = [c] ++ mark (point - 1) := by
        simp only [scientific, String.toList_append, hsign, String.toList_singleton]
        rfl
      have hvalue : Binary64.decimalBits (digitsValue ([c] ++ []))
          (point - 1 - ([] : List Char).length) = bits ⟨[c], point⟩ := by
        rw [bits, List.append_nil]
        congr 1
        simp
      rw [htext, List.append_assoc]
      exact number?_mark sign hwhole hrest (forall_head?_cons rfl) rfl hvalue
    | cons e more =>
      have hpart : IsDigits (e :: more) :=
        ⟨List.cons_ne_nil _ _, fun d hd => h.digits d (List.mem_cons_of_mem c hd)⟩
      have htext : (scientific ⟨c :: e :: more, point⟩).toList =
          [c] ++ '.' :: (e :: more ++ mark (point - 1)) := by
        simp only [scientific, String.toList_append, hsign, String.toList_singleton,
          String.toList_ofList, List.append_assoc]
        rfl
      have hvalue : Binary64.decimalBits (digitsValue ([c] ++ e :: more))
          (point - 1 - (e :: more).length) = bits ⟨c :: e :: more, point⟩ := by
        rw [bits]
        congr 1
        simp only [List.length_cons]
        omega
      have hshape : [c] ++ '.' :: (e :: more ++ mark (point - 1)) ++ rest =
          [c] ++ '.' :: (e :: more ++ (mark (point - 1) ++ rest)) := by
        simp only [List.append_assoc, List.cons_append]
      rw [htext, hshape]
      have hfraction : fraction ('.' :: (e :: more ++ (mark (point - 1) ++ rest))) =
          (e :: more, mark (point - 1) ++ rest) :=
        fraction_point hpart (forall_head?_cons rfl)
      exact number?_mark sign hwhole hrest (forall_head?_cons rfl) hfraction hvalue

theorem isNumber_text (h : d.Proper) :
    IsNumber d.text.toList fun sign => .real (Binary64.withSign sign d.bits) := by
  unfold text
  split
  · exact isNumber_positional h
  · exact isNumber_scientific h

end Decimal.Digits

namespace Decimal.Binary64

/-- A finite number is written as a sign, where it is negative, and a text that reads back as its
magnitude. -/
theorem text_eq {x : Binary64} (hfinite : x.isFinite = true) :
    ∃ magnitude, (x.text Json.printSpecials).toList =
        (if x.negative then ['-'] else []) ++ magnitude ∧
      IsNumber magnitude fun sign => .real (withSign sign x.unsignedBits) := by
  have hnan : x.isNaN = false := by
    have hfield : x.exponentField ≠ 2047 := (of_decide_eq_true hfinite).ne
    simp [isNaN, hfield]
  have hbits : (text.withoutSign x).unsignedBits = x.unsignedBits :=
    unsignedBits_withSign false x.unsignedBits_lt
  have hsign : (text.withoutSign x).negative = false :=
    negative_withSign false x.unsignedBits_lt
  have htext (magnitude : String) :
      (if x.negative then "-" ++ magnitude else magnitude).toList =
        (if x.negative then ['-'] else []) ++ magnitude.toList := by
    split
    · rw [String.toList_append]
      rfl
    · rfl
  unfold text
  simp only [hnan, hfinite, Bool.false_eq_true, if_false, Bool.not_true, htext]
  refine ⟨_, rfl, ?_⟩
  split
  · rename_i hzero
    rw [unsignedBits_eq_zero.2 hzero]
    exact Digits.isNumber_point isWhole_zero isWhole_zero.toIsDigits rfl
  · rename_i hzero
    have hpos : 0 < (text.withoutSign x).units := by
      rw [units_congr hbits]
      exact Nat.pos_of_ne_zero hzero
    obtain ⟨hproper, heq⟩ := shortest_bits ((isFinite_congr hbits).trans hfinite) hsign hpos
    rw [← hbits, ← heq]
    exact Digits.isNumber_text hproper

end Decimal.Binary64

namespace Json.Reader

open Decimal (Binary64)

theorem number?_eq_none (hc : c.isDigit = false) : number? sign (c :: cs) = none := by
  have hzero : c ≠ '0' := by
    rintro rfl
    exact absurd hc (by decide)
  unfold number?
  split
  · rename_i heq
    exact absurd (List.cons.inj heq).1 hzero
  · rw [List.takeWhile_cons_of_neg (by simp [hc])]

theorem IsNumber.exists_digit (h : IsNumber cs v) :
    ∃ c more, cs = c :: more ∧ c.isDigit = true := by
  have hread := h false [] .nil
  cases cs with
  | nil => exact absurd hread (by simp [number?])
  | cons c more =>
    refine ⟨c, more, rfl, ?_⟩
    by_contra hc
    rw [List.append_nil, number?_eq_none (Bool.eq_false_iff.2 hc)] at hread
    exact absurd hread (by simp)

theorem constant?_minus (cs : List Char) (hc : c.isDigit = true) :
    constant? ('-' :: c :: cs) = none := by
  have hne : 'I' ≠ c := (ne_of_isDigit hc rfl).symm
  simp [constant?, constants, hne]

theorem scalar_number (sign : Bool) (h : IsNumber cs v) (hrest : Stops rest) :
    scalar ((if sign then ['-'] else []) ++ cs ++ rest) = .ok (v sign, rest) := by
  obtain ⟨c, more, rfl, hc⟩ := h.exists_digit
  have hread := h sign rest hrest
  rw [List.cons_append] at hread
  cases sign with
  | true =>
    have hconstant := constant?_minus (more ++ rest) hc
    change scalar ('-' :: c :: (more ++ rest)) = _
    simp only [scalar, hconstant, hread, Option.getD_some]
  | false =>
    have hconstant : constant? (c :: (more ++ rest)) = none := constant?_of_isDigit hc
    change scalar (c :: (more ++ rest)) = _
    simp only [scalar, hconstant]
    split
    · rename_i heq
      exact absurd (List.cons.inj heq).1 (ne_of_isDigit hc rfl)
    · rw [hread, Option.getD_some]

/-- What starts neither a string nor a container is read as a scalar. -/
theorem value_scalar (h : ∀ c ∈ cs.head?, c ≠ '"' ∧ c ≠ '[' ∧ c ≠ '\x7b') :
    value (fuel + 1) room cs = scalar cs := by
  unfold value
  split
  · exact absurd rfl (h _ rfl).1
  · exact absurd rfl (h _ rfl).2.1
  · exact absurd rfl (h _ rfl).2.2
  · rfl

theorem value_number (sign : Bool) (h : IsNumber cs v) (hrest : Stops rest) :
    value (fuel + 1) room ((if sign then ['-'] else []) ++ cs ++ rest) = .ok (v sign, rest) := by
  rw [← scalar_number sign h hrest]
  refine value_scalar ?_
  obtain ⟨c, more, rfl, hc⟩ := h.exists_digit
  cases sign with
  | true => exact forall_head?_cons (by decide)
  | false =>
    exact forall_head?_cons ⟨ne_of_isDigit hc rfl, ne_of_isDigit hc rfl, ne_of_isDigit hc rfl⟩

theorem int_text (n : Int) : (toString n).toList =
    (if decide (n < 0) then ['-'] else []) ++ Nat.toDigits 10 n.natAbs := by
  cases n with
  | ofNat m => exact Nat.toList_repr
  | negSucc m =>
    change ("-" ++ Nat.repr (m + 1)).toList = _
    rw [String.toList_append, Nat.toList_repr, if_pos (decide_eq_true (Int.negSucc_lt_zero m))]
    rfl

theorem value_int {n : Int} (h : Binary64.digitCount n.natAbs ≤ maxDigits) (hrest : Stops rest) :
    value (fuel + 1) room ((toString n).toList ++ rest) = .ok (.int n, rest) := by
  rw [int_text, value_number _ (isNumber_toDigits h) hrest]
  congr 3
  by_cases hsign : n < 0
  · rw [if_pos (decide_eq_true hsign)]
    omega
  · rw [if_neg (by simpa using hsign)]
    omega

/-- What is no finite number is one of three, if there is only one that is no number at all. -/
theorem special_cases {x : Binary64} (hfinite : x.isFinite = false)
    (hsingle : x.isNaN = true → x = .nan) :
    x = .nan ∨ x = .infinity false ∨ x = .infinity true := by
  cases hnan : x.isNaN with
  | true => exact .inl (hsingle hnan)
  | false =>
    have hfield : x.exponentField = 2047 := by
      have hlt : x.exponentField < Binary64.exponentRange := Nat.mod_lt _ (by decide +kernel)
      have hrange : Binary64.exponentRange = 2048 := by decide +kernel
      have hge : ¬ x.exponentField < 2047 := of_decide_eq_false hfinite
      omega
    have hfraction : x.fraction = 0 := by
      simpa [Binary64.isNaN, hfield] using hnan
    have hx : x = .infinity x.negative := by
      conv_lhs => rw [x.eq_withSign, x.unsignedBits_eq, hfield, hfraction, Nat.add_zero]
      rfl
    right
    cases hsign : x.negative with
    | false => exact .inl (hsign ▸ hx)
    | true => exact .inr (hsign ▸ hx)

theorem text_nan : Binary64.nan.text printSpecials = "NaN" := by decide +kernel

theorem text_infinity : (Binary64.infinity false).text printSpecials = "Infinity" := by
  decide +kernel

theorem text_minus_infinity : (Binary64.infinity true).text printSpecials = "-Infinity" := by
  decide +kernel

theorem value_special {x : Binary64} (hfinite : x.isFinite = false)
    (hsingle : x.isNaN = true → x = .nan) :
    value (fuel + 1) room ((x.text printSpecials).toList ++ rest) = .ok (.real x, rest) := by
  rcases special_cases hfinite hsingle with rfl | rfl | rfl
  · rw [text_nan]
    rfl
  · rw [text_infinity]
    rfl
  · rw [text_minus_infinity]
    rfl

theorem value_real {x : Binary64} (hfinite : x.isFinite = true) (hrest : Stops rest) :
    value (fuel + 1) room ((x.text printSpecials).toList ++ rest) = .ok (.real x, rest) := by
  obtain ⟨magnitude, htext, hnumber⟩ := Decimal.Binary64.text_eq hfinite
  rw [htext, value_number _ hnumber hrest, ← x.eq_withSign]

end Json.Reader

end Flowplan
