import Flowplan.Json.Encoding
import Flowplan.Proofs.PrintedString
import Mathlib.Data.List.TakeWhile

/-!
The bytes of a text are decoded to the text, in every encoding, with a byte order mark or without
one. Without one the first two characters of the text tell its encoding, so there neither may be the
zero character and the first has to be one of ASCII.
-/

namespace Flowplan
set_option autoImplicit true

namespace Text.Encoding

/-- The two bytes of a number below 2 ^ 16. -/
def unitBytes (bigEndian : Bool) (n : Nat) : List UInt8 :=
  if bigEndian then [.ofNat (n / 256), .ofNat (n % 256)] else [.ofNat (n % 256), .ofNat (n / 256)]

/-- The bytes of a character. -/
def encodeChar (c : Char) : Encoding → List UInt8
  | .utf8 => String.utf8EncodeChar c
  | .utf16 bigEndian =>
    if c.toNat < 0x10000 then unitBytes bigEndian c.toNat
    else unitBytes bigEndian (0xD800 + (c.toNat - 0x10000) / 0x400) ++
      unitBytes bigEndian (0xDC00 + (c.toNat - 0x10000) % 0x400)
  | .utf32 bigEndian =>
    if bigEndian then unitBytes true (c.toNat / 65536) ++ unitBytes true (c.toNat % 65536)
    else unitBytes false (c.toNat % 65536) ++ unitBytes false (c.toNat / 65536)

/-- The byte order mark. -/
def mark : Char := '\uFEFF'

/-- The bytes of a text, with a byte order mark in front where one is asked for. -/
def encode (marked : Bool) (cs : List Char) (e : Encoding) : List UInt8 :=
  ((if marked then [mark] else []) ++ cs).flatMap fun c => e.encodeChar c

end Text.Encoding

namespace Text.Decoder

open Encoding (unitBytes)

theorem chars_toNat (c : Char) : chars c.toNat = [c] := by
  have hvalid := Json.toNat_valid c
  rw [chars, if_neg (by simp; omega), Char.ofNat_toNat]

theorem unitBytes_eq (bigEndian : Bool) (h : n < 0x10000) :
    ∃ a b, unitBytes bigEndian n = [a, b] ∧ unit16 bigEndian a b = n := by
  cases bigEndian with
  | true =>
    refine ⟨_, _, rfl, ?_⟩
    simp only [unit16, UInt8.toNat_ofNat', if_true]
    omega
  | false =>
    refine ⟨_, _, rfl, ?_⟩
    simp only [unit16, UInt8.toNat_ofNat', Bool.false_eq_true, if_false]
    omega

/-- A unit that is no half of a surrogate pair is a character. -/
theorem utf16_unit {a b : UInt8} (h : unit16 bigEndian a b = c.toNat) (start : Nat)
    (acc : List Char) (rest : List UInt8) :
    utf16 bigEndian start acc (a :: b :: rest) = utf16 bigEndian (start + 2) (c :: acc) rest := by
  have hvalid := Json.toNat_valid c
  have hchars : (chars (unit16 bigEndian a b)).reverse ++ acc = c :: acc := by
    rw [h, chars_toNat]
    rfl
  match rest with
  | [] => simp only [utf16, hchars]
  | [x] => simp only [utf16]
  | x :: y :: rest =>
    have hpair : ¬ (0xD800 ≤ c.toNat ∧ c.toNat < 0xDC00) := by omega
    rw [utf16]
    simp only [h, chars_toNat]
    rw [if_neg (by simp; omega)]
    rfl

/-- Two halves of a surrogate pair are a character beyond the basic plane. -/
theorem utf16_pair {a b a' b' : UInt8} (hlarge : 0x10000 ≤ c.toNat)
    (h : unit16 bigEndian a b = 0xD800 + (c.toNat - 0x10000) / 0x400)
    (h' : unit16 bigEndian a' b' = 0xDC00 + (c.toNat - 0x10000) % 0x400) (start : Nat)
    (acc : List Char) (rest : List UInt8) :
    utf16 bigEndian start acc (a :: b :: a' :: b' :: rest) =
      utf16 bigEndian (start + 4) (c :: acc) rest := by
  have hvalid := Json.toNat_valid c
  have hcode : 0x10000 + (unit16 bigEndian a b - 0xD800) * 0x400 +
      (unit16 bigEndian a' b' - 0xDC00) = c.toNat := by omega
  rw [utf16]
  simp only [hcode, Char.ofNat_toNat]
  rw [if_pos (by simp; omega)]

theorem utf16_encodeChar (bigEndian : Bool) (start : Nat) (acc : List Char) (c : Char)
    (rest : List UInt8) :
    ∃ next, utf16 bigEndian start acc ((Encoding.utf16 bigEndian).encodeChar c ++ rest) =
      utf16 bigEndian next (c :: acc) rest := by
  have hvalid := Json.toNat_valid c
  rw [Encoding.encodeChar]
  split
  · rename_i hsmall
    obtain ⟨a, b, hbytes, hunit⟩ := unitBytes_eq bigEndian hsmall
    rw [hbytes]
    exact ⟨_, utf16_unit hunit start acc rest⟩
  · rename_i hlarge
    obtain ⟨a, b, hbytes, hunit⟩ := unitBytes_eq (n := 0xD800 + (c.toNat - 0x10000) / 0x400)
      bigEndian (by omega)
    obtain ⟨a', b', hbytes', hunit'⟩ := unitBytes_eq (n := 0xDC00 + (c.toNat - 0x10000) % 0x400)
      bigEndian (by omega)
    rw [hbytes, hbytes']
    exact ⟨_, utf16_pair (Nat.le_of_not_lt hlarge) hunit hunit' start acc rest⟩

theorem utf32_encodeChar (bigEndian : Bool) (start : Nat) (acc : List Char) (c : Char)
    (rest : List UInt8) :
    utf32 bigEndian start acc ((Encoding.utf32 bigEndian).encodeChar c ++ rest) =
      utf32 bigEndian (start + 4) (c :: acc) rest := by
  have hvalid := Json.toNat_valid c
  have hchars : (chars c.toNat).reverse ++ acc = c :: acc := by
    rw [chars_toNat]
    rfl
  have hrange : ¬ 0x110000 ≤ c.toNat := by omega
  obtain ⟨a, b, hhigh, hunit⟩ := unitBytes_eq (n := c.toNat / 65536) bigEndian (by omega)
  obtain ⟨a', b', hlow, hunit'⟩ := unitBytes_eq (n := c.toNat % 65536) bigEndian (by omega)
  have hcode : c.toNat / 65536 * 65536 + c.toNat % 65536 = c.toNat := by omega
  cases bigEndian with
  | true =>
    rw [Encoding.encodeChar, if_pos rfl, hhigh, hlow]
    simp only [List.cons_append, List.nil_append, utf32, hunit, hunit', if_true, hcode, hrange,
      if_false, hchars]
  | false =>
    rw [Encoding.encodeChar, if_neg Bool.false_ne_true, hhigh, hlow]
    simp only [List.cons_append, List.nil_append, utf32, hunit, hunit', Bool.false_eq_true, hcode,
      hrange, if_false, hchars]

/-- A first byte and as many bytes after it as it asks for are a character. -/
theorem utf8_character {first : UInt8} (tail : List UInt8)
    (hwidth : width? first.toNat = some (tail.length + 1))
    (hgood : goodTail first.toNat (tail.map UInt8.toNat) = tail.length)
    (hcode : codePoint (first.toNat :: tail.map UInt8.toNat) = c.toNat) (halves : Bool)
    (fuel start : Nat) (acc : List Char) (rest : List UInt8) :
    utf8 halves (fuel + 1) start acc (first :: (tail ++ rest)) =
      utf8 halves fuel (start + (tail.length + 1)) (c :: acc) rest := by
  rw [utf8]
  simp only [hwidth, Nat.add_sub_cancel, List.take_left', hgood, hcode, Char.ofNat_toNat, if_true,
    List.drop_left']

theorem secondFits_of {first second : Nat} (h : 0x80 ≤ second ∧ second ≤ 0xBF)
    (hlow : (first = 0xE0 → 0xA0 ≤ second) ∧ (first = 0xF0 → 0x90 ≤ second))
    (hhigh : (first = 0xED → second ≤ 0x9F) ∧ (first = 0xF4 → second ≤ 0x8F)) :
    secondFits first second = true := by
  simp only [secondFits, beq_iff_eq, Bool.and_eq_true, decide_eq_true_eq]
  split_ifs <;> omega

theorem isContinuation_iff (b : Nat) : isContinuation b = true ↔ 0x80 ≤ b ∧ b ≤ 0xBF := by
  simp only [isContinuation, Bool.and_eq_true, decide_eq_true_eq]

theorem goodTail_eq (h : secondFits first second = true)
    (hrest : ∀ b ∈ rest, isContinuation b = true) :
    goodTail first (second :: rest) = rest.length + 1 := by
  rw [goodTail, if_pos h, List.takeWhile_eq_self_iff.2 hrest, Nat.add_comm]

theorem toNat_byte (h : n < 256) : (UInt8.ofNat n).toNat = n := by
  rw [UInt8.toNat_ofNat', Nat.mod_eq_of_lt h]

theorem encodeChar_utf8 (c : Char) : Encoding.utf8.encodeChar c =
    if c.toNat ≤ 127 then [UInt8.ofNat c.toNat]
    else if c.toNat ≤ 2047 then
      [UInt8.ofNat (c.toNat / 64 % 32 + 192), UInt8.ofNat (c.toNat % 64 + 128)]
    else if c.toNat ≤ 65535 then
      [UInt8.ofNat (c.toNat / 4096 % 16 + 224), UInt8.ofNat (c.toNat / 64 % 64 + 128),
        UInt8.ofNat (c.toNat % 64 + 128)]
    else
      [UInt8.ofNat (c.toNat / 262144 % 8 + 240), UInt8.ofNat (c.toNat / 4096 % 64 + 128),
        UInt8.ofNat (c.toNat / 64 % 64 + 128), UInt8.ofNat (c.toNat % 64 + 128)] := rfl

theorem utf8_encodeChar (halves : Bool) (fuel start : Nat) (acc : List Char) (c : Char)
    (rest : List UInt8) :
    ∃ next, utf8 halves (fuel + 1) start acc (Encoding.utf8.encodeChar c ++ rest) =
      utf8 halves fuel next (c :: acc) rest := by
  have hvalid := Json.toNat_valid c
  have htail : ∀ m, (UInt8.ofNat (m % 64 + 128)).toNat = m % 64 + 128 := fun m =>
    toNat_byte (by omega)
  have hcontinues : ∀ m, isContinuation (m % 64 + 128) = true := fun m =>
    (isContinuation_iff _).2 (by omega)
  rw [encodeChar_utf8]
  generalize hn : c.toNat = n at *
  split
  · have hfirst : (UInt8.ofNat n).toNat = n := toNat_byte (by omega)
    refine ⟨_, utf8_character [] ?_ ?_ ?_ ..⟩
    · rw [hfirst, width?, if_pos (by omega)]
      rfl
    · rfl
    · rw [hfirst, hn]
      rfl
  · split
    · have hfirst : (UInt8.ofNat (n / 64 % 32 + 192)).toNat = n / 64 % 32 + 192 :=
        toNat_byte (by omega)
      refine ⟨_, utf8_character [_] ?_ ?_ ?_ ..⟩
      · rw [hfirst, width?, if_neg (by omega), if_neg (by omega), if_pos (by omega)]
        rfl
      · rw [List.map_singleton, hfirst, htail]
        exact goodTail_eq (secondFits_of (by omega) (by omega) (by omega)) (by simp)
      · rw [List.map_singleton, hfirst, htail, hn]
        simp [codePoint]
        omega
    · split
      · have hfirst : (UInt8.ofNat (n / 4096 % 16 + 224)).toNat = n / 4096 % 16 + 224 :=
          toNat_byte (by omega)
        refine ⟨_, utf8_character [_, _] ?_ ?_ ?_ ..⟩
        · rw [hfirst, width?, if_neg (by omega), if_neg (by omega), if_neg (by omega),
            if_pos (by omega)]
          rfl
        · rw [List.map_cons, List.map_singleton, hfirst, htail, htail]
          exact goodTail_eq (secondFits_of (by omega) (by omega) (by omega)) (by simp [hcontinues])
        · rw [List.map_cons, List.map_singleton, hfirst, htail, htail, hn]
          simp [codePoint]
          omega
      · have hfirst : (UInt8.ofNat (n / 262144 % 8 + 240)).toNat = n / 262144 % 8 + 240 :=
          toNat_byte (by omega)
        refine ⟨_, utf8_character [_, _, _] ?_ ?_ ?_ ..⟩
        · rw [hfirst, width?, if_neg (by omega), if_neg (by omega), if_neg (by omega),
            if_neg (by omega), if_pos (by omega)]
          rfl
        · rw [List.map_cons, List.map_cons, List.map_singleton, hfirst, htail, htail, htail]
          exact goodTail_eq (secondFits_of (by omega) (by omega) (by omega)) (by simp [hcontinues])
        · rw [List.map_cons, List.map_cons, List.map_singleton, hfirst, htail, htail, htail, hn]
          simp [codePoint]
          omega

theorem utf8_encode (halves : Bool) (start : Nat) (acc : List Char) {cs : List Char}
    (h : cs.length ≤ fuel) :
    utf8 halves fuel start acc (cs.flatMap fun c => Encoding.utf8.encodeChar c) =
      .ok (acc.reverse ++ cs) := by
  induction cs generalizing fuel start acc with
  | nil => cases fuel <;> simp [utf8]
  | cons c cs ih =>
    obtain ⟨fuel, rfl⟩ := Nat.exists_eq_add_one_of_ne_zero (Nat.ne_zero_of_lt h)
    obtain ⟨next, hnext⟩ := utf8_encodeChar halves fuel start acc c
      (cs.flatMap fun c => Encoding.utf8.encodeChar c)
    rw [List.flatMap_cons, hnext, ih _ _ (Nat.le_of_succ_le_succ h), List.reverse_cons,
      List.append_assoc, List.singleton_append]

theorem utf16_encode (bigEndian : Bool) (start : Nat) (acc cs : List Char) :
    utf16 bigEndian start acc (cs.flatMap fun c => (Encoding.utf16 bigEndian).encodeChar c) =
      .ok (acc.reverse ++ cs) := by
  induction cs generalizing start acc with
  | nil => simp [utf16]
  | cons c cs ih =>
    obtain ⟨next, hnext⟩ := utf16_encodeChar bigEndian start acc c
      (cs.flatMap fun c => (Encoding.utf16 bigEndian).encodeChar c)
    rw [List.flatMap_cons, hnext, ih, List.reverse_cons, List.append_assoc, List.singleton_append]

theorem utf32_encode (bigEndian : Bool) (start : Nat) (acc cs : List Char) :
    utf32 bigEndian start acc (cs.flatMap fun c => (Encoding.utf32 bigEndian).encodeChar c) =
      .ok (acc.reverse ++ cs) := by
  induction cs generalizing start acc with
  | nil => simp [utf32]
  | cons c cs ih =>
    rw [List.flatMap_cons, utf32_encodeChar, ih, List.reverse_cons, List.append_assoc,
      List.singleton_append]

end Text.Decoder

namespace Json

open Text (Encoding)
open Text.Decoder

theorem length_le_utf8 (cs : List Char) :
    cs.length ≤ (cs.flatMap fun c => Encoding.utf8.encodeChar c).length := by
  induction cs with
  | nil => exact Nat.le_refl 0
  | cons c cs ih =>
    have hpos : 0 < (Encoding.utf8.encodeChar c).length := by
      rw [encodeChar_utf8]
      split_ifs <;> exact Nat.succ_pos _
    rw [List.flatMap_cons, List.length_append, List.length_cons]
    omega

theorem decodeAs_encode (e : Encoding) (skipped : Nat) (cs : List Char) :
    decodeAs e skipped (cs.flatMap fun c => e.encodeChar c) = .ok cs := by
  match e with
  | .utf8 => exact utf8_encode true 0 [] (length_le_utf8 cs)
  | .utf16 bigEndian => exact utf16_encode bigEndian skipped [] cs
  | .utf32 bigEndian => exact utf32_encode bigEndian skipped [] cs

/-! ### A byte order mark -/

theorem find_mark {e : Encoding} {tail : List UInt8}
    (htail : e = .utf16 false → ∀ more, tail ≠ 0 :: 0 :: more) :
    (marks.find? fun m => m.1.isPrefixOf (e.encodeChar Encoding.mark ++ tail)) =
      some (e.encodeChar Encoding.mark, e) := by
  match e with
  | .utf8 => rfl
  | .utf16 true => rfl
  | .utf32 true => rfl
  | .utf32 false => rfl
  | .utf16 false =>
    have hlonger : ([0xFF, 0xFE, 0x00, 0x00] : List UInt8).isPrefixOf (0xFF :: 0xFE :: tail)
        = false := by
      rw [Bool.eq_false_iff]
      intro h
      obtain ⟨more, hmore⟩ := List.isPrefixOf_iff_prefix.1 h
      exact htail rfl more (by simpa using hmore.symm)
    change (marks.find? fun m => m.1.isPrefixOf (0xFF :: 0xFE :: tail)) = _
    simp only [marks, List.find?_cons, hlonger]
    rfl

/-- A text in ASCII has no byte order mark. -/
theorem find_no_mark {a : UInt8} (ha : a.toNat < 0x80)
    (htail : a = 0 → ∀ more, tail ≠ 0 :: 0xFE :: more) :
    (marks.find? fun m => m.1.isPrefixOf (a :: tail)) = none := by
  have hzeros : ¬ List.isPrefixOf [0x00, 0x00, 0xFE, 0xFF] (a :: tail) = true := by
    intro h
    obtain ⟨rfl, more, hmore⟩ := List.cons_prefix_cons.1 (List.isPrefixOf_iff_prefix.1 h)
    exact htail rfl _ hmore.symm
  have hother {x : UInt8} (hx : ¬ x.toNat < 0x80) (more : List UInt8) :
      ¬ List.isPrefixOf (x :: more) (a :: tail) = true := by
    intro h
    obtain ⟨rfl, -⟩ := List.cons_prefix_cons.1 (List.isPrefixOf_iff_prefix.1 h)
    exact hx ha
  rw [List.find?_eq_none]
  simp only [marks, List.forall_mem_cons]
  exact ⟨hzeros, hother (by decide) _, hother (by decide) _, hother (by decide) _,
    hother (by decide) _, nofun⟩

/-- The bytes of a character up to 0x7F are its number, and zeros. -/
theorem encodeChar_ascii (hc : c.toNat < 0x80) (e : Encoding) :
    e.encodeChar c = match e with
      | .utf8 => [.ofNat c.toNat]
      | .utf16 true => [0, .ofNat c.toNat]
      | .utf16 false => [.ofNat c.toNat, 0]
      | .utf32 true => [0, 0, 0, .ofNat c.toNat]
      | .utf32 false => [.ofNat c.toNat, 0, 0, 0] := by
  have hhigh : c.toNat / 256 = 0 := by omega
  have hlow : c.toNat % 256 = c.toNat := by omega
  have hlarge : c.toNat / 65536 = 0 := by omega
  have hsmall : c.toNat % 65536 = c.toNat := by omega
  match e with
  | .utf8 => rw [encodeChar_utf8, if_pos (Nat.le_of_lt_succ hc)]
  | .utf16 bigEndian =>
    rw [Encoding.encodeChar, if_pos (Nat.lt_trans hc (by decide))]
    cases bigEndian <;> simp [Encoding.unitBytes, hhigh, hlow]
  | .utf32 bigEndian =>
    rw [Encoding.encodeChar, hlarge, hsmall]
    cases bigEndian <;> simp [Encoding.unitBytes, hhigh, hlow]

theorem utf8EncodeChar_head (hc : c.toNat ≠ 0) :
    ∃ x more, Encoding.utf8.encodeChar c = x :: more ∧ x ≠ 0 := by
  have hbyte {n : Nat} (hpos : 0 < n) (hlt : n < 256) : UInt8.ofNat n ≠ 0 := by
    intro h
    have hn := toNat_byte hlt
    rw [h] at hn
    exact absurd hn.symm (Nat.ne_of_gt hpos)
  rw [encodeChar_utf8]
  split
  · exact ⟨_, _, rfl, hbyte (by omega) (by omega)⟩
  · split
    · exact ⟨_, _, rfl, hbyte (by omega) (by omega)⟩
    · split <;> exact ⟨_, _, rfl, hbyte (by omega) (by omega)⟩

theorem utf16EncodeChar_head (bigEndian : Bool) (hc : c.toNat ≠ 0) :
    ∃ x y more, (Encoding.utf16 bigEndian).encodeChar c = x :: y :: more ∧ (x ≠ 0 ∨ y ≠ 0) := by
  have hvalid := Json.toNat_valid c
  have hunit {n : Nat} (hpos : 0 < n) (hlt : n < 0x10000) :
      ∃ x y, Encoding.unitBytes bigEndian n = [x, y] ∧ (x ≠ 0 ∨ y ≠ 0) := by
    obtain ⟨x, y, hbytes, hn⟩ := unitBytes_eq bigEndian hlt
    refine ⟨x, y, hbytes, ?_⟩
    by_contra hzero
    simp only [not_or, not_not] at hzero
    obtain ⟨rfl, rfl⟩ := hzero
    cases bigEndian <;> exact absurd hn (Nat.ne_of_lt hpos)
  rw [Encoding.encodeChar]
  split
  · rename_i hsmall
    obtain ⟨x, y, hbytes, hne⟩ := hunit (Nat.pos_of_ne_zero hc) hsmall
    exact ⟨x, y, [], hbytes, hne⟩
  · obtain ⟨x, y, hbytes, hne⟩ := hunit (n := 0xD800 + (c.toNat - 0x10000) / 0x400) (by omega)
      (by omega)
    rw [hbytes]
    exact ⟨x, y, _, rfl, hne⟩

/-- A text with a byte order mark is decoded, whatever it starts with; in units of two bytes, the
lower one first, it must not start with the zero character. -/
theorem decode_marked (hc : ∀ c ∈ cs.head?, c.toNat ≠ 0) (e : Encoding) :
    decode (e.encode true cs) = .ok cs := by
  have hnonzero : e = .utf16 false → ∀ more,
      (cs.flatMap fun c => e.encodeChar c) ≠ 0 :: 0 :: more := by
    rintro rfl more hmore
    cases cs with
    | nil => exact nomatch hmore
    | cons c cs =>
      obtain ⟨x, y, others, hbytes, hne⟩ := utf16EncodeChar_head false (hc c rfl)
      rw [List.flatMap_cons, hbytes] at hmore
      obtain ⟨hx, hmore⟩ := List.cons.inj hmore
      exact hne.elim (absurd hx) (absurd (List.cons.inj hmore).1)
  rw [Encoding.encode, if_pos rfl, List.singleton_append, List.flatMap_cons, decode,
    find_mark hnonzero]
  exact (congrArg (decodeAs e _) List.drop_left).trans (decodeAs_encode e _ cs)

/-! ### No byte order mark -/

theorem unmarkedEncoding_utf8 {a : UInt8} (ha : a ≠ 0) (htail : tail.head? ≠ some 0) :
    unmarkedEncoding (a :: tail) = .utf8 := by
  match tail, htail with
  | [], _ => rfl
  | [b], hb => rw [unmarkedEncoding, if_neg ha, if_neg fun h => hb (congrArg some h)]
  | [b, c], _ => rfl
  | b :: c :: d :: tail, hb =>
    rw [unmarkedEncoding, if_neg ha, if_neg fun h => hb (congrArg some h)]

/-- The zero bytes tell the encoding of a text whose first two characters are not the zero
character, where the first is in ASCII. -/
theorem unmarkedEncoding_encode (hc : c.toNat < 0x80) (hne : UInt8.ofNat c.toNat ≠ 0)
    (hsecond : ∀ d ∈ cs.head?, d.toNat ≠ 0) (e : Encoding) :
    unmarkedEncoding (e.encode false (c :: cs)) = e := by
  rw [Encoding.encode, if_neg Bool.false_ne_true, List.nil_append, List.flatMap_cons,
    encodeChar_ascii hc]
  match e with
  | .utf8 =>
    apply unmarkedEncoding_utf8 hne
    cases cs with
    | nil => exact nofun
    | cons d cs =>
      obtain ⟨x, more, hbytes, hx⟩ := utf8EncodeChar_head (hsecond d rfl)
      rw [List.flatMap_cons, hbytes]
      exact fun h => hx (Option.some.inj h)
  | .utf16 true =>
    cases cs with
    | nil => rfl
    | cons d cs =>
      obtain ⟨x, y, more, hbytes, -⟩ := utf16EncodeChar_head true (hsecond d rfl)
      rw [List.flatMap_cons, hbytes]
      change unmarkedEncoding (0 :: UInt8.ofNat c.toNat :: x :: y :: _) = _
      rw [unmarkedEncoding, if_pos rfl, if_neg hne]
  | .utf16 false =>
    cases cs with
    | nil =>
      change unmarkedEncoding [UInt8.ofNat c.toNat, 0] = _
      rw [unmarkedEncoding, if_neg hne, if_pos rfl]
    | cons d cs =>
      obtain ⟨x, y, more, hbytes, hunit⟩ := utf16EncodeChar_head false (hsecond d rfl)
      have hzeros : ¬ (x = 0 ∧ y = 0) := fun h => hunit.elim (absurd h.1) (absurd h.2)
      rw [List.flatMap_cons, hbytes]
      change unmarkedEncoding (UInt8.ofNat c.toNat :: 0 :: x :: y :: _) = _
      rw [unmarkedEncoding, if_neg hne, if_pos rfl, if_neg hzeros]
  | .utf32 true => rfl
  | .utf32 false =>
    change unmarkedEncoding (UInt8.ofNat c.toNat :: 0 :: 0 :: 0 :: _) = _
    rw [unmarkedEncoding, if_neg hne, if_pos rfl, if_pos ⟨rfl, rfl⟩]

/-- A text whose first character is in ASCII, and whose first two are not the zero character, is
decoded without a byte order mark. -/
theorem decode_unmarked (hc : c.toNat < 0x80) (hne : c.toNat ≠ 0)
    (hsecond : ∀ d ∈ cs.head?, d.toNat ≠ 0) (e : Encoding) :
    decode (e.encode false (c :: cs)) = .ok (c :: cs) := by
  have hbyte : (UInt8.ofNat c.toNat).toNat = c.toNat := toNat_byte (by omega)
  have hfirst : (UInt8.ofNat c.toNat).toNat < 0x80 := hbyte.symm ▸ hc
  have hzero : UInt8.ofNat c.toNat ≠ 0 := by
    intro h
    rw [h] at hbyte
    exact hne hbyte.symm
  have hnone : (marks.find? fun m => m.1.isPrefixOf (e.encode false (c :: cs))) = none := by
    rw [Encoding.encode, if_neg Bool.false_ne_true, List.nil_append, List.flatMap_cons,
      encodeChar_ascii hc]
    match e with
    | .utf8 => exact find_no_mark hfirst fun h => absurd h hzero
    | .utf16 true =>
      exact find_no_mark (by decide) fun _ more h => hzero (List.cons.inj h).1
    | .utf16 false => exact find_no_mark hfirst fun h => absurd h hzero
    | .utf32 true =>
      exact find_no_mark (by decide) fun _ more h =>
        absurd (List.cons.inj (List.cons.inj h).2).1 (by decide)
    | .utf32 false => exact find_no_mark hfirst fun h => absurd h hzero
  rw [decode, hnone]
  change decodeAs (unmarkedEncoding (e.encode false (c :: cs))) 0 _ = _
  rw [unmarkedEncoding_encode hc hzero hsecond]
  exact decodeAs_encode e 0 (c :: cs)

end Json
end Flowplan
