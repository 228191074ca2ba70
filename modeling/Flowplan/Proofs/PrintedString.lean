import Flowplan.Json.Printer
import Flowplan.Json.Reader
import Flowplan.Proofs.NumberReading

/-!
A printed string reads back as the string: what stands for one character is read as its code units,
and the two halves of a character beyond the basic plane are joined again.
-/

namespace Flowplan.Json
set_option autoImplicit true

open Reader

/-- The last digits of a number to base sixteen, zeros in front where there are too few. -/
def paddedHex (width n : Nat) : List Char :=
  List.replicate (width - (Nat.toDigits 16 n).length) '0' ++ Nat.toDigits 16 n

theorem paddedHex_one (h : n < 16) : paddedHex 1 n = [Nat.digitChar n] := by
  rw [paddedHex, Nat.toDigits_of_lt_base h]
  rfl

theorem paddedHex_succ (width n : Nat) :
    paddedHex (width + 2) n = paddedHex (width + 1) (n / 16) ++ [Nat.digitChar (n % 16)] := by
  rw [paddedHex, Nat.toDigits_eq_if (by decide)]
  split
  · rename_i h
    have hzero : Nat.toDigits 16 0 = ['0'] := rfl
    rw [Nat.div_eq_of_lt h, Nat.mod_eq_of_lt h, paddedHex, hzero, ← List.replicate_succ']
    rfl
  · have hwidth (k : Nat) : width + 2 - (k + 1) = width + 1 - k := by omega
    rw [paddedHex, List.length_append, List.length_singleton, hwidth, List.append_assoc]

theorem hexDigits_four (h : n < 0x10000) :
    (Text.hexDigits 4 n).toList = [Nat.digitChar (n / 16 / 16 / 16),
      Nat.digitChar (n / 16 / 16 % 16), Nat.digitChar (n / 16 % 16), Nat.digitChar (n % 16)] := by
  have htext : (Text.hexDigits 4 n).toList = paddedHex 4 n := by
    simp only [Text.hexDigits, Text.replicate, String.toList_append, String.toList_ofList,
      String.length_ofList, paddedHex]
  rw [htext, paddedHex_succ, paddedHex_succ, paddedHex_succ, paddedHex_one (by omega)]
  rfl

theorem hexValue?_digitChar (h : n < 16) : hexValue? (Nat.digitChar n) = some n := by
  revert n
  decide

theorem unit?_digits (h : n < 0x10000) :
    unit? (Nat.digitChar (n / 16 / 16 / 16)) (Nat.digitChar (n / 16 / 16 % 16))
      (Nat.digitChar (n / 16 % 16)) (Nat.digitChar (n % 16)) = some n := by
  have hfirst := hexValue?_digitChar (n := n / 16 / 16 / 16) (by omega)
  have hsecond := hexValue?_digitChar (n := n / 16 / 16 % 16) (by omega)
  have hthird := hexValue?_digitChar (n := n / 16 % 16) (by omega)
  have hfourth := hexValue?_digitChar (n := n % 16) (by omega)
  simp only [unit?, hfirst, hsecond, hthird, hfourth, Option.bind_eq_bind, Option.bind_some]
  congr 1
  omega

/-- The code units that the reader finds in the text of a character. -/
def units (ascii : Bool) (c : Char) : List Nat :=
  if ascii && 0x10000 ≤ c.toNat then
    [0xD800 + (c.toNat - 0x10000) / 0x400, 0xDC00 + (c.toNat - 0x10000) % 0x400]
  else [c.toNat]

/-- The reader takes a text for one or more code units, where something follows it. -/
def ReadsAs (cs : List Char) (ns : List Nat) : Prop :=
  ∀ start acc next rest, stringBody start acc (cs ++ next :: rest) =
    stringBody start (ns.reverse ++ acc) (next :: rest)

theorem ReadsAs.append (hc : ReadsAs cs ns) (hd : ReadsAs ds ms) (hne : ds ≠ []) :
    ReadsAs (cs ++ ds) (ns ++ ms) := by
  intro start acc next rest
  obtain ⟨d, more, rfl⟩ := List.exists_cons_of_ne_nil hne
  rw [List.append_assoc, List.cons_append, hc, ← List.cons_append, hd, List.reverse_append,
    List.append_assoc]

theorem readsAs_unitEscape (h : n < 0x10000) : ReadsAs (unitEscape n).toList [n] := by
  intro start acc next rest
  have htext : (unitEscape n).toList ++ next :: rest = '\\' :: 'u' ::
      Nat.digitChar (n / 16 / 16 / 16) :: Nat.digitChar (n / 16 / 16 % 16) ::
      Nat.digitChar (n / 16 % 16) :: Nat.digitChar (n % 16) :: next :: rest := by
    rw [unitEscape, String.toList_append, hexDigits_four h]
    rfl
  rw [htext, stringBody, unit?_digits h]
  rfl

theorem unitEscape_ne_nil (n : Nat) : (unitEscape n).toList ≠ [] := by
  rw [unitEscape, String.toList_append]
  exact List.cons_ne_nil _ _

theorem readsAs_simple (hu : c ≠ 'u') (h : simpleEscape? c = some n) : ReadsAs ['\\', c] [n] := by
  intro start acc next rest
  change stringBody start acc ('\\' :: c :: next :: rest) = _
  rw [stringBody]
  · simp only [beq_eq_false_iff_ne.2 hu, Bool.false_eq_true, if_false, h]
    rfl
  · intro _ _ _ _ _ _ hcu
    exact absurd hcu hu

theorem readsAs_self (hquote : c ≠ '"') (hslash : c ≠ '\\') (hcontrol : 0x20 ≤ c.toNat) :
    ReadsAs [c] [c.toNat] := by
  intro start acc next rest
  change stringBody start acc (c :: next :: rest) = _
  have hlow : ¬ c.toNat < 0x20 := Nat.not_lt.2 hcontrol
  rw [stringBody]
  · simp only [beq_eq_false_iff_ne.2 hquote, hlow, Bool.false_eq_true, if_false]
    rfl
  all_goals
    intros
    exact absurd ‹c = '\\'› hslash

theorem toNat_valid (c : Char) : c.toNat < 0xD800 ∨ 0xDFFF < c.toNat ∧ c.toNat < 0x110000 :=
  c.valid

theorem units_of_lt (ascii : Bool) (h : c.toNat < 0x10000) : units ascii c = [c.toNat] :=
  if_neg (by simp [h])

/-- An escape for each code unit of a character. -/
theorem readsAs_charEscape (c : Char) : ReadsAs (charEscape c).toList (units true c) := by
  unfold charEscape
  simp only
  split
  · rename_i h
    rw [units_of_lt true h]
    exact readsAs_unitEscape h
  · rename_i h
    have hvalid := toNat_valid c
    have hunits : units true c = [0xD800 + (c.toNat - 0x10000) / 0x400] ++
        [0xDC00 + (c.toNat - 0x10000) % 0x400] := if_pos (by simpa using h)
    rw [hunits, String.toList_append]
    exact (readsAs_unitEscape (by omega)).append (readsAs_unitEscape (by omega))
      (unitEscape_ne_nil _)

theorem readsAs_printChar (ascii : Bool) (c : Char) :
    ReadsAs (printChar ascii c).toList (units ascii c) := by
  have hsimple (e : Char) (hu : e ≠ 'u') (hlow : c.toNat < 0x10000)
      (h : simpleEscape? e = some c.toNat) : ReadsAs ['\\', e] (units ascii c) := by
    rw [units_of_lt ascii hlow]
    exact readsAs_simple hu h
  have hequal {d : Char} (h : (c == d) = true) : c = d := beq_iff_eq.1 h
  have hcode {n : Nat} (h : (c.toNat == n) = true) : c.toNat = n := beq_iff_eq.1 h
  unfold printChar
  split_ifs with hquote hslash hnewline hreturn htab hback hfeed hcontrol hascii
  · obtain rfl := hequal hquote
    exact hsimple '"' (by decide) (by decide) rfl
  · obtain rfl := hequal hslash
    exact hsimple '\\' (by decide) (by decide) rfl
  · obtain rfl := hequal hnewline
    exact hsimple 'n' (by decide) (by decide) rfl
  · obtain rfl := hequal hreturn
    exact hsimple 'r' (by decide) (by decide) rfl
  · obtain rfl := hequal htab
    exact hsimple 't' (by decide) (by decide) rfl
  · have hc := hcode hback
    exact hsimple 'b' (by decide) (by omega) (congrArg some hc.symm)
  · have hc := hcode hfeed
    exact hsimple 'f' (by decide) (by omega) (congrArg some hc.symm)
  · rw [units_of_lt ascii (by omega), ← units_of_lt true (by omega)]
    exact readsAs_charEscape c
  · rw [(Bool.and_eq_true_iff.1 hascii).1]
    exact readsAs_charEscape c
  · have hunits : units ascii c = [c.toNat] := by
      refine if_neg ?_
      intro h
      obtain ⟨rfl, hwide⟩ := Bool.and_eq_true_iff.1 h
      have hlarge := of_decide_eq_true hwide
      exact hascii (decide_eq_true (by omega))
    rw [hunits, String.toList_singleton]
    refine readsAs_self ?_ ?_ (Nat.not_lt.1 hcontrol)
    · exact fun h => hquote (beq_iff_eq.2 h)
    · exact fun h => hslash (beq_iff_eq.2 h)

theorem joinHalves_self (c : Char) (ns : List Nat) (acc : List Char) (lone : Bool) :
    joinHalves (c.toNat :: ns) acc lone = joinHalves ns (c :: acc) lone := by
  have hvalid := toNat_valid c
  have hhigh : isHigh c.toNat = false := by
    simp only [isHigh, Bool.and_eq_false_iff, decide_eq_false_iff_not]
    omega
  have hlow : isLow c.toNat = false := by
    simp only [isLow, Bool.and_eq_false_iff, decide_eq_false_iff_not]
    omega
  cases ns with
  | nil => simp [joinHalves, hhigh, hlow]
  | cons m ns => simp [joinHalves, hhigh, hlow]

theorem joinHalves_pair (hwide : 0x10000 ≤ c.toNat) (ns : List Nat) (acc : List Char)
    (lone : Bool) :
    joinHalves ((0xD800 + (c.toNat - 0x10000) / 0x400) ::
      (0xDC00 + (c.toNat - 0x10000) % 0x400) :: ns) acc lone = joinHalves ns (c :: acc) lone := by
  have hvalid := toNat_valid c
  have hhigh : isHigh (0xD800 + (c.toNat - 0x10000) / 0x400) = true := by
    simp only [isHigh, Bool.and_eq_true, decide_eq_true_eq]
    omega
  have hlow : isLow (0xDC00 + (c.toNat - 0x10000) % 0x400) = true := by
    simp only [isLow, Bool.and_eq_true, decide_eq_true_eq]
    omega
  have hcode : 0x10000 + (0xD800 + (c.toNat - 0x10000) / 0x400 - 0xD800) * 0x400 +
      (0xDC00 + (c.toNat - 0x10000) % 0x400 - 0xDC00) = c.toNat := by omega
  rw [joinHalves, hhigh, hlow, Bool.and_self, if_pos rfl, hcode, Char.ofNat_toNat]

/-- The code units of a run of characters are joined to the characters, and no half stands alone. -/
theorem joinHalves_units (ascii : Bool) (cs acc : List Char) :
    joinHalves (cs.flatMap (units ascii)) acc false = (acc.reverse ++ cs, false) := by
  induction cs generalizing acc with
  | nil => rw [List.flatMap_nil, joinHalves, List.append_nil]
  | cons c cs ih =>
    have hnext : (c :: acc).reverse ++ cs = acc.reverse ++ c :: cs := by simp
    rw [List.flatMap_cons, ← hnext, ← ih, units]
    split
    · rename_i hpair
      have hwide := of_decide_eq_true (Bool.and_eq_true_iff.1 hpair).2
      exact joinHalves_pair hwide _ acc false
    · exact joinHalves_self c _ acc false

theorem printString_toList (ascii : Bool) (s : String) :
    (printString ascii s).toList =
      '"' :: (s.toList.flatMap (fun c => (printChar ascii c).toList) ++ ['"']) := by
  have hfold (cs : List Char) (start : String) :
      (cs.foldl (fun acc c => acc ++ printChar ascii c) start).toList =
        start.toList ++ cs.flatMap fun c => (printChar ascii c).toList := by
    induction cs generalizing start with
    | nil => exact (List.append_nil _).symm
    | cons c cs ih =>
      rw [List.foldl_cons, ih, String.toList_append, List.append_assoc, List.flatMap_cons]
  rw [printString, String.toList_push, hfold]
  rfl

theorem stringBody_printed (ascii : Bool) (start : List Char) (cs : List Char) (acc : List Nat)
    (rest : List Char) :
    stringBody start acc (cs.flatMap (fun c => (printChar ascii c).toList) ++ '"' :: rest) =
      .ok (acc.reverse ++ cs.flatMap (units ascii), rest) := by
  induction cs generalizing acc with
  | nil =>
    rw [List.flatMap_nil, List.flatMap_nil, List.append_nil]
    simp [stringBody]
  | cons c cs ih =>
    -- What follows a character is never empty, as the closing quote stands there at the latest.
    obtain ⟨next, more, hmore⟩ : ∃ next more,
        cs.flatMap (fun c => (printChar ascii c).toList) ++ '"' :: rest = next :: more :=
      List.exists_cons_of_ne_nil (by simp)
    rw [List.flatMap_cons, List.append_assoc, hmore, readsAs_printChar, ← hmore, ih,
      List.reverse_append, List.reverse_reverse, List.append_assoc, List.flatMap_cons]

/-- A printed string reads back as the string, whatever follows it. -/
theorem text_printString (ascii : Bool) (start : List Char) (s : String) (rest : List Char) :
    ∃ body, (printString ascii s).toList ++ rest = '"' :: body ∧
      text start body = .ok ((s, false), rest) := by
  refine ⟨s.toList.flatMap (fun c => (printChar ascii c).toList) ++ '"' :: rest, ?_, ?_⟩
  · rw [printString_toList, List.cons_append, List.append_assoc]
    rfl
  · rw [text, stringBody_printed]
    simp only [List.reverse_nil, List.nil_append, joinHalves_units, String.ofList_toList]

end Flowplan.Json
