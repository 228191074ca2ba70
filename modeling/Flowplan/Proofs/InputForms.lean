import Flowplan.Compile
import Flowplan.Proofs.CanonicalValue
import Flowplan.Proofs.DocumentAnswer
import Flowplan.Proofs.EncodedText
import Flowplan.Proofs.ExceptLaws

/-!
A document is the same in all forms in which it can be given: as a value, as a text of the value,
and as the bytes of such a text in any encoding that is recognized.
-/

namespace Flowplan
set_option autoImplicit true

open Flowplan.Json

namespace Json.Reader

/-- A character that neither is blank nor starts a value: it is not in ASCII, or the zero one. -/
def Foreign (c : Char) : Prop := c.toNat = 0 ∨ 0x80 ≤ c.toNat

namespace Foreign

theorem zero : Foreign '\x00' := .inl rfl

theorem ne (hc : Foreign c) (hd : 0 < d.toNat ∧ d.toNat < 0x80) : c ≠ d := by
  rintro rfl
  rcases hc with hc | hc <;> omega

theorem isBlank (hc : Foreign c) : isBlank c = false := by
  have hne (d : Char) (hd : 0 < d.toNat ∧ d.toNat < 0x80) : (c == d) = false :=
    beq_eq_false_iff_ne.2 (hc.ne hd)
  simp only [Reader.isBlank, hne ' ' (by decide), hne '\t' (by decide), hne '\n' (by decide),
    hne '\r' (by decide), Bool.or_self]

theorem isDigit (hc : Foreign c) : c.isDigit = false := by
  by_contra h
  have hlow : 48 ≤ c.toNat := (Char.isDigit_iff_toNat.1 (Bool.not_eq_false _ ▸ h)).1
  have hhigh : c.toNat ≤ 57 := (Char.isDigit_iff_toNat.1 (Bool.not_eq_false _ ▸ h)).2
  rcases hc with hc | hc <;> omega

theorem constant?_eq_none (hc : Foreign c) (cs : List Char) : constant? (c :: cs) = none := by
  have hne (d : Char) (hd : 0 < d.toNat ∧ d.toNat < 0x80) : d ≠ c := (hc.ne hd).symm
  simp [constant?, constants, hne 'n' (by decide), hne 't' (by decide), hne 'f' (by decide),
    hne 'N' (by decide), hne 'I' (by decide), hne '-' (by decide)]

theorem scalar_error (hc : Foreign c) (cs : List Char) : ∃ e, scalar (c :: cs) = .error e := by
  have hnumber : number? false (c :: cs) = none := number?_eq_none hc.isDigit
  simp only [scalar, hc.constant?_eq_none cs]
  split
  · rename_i heq
    exact absurd (List.cons.inj heq).1 (hc.ne (by decide))
  · rw [hnumber]
    exact ⟨_, rfl⟩

/-- No value starts with the character. -/
theorem value_error (hc : Foreign c) (fuel room : Nat) (cs : List Char) :
    ∃ e, value fuel room (c :: cs) = .error e := by
  cases fuel with
  | zero => exact ⟨_, rfl⟩
  | succ fuel =>
    rw [value_scalar (forall_head?_cons ⟨hc.ne (by decide), hc.ne (by decide), hc.ne (by decide)⟩)]
    exact hc.scalar_error cs

theorem skip_self (hc : Foreign c) (cs : List Char) : skip (c :: cs) = c :: cs :=
  skip_cons hc.isBlank

end Foreign

theorem skip_zero (cs : List Char) : skip ('\x00' :: cs) = '\x00' :: cs := Foreign.zero.skip_self cs

/-- Where the zero character comes second, a number has one digit, and nothing else is read. -/
theorem rest_of_scalar (h : scalar (c :: '\x00' :: cs) = .ok (v, rest)) : rest = '\x00' :: cs := by
  have hconstant : constant? (c :: '\x00' :: cs) = none := by
    simp [constant?, constants]
  have hstops : Stops ('\x00' :: cs) := .cons ⟨rfl, by decide, by decide, by decide⟩
  have hnone (negative : Bool) : number? negative ('\x00' :: cs) = none := number?_eq_none rfl
  simp only [scalar, hconstant] at h
  split at h
  · rename_i heq
    obtain ⟨rfl, rfl⟩ := List.cons.inj heq
    rw [hnone] at h
    cases h
  · cases hdigit : c.isDigit with
    | false =>
      rw [number?_eq_none hdigit] at h
      cases h
    | true =>
      have hwhole : IsWhole [c] :=
        ⟨⟨List.cons_ne_nil _ _, fun d hd => List.mem_singleton.1 hd ▸ hdigit⟩,
          fun hzero => congrArg (fun d => [d]) (Option.some.inj hzero)⟩
      have hnumber : number? false ([c] ++ '\x00' :: cs) = _ :=
        number?_of_whole false hwhole (forall_head?_cons rfl)
      have hone : [c].length ≤ maxDigits := show 1 ≤ 4300 by decide
      rw [numberTail_integer false hstops hone] at hnumber
      rw [List.singleton_append] at hnumber
      rw [hnumber] at h
      exact (Prod.mk.inj (Except.ok.inj h)).2.symm

theorem rest_of_value (h : value fuel room (c :: '\x00' :: cs) = .ok (v, rest)) :
    rest = '\x00' :: cs := by
  cases fuel with
  | zero => cases h
  | succ fuel =>
    unfold value at h
    split at h
    · rename_i heq
      obtain ⟨rfl, rfl⟩ := List.cons.inj heq
      simp [text, stringBody] at h
    · rename_i heq
      obtain ⟨rfl, rfl⟩ := List.cons.inj heq
      cases room with
      | zero => cases h
      | succ room =>
        simp only [skip_zero] at h
        cases fuel with
        | zero => simp [items] at h
        | succ fuel =>
          obtain ⟨e, he⟩ := Foreign.zero.value_error fuel room cs
          simp [items, he] at h
    · rename_i heq
      obtain ⟨rfl, rfl⟩ := List.cons.inj heq
      cases room with
      | zero => cases h
      | succ room =>
        simp only [skip_zero] at h
        cases fuel <;> simp [members] at h
    · exact rest_of_scalar h

end Json.Reader

namespace Json

open Reader

/-- The first character of a text that can be read is in ASCII, and neither of its first two is the
zero character. -/
theorem readChars_start (h : readChars room cs = .ok v) :
    ∃ c more, cs = c :: more ∧ ¬ Foreign c ∧ more.head? ≠ some '\x00' := by
  obtain ⟨rest, hvalue, hrest⟩ : ∃ rest,
      value (2 * cs.length + 2) room (skip cs) = .ok (v, rest) ∧ skip rest = [] := by
    have hresult := mapError_eq_ok.1 h
    split at hresult
    · cases hresult
    · rename_i v' rest hvalue
      split at hresult
      · rename_i hrest
        obtain rfl := Except.ok.inj hresult
        exact ⟨rest, hvalue, hrest⟩
      · cases hresult
  cases cs with
  | nil => cases hvalue
  | cons c more =>
    refine ⟨c, more, rfl, ?_, ?_⟩
    · intro hforeign
      rw [hforeign.skip_self] at hvalue
      obtain ⟨e, he⟩ := hforeign.value_error (2 * (c :: more).length + 2) room more
      cases he.symm.trans hvalue
    · intro hsecond
      obtain ⟨cs, rfl⟩ : ∃ cs, more = '\x00' :: cs := List.head?_eq_some_iff.1 hsecond
      cases hblank : isBlank c with
      | true =>
        have hskip : skip (c :: '\x00' :: cs) = '\x00' :: cs :=
          (List.dropWhile_cons_of_pos hblank).trans (skip_zero cs)
        rw [hskip] at hvalue
        obtain ⟨e, he⟩ := Foreign.zero.value_error (2 * (c :: '\x00' :: cs).length + 2) room cs
        cases he.symm.trans hvalue
      | false =>
        rw [skip_cons hblank] at hvalue
        rw [rest_of_value hvalue, skip_zero] at hrest
        cases hrest

/-- The bytes of a text that can be read hold the same value as the text. -/
theorem readBytes_encode (h : read s = .ok v) (e : Text.Encoding) (marked : Bool) :
    readBytes (e.encode marked s.toList) = .ok v := by
  have hchars : readChars nestingLimit s.toList = .ok v := by
    unfold read readWithin at h
    split at h
    · rename_i hnil
      rw [hnil]
      exact h
    · rename_i c cs hcons
      split at h
      · cases h
      · rw [hcons]
        exact h
  obtain ⟨c, more, hcs, hc, hsecond⟩ := readChars_start hchars
  have hascii : c.toNat ≠ 0 ∧ c.toNat < 0x80 :=
    ⟨fun hzero => hc (.inl hzero), Nat.lt_of_not_le fun hlarge => hc (.inr hlarge)⟩
  have hmore : ∀ d ∈ more.head?, d.toNat ≠ 0 := by
    intro d hd hzero
    rw [← Char.ofNat_toNat d, hzero] at hd
    exact hsecond hd
  have hdecode : decode (e.encode marked s.toList) = .ok s.toList := by
    rw [hcs]
    cases marked with
    | true => exact decode_marked (forall_head?_cons hascii.1) e
    | false => exact decode_unmarked hascii.2 hascii.1 hmore e
  rw [readBytes, hdecode]
  exact mapError_eq_ok.2 hchars

/-- The style of a text with a blank after each colon, and after each comma unless every item has a
line of its own. -/
def Style.spaced (ascii : Bool) (indent : Option Nat) : Style :=
  ⟨ascii, indent, if indent.isSome then "," else ", ", ": "⟩

theorem Style.spaced_readable (ascii : Bool) (indent : Option Nat) :
    (Style.spaced ascii indent).Readable where
  comma := by
    cases indent with
    | none => exact ⟨[' '], show ", ".toList = _ from rfl, by simp [Reader.isBlank]⟩
    | some width => exact ⟨[], show ",".toList = _ from rfl, by simp⟩
  colon := ⟨[' '], show ": ".toList = _ from rfl, by simp [Reader.isBlank]⟩

end Json

namespace Plan

/-- The documents that give a text: the text itself, also where it is given as a value, and its
bytes in an encoding, with or without a byte order mark. -/
inductive Source.Gives (s : String) : Source → Prop
  | text : Gives s (.text s)
  | value : Gives s (.value (.str s))
  | bytes (e : Text.Encoding) (marked : Bool) : Gives s (.bytes (e.encode marked s.toList))

theorem Source.Gives.reading?_eq {src : Source} (h : src.Gives s) (hread : Json.read s = .ok v) :
    src.reading? = some (.ok v) := by
  cases h with
  | text => rw [reading?, hread]; rfl
  | value => rw [reading?, hread]; rfl
  | bytes e marked => rw [reading?, readBytes_encode hread e marked]

/-- All documents that give a text of a value are answered like the value, by the structure, by the
rules and by the compilation. -/
theorem forms_agree (hv : Printable v) (hstr : ∀ s, v ≠ .str s)
    (hnesting : v.nesting ≤ nestingLimit) :
    parse (.value v) = .ok (ofJson v) ∧
    (∀ ascii indent, (Style.spaced ascii indent).Readable) ∧
    ∀ style : Style, style.Readable → ∃ text, v.write style = .ok text ∧
      ∀ src : Source, src.Gives text →
        parse src = parse (.value v) ∧
        (∀ limit context, Validation.ofSource limit context src =
          Validation.ofSource limit context (.value v)) ∧
        ∀ run, Pipeline.ofSource run src = Pipeline.ofSource run (.value v) := by
  have hvalue : parse (.value v) = .ok (ofJson v) := by
    cases hv with
    | str => exact absurd rfl (hstr _)
    | _ => rfl
  refine ⟨hvalue, Style.spaced_readable, ?_⟩
  intro style hstyle
  refine ⟨v.print style, if_pos hv.writable, ?_⟩
  intro src hsrc
  have hparse : parse src = parse (.value v) := by
    rw [hvalue, parse_of_reading (hsrc.reading?_eq (read_print hstyle hv hnesting))]
    rfl
  refine ⟨hparse, ?_, ?_⟩
  · intro limit context
    rw [Validation.ofSource, hparse]
    rfl
  · intro run
    rw [Pipeline.ofSource, hparse]
    rfl

/-- A document with a character beyond the basic plane, and one that is escaped everywhere. -/
def smileDocument : Json := .obj [("version", .str "1"), ("name", .str "smile\n😀"),
  ("steps", .arr [.obj [("type", .str "trigger.http"), ("path", .str "/in"),
    ("secretHmac", .bool true)]])]

theorem smileDocument_printable : Printable smileDocument := by
  have hstep : Printable (.obj [("type", .str "trigger.http"), ("path", .str "/in"),
      ("secretHmac", .bool true)]) := by
    refine .obj (by decide) ?_
    simp only [List.forall_mem_cons]
    exact ⟨.str, .str, .bool, List.forall_mem_nil _⟩
  refine .obj (by decide) ?_
  simp only [List.forall_mem_cons]
  exact ⟨.str, .str, .arr (List.forall_mem_singleton.2 hstep), List.forall_mem_nil _⟩

/-- The indented text with escapes, in units of two bytes and with a byte order mark. -/
theorem forms_agree_smile :
    Printable smileDocument ∧ (∀ s, smileDocument ≠ .str s) ∧
    smileDocument.nesting ≤ nestingLimit ∧
    ∃ text, smileDocument.write (.spaced true (some 2)) = .ok text ∧
      parse (.bytes ((Text.Encoding.utf16 false).encode true text.toList)) =
        parse (.value smileDocument) := by
  have hstr : ∀ s, smileDocument ≠ .str s := nofun
  have hnesting : smileDocument.nesting ≤ nestingLimit := by decide +kernel
  refine ⟨smileDocument_printable, hstr, hnesting, ?_⟩
  obtain ⟨-, hreadable, hforms⟩ := forms_agree smileDocument_printable hstr hnesting
  obtain ⟨text, hwrite, hsources⟩ := hforms _ (hreadable true (some 2))
  exact ⟨text, hwrite, (hsources _ (.bytes (.utf16 false) true)).1⟩

end Plan
end Flowplan
