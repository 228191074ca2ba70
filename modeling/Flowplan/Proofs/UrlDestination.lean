import Flowplan.Url.Redaction
import Flowplan.Proofs.HostLabels

/-!
What is read of a URL when it is shown or checked: its scheme and its host name. The host name holds
no character that ends it, and what comes after the authority is not looked at.
-/

namespace Flowplan
set_option autoImplicit true

namespace Unicode

variable {c d : Char}

theorem toNat_ofNat_cases (n : Nat) : (Char.ofNat n).toNat = n ∨ (Char.ofNat n).toNat = 0 := by
  by_cases hn : n.isValidChar
  · exact .inl (by rw [Char.ofNat, dif_pos hn]; rfl)
  · exact .inr (by rw [Char.ofNat, dif_neg hn]; rfl)

theorem eq_of_toLower (hc : c.toNat < 0x80) (hd : d.toNat < 0x41) (h : d = c.toLower) : d = c := by
  have hall : ∀ n < 0x80, (Char.ofNat n).toLower.toNat < 0x41 →
      (Char.ofNat n).toLower = Char.ofNat n := by decide
  have hsame := hall c.toNat hc
  rw [Char.ofNat_toNat, ← h] at hsame
  exact hsame hd

theorem le_image? {r : CaseRun} (hr : r ∈ lowerRuns) (h : r.image? n = some m) : 0x41 ≤ m := by
  have hall : ∀ r ∈ lowerRuns, 0x41 ≤ r.first + r.shift := by decide +kernel
  have hlow := hall r hr
  unfold CaseRun.image? at h
  split at h
  · rename_i hin
    obtain rfl := Option.some.inj h
    simp only [Bool.and_eq_true, decide_eq_true_eq] at hin
    omega
  · cases h

/-- A character before the capital letters is the lower case of itself alone. -/
theorem eq_of_mem_lowerChar (hpos : 0 < d.toNat) (hd : d.toNat < 0x41) (h : d ∈ lowerChar c) :
    d = c := by
  unfold lowerChar at h
  split at h
  · rename_i hc
    exact eq_of_toLower hc hd (List.mem_singleton.1 h)
  · rename_i hc
    split at h
    · have hall : ∀ e ∈ ['i', Char.ofNat 0x307], ¬ e.toNat < 0x41 :=
        List.forall_mem_cons.2 ⟨by decide, List.forall_mem_singleton.2 (by decide)⟩
      exact absurd hd (hall d h)
    · change d ∈ [Char.ofNat ((lowerRuns.findSome? (·.image? c.toNat)).getD c.toNat)] at h
      obtain rfl := List.mem_singleton.1 h
      have hlow : 0x41 ≤ (lowerRuns.findSome? (·.image? c.toNat)).getD c.toNat := by
        cases himage : lowerRuns.findSome? (·.image? c.toNat) with
        | none =>
          rw [Option.getD_none]
          omega
        | some m =>
          obtain ⟨r, hr, hm⟩ := List.exists_of_findSome?_eq_some himage
          exact le_image? hr hm
      rcases toNat_ofNat_cases ((lowerRuns.findSome? (·.image? c.toNat)).getD c.toNat) with he | he
      · omega
      · omega

theorem eq_of_mem_lowerIn (hpos : 0 < d.toNat) (hd : d.toNat < 0x41)
    (h : d ∈ lowerIn before c after) : d = c := by
  unfold lowerIn at h
  split at h
  · have hall : ∀ e ∈ [Char.ofNat 0x3C2, Char.ofNat 0x3C3], ¬ e.toNat < 0x41 :=
      List.forall_mem_cons.2 ⟨by decide, List.forall_mem_singleton.2 (by decide)⟩
    refine absurd hd (hall d ?_)
    split at h <;> simp_all
  · exact eq_of_mem_lowerChar hpos hd h

theorem mem_of_mem_lowerChars (hpos : 0 < d.toNat) (hd : d.toNat < 0x41)
    (h : d ∈ lowerChars before acc cs) : d ∈ acc ∨ d ∈ cs := by
  induction cs generalizing before acc with
  | nil => exact .inl (List.mem_reverse.1 h)
  | cons c after ih =>
    rcases ih h with hacc | hafter
    · rcases List.mem_append.1 hacc with hc | hacc
      · exact .inr (eq_of_mem_lowerIn hpos hd (List.mem_reverse.1 hc) ▸ List.mem_cons_self)
      · exact .inl hacc
    · exact .inr (List.mem_cons_of_mem c hafter)

theorem mem_of_mem_lower {s : String} (hpos : 0 < d.toNat) (hd : d.toNat < 0x41)
    (h : d ∈ (lower s).toList) : d ∈ s.toList := by
  rw [lower, String.toList_ofList] at h
  exact (mem_of_mem_lowerChars hpos hd h).resolve_left List.not_mem_nil

end Unicode

namespace Url

variable {url other : String} {cs scheme rest place host tail authority : List Char}

/-- The scheme of a URL and its host name if it has one, unless the URL is malformed. -/
def destination? (url : String) : Option (String × Option String) :=
  (split? url).map fun u => (u.scheme, u.hostname?)

theorem hostOf?_eq (url : String) : hostOf? url = (destination? url).bind Prod.snd := by
  rw [hostOf?, destination?]
  cases split? url <;> rfl

theorem redacted_eq (url : String) : redacted url = match destination? url with
    | some (scheme, some host) => if scheme.isEmpty then invalid else scheme ++ "://" ++ host
    | _ => invalid := by
  rw [redacted, destination?]
  cases split? url with
  | none => rfl
  | some u =>
    dsimp only [Option.map_some]
    cases u.hostname? <;> rfl

theorem redacted_congr (h : destination? url = destination? other) :
    redacted url = redacted other := by
  rw [redacted_eq, redacted_eq, h]

/-- A text with a scheme and a host name in it is not the one for what is invalid. -/
theorem shown_ne_invalid (scheme host : String) : scheme ++ "://" ++ host ≠ invalid := by
  intro he
  have hmem : ':' ∈ (scheme ++ "://" ++ host).toList := by simp
  rw [he] at hmem
  exact absurd hmem (by decide)

/-- What is shown of a URL that is not invalid. -/
theorem redacted_cases (url : String) : redacted url = invalid ∨ ∃ scheme name,
    redacted url = scheme ++ "://" ++ name ∧ destination? url = some (scheme, some name) ∧
      scheme ≠ "" := by
  rw [redacted_eq]
  split
  · rename_i scheme name hdestination
    by_cases hscheme : scheme = ""
    · exact .inl (if_pos (String.isEmpty_iff.2 hscheme))
    · exact .inr ⟨scheme, name, if_neg (mt String.isEmpty_iff.1 hscheme), hdestination, hscheme⟩
  · exact .inl rfl

/-- A URL is invalid unless it has a scheme and a host name. -/
theorem redacted_eq_invalid_iff : redacted url = invalid ↔
    ∀ scheme name, destination? url = some (scheme, some name) → scheme = "" := by
  constructor
  · intro h scheme name hdestination
    by_contra hscheme
    rw [redacted_eq, hdestination] at h
    exact shown_ne_invalid scheme name ((if_neg (mt String.isEmpty_iff.1 hscheme)).symm.trans h)
  · intro h
    rcases redacted_cases url with hshown | ⟨scheme, name, -, hdestination, hscheme⟩
    · exact hshown
    · exact absurd (h scheme name hdestination) hscheme

theorem mem_of_places (h : Places place host) (hc : c ∈ host) : c ∈ place := by
  cases h with
  | plain => exact List.mem_append_left _ hc
  | bracketed => exact List.mem_cons_of_mem _ (List.mem_append_left _ hc)
  | unclosed => exact List.mem_cons_of_mem _ hc

theorem mem_of_mem_lowerHost (hpos : 0 < c.toNat) (hlow : c.toNat < 0x41)
    (h : c ∈ (lowerHost host).toList) : c ∈ host := by
  unfold lowerHost at h
  split at h
  · rename_i name zone hsplit
    rw [(Text.splitFirst_eq_some_iff.1 hsplit).1]
    rw [String.toList_append, String.toList_ofList] at h
    refine List.mem_append.2 ((List.mem_append.1 h).imp_left fun h => ?_)
    simpa using Unicode.mem_of_mem_lower hpos hlow h
  · simpa using Unicode.mem_of_mem_lower hpos hlow h

/-- A host name holds neither what ends the authority nor what ends the user information. -/
theorem not_mem_of_hostOf? {name : String} (h : hostOf? url = some name) :
    ∀ c ∈ ['/', '?', '#', '@'], c ∉ name.toList := by
  obtain ⟨p, -, -, -, rfl⟩ := hostOf?_eq_some_iff.1 h
  intro c hc hmem
  have hsmall : 0 < c.toNat ∧ c.toNat < 0x41 := by
    have hall : ∀ e ∈ ['/', '?', '#', '@'], 0 < e.toNat ∧ e.toNat < 0x41 := by simp
    exact hall c hc
  have hplace : c ∈ p.place := mem_of_places p.places (mem_of_mem_lowerHost hsmall.1 hsmall.2 hmem)
  have hkept : endsAuthority c = false := p.uncut c (List.mem_append_right _ hplace)
  have hends : ∀ e ∈ ['/', '?', '#', '@'], endsAuthority e = false → e = '@' := by
    simp [endsAuthority]
  obtain rfl := hends c hc hkept
  exact p.unsigned hplace

/-- Tabs and line breaks are left out of a URL wherever they stand. -/
def isKept (c : Char) : Bool := c != '\t' && c != '\r' && c != '\n'

theorem exists_of_isScheme (h : IsScheme (scheme ++ [':'])) :
    ∃ c cs, scheme = c :: cs ∧ c.isAlpha = true ∧ ∀ d ∈ cs, isSchemeChar d = true := by
  generalize htext : scheme ++ [':'] = text at h
  cases h with
  | absent => exact absurd htext (List.append_ne_nil_of_right_ne_nil _ (List.cons_ne_nil _ _))
  | @present cs c hletter hothers =>
    exact ⟨c, cs, List.append_cancel_right htext, hletter, hothers⟩

theorem isKept_of_endsAuthority (h : endsAuthority c = true) : isKept c = true := by
  simp only [endsAuthority, Bool.or_eq_true, beq_iff_eq] at h
  rcases h with (rfl | rfl) | rfl <;> rfl

theorem not_blank_of_isSchemeChar (h : isSchemeChar c = true) : ¬ c.toNat ≤ 0x20 := by
  intro hle
  have hall : ∀ n ≤ 0x20, isSchemeChar (Char.ofNat n) = false := by decide
  have hno := hall c.toNat hle
  rw [Char.ofNat_toNat, h] at hno
  cases hno

theorem isKept_of_not_blank (h : ¬ c.toNat ≤ 0x20) : isKept c = true := by
  have hne : ∀ d ∈ ['\t', '\r', '\n'], c ≠ d := by
    rintro d hd rfl
    have hall : ∀ d ∈ ['\t', '\r', '\n'], d.toNat ≤ 0x20 := by simp
    exact h (hall c hd)
  simpa [isKept, and_assoc] using hne

/-- A URL with a scheme, an authority, and what comes after them. -/
def withTail (scheme authority tail : String) : String := scheme ++ "://" ++ authority ++ tail

theorem cleaned_withTail {scheme : String} (hscheme : scheme.toList = c :: cs)
    (h : ∀ d ∈ c :: cs, isSchemeChar d = true) (authority tail : String) :
    cleaned (withTail scheme authority tail) = c :: cs ++ ':' :: '/' :: '/' ::
      (authority.toList.filter isKept ++ tail.toList.filter isKept) := by
  have htext : (withTail scheme authority tail).toList =
      (c :: cs) ++ ([':', '/', '/'] ++ (authority.toList ++ tail.toList)) := by
    simp [withTail, hscheme]
  have hkept : (c :: cs).filter isKept = c :: cs :=
    List.filter_eq_self.2 fun d hd => isKept_of_not_blank (not_blank_of_isSchemeChar (h d hd))
  have hfirst : ¬ c.toNat ≤ 0x20 := not_blank_of_isSchemeChar (h c List.mem_cons_self)
  rw [cleaned, htext, List.cons_append, List.dropWhile_cons_of_neg (by simpa using hfirst),
    ← List.cons_append]
  change List.filter isKept _ = _
  rw [List.filter_append, List.filter_append, List.filter_append, hkept]
  rfl

theorem splitScheme_present (hletter : c.isAlpha = true) (h : ∀ d ∈ cs, isSchemeChar d = true)
    (rest : List Char) : splitScheme (c :: cs ++ ':' :: rest) =
      ((String.ofList (c :: cs)).map Char.toLower, rest) := by
  rw [splitScheme, Text.splitFirst_append (not_mem_scheme hletter h)]
  simp [hletter, List.all_eq_true.2 h]

/-- What follows the authority of a URL with a scheme is not looked at. -/
theorem split?_withTail {scheme authority tail : String} (hscheme : IsScheme (scheme.toList ++ [':']))
    (huncut : ∀ c ∈ authority.toList, endsAuthority c = false)
    (hcut : ∀ c ∈ tail.toList.head?, endsAuthority c = true) :
    split? (withTail scheme authority tail) = split? (withTail scheme authority "") := by
  obtain ⟨c, cs, hchars, hletter, hothers⟩ := exists_of_isScheme hscheme
  have hfront : ∀ d ∈ c :: cs, isSchemeChar d = true :=
    List.forall_mem_cons.2 ⟨by simp [isSchemeChar, Char.isAlphanum, hletter], hothers⟩
  have hauthority (tail : String) (hcut : ∀ c ∈ tail.toList.head?, endsAuthority c = true) :
      authorityOf ('/' :: '/' :: (authority.toList.filter isKept ++ tail.toList.filter isKept)) =
        authority.toList.filter isKept := by
    refine authorityOf_append (fun c hc => huncut c (List.mem_of_mem_filter hc)) fun c hc => ?_
    cases htail : tail.toList with
    | nil => simp [htail] at hc
    | cons d rest =>
      have hd : endsAuthority d = true := hcut d (by rw [htail]; rfl)
      rw [htail, List.filter_cons_of_pos (isKept_of_endsAuthority hd)] at hc
      exact Option.some.inj hc ▸ hd
  simp only [split?, cleaned_withTail hchars hfront, splitScheme_present hletter hothers,
    hauthority tail hcut, hauthority "" (by simp)]

end Url
end Flowplan
