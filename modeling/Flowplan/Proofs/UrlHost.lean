import Flowplan.Url.Basic
import Flowplan.Proofs.TextParts

/-!
Where the host name of a URL is written in it. Main statement: the host name is read from its own
part of the authority, whatever stands in the scheme, the user information, the port, the path, the
query and the fragment.
-/

namespace Flowplan.Url
set_option autoImplicit true

/-- A scheme with its colon, or nothing. -/
inductive IsScheme : List Char → Prop
  | absent : IsScheme []
  | present (letter : c.isAlpha = true) (others : ∀ d ∈ cs, isSchemeChar d = true) :
      IsScheme (c :: (cs ++ [':']))

/-- User information with the at sign after it, or nothing. -/
inductive IsUser : List Char → Prop
  | absent : IsUser []
  | present : IsUser (user ++ ['@'])

/-- A port with the colon before it, or nothing. -/
def IsPort (cs : List Char) : Prop := ∀ c ∈ cs.head?, c = ':'

/-- A host with a port after it as the two are written. A bracket that is not closed holds all that
follows it. -/
inductive Places : (place host : List Char) → Prop
  | plain (unbracketed : '[' ∉ host ++ port) (uncut : ':' ∉ host) (isPort : IsPort port) :
      Places (host ++ port) host
  | bracketed (unclosed : ']' ∉ host) (isPort : IsPort port) :
      Places ('[' :: (host ++ ']' :: port)) host
  | unclosed (unclosed : ']' ∉ host) : Places ('[' :: host) host

/-- The parts of a URL with an authority. -/
structure Parts where
  scheme : List Char
  user : List Char
  place : List Char
  host : List Char
  tail : List Char
  isScheme : IsScheme scheme
  isUser : IsUser user
  /-- The user information ends at the last at sign. -/
  unsigned : '@' ∉ place
  places : Places place host
  uncut : ∀ c ∈ user ++ place, endsAuthority c = false
  cut : ∀ c ∈ tail.head?, endsAuthority c = true

def Parts.authority (p : Parts) : List Char := p.user ++ p.place

def Parts.text (p : Parts) : List Char := p.scheme ++ '/' :: '/' :: (p.authority ++ p.tail)

variable {cs scheme rest user place host port tail authority : List Char}

theorem ne_colon_of_isSchemeChar (h : isSchemeChar c = true) : c ≠ ':' := by
  rintro rfl
  exact absurd h (by decide)

theorem not_mem_scheme (hletter : c.isAlpha = true) (hothers : ∀ d ∈ cs, isSchemeChar d = true) :
    ':' ∉ c :: cs := by
  intro hmem
  rcases List.mem_cons.1 hmem with rfl | hmem
  · exact absurd hletter (by decide)
  · exact ne_colon_of_isSchemeChar (hothers _ hmem) rfl

theorem splitScheme_append (h : IsScheme scheme) (rest : List Char) :
    (splitScheme (scheme ++ '/' :: rest)).2 = '/' :: rest := by
  cases h with
  | absent =>
    simp only [splitScheme, List.nil_append]
    split
    · rename_i c cs after hsplit
      obtain ⟨he, -⟩ := Text.splitFirst_eq_some_iff.1 hsplit
      obtain rfl : '/' = c := (List.cons.inj he).1
      rfl
    · rfl
  | @present cs c hletter hothers =>
    have hsplit : Text.splitFirst ':' (c :: cs ++ ':' :: '/' :: rest) =
        some (c :: cs, '/' :: rest) :=
      Text.splitFirst_append (not_mem_scheme hletter hothers) _
    have htext : c :: (cs ++ [':']) ++ '/' :: rest = c :: cs ++ ':' :: '/' :: rest := by simp
    have hall : cs.all isSchemeChar = true := List.all_eq_true.2 hothers
    rw [htext, splitScheme, hsplit]
    simp [hletter, hall]

theorem exists_scheme (cs : List Char) :
    ∃ scheme, IsScheme scheme ∧ scheme ++ (splitScheme cs).2 = cs := by
  unfold splitScheme
  split
  · rename_i c scheme rest hsplit
    obtain ⟨he, -⟩ := Text.splitFirst_eq_some_iff.1 hsplit
    split
    · rename_i hc
      obtain ⟨hletter, hall⟩ := Bool.and_eq_true_iff.1 hc
      exact ⟨_, .present hletter (List.all_eq_true.1 hall), by simp [he]⟩
    · exact ⟨[], .absent, rfl⟩
  · exact ⟨[], .absent, rfl⟩

theorem authorityOf_append (huncut : ∀ c ∈ authority, endsAuthority c = false)
    (hcut : ∀ c ∈ tail.head?, endsAuthority c = true) :
    authorityOf ('/' :: '/' :: (authority ++ tail)) = authority := by
  have hkept : ∀ c ∈ authority, (!endsAuthority c) = true := fun c hc => by simp [huncut c hc]
  rw [authorityOf, List.takeWhile_append_of_pos hkept]
  cases tail with
  | nil => simp
  | cons c tail => simp [hcut c rfl]

theorem exists_authority (h : authorityOf cs ≠ []) :
    ∃ tail, cs = '/' :: '/' :: (authorityOf cs ++ tail) ∧
      (∀ c ∈ authorityOf cs, endsAuthority c = false) ∧
      ∀ c ∈ tail.head?, endsAuthority c = true := by
  unfold authorityOf at h ⊢
  split
  · rename_i rest
    refine ⟨rest.dropWhile (!endsAuthority ·), by rw [List.takeWhile_append_dropWhile], ?_, ?_⟩
    · intro c hc
      simpa using List.mem_takeWhile_imp hc
    · intro c hc
      have hend := List.head?_dropWhile_not (!endsAuthority ·) rest
      rw [Option.mem_def.1 hc] at hend
      simpa using hend
  · rename_i hother
    exact absurd (by split <;> simp_all) h

theorem afterUser_append (h : IsUser user) (hplace : '@' ∉ place) :
    afterUser (user ++ place) = place := by
  cases h with
  | absent => rw [List.nil_append, afterUser, Text.splitLast_eq_none hplace]
  | @present user =>
    have htext : user ++ ['@'] ++ place = user ++ '@' :: place := by simp
    rw [htext, afterUser, Text.splitLast_append hplace]

theorem exists_user (authority : List Char) :
    ∃ user, IsUser user ∧ user ++ afterUser authority = authority ∧ '@' ∉ afterUser authority := by
  by_cases hmem : '@' ∈ authority
  · obtain ⟨user, place, rfl, hplace⟩ := Text.exists_last hmem
    have hafter : afterUser (user ++ '@' :: place) = place := by
      rw [afterUser, Text.splitLast_append hplace]
    rw [hafter]
    exact ⟨user ++ ['@'], .present, by simp, hplace⟩
  · have hafter : afterUser authority = authority := by
      rw [afterUser, Text.splitLast_eq_none hmem]
    rw [hafter]
    exact ⟨[], .absent, rfl, hmem⟩

theorem beforeColon_append (huncut : ':' ∉ host) (hport : IsPort port) :
    beforeColon (host ++ port) = host := by
  cases port with
  | nil => rw [List.append_nil, beforeColon, Text.splitFirst_eq_none.2 huncut]
  | cons c port =>
    obtain rfl : c = ':' := hport c rfl
    rw [beforeColon, Text.splitFirst_append huncut]

theorem exists_port (cs : List Char) :
    ∃ port, IsPort port ∧ beforeColon cs ++ port = cs ∧ ':' ∉ beforeColon cs := by
  cases hsplit : Text.splitFirst ':' cs with
  | none =>
    have hbefore : beforeColon cs = cs := by rw [beforeColon, hsplit]
    rw [hbefore]
    exact ⟨[], by simp [IsPort], List.append_nil cs, Text.splitFirst_eq_none.1 hsplit⟩
  | some parts =>
    obtain ⟨host, port⟩ := parts
    have hbefore : beforeColon cs = host := by rw [beforeColon, hsplit]
    obtain ⟨hcs, hhost⟩ := Text.splitFirst_eq_some_iff.1 hsplit
    rw [hbefore]
    exact ⟨':' :: port, by simp [IsPort], hcs.symm, hhost⟩

theorem bracketed?_closed (hbefore : '[' ∉ before) (hhost : ']' ∉ host) (after : List Char) :
    bracketed? (before ++ '[' :: (host ++ ']' :: after)) =
      some (!before.isEmpty, host, after) := by
  simp only [bracketed?, Text.splitFirst_append hbefore, Option.map_some,
    Text.splitFirst_append hhost]

theorem bracketed?_unclosed (hbefore : '[' ∉ before) (hhost : ']' ∉ host) :
    bracketed? (before ++ '[' :: host) = some (!before.isEmpty, host, []) := by
  simp only [bracketed?, Text.splitFirst_append hbefore, Option.map_some,
    Text.splitFirst_eq_none.2 hhost]

theorem bracketed?_eq_none (h : '[' ∉ cs) : bracketed? cs = none := by
  rw [bracketed?, Text.splitFirst_eq_none.2 h, Option.map_none]

theorem rawHost_of_places (h : Places place host) (ha : afterUser authority = place) :
    rawHost authority = host := by
  rw [rawHost, ha]
  cases h with
  | plain hunbracketed huncut hport =>
    rw [bracketed?_eq_none hunbracketed]
    exact beforeColon_append huncut hport
  | @bracketed _ port hunclosed hport =>
    rw [← List.nil_append ('[' :: _), bracketed?_closed List.not_mem_nil hunclosed]
  | unclosed hunclosed =>
    rw [← List.nil_append ('[' :: _), bracketed?_unclosed List.not_mem_nil hunclosed]

theorem bracketsFit_of_fits (h : authorityFits authority = true) (hopen : '[' ∈ authority) :
    bracketsFit authority = true := by
  simp only [authorityFits, Bool.and_eq_true, Bool.or_eq_true, Bool.not_eq_true',
    List.contains_eq_mem, decide_eq_false_iff_not] at h
  exact h.1.2.resolve_left (not_not_intro hopen)

theorem isPort_of_fits {after : List Char} (h : (after.isEmpty || after.head? == some ':') = true) :
    IsPort after := by
  intro c hc
  cases after with
  | nil => cases hc
  | cons d after =>
    obtain rfl : d = c := Option.some.inj hc
    simpa using h

theorem places_bracketed (h : bracketsFit authority = true) (hopen : '[' ∈ afterUser authority) :
    Places (afterUser authority) (rawHost authority) := by
  obtain ⟨before, rest, hplace, hbefore⟩ := List.eq_append_cons_of_mem hopen
  unfold bracketsFit at h
  unfold rawHost
  by_cases hclose : ']' ∈ rest
  · obtain ⟨host, after, rfl, hhost⟩ := List.eq_append_cons_of_mem hclose
    rw [hplace, bracketed?_closed hbefore hhost] at h ⊢
    simp only [Bool.and_eq_true, Bool.not_eq_true', Bool.not_eq_false', List.isEmpty_iff] at h
    obtain ⟨⟨rfl, hport⟩, -⟩ := h
    exact .bracketed hhost (isPort_of_fits hport)
  · rw [hplace, bracketed?_unclosed hbefore hclose] at h ⊢
    simp only [Bool.and_eq_true, Bool.not_eq_true', Bool.not_eq_false', List.isEmpty_iff] at h
    obtain ⟨⟨rfl, -⟩, -⟩ := h
    exact .unclosed hclose

theorem places_rawHost (h : authorityFits authority = true) :
    Places (afterUser authority) (rawHost authority) := by
  obtain ⟨user, -, hauthority, -⟩ := exists_user authority
  by_cases hopen : '[' ∈ afterUser authority
  · have hmem : '[' ∈ authority := hauthority ▸ List.mem_append_right user hopen
    exact places_bracketed (bracketsFit_of_fits h hmem) hopen
  · obtain ⟨port, hport, hplace, huncut⟩ := exists_port (afterUser authority)
    have hhost : rawHost authority = beforeColon (afterUser authority) := by
      rw [rawHost, bracketed?_eq_none hopen]
    rw [hhost]
    have hplain := Places.plain (by rwa [hplace]) huncut hport
    rwa [hplace] at hplain

theorem Parts.authorityOf_text (p : Parts) : authorityOf (splitScheme p.text).2 = p.authority := by
  rw [Parts.text, splitScheme_append p.isScheme]
  exact authorityOf_append p.uncut p.cut

theorem Parts.rawHost_authority (p : Parts) : rawHost p.authority = p.host :=
  rawHost_of_places p.places (afterUser_append p.isUser p.unsigned)

theorem exists_parts (hfits : authorityFits (authorityOf (splitScheme cs).2) = true)
    (hhost : rawHost (authorityOf (splitScheme cs).2) ≠ []) : ∃ p : Parts, p.text = cs := by
  obtain ⟨scheme, hscheme, hcs⟩ := exists_scheme cs
  generalize (splitScheme cs).2 = rest at *
  have hne : authorityOf rest ≠ [] := by
    intro hnil
    rw [hnil] at hhost
    exact hhost rfl
  obtain ⟨tail, hrest, huncut, hcut⟩ := exists_authority hne
  obtain ⟨user, huser, hauthority, hunsigned⟩ := exists_user (authorityOf rest)
  have htext : scheme ++ '/' :: '/' :: ((user ++ afterUser (authorityOf rest)) ++ tail) = cs := by
    rw [hauthority, ← hrest, hcs]
  exact ⟨⟨scheme, user, _, _, tail, hscheme, huser, hunsigned, places_rawHost hfits,
    by rwa [hauthority], hcut⟩, htext⟩

theorem hostname?_eq_some_iff {u : Url} : u.hostname? = some name ↔
    rawHost u.authority ≠ [] ∧ lowerHost (rawHost u.authority) = name := by
  unfold hostname?
  split <;> simp_all

theorem split?_eq_some_iff {u : Url} : split? url = some u ↔
    authorityFits u.authority = true ∧ u.scheme = (splitScheme (cleaned url)).1 ∧
      u.authority = authorityOf (splitScheme (cleaned url)).2 := by
  obtain ⟨scheme, authority⟩ := u
  simp only [split?]
  constructor
  · intro h
    split at h
    · rename_i hfits
      obtain ⟨rfl, rfl⟩ := Url.mk.inj (Option.some.inj h)
      exact ⟨hfits, rfl, rfl⟩
    · cases h
  · rintro ⟨hfits, rfl, rfl⟩
    rw [if_pos hfits]

/-- A URL has a host name exactly where it can be taken apart with a host among its parts and its
authority is well-formed, and only that host counts. -/
theorem hostOf?_eq_some_iff {url name : String} : hostOf? url = some name ↔
    ∃ p : Parts, cleaned url = p.text ∧ authorityFits p.authority = true ∧ p.host ≠ [] ∧
      lowerHost p.host = name := by
  rw [hostOf?, Option.bind_eq_some_iff]
  constructor
  · rintro ⟨u, hsplit, hname⟩
    obtain ⟨hfits, -, hauthority⟩ := split?_eq_some_iff.1 hsplit
    obtain ⟨hhost, hname⟩ := hostname?_eq_some_iff.1 hname
    rw [hauthority] at hfits hhost hname
    obtain ⟨p, htext⟩ := exists_parts hfits hhost
    rw [← htext, p.authorityOf_text] at hfits hhost hname
    rw [p.rawHost_authority] at hhost hname
    exact ⟨p, htext.symm, hfits, hhost, hname⟩
  · rintro ⟨p, htext, hfits, hhost, hname⟩
    refine ⟨⟨(splitScheme (cleaned url)).1, p.authority⟩, split?_eq_some_iff.2 ⟨hfits, rfl, ?_⟩, ?_⟩
    · rw [htext, p.authorityOf_text]
    · rw [hostname?_eq_some_iff, p.rawHost_authority]
      exact ⟨hhost, hname⟩

end Flowplan.Url
