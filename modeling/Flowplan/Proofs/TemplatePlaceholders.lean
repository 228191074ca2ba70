import Flowplan.Template
import Flowplan.Proofs.TextParts
import Mathlib.Data.List.Forall2

/-!
The placeholders of a text. Main statement: where a text is compiled, an expression stands for each
of its placeholders, all else stays, and the expressions are the placeholders of what comes of it.
-/

namespace Flowplan.Template
set_option autoImplicit true

/-- What stands between the braces of a placeholder. -/
structure IsReference (r : List Char) : Prop where
  nonempty : r ≠ []
  unclosed : '}' ∉ r

/-- Something between two opening and two closing braces. -/
def braced (r : List Char) : List Char := '{' :: '{' :: (r ++ ['}', '}'])

/-- A placeholder stands at the start of the characters. -/
def Begins (cs : List Char) : Prop := ∃ r rest, IsReference r ∧ cs = braced r ++ rest

/-- No placeholder starts in a text that is followed by some characters. -/
def Clear (t rest : List Char) : Prop := ∀ back, back <:+ t → back ≠ [] → ¬ Begins (back ++ rest)

/-- A text taken apart into its placeholders from the left, none overlapping another: what stands
before each of them together with its reference, then what stands after the last one. -/
inductive Decomposed : List Char → List (List Char × List Char) → List Char → Prop
  | done (clear : Clear t []) : Decomposed t [] t
  | next (clear : Clear t (braced r ++ rest)) (reference : IsReference r)
      (more : Decomposed rest parts last) :
      Decomposed (t ++ (braced r ++ rest)) ((t, r) :: parts) last

/-- What the expression for a reference has between its braces. -/
inductive Compiles (r : List Char) : List Char → Prop
  | secret (trimmed : Text.Trims Unicode.isBlank r (secretMark.toList ++ name)) :
      Compiles r (" $vars.".toList ++ (name ++ [' ']))
  | data (trimmed : Text.Trims Unicode.isBlank r path) (other : ¬ secretMark.toList <+: path) :
      Compiles r (" $json.".toList ++ (path ++ [' ']))

variable {cs r rest t : List Char}

theorem braced_append (r rest : List Char) :
    braced r ++ rest = '{' :: '{' :: (r ++ '}' :: '}' :: rest) := by
  simp [braced]

theorem placeholder?_braced (hr : IsReference r) (rest : List Char) :
    placeholder? (braced r ++ rest) = some (r, rest) := by
  rw [braced_append]
  obtain ⟨c, r, rfl⟩ := List.exists_cons_of_ne_nil hr.nonempty
  simp only [placeholder?, Text.dropWhile_ne hr.unclosed, Text.takeWhile_ne hr.unclosed]

theorem braced_of_placeholder? (h : placeholder? cs = some (r, rest)) :
    IsReference r ∧ cs = braced r ++ rest := by
  unfold placeholder? at h
  split at h
  · rename_i tail
    split at h
    · rename_i after hdrop
      split at h
      · cases h
      · rename_i hne
        obtain ⟨rfl, rfl⟩ := Prod.mk.inj (Option.some.inj h)
        refine ⟨⟨fun hnil => hne hnil, fun hmem => ?_⟩, ?_⟩
        · have hkept : ('}' != '}') = true :=
            List.mem_takeWhile_imp (p := fun x => x != '}') hmem
          exact absurd hkept (by decide)
        · rw [braced_append, ← hdrop, List.takeWhile_append_dropWhile]
    · cases h
  · cases h

theorem begins_iff : Begins cs ↔ ∃ r rest, placeholder? cs = some (r, rest) := by
  constructor
  · rintro ⟨r, rest, hr, rfl⟩
    exact ⟨r, rest, placeholder?_braced hr rest⟩
  · rintro ⟨r, rest, h⟩
    exact ⟨r, rest, braced_of_placeholder? h⟩

theorem placeholder?_eq_none_iff : placeholder? cs = none ↔ ¬ Begins cs := by
  rw [begins_iff, Option.eq_none_iff_forall_ne_some]
  simp

theorem braced_inj {r' rest' : List Char} (hr : IsReference r) (hr' : IsReference r')
    (h : braced r ++ rest = braced r' ++ rest') : r = r' ∧ rest = rest' := by
  have hfound := placeholder?_braced hr rest
  rw [h, placeholder?_braced hr' rest'] at hfound
  obtain ⟨rfl, rfl⟩ := Prod.mk.inj (Option.some.inj hfound)
  exact ⟨rfl, rfl⟩

/-- Whether a placeholder starts before another one does not depend on what that one refers to, nor
on what follows it. -/
theorem Begins.of_braced {r' rest' : List Char} (hr' : IsReference r') (hne : t ≠ [])
    (h : Begins (t ++ (braced r ++ rest))) : Begins (t ++ (braced r' ++ rest')) := by
  obtain ⟨q, more, hq, heq⟩ := h
  rw [braced_append q more] at heq
  by_cases hclosed : '}' ∈ t
  · -- The placeholder is closed before the other one starts.
    obtain ⟨front, back, rfl, hfront⟩ := List.eq_append_cons_of_mem hclosed
    have hopen : '}' ∉ '{' :: '{' :: q := by simpa using hq.unclosed
    have hsplit : front ++ '}' :: (back ++ (braced r ++ rest)) =
        ('{' :: '{' :: q) ++ '}' :: ('}' :: more) := by simpa using heq
    obtain ⟨rfl, hback⟩ := Text.eq_of_append_cons hfront hopen hsplit
    cases back with
    | nil => simp [braced] at hback
    | cons c back =>
      obtain ⟨rfl, -⟩ := List.cons.inj hback
      exact ⟨q, back ++ (braced r' ++ rest'), hq, by simp [braced]⟩
  · -- What closes the other one closes this one, whose reference takes in that one's opening.
    cases t with
    | nil => exact absurd rfl hne
    | cons c t =>
      obtain rfl : c = '{' := (List.cons.inj heq).1
      cases t with
      | nil =>
        refine ⟨'{' :: r', rest', ⟨by simp, ?_⟩, by simp [braced]⟩
        simpa using hr'.unclosed
      | cons c t =>
        obtain ⟨rfl, -⟩ := List.cons.inj (List.cons.inj heq).2
        refine ⟨t ++ '{' :: '{' :: r', rest', ⟨by simp, ?_⟩, by simp [braced]⟩
        have ht : '}' ∉ t := fun h => hclosed (by simp [h])
        simpa using ⟨ht, hr'.unclosed⟩

theorem Clear.of_braced {r' rest' : List Char} (hr : IsReference r)
    (h : Clear t (braced r ++ rest)) : Clear t (braced r' ++ rest') :=
  fun back hback hne hbegins => h back hback hne (hbegins.of_braced hr hne)

theorem Clear.cons (h : Clear t rest) (hfirst : ¬ Begins (c :: (t ++ rest))) :
    Clear (c :: t) rest := by
  intro back hback hne
  rcases List.suffix_cons_iff.1 hback with rfl | hback
  · exact hfirst
  · exact h back hback hne

/-- Two texts that run up to the first placeholder are one. -/
theorem Clear.eq_of_append {t' rest' : List Char} (h : Clear t rest) (h' : Clear t' rest')
    (hrest : Begins rest) (hrest' : Begins rest') (he : t ++ rest = t' ++ rest') :
    t = t' ∧ rest = rest' := by
  rcases List.append_eq_append_iff.1 he with ⟨back, rfl, rfl⟩ | ⟨back, rfl, rfl⟩
  · cases back with
    | nil => simp
    | cons c back => exact absurd hrest (h' _ (List.suffix_append t _) (List.cons_ne_nil c back))
  · cases back with
    | nil => simp
    | cons c back => exact absurd hrest' (h _ (List.suffix_append t' _) (List.cons_ne_nil c back))

theorem Clear.not_append (h : Clear (t ++ rest) []) : ¬ Begins rest := by
  rintro ⟨r, more, hr, rfl⟩
  refine h (braced r ++ more) (List.suffix_append t _) (by simp [braced]) ?_
  exact ⟨r, more, hr, by simp⟩

/-- A text is taken apart in one way only. -/
theorem Decomposed.unique (h : Decomposed cs parts last) (h' : Decomposed cs parts' last') :
    parts' = parts ∧ last' = last := by
  induction h generalizing parts' with
  | done hclear =>
    cases h' with
    | done hclear' => exact ⟨rfl, rfl⟩
    | next hclear' hr more => exact absurd ⟨_, _, hr, rfl⟩ hclear.not_append
  | @next t r rest parts last hclear hr more ih =>
    generalize hcs : t ++ (braced r ++ rest) = cs at h'
    cases h' with
    | done hclear' => exact absurd ⟨_, _, hr, rfl⟩ (hcs ▸ hclear').not_append
    | next hclear' hr' more' =>
      obtain ⟨rfl, hrest⟩ := hclear.eq_of_append hclear' ⟨_, _, hr, rfl⟩ ⟨_, _, hr', rfl⟩ hcs
      obtain ⟨rfl, rfl⟩ := braced_inj hr hr' hrest
      obtain ⟨rfl, rfl⟩ := ih more'
      exact ⟨rfl, rfl⟩

/-- A character at which no placeholder starts belongs to what stands before the next one. -/
theorem Decomposed.cons (h : Decomposed cs parts last) (hfirst : ¬ Begins (c :: cs)) :
    ∃ parts' last', Decomposed (c :: cs) parts' last' := by
  cases h with
  | done hclear =>
    exact ⟨_, _, .done (hclear.cons (by simpa using hfirst))⟩
  | next hclear hr more =>
    exact ⟨_, _, .next (hclear.cons hfirst) hr more⟩

theorem exists_decomposed (cs : List Char) : ∃ parts last, Decomposed cs parts last := by
  induction cs using scan.induct with
  | case1 cs r rest hfound ih =>
    obtain ⟨parts, last, h⟩ := ih
    obtain ⟨hr, rfl⟩ := braced_of_placeholder? hfound
    have hclear : Clear [] (braced r ++ rest) :=
      fun back hback hne => absurd (List.suffix_nil.1 hback) hne
    exact ⟨_, _, .next hclear hr h⟩
  | case2 hnone =>
    exact ⟨_, _, .done fun back hback hne => absurd (List.suffix_nil.1 hback) hne⟩
  | case3 c rest hnone ih =>
    obtain ⟨parts, last, h⟩ := ih
    exact h.cons (placeholder?_eq_none_iff.1 hnone)

/-- The text of its parts. -/
def joined (parts : List (List Char × List Char)) (last : List Char) : List Char :=
  parts.foldr (fun part rest => part.1 ++ (braced part.2 ++ rest)) last

/-- Other references in the place of those of a text are the placeholders of what comes of it. -/
theorem Decomposed.replaced (h : Decomposed cs parts last)
    (hparts : List.Forall₂ (fun p q => q.1 = p.1 ∧ IsReference q.2) parts parts') :
    Decomposed (joined parts' last) parts' last := by
  induction h generalizing parts' with
  | done hclear =>
    cases hparts
    exact .done hclear
  | next hclear hr more ih =>
    cases hparts with
    | @cons _ q _ parts' hq hparts =>
      obtain ⟨t, r'⟩ := q
      obtain ⟨rfl, hr'⟩ := hq
      exact .next (hclear.of_braced hr) hr' (ih hparts)

theorem scan_braced (hr : IsReference r) (rest : List Char) :
    scan (braced r ++ rest) = .placeholder r :: scan rest := by
  have hfound := placeholder?_braced hr rest
  rw [scan]
  split <;> simp_all

theorem scan_cons (h : ¬ Begins (c :: rest)) : scan (c :: rest) = .plain c :: scan rest := by
  have hnone := placeholder?_eq_none_iff.2 h
  rw [scan]
  split <;> simp_all

theorem scan_clear (h : Clear t rest) : scan (t ++ rest) = t.map .plain ++ scan rest := by
  induction t with
  | nil => rfl
  | cons c t ih =>
    have hfirst : ¬ Begins (c :: (t ++ rest)) :=
      h (c :: t) List.suffix_rfl (List.cons_ne_nil c t)
    have hrest : Clear t rest := fun back hback => h back (hback.trans (List.suffix_cons c t))
    rw [List.cons_append, scan_cons hfirst, ih hrest, List.map_cons, List.cons_append]

theorem secretMark_of_after? {reference name : String}
    (h : Text.after? secretMark reference = some name) :
    reference.toList = secretMark.toList ++ name.toList := by
  unfold Text.after? at h
  split at h
  · rename_i hstart
    obtain ⟨rest, hrest⟩ := List.isPrefixOf_iff_prefix.1 hstart
    obtain rfl := Option.some.inj h
    rw [← hrest, List.drop_left, String.toList_ofList]
  · cases h

theorem not_secretMark_of_after? {reference : String}
    (h : Text.after? secretMark reference = none) :
    ¬ secretMark.toList <+: reference.toList := by
  unfold Text.after? at h
  split at h
  · cases h
  · rename_i hstart
    exact mt List.isPrefixOf_iff_prefix.2 hstart

theorem exists_compiles (r : List Char) :
    ∃ q, Compiles r q ∧ (expression (String.ofList r)).toList = braced q := by
  have htrims := Text.trims_trimmed Unicode.isBlank r
  have htrim : (Text.trim (String.ofList r)).toList = Text.trimmed Unicode.isBlank r := by
    simp only [Text.trim, String.toList_ofList]
  rw [← htrim] at htrims
  cases hafter : Text.after? secretMark (Text.trim (String.ofList r)) with
  | some name =>
    rw [secretMark_of_after? hafter] at htrims
    refine ⟨_, .secret htrims, ?_⟩
    simp [expression, hafter, secret, opening, closing, braced]
  | none =>
    refine ⟨_, .data htrims (not_secretMark_of_after? hafter), ?_⟩
    simp [expression, hafter, data, opening, closing, braced]

theorem Compiles.mark (h : Compiles r q) : " $json.".toList <+: q ∨ " $vars.".toList <+: q := by
  cases h with
  | secret => exact .inr (List.prefix_append _ _)
  | data => exact .inl (List.prefix_append _ _)

theorem Compiles.isReference (hr : IsReference r) (h : Compiles r q) : IsReference q := by
  cases h with
  | @secret name trimmed =>
    have hname : '}' ∉ name := fun h => hr.unclosed (trimmed.mem (List.mem_append_right _ h))
    exact ⟨by simp, by simpa using hname⟩
  | @data path trimmed other =>
    have hpath : '}' ∉ path := fun h => hr.unclosed (trimmed.mem h)
    exact ⟨by simp, by simpa using hpath⟩

/-- An expression stands for each placeholder of a text, and all else stays. -/
theorem Decomposed.compiled (h : Decomposed cs parts last) :
    ∃ compiled,
      List.Forall₂ (fun p q => q.1 = p.1 ∧ IsReference p.2 ∧ Compiles p.2 q.2) parts compiled ∧
      (scan cs).flatMap Piece.compile = joined compiled last := by
  induction h with
  | @done t hclear =>
    have hscan := scan_clear hclear
    rw [List.append_nil] at hscan
    refine ⟨[], .nil, ?_⟩
    rw [hscan]
    simp [joined, scan, placeholder?, Piece.compile, List.flatMap_map]
  | @next t r rest parts last hclear hr more ih =>
    obtain ⟨compiled, hparts, hjoined⟩ := ih
    obtain ⟨q, hq, hexpression⟩ := exists_compiles r
    refine ⟨(t, q) :: compiled, .cons ⟨rfl, hr, hq⟩ hparts, ?_⟩
    rw [scan_clear hclear, scan_braced hr, List.flatMap_append, List.flatMap_cons, hjoined]
    simp [joined, Piece.compile, List.flatMap_map, hexpression]

/-- Where a text is compiled, one expression stands for each of its placeholders, a variable for a
secret and a path into the data for anything else, and what stands between them stays. What comes of
it has these expressions as its placeholders and no others. -/
theorem compile_placeholders (text : String) : ∃ parts compiled last,
    (∀ parts' last', Decomposed text.toList parts' last' ↔ parts' = parts ∧ last' = last) ∧
    List.Forall₂ (fun p q => q.1 = p.1 ∧ Compiles p.2 q.2) parts compiled ∧
    (∀ compiled' last', Decomposed (compile text).toList compiled' last' ↔
      compiled' = compiled ∧ last' = last) ∧
    ∀ q ∈ compiled, " $json.".toList <+: q.2 ∨ " $vars.".toList <+: q.2 := by
  have hiff : ∀ {cs parts last}, Decomposed cs parts last →
      ∀ parts' last', Decomposed cs parts' last' ↔ parts' = parts ∧ last' = last := by
    intro cs parts last h parts' last'
    exact ⟨h.unique, fun ⟨hparts, hlast⟩ => hparts ▸ hlast ▸ h⟩
  obtain ⟨parts, last, h⟩ := exists_decomposed text.toList
  obtain ⟨compiled, hcompiled, hjoined⟩ := h.compiled
  have hagain : Decomposed (compile text).toList compiled last := by
    rw [compile, String.toList_ofList, hjoined]
    exact h.replaced (hcompiled.imp fun p q hq => ⟨hq.1, hq.2.2.isReference hq.2.1⟩)
  refine ⟨parts, compiled, last, hiff h, ?_, hiff hagain, ?_⟩
  · exact hcompiled.imp fun p q hq => ⟨hq.1, hq.2.2⟩
  · have hmarked : List.Forall₂
        (fun q p => (" $json.".toList <+: q.2 ∨ " $vars.".toList <+: q.2) ∧ q.1 = p.1)
        compiled parts :=
      .flip (hcompiled.imp fun p q hq => ⟨hq.2.2.mark, hq.1⟩)
    exact ((List.forall₂_and_left compiled parts).1 hmarked).1

end Flowplan.Template
