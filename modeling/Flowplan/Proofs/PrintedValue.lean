import Flowplan.Json.Writer
import Flowplan.Proofs.NumberText
import Flowplan.Proofs.PrintedString
import Flowplan.Proofs.TableLaws

/-!
A printed value reads back as the value, in every style whose separators are a comma and a colon
with nothing but blanks after them.
-/

namespace Flowplan.Json
set_option autoImplicit true

open Decimal (Binary64)
open Reader

/-- A comma and a colon, each with blanks after it. -/
structure Style.Readable (style : Style) : Prop where
  comma : ∃ blanks, style.comma.toList = ',' :: blanks ∧ ∀ c ∈ blanks, isBlank c = true
  colon : ∃ blanks, style.colon.toList = ':' :: blanks ∧ ∀ c ∈ blanks, isBlank c = true

/-- The values that can be written and read: no number is infinite or none, no integer has too many
digits, no string is other than text, and no key stands twice in an object. -/
inductive Printable : Json → Prop
  | null : Printable .null
  | bool : Printable (.bool b)
  | int (few : Binary64.digitCount n.natAbs ≤ maxDigits) : Printable (.int n)
  | real (finite : x.isFinite = true) : Printable (.real x)
  | str : Printable (.str s)
  | arr (each : ∀ v ∈ vs, Printable v) : Printable (.arr vs)
  | obj (keys : (Table.keys ms).Nodup) (each : ∀ e ∈ ms, Printable e.2) : Printable (.obj ms)

/-- The values that their text tells: as those above, but a number may be infinite, or the one that
is no number. -/
inductive Legible : Json → Prop
  | null : Legible .null
  | bool : Legible (.bool b)
  | int (few : Binary64.digitCount n.natAbs ≤ maxDigits) : Legible (.int n)
  | real (single : x.isNaN = true → x = .nan) : Legible (.real x)
  | str : Legible (.str s)
  | arr (each : ∀ v ∈ vs, Legible v) : Legible (.arr vs)
  | obj (keys : (Table.keys ms).Nodup) (each : ∀ e ∈ ms, Legible e.2) : Legible (.obj ms)

theorem Printable.legible (h : Printable v) : Legible v := by
  induction h with
  | null => exact .null
  | bool => exact .bool
  | int few => exact .int few
  | @real x finite =>
    have hfield : x.exponentField ≠ 2047 := (of_decide_eq_true finite).ne
    exact .real fun hnan => absurd hnan (by simp [Binary64.isNaN, hfield])
  | str => exact .str
  | arr each ih => exact .arr ih
  | obj keys each ih => exact .obj keys ih

mutual

/-- How many containers lie one in the other. -/
def nesting : Json → Nat
  | .arr items => nestingItems items + 1
  | .obj members => nestingMembers members + 1
  | _ => 0

def nestingItems : List Json → Nat
  | [] => 0
  | v :: rest => max v.nesting (nestingItems rest)

def nestingMembers : List (String × Json) → Nat
  | [] => 0
  | (_, v) :: rest => max v.nesting (nestingMembers rest)

end

theorem nestingItems_le_iff : nestingItems vs ≤ n ↔ ∀ v ∈ vs, v.nesting ≤ n := by
  induction vs with
  | nil => simp [nestingItems]
  | cons v rest ih => rw [nestingItems, Nat.max_le, ih, List.forall_mem_cons]

theorem nestingMembers_le_iff : nestingMembers ms ≤ n ↔ ∀ e ∈ ms, e.2.nesting ≤ n := by
  induction ms with
  | nil => simp [nestingMembers]
  | cons e rest ih =>
    obtain ⟨k, v⟩ := e
    rw [nestingMembers, Nat.max_le, ih, List.forall_mem_cons]

theorem printItems_eq (style : Style) (level : Nat) (vs : List Json) :
    printItems style level vs = vs.map (printAt style level) := by
  induction vs with
  | nil => rfl
  | cons v rest ih => rw [printItems, ih, List.map_cons]

/-- The text of a member at a level. -/
def memberText (style : Style) (level : Nat) (e : String × Json) : String :=
  printString style.ascii e.1 ++ style.colon ++ printAt style level e.2

theorem printMembers_eq (style : Style) (level : Nat) (ms : List (String × Json)) :
    printMembers style level ms = ms.map (memberText style level) := by
  induction ms with
  | nil => rfl
  | cons e rest ih =>
    obtain ⟨k, v⟩ := e
    rw [printMembers, ih, List.map_cons, memberText]

/-- Nothing but blanks. -/
def Blank (cs : List Char) : Prop := ∀ c ∈ cs, isBlank c = true

theorem Blank.append (h : Blank cs) (h' : Blank ds) : Blank (cs ++ ds) :=
  fun c hc => (List.mem_append.1 hc).elim (h c) (h' c)

theorem skip_cons (h : isBlank c = false) : skip (c :: cs) = c :: cs :=
  List.dropWhile_cons_of_neg (by simp [h])

theorem skip_blanks (h : Blank blanks) (cs : List Char) : skip (blanks ++ cs) = skip cs :=
  List.dropWhile_append_of_pos h

theorem lineBreak_blank (style : Style) (level : Nat) : Blank (style.lineBreak level).toList := by
  intro c hc
  unfold Style.lineBreak at hc
  split at hc
  · exact absurd hc List.not_mem_nil
  · rename_i width _
    simp only [String.toList_append, Text.replicate, String.toList_ofList] at hc
    rcases List.mem_append.1 hc with hc | hc
    · rw [List.mem_singleton.1 hc]
      rfl
    · rw [List.eq_of_mem_replicate hc]
      rfl

theorem stops_of_isBlank (h : isBlank c = true) :
    c.isDigit = false ∧ c ≠ '.' ∧ c ≠ 'e' ∧ c ≠ 'E' := by
  simp only [isBlank, Bool.or_eq_true, beq_iff_eq] at h
  rcases h with ((rfl | rfl) | rfl) | rfl <;> decide

/-- Blanks and then a character that ends a number. -/
theorem Blank.stops (h : Blank blanks) (hrest : Stops rest) : Stops (blanks ++ rest) := by
  cases blanks with
  | nil => exact hrest
  | cons c cs => exact .cons (stops_of_isBlank (h c List.mem_cons_self))

/-- A character that a value can start with. -/
structure Opening (c : Char) : Prop where
  blank : isBlank c = false
  bracket : c ≠ ']'
  brace : c ≠ '\x7d'
  mark : c.toNat ≠ 0xFEFF

/-- Characters that a value can start with. -/
def Opens (cs : List Char) : Prop := ∃ c more, cs = c :: more ∧ Opening c

theorem Opening.opens (h : Opening c) (cs : List Char) : Opens (c :: cs) := ⟨c, cs, rfl, h⟩

theorem Opening.of_isDigit (hc : c.isDigit = true) : Opening c where
  blank := by
    have hne (d : Char) (hd : d.isDigit = false) : (c == d) = false :=
      beq_eq_false_iff_ne.2 (ne_of_isDigit hc hd)
    simp only [isBlank, hne ' ' rfl, hne '\t' rfl, hne '\n' rfl, hne '\r' rfl, Bool.or_self]
  bracket := ne_of_isDigit hc rfl
  brace := ne_of_isDigit hc rfl
  mark h := by
    rw [← Char.ofNat_toNat c, h] at hc
    exact absurd hc (by decide)

theorem Opens.skip (h : Opens cs) (rest : List Char) : skip (cs ++ rest) = cs ++ rest := by
  obtain ⟨c, more, rfl, hc⟩ := h
  exact skip_cons hc.blank

theorem Opens.length_pos (h : Opens cs) : 0 < cs.length := by
  obtain ⟨c, more, rfl, -⟩ := h
  exact Nat.succ_pos _

theorem Opens.append (h : Opens cs) (ds : List Char) : Opens (cs ++ ds) := by
  obtain ⟨c, more, rfl, hc⟩ := h
  exact ⟨c, more ++ ds, rfl, hc⟩

/-- Texts with a comma and blanks between them. -/
def joined (blanks : List Char) (texts : List (List Char)) : List Char :=
  List.intercalate (',' :: blanks) texts

theorem joined_singleton (blanks text : List Char) : joined blanks [text] = text :=
  List.intercalate_singleton

theorem joined_map_cons {α : Type} (blanks : List Char) (shown : α → List Char) (v w : α)
    (vs : List α) :
    joined blanks ((v :: w :: vs).map shown) =
      shown v ++ ',' :: (blanks ++ joined blanks ((w :: vs).map shown)) :=
  List.intercalate_cons_cons.trans (List.append_assoc ..)

theorem opens_joined {α : Type} (shown : α → List Char) (blanks : List Char) {v : α} (vs : List α)
    (h : Opens (shown v)) : Opens (joined blanks ((v :: vs).map shown)) := by
  cases vs with
  | nil => exact (joined_singleton blanks (shown v)).symm ▸ h
  | cons w vs =>
    rw [joined_map_cons]
    exact h.append _

/-- The text of a container that is not empty: its items with commas between them, and blanks. -/
theorem enclose_toList (hstyle : style.Readable) (level : Nat) (opening closing : String)
    {texts : List String} (h : texts ≠ []) :
    ∃ lead blanks after, Blank lead ∧ Blank blanks ∧ Blank after ∧
      (enclose style level opening closing texts).toList = opening.toList ++
        (lead ++ (joined blanks (texts.map String.toList) ++ (after ++ closing.toList))) := by
  obtain ⟨blanks, hcomma, hblanks⟩ := hstyle.comma
  have hlead := lineBreak_blank style (level + 1)
  refine ⟨_, blanks ++ (style.lineBreak (level + 1)).toList, _, hlead,
    Blank.append hblanks hlead, lineBreak_blank style level, ?_⟩
  unfold enclose
  split
  · exact absurd rfl h
  · simp only [String.toList_append, String.toList_intercalate, hcomma, joined, List.append_assoc,
      List.cons_append]

/-- A text that is read back as a value wherever something follows that ends it. -/
def ReadsBack (cs : List Char) (v : Json) : Prop :=
  ∀ fuel room rest, cs.length ≤ fuel → v.nesting ≤ room → Stops rest →
    value fuel room (cs ++ rest) = .ok (v, rest)

/-- The items of a list, read one after the other, each with the text of its own. -/
theorem items_read {shown : Json → List Char} (hopens : ∀ v ∈ vs, Opens (shown v))
    (hreads : ∀ v ∈ vs, ReadsBack (shown v) v) (hnesting : ∀ v ∈ vs, v.nesting ≤ room)
    (hbefore : Blank before) (hafter : Blank after) (hne : vs ≠ []) (acc : List Json)
    (rest : List Char) (hfuel : (joined before (vs.map shown)).length < fuel) :
    items fuel room acc (joined before (vs.map shown) ++ (after ++ ']' :: rest)) =
      .ok (.arr (acc.reverse ++ vs), rest) := by
  have hclose : skip (after ++ ']' :: rest) = ']' :: rest := by
    rw [skip_blanks hafter, skip_cons rfl]
  have hcomma (cs : List Char) : skip (',' :: cs) = ',' :: cs := skip_cons rfl
  induction vs generalizing fuel acc with
  | nil => exact absurd rfl hne
  | cons v vs ih =>
    obtain ⟨hv, hvs⟩ := List.forall_mem_cons.1 hreads
    obtain ⟨hroom, hrooms⟩ := List.forall_mem_cons.1 hnesting
    obtain ⟨-, hopens⟩ := List.forall_mem_cons.1 hopens
    obtain ⟨fuel, rfl⟩ := Nat.exists_eq_add_one_of_ne_zero (Nat.ne_zero_of_lt hfuel)
    cases vs with
    | nil =>
      rw [List.map_singleton, joined_singleton] at hfuel ⊢
      have hread := hv fuel room (after ++ ']' :: rest) (Nat.le_of_lt_succ hfuel) hroom
        (hafter.stops (.cons (by decide)))
      simp only [items, hread, hclose, List.reverse_cons]
    | cons w vs =>
      -- After an item come the comma and blanks, then the next one.
      rw [joined_map_cons] at hfuel ⊢
      simp only [List.length_append, List.length_cons] at hfuel
      have hstart : Opens (joined before ((w :: vs).map shown)) :=
        opens_joined shown before vs (hopens w List.mem_cons_self)
      have hothers {fuel : Nat} := @ih fuel hopens hvs hrooms (List.cons_ne_nil _ _) (v :: acc)
      generalize joined before ((w :: vs).map shown) = more at hfuel hstart hothers ⊢
      have hnext := hothers (show more.length < fuel by omega)
      have hread := hv fuel room (',' :: (before ++ (more ++ (after ++ ']' :: rest)))) (by omega)
        hroom (.cons (by decide))
      have hskip : skip (before ++ (more ++ (after ++ ']' :: rest))) =
          more ++ (after ++ ']' :: rest) := by
        rw [skip_blanks hbefore, hstart.skip]
      simp only [List.append_assoc, List.cons_append, items, hread, hcomma, hskip, hnext,
        List.reverse_cons, List.nil_append]

/-- A text that is read as the key of a member. -/
def ReadsKey (cs : List Char) (key : String) : Prop :=
  ∀ rest, ∃ body, cs ++ rest = '"' :: body ∧
    text (cs ++ rest) body = .ok ((key, false), rest)

theorem ReadsKey.opens (h : ReadsKey cs key) : Opens cs := by
  obtain ⟨body, hcs, -⟩ := h []
  rw [List.append_nil] at hcs
  exact hcs ▸ Opening.opens ⟨rfl, by decide, by decide, by decide⟩ body

/-- A member is read, then what follows tells whether there is another. -/
theorem members_first {key shown : List Char} {e : String × Json} (hkey : ReadsKey key e.1)
    (hblanks : Blank blanks) (hopen : Opens shown)
    (hread : value fuel room (shown ++ tail) = .ok (e.2, tail)) (acc : List (String × Json)) :
    (skip tail = '\x7d' :: rest →
      members (fuel + 1) room acc (key ++ ':' :: (blanks ++ (shown ++ tail))) =
        .ok (.obj (Table.ofPairs (e :: acc).reverse), rest)) ∧
    (skip tail = ',' :: rest →
      members (fuel + 1) room acc (key ++ ':' :: (blanks ++ (shown ++ tail))) =
        members fuel room (e :: acc) (skip rest)) := by
  have hcolon (cs : List Char) : skip (':' :: cs) = ':' :: cs := skip_cons rfl
  have hvalue : skip (blanks ++ (shown ++ tail)) = shown ++ tail := by
    rw [skip_blanks hblanks, hopen.skip]
  obtain ⟨body, hbody, htext⟩ := hkey (':' :: (blanks ++ (shown ++ tail)))
  rw [hbody] at htext ⊢
  constructor
  · intro hend
    simp only [members, htext, hcolon, hvalue, hread, hend]
  · intro hcomma
    rw [members]
    simp only [htext, hcolon, hvalue, hread, hcomma]

/-- The members of an object, read one after the other, each with a key, a colon and a value. -/
theorem members_read {key : String × Json → List Char} {shown : String × Json → List Char}
    (hkeys : ∀ e ∈ ms, ReadsKey (key e) e.1)
    (hopens : ∀ e ∈ ms, Opens (shown e)) (hreads : ∀ e ∈ ms, ReadsBack (shown e) e.2)
    (hnesting : ∀ e ∈ ms, e.2.nesting ≤ room) (hbefore : Blank before) (hafter : Blank after)
    (hblanks : Blank blanks) (hne : ms ≠ []) (acc : List (String × Json)) (rest : List Char)
    (hfuel : (joined before (ms.map fun e => key e ++ ':' :: (blanks ++ shown e))).length < fuel) :
    members fuel room acc
        (joined before (ms.map fun e => key e ++ ':' :: (blanks ++ shown e)) ++
          (after ++ '\x7d' :: rest)) =
      .ok (.obj (Table.ofPairs (acc.reverse ++ ms)), rest) := by
  have hclose : skip (after ++ '\x7d' :: rest) = '\x7d' :: rest := by
    rw [skip_blanks hafter, skip_cons rfl]
  have hcomma (cs : List Char) : skip (',' :: cs) = ',' :: cs := skip_cons rfl
  induction ms generalizing fuel acc with
  | nil => exact absurd rfl hne
  | cons e ms ih =>
    obtain ⟨hkey, hkeys⟩ := List.forall_mem_cons.1 hkeys
    obtain ⟨he, hreads⟩ := List.forall_mem_cons.1 hreads
    obtain ⟨hroom, hrooms⟩ := List.forall_mem_cons.1 hnesting
    obtain ⟨hopen, hopens⟩ := List.forall_mem_cons.1 hopens
    obtain ⟨fuel, rfl⟩ := Nat.exists_eq_add_one_of_ne_zero (Nat.ne_zero_of_lt hfuel)
    cases ms with
    | nil =>
      rw [List.map_singleton, joined_singleton] at hfuel ⊢
      simp only [List.length_append, List.length_cons] at hfuel
      have hread := he fuel room (after ++ '\x7d' :: rest) (by omega) hroom
        (hafter.stops (.cons (by decide)))
      rw [List.append_assoc, List.cons_append, List.append_assoc,
        (members_first hkey hblanks hopen hread acc).1 hclose, List.reverse_cons]
    | cons f ms =>
      rw [joined_map_cons] at hfuel ⊢
      simp only [List.length_append, List.length_cons] at hfuel
      have hstart := opens_joined (fun e => key e ++ ':' :: (blanks ++ shown e)) before ms
        ((hkeys f List.mem_cons_self).opens.append _)
      have hothers {fuel : Nat} :=
        @ih fuel hkeys hopens hreads hrooms (List.cons_ne_nil _ _) (e :: acc)
      generalize joined before ((f :: ms).map fun e => key e ++ ':' :: (blanks ++ shown e)) = more
        at hfuel hstart hothers ⊢
      have hnext := hothers (show more.length < fuel by omega)
      have hread := he fuel room (',' :: (before ++ (more ++ (after ++ '\x7d' :: rest)))) (by omega)
        hroom (.cons (by decide))
      have hskip : skip (before ++ (more ++ (after ++ '\x7d' :: rest))) =
          more ++ (after ++ '\x7d' :: rest) := by
        rw [skip_blanks hbefore, hstart.skip]
      have hfirst := (members_first hkey hblanks hopen hread acc).2 (hcomma _)
      simp only [List.append_assoc, List.cons_append, hfirst, hskip, hnext, List.reverse_cons,
        List.nil_append]

theorem opens_number (sign : Bool) (h : IsNumber cs v) :
    Opens ((if sign then ['-'] else []) ++ cs) := by
  obtain ⟨c, more, rfl, hc⟩ := h.exists_digit
  cases sign with
  | true => exact Opening.opens ⟨rfl, by decide, by decide, by decide⟩ (c :: more)
  | false => exact (Opening.of_isDigit hc).opens more

theorem readsKey_printString (ascii : Bool) (s : String) :
    ReadsKey (printString ascii s).toList s := fun rest =>
  text_printString ascii _ s rest

theorem opens_special {x : Binary64} (hfinite : x.isFinite = false)
    (hsingle : x.isNaN = true → x = .nan) : Opens (x.text printSpecials).toList := by
  rcases special_cases hfinite hsingle with rfl | rfl | rfl
  · rw [text_nan]
    exact Opening.opens ⟨rfl, by decide, by decide, by decide⟩ ['a', 'N']
  · rw [text_infinity]
    exact Opening.opens ⟨rfl, by decide, by decide, by decide⟩ "nfinity".toList
  · rw [text_minus_infinity]
    exact Opening.opens ⟨rfl, by decide, by decide, by decide⟩ "Infinity".toList

/-- The text of a value starts with what tells its kind. -/
theorem opens_printAt (style : Style) (level : Nat) (hv : Legible v) :
    Opens (printAt style level v).toList := by
  have henclose (opening closing : String) (texts : List String) (h : Opens opening.toList) :
      Opens (enclose style level opening closing texts).toList := by
    cases texts with
    | nil =>
      rw [enclose, String.toList_append]
      exact h.append _
    | cons first texts =>
      simp only [enclose, String.toList_append, List.append_assoc]
      exact h.append _
  cases hv with
  | null =>
    rw [printAt]
    exact Opening.opens ⟨rfl, by decide, by decide, by decide⟩ ['u', 'l', 'l']
  | @bool b =>
    rw [printAt]
    cases b with
    | true => exact Opening.opens ⟨rfl, by decide, by decide, by decide⟩ ['r', 'u', 'e']
    | false => exact Opening.opens ⟨rfl, by decide, by decide, by decide⟩ ['a', 'l', 's', 'e']
  | @int n few =>
    rw [printAt, int_text]
    exact opens_number _ (isNumber_toDigits few)
  | @real x single =>
    rw [printAt]
    cases hfinite : x.isFinite with
    | true =>
      obtain ⟨magnitude, htext, hnumber⟩ := Binary64.text_eq hfinite
      rw [htext]
      exact opens_number _ hnumber
    | false => exact opens_special hfinite single
  | @str s => exact (readsKey_printString style.ascii s).opens
  | arr => exact henclose "[" "]" _ (Opening.opens ⟨rfl, by decide, by decide, by decide⟩ [])
  | obj =>
    exact henclose "\x7b" "\x7d" _ (Opening.opens ⟨rfl, by decide, by decide, by decide⟩ [])

theorem value_arr (hlead : Blank lead) (h : Opens cs) (rest : List Char) :
    value (fuel + 1) (room + 1) ('[' :: (lead ++ (cs ++ rest))) =
      items fuel room [] (cs ++ rest) := by
  have hskip : skip (lead ++ (cs ++ rest)) = cs ++ rest := by
    rw [skip_blanks hlead, h.skip]
  obtain ⟨c, more, rfl, hc⟩ := h
  simp only [value, hskip]
  split
  · rename_i heq
    exact absurd (List.cons.inj heq).1 hc.bracket
  · rfl

theorem value_obj (hlead : Blank lead) (h : Opens cs) (rest : List Char) :
    value (fuel + 1) (room + 1) ('\x7b' :: (lead ++ (cs ++ rest))) =
      members fuel room [] (cs ++ rest) := by
  have hskip : skip (lead ++ (cs ++ rest)) = cs ++ rest := by
    rw [skip_blanks hlead, h.skip]
  obtain ⟨c, more, rfl, hc⟩ := h
  simp only [value, hskip]
  split
  · rename_i heq
    exact absurd (List.cons.inj heq).1 hc.brace
  · rfl

theorem ReadsBack.of_succ
    (h : ∀ fuel room rest, cs.length ≤ fuel + 1 → v.nesting ≤ room → Stops rest →
      value (fuel + 1) room (cs ++ rest) = .ok (v, rest)) (hopens : Opens cs) : ReadsBack cs v := by
  intro fuel room rest hfuel hnesting hrest
  have hpos := hopens.length_pos
  obtain ⟨fuel, rfl⟩ := Nat.exists_eq_add_one_of_ne_zero (n := fuel) (by omega)
  exact h fuel room rest hfuel hnesting hrest

theorem readsBack_arr (hstyle : style.Readable) (each : ∀ v ∈ vs, Legible v)
    (ih : ∀ v ∈ vs, ∀ level, ReadsBack (printAt style level v).toList v) (level : Nat) :
    ReadsBack (printAt style level (.arr vs)).toList (.arr vs) := by
  refine .of_succ ?_ (opens_printAt style level (.arr each))
  intro fuel room rest hfuel hnesting hrest
  obtain ⟨room, rfl⟩ : ∃ n, room = n + 1 :=
    Nat.exists_eq_add_one_of_ne_zero (Nat.ne_zero_of_lt hnesting)
  have hrooms : ∀ v ∈ vs, v.nesting ≤ room :=
    nestingItems_le_iff.1 (Nat.le_of_succ_le_succ hnesting)
  rw [printAt, printItems_eq] at hfuel ⊢
  by_cases hne : vs = []
  · subst hne
    rw [List.map_nil, enclose]
    rfl
  · obtain ⟨lead, blanks, after, hlead, hblanks, hafter, htext⟩ :=
      enclose_toList hstyle level "[" "]" (mt List.map_eq_nil_iff.1 hne)
    rw [htext, List.map_map] at hfuel ⊢
    have hopens : ∀ v ∈ vs, Opens ((String.toList ∘ printAt style (level + 1)) v) :=
      fun v hv => opens_printAt style _ (each v hv)
    have hstart : Opens (joined blanks (vs.map (String.toList ∘ printAt style (level + 1)))) := by
      obtain ⟨v, more, rfl⟩ := List.exists_cons_of_ne_nil hne
      exact opens_joined _ blanks more (hopens v List.mem_cons_self)
    have hless : (joined blanks (vs.map (String.toList ∘ printAt style (level + 1)))).length <
        fuel := by
      simp only [List.length_append, String.length_toList] at hfuel
      have hbracket : "[".length = 1 ∧ "]".length = 1 := ⟨rfl, rfl⟩
      omega
    simp only [List.append_assoc]
    exact (value_arr hlead hstart (after ++ ']' :: rest)).trans
      (items_read hopens (fun v hv => ih v hv (level + 1)) hrooms hblanks hafter hne [] rest hless)

theorem readsBack_obj (hstyle : style.Readable) (keys : (Table.keys ms).Nodup)
    (each : ∀ e ∈ ms, Legible e.2)
    (ih : ∀ e ∈ ms, ∀ level, ReadsBack (printAt style level e.2).toList e.2) (level : Nat) :
    ReadsBack (printAt style level (.obj ms)).toList (.obj ms) := by
  refine .of_succ ?_ (opens_printAt style level (.obj keys each))
  intro fuel room rest hfuel hnesting hrest
  obtain ⟨room, rfl⟩ : ∃ n, room = n + 1 :=
    Nat.exists_eq_add_one_of_ne_zero (Nat.ne_zero_of_lt hnesting)
  have hrooms : ∀ e ∈ ms, e.2.nesting ≤ room :=
    nestingMembers_le_iff.1 (Nat.le_of_succ_le_succ hnesting)
  rw [printAt, printMembers_eq] at hfuel ⊢
  by_cases hne : ms = []
  · subst hne
    rw [List.map_nil, enclose]
    rfl
  · obtain ⟨lead, before, after, hlead, hbefore, hafter, htext⟩ :=
      enclose_toList hstyle level "\x7b" "\x7d" (mt List.map_eq_nil_iff.1 hne)
    obtain ⟨blanks, hcolon, hblanks⟩ := hstyle.colon
    have hmember : String.toList ∘ memberText style (level + 1) = fun e =>
        (printString style.ascii e.1).toList ++
          ':' :: (blanks ++ (printAt style (level + 1) e.2).toList) := by
      funext e
      simp only [Function.comp_apply, memberText, String.toList_append, hcolon, List.append_assoc,
        List.cons_append]
    rw [htext, List.map_map, hmember] at hfuel ⊢
    generalize hshown : joined before (ms.map _) = shown at hfuel ⊢
    have hopens : ∀ e ∈ ms, Opens (printAt style (level + 1) e.2).toList :=
      fun e he => opens_printAt style _ (each e he)
    have hstart : Opens shown := by
      obtain ⟨e, more, rfl⟩ := List.exists_cons_of_ne_nil hne
      rw [← hshown]
      exact opens_joined _ before more ((readsKey_printString style.ascii e.1).opens.append _)
    have hless : shown.length < fuel := by
      simp only [List.length_append, String.length_toList] at hfuel
      have hbrace : "\x7b".length = 1 ∧ "\x7d".length = 1 := ⟨rfl, rfl⟩
      omega
    simp only [List.append_assoc]
    refine (value_obj hlead hstart (after ++ '\x7d' :: rest)).trans ?_
    subst hshown
    rw [members_read (fun e _ => readsKey_printString style.ascii e.1) hopens
      (fun e he => ih e he (level + 1)) hrooms hbefore hafter hblanks hne [] rest hless,
      List.reverse_nil, List.nil_append, Table.ofPairs_eq_self keys]

/-- A printed value reads back as the value. -/
theorem readsBack_printAt (hstyle : style.Readable) (hv : Legible v) :
    ∀ level, ReadsBack (printAt style level v).toList v := by
  induction hv with
  | null =>
    intro level
    refine .of_succ ?_ (opens_printAt style level .null)
    intro fuel room rest _ _ _
    rw [printAt]
    rfl
  | @bool b =>
    intro level
    refine .of_succ ?_ (opens_printAt style level .bool)
    intro fuel room rest _ _ _
    rw [printAt]
    cases b <;> rfl
  | @int n few =>
    intro level
    refine .of_succ ?_ (opens_printAt style level (.int few))
    exact fun fuel room rest _ _ hrest => value_int few hrest
  | @real x single =>
    intro level
    refine .of_succ ?_ (opens_printAt style level (.real single))
    intro fuel room rest _ _ hrest
    rw [printAt]
    cases hfinite : x.isFinite with
    | true => exact value_real hfinite hrest
    | false => exact value_special hfinite single
  | @str s =>
    intro level
    refine .of_succ ?_ (opens_printAt style level .str)
    intro fuel room rest _ _ _
    obtain ⟨body, hbody, htext⟩ := readsKey_printString style.ascii s rest
    rw [hbody] at htext
    rw [printAt, hbody, value, htext]
    rfl
  | @arr vs each ih => exact readsBack_arr hstyle each ih
  | @obj ms keys each ih => exact readsBack_obj hstyle keys each ih

/-- A printed value is a document that holds the value. -/
theorem Legible.read_print (hv : Legible v) (hstyle : style.Readable)
    (hnesting : v.nesting ≤ nestingLimit) : read (v.print style) = .ok v := by
  obtain ⟨c, cs, hcs, hc⟩ := opens_printAt style 0 hv
  have hread := readsBack_printAt hstyle hv 0 (2 * (c :: cs).length + 2) nestingLimit []
  rw [hcs, List.append_nil] at hread
  have hvalue := hread (by omega) hnesting .nil
  have hchars : readChars nestingLimit (c :: cs) = .ok v := by
    rw [readChars, skip_cons hc.blank, hvalue]
    rfl
  have hmark : (c.toNat == 0xFEFF) = false := beq_eq_false_iff_ne.2 hc.mark
  simp only [read, readWithin, print, hcs, hmark, Bool.false_eq_true, if_false, hchars]

theorem read_print (hstyle : style.Readable) (hv : Printable v)
    (hnesting : v.nesting ≤ nestingLimit) : read (v.print style) = .ok v :=
  hv.legible.read_print hstyle hnesting

end Flowplan.Json
