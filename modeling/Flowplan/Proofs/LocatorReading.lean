import Flowplan.Locator
import Flowplan.Proofs.NumberReading
import Flowplan.Proofs.TextParts

/-!
Reading a locator back from its text. Main statement: the tokens come back, if its names are free of
the marks that divide them; so no two such locators have the same text.
-/

namespace Flowplan
set_option autoImplicit true

open Flowplan.Json.Reader (digitsValue digitsValue_toDigits isDigits_toDigits)

namespace Token

/-- A name that is not empty and has none of the marks that divide a locator. -/
structure IsName (s : String) : Prop where
  nonempty : s ≠ ""
  point : '.' ∉ s.toList
  opening : '[' ∉ s.toList
  closing : ']' ∉ s.toList

instance (s : String) : Decidable (IsName s) :=
  decidable_of_iff (s ≠ "" ∧ '.' ∉ s.toList ∧ '[' ∉ s.toList ∧ ']' ∉ s.toList)
    ⟨fun ⟨nonempty, point, opening, closing⟩ => ⟨nonempty, point, opening, closing⟩,
      fun h => ⟨h.nonempty, h.point, h.opening, h.closing⟩⟩

/-- An index from zero on, or a name without marks. -/
def Plain : Token → Prop
  | .index n => 0 ≤ n
  | .flag _ => False
  | .name s => IsName s

/-- A token's text with its mark: a point before a name, brackets around an index. -/
def marked : Token → List Char
  | .index n => '[' :: ((toString n).toList ++ [']'])
  | .flag b => '[' :: ((if b then "True" else "False").toList ++ [']'])
  | .name s => '.' :: s.toList

def isMark (c : Char) : Bool := c == '.' || c == '['

theorem IsName.isMark_eq (h : IsName s) : ∀ c ∈ s.toList, isMark c = false := by
  intro c hc
  have hpoint : c ≠ '.' := fun he => h.point (he ▸ hc)
  have hopening : c ≠ '[' := fun he => h.opening (he ▸ hc)
  simp [isMark, hpoint, hopening]

theorem exists_marked (t : Token) : ∃ c rest, t.marked = c :: rest ∧ isMark c = true := by
  cases t with
  | index n => exact ⟨_, _, rfl, rfl⟩
  | flag b => exact ⟨_, _, rfl, rfl⟩
  | name s => exact ⟨_, _, rfl, rfl⟩

theorem Plain.exists_digits (h : Plain (.index n)) :
    ∃ digits, marked (.index n) = '[' :: (digits ++ [']']) ∧ ']' ∉ digits ∧
      (digitsValue digits : Int) = n := by
  obtain ⟨m, rfl⟩ := Int.eq_ofNat_of_zero_le h
  refine ⟨Nat.toDigits 10 m, ?_, ?_, congrArg Nat.cast (digitsValue_toDigits m)⟩
  · have htext : (toString (m : Int)).toList = Nat.toDigits 10 m := Nat.toList_repr
    rw [marked, htext]
  · intro hc
    exact absurd ((isDigits_toDigits m).digits _ hc) (by decide)

end Token

namespace Locator

open Token (isMark IsName)

/-- Tokens that can be told from their texts; the one name `root` is also the text of the root. -/
structure Plain (place : Locator) : Prop where
  tokens : ∀ t ∈ place, t.Plain
  other : place ≠ [.name root]

/-- The tokens of a text in which each has its mark. -/
def ofMarked? (cs : List Char) : Option Locator :=
  match cs with
  | [] => some []
  | '.' :: rest =>
    (ofMarked? (rest.dropWhile fun c => !isMark c)).map
      (.name (String.ofList (rest.takeWhile fun c => !isMark c)) :: ·)
  | '[' :: rest =>
    if ']' ∈ rest then
      (ofMarked? (rest.dropWhile (· != ']')).tail).map
        (.index (digitsValue (rest.takeWhile (· != ']'))) :: ·)
    else none
  | _ => none
termination_by cs.length
decreasing_by
  · exact Nat.lt_succ_of_le (List.dropWhile_sublist _).length_le
  · exact Nat.lt_succ_of_le ((List.tail_sublist _).trans (List.dropWhile_sublist _)).length_le

/-- The locator with a text. A name at the beginning has no mark. -/
def ofText? (text : String) : Option Locator :=
  if text = root then some []
  else if text.toList.head? = some '[' then ofMarked? text.toList
  else ofMarked? ('.' :: text.toList)

/-- The text of tokens with their marks. -/
def marked (place : Locator) : List Char := place.flatMap Token.marked

theorem marked_cons (t : Token) (rest : Locator) : marked (t :: rest) = t.marked ++ marked rest :=
  List.flatMap_cons

theorem isMark_head? (place : Locator) : ∀ c ∈ place.marked.head?, isMark c = true := by
  cases place with
  | nil => exact fun _ h => nomatch h
  | cons t rest =>
    obtain ⟨c, cs, hmarked, hc⟩ := t.exists_marked
    rw [marked_cons, hmarked]
    exact Json.Reader.forall_head?_cons hc

/-- A name ends where the next mark is. -/
theorem takeWhile_name (h : IsName s) (rest : Locator) :
    (s.toList ++ rest.marked).takeWhile (fun c => !isMark c) = s.toList ∧
      (s.toList ++ rest.marked).dropWhile (fun c => !isMark c) = rest.marked := by
  have hname : ∀ c ∈ s.toList, (!isMark c) = true := by
    intro c hc
    rw [h.isMark_eq c hc]
    rfl
  have hmark := isMark_head? rest
  rw [List.takeWhile_append_of_pos hname, List.dropWhile_append_of_pos hname]
  cases hrest : rest.marked with
  | nil => simp
  | cons c cs =>
    rw [hrest] at hmark
    simp [hmark c rfl]

theorem ofMarked?_marked {place : Locator} (h : ∀ t ∈ place, t.Plain) :
    ofMarked? place.marked = some place := by
  induction place with
  | nil => rw [marked, List.flatMap_nil, ofMarked?]
  | cons t rest ih =>
    have ht := h t List.mem_cons_self
    have hrest := ih fun u hu => h u (List.mem_cons_of_mem t hu)
    rw [marked_cons]
    cases t with
    | index n =>
      obtain ⟨digits, hmarked, hclosing, rfl⟩ := ht.exists_digits
      rw [hmarked, List.cons_append, List.append_assoc, List.singleton_append, ofMarked?,
        if_pos (by simp), Text.takeWhile_ne hclosing, Text.dropWhile_ne hclosing, List.tail_cons,
        hrest]
      rfl
    | flag b => exact ht.elim
    | name s =>
      obtain ⟨htake, hdrop⟩ := takeWhile_name ht rest
      rw [Token.marked, List.cons_append, ofMarked?, htake, hdrop, hrest, String.ofList_toList]
      rfl

/-- Where there is some text already, each token comes with its mark. -/
theorem textFrom_toList (text : String) (h : text ≠ "") (place : Locator) :
    (textFrom text place).toList = text.toList ++ marked place := by
  induction place generalizing text with
  | nil => rw [marked, List.flatMap_nil, List.append_nil]; rfl
  | cons t rest ih =>
    have hextend : (extend text t).toList = text.toList ++ t.marked := by
      have hfull : text.isEmpty = false := by simpa using h
      cases t with
      | index n => simp [extend, Token.marked]
      | flag b => simp [extend, Token.marked]
      | name s => simp [extend, Token.marked, hfull]
    have hne : extend text t ≠ "" := by
      intro he
      rw [he] at hextend
      obtain ⟨c, cs, hmarked, -⟩ := t.exists_marked
      simp [hmarked] at hextend
    have hnext : textFrom text (t :: rest) = textFrom (extend text t) rest := rfl
    rw [hnext, ih _ hne, hextend, marked_cons, List.append_assoc]

theorem toList_text {t : Token} (h : extend "" t ≠ "") (rest : Locator) :
    (text (t :: rest)).toList = (extend "" t).toList ++ rest.marked := by
  have hfrom : (textFrom "" (t :: rest)).toList = (extend "" t).toList ++ rest.marked :=
    textFrom_toList _ h rest
  have hne : textFrom "" (t :: rest) ≠ "" := by
    intro he
    rw [he] at hfrom
    exact h (String.toList_eq_nil_iff.1 (List.append_eq_nil_iff.1 hfrom.symm).1)
  have hfull : (textFrom "" (t :: rest)).isEmpty = false := by simpa using hne
  simp only [text, hfull, Bool.false_eq_true, if_false]
  exact hfrom

theorem toList_text_name (h : IsName s) (rest : Locator) :
    (text (.name s :: rest)).toList = s.toList ++ rest.marked :=
  toList_text (t := .name s) h.nonempty rest

theorem toList_text_index (n : Int) (rest : Locator) :
    (text (.index n :: rest)).toList = marked (.index n :: rest) := by
  have hextend : (extend "" (.index n)).toList = Token.marked (.index n) := by
    simp [extend, Token.marked]
  have hne : extend "" (.index n) ≠ "" := by
    intro he
    rw [he] at hextend
    exact absurd hextend.symm (List.cons_ne_nil _ _)
  rw [toList_text hne, hextend, marked_cons]

/-- No mark stands in the text of the root. -/
theorem not_mem_root (h : isMark c = true) : c ∉ root.toList := by
  intro hc
  have hall : ∀ c ∈ root.toList, isMark c = false := by simp [root, isMark]
  exact Bool.noConfusion (h.symm.trans (hall c hc))

theorem Plain.text_ne_root (h : Plain place) (hne : place ≠ []) : place.text ≠ root := by
  intro htext
  have hroot := congrArg String.toList htext
  cases place with
  | nil => exact hne rfl
  | cons t rest =>
    have ht := h.tokens t List.mem_cons_self
    cases t with
    | index n =>
      rw [toList_text_index, marked_cons] at hroot
      exact not_mem_root (c := '[') rfl (hroot ▸ List.mem_cons_self)
    | flag b => exact ht
    | name s =>
      rw [toList_text_name ht] at hroot
      cases rest with
      | nil =>
        rw [marked, List.flatMap_nil, List.append_nil] at hroot
        exact h.other (by rw [String.toList_inj.1 hroot])
      | cons u rest =>
        obtain ⟨c, cs, hmarked, hc⟩ := u.exists_marked
        apply not_mem_root hc
        rw [← hroot, marked_cons, hmarked]
        exact List.mem_append_right _ List.mem_cons_self

/-- The tokens of a locator are read back from its text. -/
theorem ofText?_text (h : Plain place) : ofText? place.text = some place := by
  cases place with
  | nil => rfl
  | cons t rest =>
    have ht := h.tokens t List.mem_cons_self
    rw [ofText?, if_neg (h.text_ne_root (List.cons_ne_nil t rest))]
    cases t with
    | index n =>
      rw [toList_text_index, if_pos (by rw [marked_cons]; rfl)]
      exact ofMarked?_marked h.tokens
    | flag b => exact ht.elim
    | name s =>
      have hhead : (s.toList ++ marked rest).head? ≠ some '[' := by
        have hname : s.toList ≠ [] := mt String.toList_eq_nil_iff.1 ht.nonempty
        rw [List.head?_append_of_ne_nil _ hname]
        exact fun hc => ht.opening (List.mem_of_head? hc)
      rw [toList_text_name ht, if_neg hhead, ← List.cons_append]
      exact ofMarked?_marked h.tokens

theorem text_injective (h : Plain place) (h' : Plain other) (he : place.text = other.text) :
    place = other := by
  have hread := ofText?_text h
  rw [he, ofText?_text h'] at hread
  exact (Option.some.inj hread).symm

end Locator
end Flowplan
