import Flowplan.Text.Basic
import Mathlib.Data.List.DropRight

/-!
The parts of a text. Trimming leaves the one middle part with nothing but blanks around it; a text
is split at the first or the last occurrence of a character in one way only.
-/

namespace Flowplan.Text
set_option autoImplicit true

variable {drop : Char → Bool} {sep : Char} {cs core before after : List Char}

/-- The middle of characters that have only what is dropped around it. -/
structure Trims (drop : Char → Bool) (cs core : List Char) : Prop where
  around : ∃ before after, cs = before ++ (core ++ after) ∧ (∀ c ∈ before, drop c = true) ∧
    ∀ c ∈ after, drop c = true
  head : ∀ h : core ≠ [], drop (core.head h) = false
  last : ∀ h : core ≠ [], drop (core.getLast h) = false

/-- More of what is dropped on both sides makes no difference. -/
theorem Trims.widen (h : Trims drop cs core) (hbefore : ∀ c ∈ before, drop c = true)
    (hafter : ∀ c ∈ after, drop c = true) : Trims drop (before ++ (cs ++ after)) core := by
  obtain ⟨⟨left, right, rfl, hleft, hright⟩, hhead, hlast⟩ := h
  refine ⟨⟨before ++ left, right ++ after, ?_, ?_, ?_⟩, hhead, hlast⟩
  · simp only [List.append_assoc]
  · exact List.forall_mem_append.2 ⟨hbefore, hleft⟩
  · exact List.forall_mem_append.2 ⟨hright, hafter⟩

theorem trims_trimmed (drop : Char → Bool) (cs : List Char) : Trims drop cs (trimmed drop cs) := by
  have hdef : trimmed drop cs = (cs.dropWhile drop).rdropWhile drop := rfl
  rw [hdef]
  refine ⟨⟨cs.takeWhile drop, (cs.dropWhile drop).rtakeWhile drop, ?_, ?_, ?_⟩, ?_, ?_⟩
  · rw [List.rdropWhile_append_rtakeWhile, List.takeWhile_append_dropWhile]
  · exact fun c hc => List.mem_takeWhile_imp hc
  · exact fun c hc => List.mem_rtakeWhile_imp hc
  · intro h
    have hfront := List.rdropWhile_prefix drop (cs.dropWhile drop)
    have hne : cs.dropWhile drop ≠ [] := fun hnil => h (List.prefix_nil.1 (hnil ▸ hfront))
    rw [hfront.head h]
    exact List.head_dropWhile_not drop hne
  · intro h
    exact Bool.eq_false_iff.2 (List.rdropWhile_last_not drop _ h)

theorem Trims.eq_trimmed (h : Trims drop cs core) : trimmed drop cs = core := by
  obtain ⟨⟨before, after, rfl, hbefore, hafter⟩, hhead, hlast⟩ := h
  have hback : (core ++ after).rdropWhile drop = core := by
    have hend : core.rdropWhile drop = core :=
      List.rdropWhile_eq_self_iff.2 fun h => Bool.eq_false_iff.1 (hlast h)
    rw [List.rdropWhile, List.reverse_append, List.dropWhile_append_of_pos
      fun c hc => hafter c (List.mem_reverse.1 hc)]
    exact hend
  have hdef : trimmed drop (before ++ (core ++ after)) =
      ((before ++ (core ++ after)).dropWhile drop).rdropWhile drop := rfl
  rw [hdef, List.dropWhile_append_of_pos hbefore]
  cases core with
  | nil =>
    rw [List.nil_append, List.dropWhile_eq_nil_iff.2 hafter]
    rfl
  | cons c rest =>
    have hc : drop c = false := hhead (List.cons_ne_nil c rest)
    rw [List.cons_append, List.dropWhile_cons_of_neg (by simp [hc])]
    exact hback

theorem Trims.mem (h : Trims drop cs core) (hc : c ∈ core) : c ∈ cs := by
  obtain ⟨before, after, hcs, -, -⟩ := h.around
  rw [hcs]
  exact List.mem_append_right _ (List.mem_append_left _ hc)

theorem bne_of_mem (h : sep ∉ cs) : ∀ c ∈ cs, (c != sep) = true :=
  fun _ hc => bne_iff_ne.2 fun he => h (he ▸ hc)

theorem takeWhile_ne (h : sep ∉ before) (after : List Char) :
    (before ++ sep :: after).takeWhile (· != sep) = before := by
  rw [List.takeWhile_append_of_pos (bne_of_mem h)]
  simp

theorem dropWhile_ne (h : sep ∉ before) (after : List Char) :
    (before ++ sep :: after).dropWhile (· != sep) = sep :: after := by
  rw [List.dropWhile_append_of_pos (bne_of_mem h)]
  simp

theorem splitFirst_append (h : sep ∉ before) (after : List Char) :
    splitFirst sep (before ++ sep :: after) = some (before, after) := by
  simp only [splitFirst, dropWhile_ne h, takeWhile_ne h]

theorem splitFirst_eq_some_iff :
    splitFirst sep cs = some (before, after) ↔ cs = before ++ sep :: after ∧ sep ∉ before := by
  constructor
  · intro h
    have hmem : sep ∈ cs := by
      by_contra hno
      rw [splitFirst_eq_none.2 hno] at h
      cases h
    obtain ⟨front, back, rfl, hfront⟩ := List.eq_append_cons_of_mem hmem
    rw [splitFirst_append hfront] at h
    obtain ⟨rfl, rfl⟩ := Prod.mk.inj (Option.some.inj h)
    exact ⟨rfl, hfront⟩
  · rintro ⟨rfl, h⟩
    exact splitFirst_append h after

/-- The part before the first occurrence of a character is the same however a text is written. -/
theorem eq_of_append_cons {front back : List Char} (h : sep ∉ before) (h' : sep ∉ front)
    (he : before ++ sep :: after = front ++ sep :: back) : before = front ∧ after = back := by
  have hsplit := splitFirst_append h after
  rw [he, splitFirst_append h'] at hsplit
  obtain ⟨rfl, rfl⟩ := Prod.mk.inj (Option.some.inj hsplit)
  exact ⟨rfl, rfl⟩

theorem exists_last (h : sep ∈ cs) : ∃ before after, cs = before ++ sep :: after ∧ sep ∉ after := by
  obtain ⟨back, front, hcs, hback⟩ := List.eq_append_cons_of_mem (List.mem_reverse.2 h)
  refine ⟨front.reverse, back.reverse, ?_, mt List.mem_reverse.1 hback⟩
  rw [← List.reverse_reverse cs, hcs]
  simp

theorem splitLast_append (h : sep ∉ after) (before : List Char) :
    splitLast sep (before ++ sep :: after) = some (before, after) := by
  have hback : (before ++ sep :: after).reverse = after.reverse ++ sep :: before.reverse := by simp
  have hafter : sep ∉ after.reverse := mt List.mem_reverse.1 h
  simp only [splitLast, hback, dropWhile_ne hafter, takeWhile_ne hafter, List.reverse_reverse]

theorem splitLast_eq_none (h : sep ∉ cs) : splitLast sep cs = none := by
  have hall : cs.reverse.dropWhile (· != sep) = [] :=
    List.dropWhile_eq_nil_iff.2 (bne_of_mem (mt List.mem_reverse.1 h))
  simp only [splitLast, hall]

end Flowplan.Text
