import Flowplan.Workflow.Build

namespace Flowplan
set_option autoImplicit true

/-- The digits of a node's number, padded with zeros. -/
def paddedDigits (k : Nat) : List Char :=
  List.replicate (3 - (Nat.toDigits 10 k).length) '0' ++ Nat.toDigits 10 k

theorem nodeId_ofNat (k : Nat) : nodeId k = "node_" ++ String.ofList (paddedDigits k) := by
  have hk : ¬ (k : Int) < 0 := by omega
  have hd : toString (k : Int).natAbs = String.ofList (Nat.toDigits 10 k) := by
    rw [Int.natAbs_natCast, Nat.toString_eq_ofList_toDigits]
  have hlen : (String.ofList (Nat.toDigits 10 k)).length = (Nat.toDigits 10 k).length :=
    String.length_ofList
  simp only [nodeId, Text.zeroPadded, hk, if_false, hd, Text.replicate, hlen, paddedDigits,
    String.ofList_append]

theorem value_paddedDigits (k : Nat) : Nat.ofDigitChars 10 (paddedDigits k) 0 = k := by
  rw [paddedDigits, Nat.ofDigitChars_append, Nat.ofDigitChars_replicate_zero, Nat.mul_zero,
    Nat.ofDigitChars_ten_toDigits]

theorem isDigit_of_mem_paddedDigits {c : Char} (h : c ∈ paddedDigits k) : c.isDigit = true := by
  rcases List.mem_append.1 h with hz | hd
  · rw [List.eq_of_mem_replicate hz]
    rfl
  · exact Nat.isDigit_of_mem_toDigits (by decide) (by decide) hd

theorem three_le_length_paddedDigits (k : Nat) : 3 ≤ (paddedDigits k).length := by
  rw [paddedDigits, List.length_append, List.length_replicate]
  omega

theorem isDecimalDigit_of_isDigit {c : Char} (h : c.isDigit = true) :
    Unicode.isDecimalDigit c = true := by
  have hc : c.toNat < 0x80 := by
    simp only [Char.isDigit, Bool.and_eq_true, decide_eq_true_eq] at h
    have hle := UInt32.le_iff_toNat_le.1 h.2
    change c.toNat ≤ 57 at hle
    omega
  rw [Unicode.isDecimalDigit, if_pos hc, h]

/-- A number has one identifier only, also past three digits. -/
theorem nodeId_injective {i j : Int} (hi : 0 ≤ i) (hj : 0 ≤ j) (h : nodeId i = nodeId j) :
    i = j := by
  obtain ⟨m, rfl⟩ := Int.eq_ofNat_of_zero_le hi
  obtain ⟨n, rfl⟩ := Int.eq_ofNat_of_zero_le hj
  rw [nodeId_ofNat, nodeId_ofNat] at h
  have hd : paddedDigits m = paddedDigits n := by
    have hl := congrArg String.toList h
    simpa only [String.toList_append, String.toList_ofList, List.append_cancel_left_eq] using hl
  have hv := congrArg (fun ds => Nat.ofDigitChars 10 ds 0) hd
  simp only [value_paddedDigits] at hv
  rw [hv]

theorem nodup_nodeIds (count : Nat) :
    ((List.range count).map fun k : Nat => nodeId k).Nodup := by
  apply List.Pairwise.map _ _ List.nodup_range
  intro j k hne he
  have := nodeId_injective (Int.natCast_nonneg j) (Int.natCast_nonneg k) he
  omega

theorem nodeId_zero : nodeId 0 = "node_000" := by decide

theorem isId_nodeId {i : Int} (hi : 0 ≤ i) : Node.isId (nodeId i) = true := by
  obtain ⟨k, rfl⟩ := Int.eq_ofNat_of_zero_le hi
  have hs : Text.after? "node_" (nodeId k) = some (String.ofList (paddedDigits k)) := by
    rw [nodeId_ofNat, Text.after?, Text.startsWith, String.toList_append, String.toList_ofList,
      if_pos (List.isPrefixOf_iff_prefix.2 (List.prefix_append _ _)), List.drop_left,
      String.ofList_toList]
  have hall : (paddedDigits k).all Unicode.isDecimalDigit = true :=
    List.all_eq_true.2 fun _ hc => isDecimalDigit_of_isDigit (isDigit_of_mem_paddedDigits hc)
  simp only [Node.isId, hs, String.length_ofList, String.toList_ofList,
    three_le_length_paddedDigits, hall, decide_true, Bool.and_self]

end Flowplan
