import SingboxOps.Lib.Json.Depth

/-
  What the encoder accepts.
-/

namespace SingboxOps

theorem length_decimalDigits_le {n k : ℕ} (hPos : 1 ≤ k)
    (hn : n < 10 ^ k) : (decimalDigits n).length ≤ k := by
  unfold decimalDigits
  split_ifs with hZero
  · exact hPos
  · rw [List.length_map, List.length_reverse]
    exact (Nat.digits_length_le_iff (by norm_num) n).mpr hn

namespace Json

variable {F : Type}

theorem dumpableMembers_iff {members : List (PyStr × Json F)} :
    dumpableMembers members = true ↔ ∀ m ∈ members, dumpable m.2 = true := by
  induction members with
  | nil => simp [dumpableMembers]
  | cons m rest ih =>
    rcases m with ⟨k, v⟩
    simp [dumpableMembers, ih]

theorem dumpable_natCast_iff {n : ℕ} : dumpable (.int n : Json F) = true ↔ n < 10 ^ maxStrDigits := by
  rw [dumpable, decide_eq_true_eq, Int.natAbs_natCast]
  constructor
  · intro h
    rw [← Nat.digits_length_le_iff (by norm_num) n]
    unfold decimalDigits at h
    split_ifs at h with hZero
    · rw [hZero, Nat.digits_zero]
      exact Nat.zero_le _
    · rw [List.length_map, List.length_reverse] at h
      exact h
  · exact length_decimalDigits_le (by decide)

theorem dumpable_natCast {n : ℕ} (hn : n < 10 ^ maxStrDigits) : dumpable (.int n : Json F) = true :=
  dumpable_natCast_iff.mpr hn

mutual

theorem dumpable_sortKeys (v : Json F) (h : dumpable v = true) : dumpable (sortKeys v) = true := by
  match v with
  | .null => exact h
  | .bool _ => exact h
  | .int _ => exact h
  | .float _ => exact h
  | .str _ => exact h
  | .arr items => exact dumpableItems_sortItems items h
  | .obj members =>
    have hSorted := dumpableMembers_sortMembers members h
    rw [sortKeys, dumpable, dumpableMembers_iff]
    rw [dumpableMembers_iff] at hSorted
    intro m hm
    exact hSorted m ((List.perm_insertionSort keyOrder _).mem_iff.mp hm)

theorem dumpableItems_sortItems (items : List (Json F))
    (h : dumpableItems items = true) : dumpableItems (sortItems items) = true := by
  match items with
  | [] => rfl
  | v :: rest =>
    rw [dumpableItems, Bool.and_eq_true] at h
    rw [sortItems, dumpableItems, Bool.and_eq_true]
    exact ⟨dumpable_sortKeys v h.1, dumpableItems_sortItems rest h.2⟩

theorem dumpableMembers_sortMembers (members : List (PyStr × Json F))
    (h : dumpableMembers members = true) : dumpableMembers (sortMembers members) = true := by
  match members with
  | [] => rfl
  | (k, v) :: rest =>
    rw [dumpableMembers, Bool.and_eq_true] at h
    rw [sortMembers, dumpableMembers, Bool.and_eq_true]
    exact ⟨dumpable_sortKeys v h.1, dumpableMembers_sortMembers rest h.2⟩

end

end Json

end SingboxOps
