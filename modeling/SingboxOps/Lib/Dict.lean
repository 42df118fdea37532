import Mathlib.Algebra.Order.BigOperators.Group.List
import Mathlib.Data.List.Nodup
import Mathlib.Algebra.Order.Field.Rat
import Mathlib.Tactic.Linarith

/-
  Dictionaries in insertion order, with the sum of a weight
  over their entries.
-/

namespace SingboxOps

/- A dictionary: its entries stand in insertion order. -/
abbrev Dict (K V : Type) := List (K × V)

namespace Dict

variable {K V : Type} [DecidableEq K]

/- `d.get(key)` -/
def get (d : Dict K V) (key : K) : Option V := match d with
  | [] => none
  | (k, v) :: rest => if k = key then some v else get rest key

/- `d[key] = value`; a key it has keeps its place. -/
def set (d : Dict K V) (key : K) (value : V) : Dict K V := match d with
  | [] => [(key, value)]
  | (k, v) :: rest =>
    if k = key then (k, value) :: rest
    else (k, v) :: set rest key value

/- `d.pop(key, None)` as the dictionary it leaves. -/
def pop (d : Dict K V) (key : K) : Dict K V := d.filter (fun e => decide (e.1 ≠ key))

/- The keys in insertion order. -/
def keys (d : Dict K V) : List K := d.map Prod.fst

/- The same keys, each with a value made of its own. -/
def mapValues (f : V → V) (d : Dict K V) : Dict K V := d.map (fun e => (e.1, f e.2))

-- Lookups

variable {d : Dict K V}

@[simp] theorem get_set (d : Dict K V) (key other : K) (value : V) :
    (d.set key value).get other = if key = other then some value else d.get other := by
  induction d with
  | nil => rfl
  | cons e rest ih =>
    rcases e with ⟨k, v⟩
    rw [set]
    split
    · rename_i hKey
      rw [get, get, hKey]
      split <;> rfl
    · rename_i hKey
      rw [get, get, ih]
      split
      · rename_i hOther
        rw [if_neg]
        intro hEq
        exact hKey (hOther.trans hEq.symm)
      · rfl

@[simp] theorem get_pop (d : Dict K V)
    (key other : K) : (d.pop key).get other = if key = other then none else d.get other := by
  unfold pop
  induction d with
  | nil => simp [get]
  | cons e rest ih =>
    rcases e with ⟨k, v⟩
    by_cases hKey : k = key
    · rw [List.filter_cons_of_neg (by simp [hKey]), ih, get, hKey]
      split <;> rfl
    · rw [List.filter_cons_of_pos (by simp [hKey]), get, get, ih]
      by_cases hOther : k = other
      · rw [if_pos hOther, if_pos hOther, if_neg]
        intro hEq
        exact hKey (hOther.trans hEq.symm)
      · rw [if_neg hOther, if_neg hOther]

theorem get_filter (p : K → Bool) (d : Dict K V) (key : K) :
    Dict.get (d.filter (fun e => p e.1)) key = if p key then d.get key else none := by
  induction d with
  | nil => simp [get]
  | cons e rest ih =>
    rcases e with ⟨k, v⟩
    rw [List.filter_cons, get]
    dsimp only
    by_cases hKeep : p k = true
    · rw [if_pos hKeep, get, ih]
      by_cases hKey : k = key
      · rw [if_pos hKey, if_pos hKey, if_pos (hKey ▸ hKeep)]
      · rw [if_neg hKey, if_neg hKey]
    · rw [if_neg hKeep, ih]
      by_cases hKey : k = key
      · rw [if_neg (hKey ▸ hKeep), if_neg (hKey ▸ hKeep)]
      · rw [if_neg hKey]

@[simp] theorem get_mapValues (f : V → V) (d : Dict K V)
    (key : K) : (d.mapValues f).get key = (d.get key).map f := by
  unfold mapValues
  induction d with
  | nil => rfl
  | cons e rest ih =>
    rcases e with ⟨k, v⟩
    rw [List.map_cons, get, get, ih]
    split <;> rfl

theorem get_eq_none_iff {key : K} : d.get key = none ↔ key ∉ d.keys := by
  induction d with
  | nil => simp [get, keys]
  | cons e rest ih =>
    rcases e with ⟨k, v⟩
    rw [get]
    by_cases hKey : k = key
    · simp [keys, hKey]
    · rw [if_neg hKey, ih]
      have hNe : ¬ key = k := fun h => hKey h.symm
      simp [keys, hNe]

theorem mem_of_get {key : K} {value : V} (h : d.get key = some value) : (key, value) ∈ d := by
  induction d with
  | nil => cases h
  | cons e rest ih =>
    rcases e with ⟨k, v⟩
    rw [get] at h
    split at h
    · rename_i hKey
      cases h
      rw [hKey]
      exact List.mem_cons_self
    · exact List.mem_cons_of_mem _ (ih h)

theorem mem_set {key : K} {value : V} {entry : K × V}
    (h : entry ∈ d.set key value) : entry ∈ d ∨ entry = (key, value) := by
  induction d with
  | nil => exact .inr (List.mem_singleton.mp h)
  | cons first rest ih =>
    rcases first with ⟨k, v⟩
    rw [set] at h
    split at h
    · rename_i hKey
      rcases List.mem_cons.mp h with hFirst | hRest
      · exact .inr (by rw [hFirst, hKey])
      · exact .inl (List.mem_cons_of_mem _ hRest)
    · rcases List.mem_cons.mp h with hFirst | hRest
      · exact .inl (hFirst ▸ List.mem_cons_self)
      · exact (ih hRest).imp (List.mem_cons_of_mem _) id

theorem get_of_mem (hNodup : d.keys.Nodup) {key : K} {value : V}
    (h : (key, value) ∈ d) : d.get key = some value := by
  induction d with
  | nil => cases h
  | cons e rest ih =>
    rcases e with ⟨k, v⟩
    have hSplit := List.nodup_cons.mp hNodup
    rw [get]
    rcases List.mem_cons.mp h with hHead | hTail
    · cases hHead
      rw [if_pos rfl]
    · have hNe : k ≠ key := by
        rintro rfl
        exact hSplit.1 (List.mem_map.mpr ⟨_, hTail, rfl⟩)
      rw [if_neg hNe]
      exact ih hSplit.2 hTail

theorem set_of_get_none {key : K} (h : d.get key = none)
    (value : V) : d.set key value = d ++ [(key, value)] := by
  induction d with
  | nil => rfl
  | cons e rest ih =>
    rcases e with ⟨k, v⟩
    rw [get] at h
    split at h
    · cases h
    · rename_i hKey
      rw [set, if_neg hKey, ih h]
      rfl

theorem pop_of_get_none {key : K} (h : d.get key = none) : d.pop key = d := by
  rw [get_eq_none_iff] at h
  apply List.filter_eq_self.mpr
  intro e he
  simp only [decide_eq_true_eq]
  rintro rfl
  exact h (List.mem_map.mpr ⟨e, he, rfl⟩)

theorem set_set (d : Dict K V) (key : K)
    (old value : V) : (d.set key old).set key value = d.set key value := by
  induction d with
  | nil => simp [set]
  | cons e rest ih =>
    rcases e with ⟨k, v⟩
    rw [set, set]
    split
    · rw [set, if_pos (by assumption)]
    · rw [set, if_neg (by assumption), ih]

theorem pop_set (d : Dict K V) (key : K) (value : V) : (d.set key value).pop key = d.pop key := by
  induction d with
  | nil => simp [set, pop]
  | cons e rest ih =>
    rcases e with ⟨k, v⟩
    rw [set]
    split
    · rename_i hKey
      simp [pop, hKey]
    · rename_i hKey
      unfold pop at ih ⊢
      rw [List.filter_cons_of_pos (by simp [hKey]),
        List.filter_cons_of_pos (by simp [hKey]), ih]

theorem keys_set_of_get_some {key : K} {old value : V}
    (h : d.get key = some old) : (d.set key value).keys = d.keys := by
  induction d with
  | nil => cases h
  | cons e rest ih =>
    rcases e with ⟨k, v⟩
    rw [get] at h
    rw [set]
    split
    · rfl
    · rename_i hKey
      rw [if_neg hKey] at h
      have hRest := ih h
      unfold keys at hRest ⊢
      rw [List.map_cons, List.map_cons, hRest]

theorem nodup_append (hNodup : d.keys.Nodup) {key : K} (h : d.get key = none)
    (value : V) : (keys (d ++ [(key, value)])).Nodup := by
  rw [get_eq_none_iff] at h
  unfold keys at h hNodup ⊢
  rw [List.map_append]
  apply List.nodup_append.mpr
  refine ⟨hNodup, List.nodup_singleton key, ?_⟩
  intro a ha b hb hEq
  have hb' : b = key := List.mem_singleton.mp hb
  rw [hEq, hb'] at ha
  exact h ha

theorem nodup_set (hNodup : d.keys.Nodup) (key : K) (value : V) : (d.set key value).keys.Nodup := by
  cases hGet : d.get key with
  | none =>
    rw [set_of_get_none hGet]
    exact nodup_append hNodup hGet value
  | some old =>
    rw [keys_set_of_get_some hGet]
    exact hNodup

theorem nodup_pop (hNodup : d.keys.Nodup) (key : K) : (d.pop key).keys.Nodup :=
  hNodup.sublist (List.filter_sublist.map Prod.fst)

-- Weights

/- The sum of a weight over the entries. -/
def total (weight : K → V → ℚ) (d : Dict K V) : ℚ := (d.map (fun e => weight e.1 e.2)).sum

variable {weight : K → V → ℚ}

@[simp] theorem total_append (d others : Dict K V) :
    total weight (d ++ others) = total weight d + total weight others := by
  simp [total]

theorem total_nonneg (h : ∀ e ∈ d, 0 ≤ weight e.1 e.2) : 0 ≤ total weight d := by
  apply List.sum_nonneg
  intro x hx
  rcases List.mem_map.mp hx with ⟨e, he, rfl⟩
  exact h e he

theorem total_le_total {weight weight' : K → V → ℚ} {d : Dict K V}
    (h : ∀ e ∈ d, weight e.1 e.2 ≤ weight' e.1 e.2) : total weight d ≤ total weight' d :=
  List.sum_le_sum h


theorem total_set_new {key : K} (h : d.get key = none)
    (value : V) : total weight (d.set key value) = total weight d + weight key value := by
  rw [set_of_get_none h, total_append]
  simp [total]

theorem total_set_old {key : K} {old : V} (h : d.get key = some old) (value : V) :
    total weight (d.set key value) = total weight d - weight key old + weight key value := by
  induction d with
  | nil => cases h
  | cons e rest ih =>
    rcases e with ⟨k, v⟩
    rw [get] at h
    rw [set]
    split at h
    · rename_i hKey
      cases h
      rw [if_pos hKey, hKey]
      simp only [total, List.map_cons, List.sum_cons]
      linarith
    · rename_i hKey
      have hRest := ih h
      rw [if_neg hKey]
      simp only [total, List.map_cons, List.sum_cons] at hRest ⊢
      linarith

theorem total_pop (hNodup : d.keys.Nodup) {key : K} {old : V} (h : d.get key = some old) :
    total weight (d.pop key) = total weight d - weight key old := by
  induction d with
  | nil => cases h
  | cons e rest ih =>
    rcases e with ⟨k, v⟩
    have hSplit := List.nodup_cons.mp hNodup
    rw [get] at h
    split at h
    · rename_i hKey
      cases h
      have hRest : get rest key = none := by
        rw [get_eq_none_iff, ← hKey]
        exact hSplit.1
      have hPop : pop ((k, old) :: rest) key = rest := by
        rw [pop, List.filter_cons_of_neg (by simp [hKey])]
        exact pop_of_get_none hRest
      rw [hPop, ← hKey]
      simp only [total, List.map_cons, List.sum_cons]
      linarith
    · rename_i hKey
      have hTail := ih hSplit.2 h
      have hPop : pop ((k, v) :: rest) key = (k, v) :: pop rest key :=
        List.filter_cons_of_pos (by simp [hKey])
      rw [hPop]
      simp only [total, List.map_cons, List.sum_cons] at hTail ⊢
      linarith

theorem weight_le_total (h : ∀ e ∈ d, 0 ≤ weight e.1 e.2) {key : K} {value : V}
    (hGet : d.get key = some value) : weight key value ≤ total weight d := by
  apply List.single_le_sum
  · intro x hx
    rcases List.mem_map.mp hx with ⟨e, he, rfl⟩
    exact h e he
  · exact List.mem_map.mpr ⟨_, mem_of_get hGet, rfl⟩

end Dict

end SingboxOps
