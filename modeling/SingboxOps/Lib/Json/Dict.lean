import SingboxOps.Lib.Json.Depth

/-
  The values an interpreter can hold: no dictionary has a key
  twice and text consists of code points.  The text of such a
  value reads back as its canonical form.
-/

namespace SingboxOps.Json

variable {F : Type}

-- Proper Values

/- The number of code points. -/
def codePoints : ℕ := 1114112

/- The keys of a member list. -/
def keys {V : Type} (members : List (PyStr × V)) : List PyStr := members.map Prod.fst

mutual

/- No object has a key twice, and text is code points. -/
def Proper : Json F → Prop
  | .str s => ∀ c ∈ s, c < codePoints
  | .arr items => ProperItems items
  | .obj members => (keys members).Nodup ∧ ProperMembers members
  | _ => True

def ProperItems : List (Json F) → Prop
  | [] => True
  | v :: rest => Proper v ∧ ProperItems rest

def ProperMembers : List (PyStr × Json F) → Prop
  | [] => True
  | (_, v) :: rest => Proper v ∧ ProperMembers rest

end

theorem properMembers_iff (members : List (PyStr × Json F)) :
    ProperMembers members ↔ ∀ m ∈ members, Proper m.2 := by
  induction members with
  | nil => simp [ProperMembers]
  | cons m rest ih => simp [ProperMembers, ih]

variable {V W : Type}

theorem keys_setItem (members : List (PyStr × V)) (key : PyStr) (value : V) :
    keys (setItem members key value) =
      if key ∈ keys members then keys members
      else keys members ++ [key] := by
  induction members with
  | nil => simp [setItem, keys]
  | cons m rest ih =>
    simp only [keys, setItem] at ih ⊢
    by_cases hKey : m.1 = key
    · simp [hKey]
    · rw [if_neg hKey]
      simp only [List.map_cons, List.mem_cons, ih]
      have hNe : ¬ key = m.1 := fun h => hKey h.symm
      by_cases hMem : key ∈ rest.map Prod.fst
      · simp [hMem]
      · simp [hMem, hNe]

theorem nodup_setItem {members : List (PyStr × V)} (h : (keys members).Nodup) (key : PyStr)
    (value : V) : (keys (setItem members key value)).Nodup := by
  rw [keys_setItem]
  split
  · exact h
  · rename_i hNew
    apply List.nodup_append.mpr
    refine ⟨h, List.nodup_singleton key, ?_⟩
    intro a ha b hb hEq
    rw [List.mem_singleton] at hb
    rw [hEq, hb] at ha
    exact hNew ha

theorem setItem_of_not_mem {members : List (PyStr × V)} {key : PyStr} (h : key ∉ keys members)
    (value : V) : setItem members key value = members ++ [(key, value)] := by
  induction members with
  | nil => rfl
  | cons m rest ih =>
    simp only [keys, List.map_cons, List.mem_cons, not_or] at h
    rw [setItem, if_neg (fun hEq => h.1 hEq.symm), ih h.2]
    rfl

theorem lt_pushUnit {u : ℕ} (hu : u < codePoints) {read : PyStr}
    (hRead : ∀ c ∈ read, c < codePoints) : ∀ c ∈ pushUnit u read, c < codePoints := by
  intro c hc
  cases read with
  | nil =>
    rw [List.mem_singleton.mp hc]
    exact hu
  | cons h rest =>
    rw [pushUnit] at hc
    split at hc
    · rename_i hPair
      rcases List.mem_cons.mp hc with hHead | hRest
      · unfold codePoints
        omega
      · exact hRead c (List.mem_cons_of_mem _ hRest)
    · rcases List.mem_cons.mp hc with rfl | hOld
      · exact hu
      · exact hRead c hOld

theorem lt_pushChar (c : ℕ) {read : PyStr}
    (hRead : ∀ d ∈ read, d < codePoints) : ∀ d ∈ pushChar read c, d < codePoints := by
  unfold pushChar units
  split
  · rename_i hc
    apply lt_pushUnit _ hRead
    unfold codePoints
    omega
  · apply lt_pushUnit
    · unfold codePoints
      omega
    · apply lt_pushUnit _ hRead
      unfold codePoints
      omega

theorem lt_rereadStr (s : PyStr) : ∀ c ∈ rereadStr s, c < codePoints := by
  have hFold : ∀ read : PyStr, (∀ c ∈ read, c < codePoints) →
        ∀ c ∈ s.foldl pushChar read, c < codePoints := by
    induction s with
    | nil => exact fun read hRead => hRead
    | cons c rest ih =>
      intro read hRead
      exact ih _ (lt_pushChar c hRead)
  intro c hc
  apply hFold [] (by simp) c
  exact List.mem_reverse.mp hc

theorem length_pushUnit (u : ℕ) (read : PyStr) :
    (pushUnit u read).length ≤ read.length + 1 ∧ 0 < (pushUnit u read).length := by
  cases read with
  | nil => exact ⟨le_refl 1, Nat.one_pos⟩
  | cons h rest =>
    rw [pushUnit]
    split
    · simp
    · simp

theorem length_pushChar {c : ℕ} (hc : c < codePoints) (read : PyStr) :
    (pushChar read c).length ≤ read.length + 1 ∧ 0 < (pushChar read c).length := by
  unfold pushChar units
  split
  · exact length_pushUnit c read
  · -- the high half is pushed and the low half completes it
    rename_i hWide
    unfold codePoints at hc
    have hHigh : pushUnit ((55296 + (c - 65536) / 1024) % 65536) read =
          (55296 + (c - 65536) / 1024) % 65536 :: read := by
      cases read with
      | nil => rfl
      | cons h rest => rw [pushUnit, if_neg (by omega)]
    simp only [List.foldl_cons, List.foldl_nil]
    rw [hHigh, pushUnit, if_pos (by omega)]
    simp

theorem length_rereadStr {s : PyStr} (hs : ∀ c ∈ s, c < codePoints) :
    (rereadStr s).length ≤ s.length ∧ (s ≠ [] → rereadStr s ≠ []) := by
  have hFold : ∀ read : PyStr, (s.foldl pushChar read).length ≤ s.length + read.length ∧
          (s ≠ [] ∨ read ≠ [] → s.foldl pushChar read ≠ []) := by
    induction s with
    | nil => intro read; simp
    | cons c rest ih =>
      intro read
      have hOne := length_pushChar (hs c (by simp)) read
      have hRest := ih (fun d hd => hs d (by simp [hd]))
        (pushChar read c)
      refine ⟨?_, ?_⟩
      · rw [List.foldl_cons, List.length_cons]
        omega
      · intro _
        apply hRest.2
        right
        exact List.ne_nil_of_length_pos hOne.2
  have hAll := hFold []
  refine ⟨?_, ?_⟩
  · rw [rereadStr, List.length_reverse]
    simpa using hAll.1
  · intro hNe
    rw [rereadStr, Ne, List.reverse_eq_nil_iff]
    exact hAll.2 (Or.inl hNe)

mutual

theorem proper_reread (v : Json F) : Proper (reread v) := by
  match v with
  | .null => exact True.intro
  | .bool _ => exact True.intro
  | .int _ => exact True.intro
  | .float _ => exact True.intro
  | .str s => exact lt_rereadStr s
  | .arr items => exact properItems_reread items
  | .obj members => exact properMembers_reread members [] List.nodup_nil True.intro

theorem properItems_reread (items : List (Json F)) : ProperItems (rereadItems items) := by
  match items with
  | [] => exact True.intro
  | v :: rest => exact ⟨proper_reread v, properItems_reread rest⟩

theorem properMembers_reread (members read : List (PyStr × Json F)) (hKeys : (keys read).Nodup)
    (hRead : ProperMembers read) :
    (keys (rereadMembers members read)).Nodup ∧ ProperMembers (rereadMembers members read) := by
  match members with
  | [] => exact ⟨hKeys, hRead⟩
  | (k, v) :: rest =>
    rw [rereadMembers]
    apply properMembers_reread rest _ (nodup_setItem hKeys _ _)
    rw [properMembers_iff] at hRead ⊢
    intro m hm
    rcases mem_setItem hm with rfl | hOld
    · exact proper_reread v
    · exact hRead m hOld

end

-- Lookups

theorem getItem_eq_some_iff {members : List (PyStr × V)} (h : (keys members).Nodup) {key : PyStr}
    {value : V} : getItem members key = some value ↔ (key, value) ∈ members := by
  induction members with
  | nil => simp [getItem]
  | cons m rest ih =>
    have hCons : m.1 ∉ keys rest ∧ (keys rest).Nodup := List.nodup_cons.mp h
    rw [getItem]
    by_cases hKey : m.1 = key
    · rw [if_pos hKey]
      constructor
      · intro hValue
        cases hKey
        cases hValue
        exact List.mem_cons_self
      · intro hMem
        rcases List.mem_cons.mp hMem with hHead | hTail
        · rw [← hHead]
        · exact absurd (List.mem_map.mpr ⟨_, hTail, hKey.symm⟩) hCons.1
    · rw [if_neg hKey, ih hCons.2]
      constructor
      · intro hTail
        exact List.mem_cons_of_mem _ hTail
      · intro hMem
        rcases List.mem_cons.mp hMem with hHead | hTail
        · rw [← hHead] at hKey
          exact absurd rfl hKey
        · exact hTail

theorem getItem_perm {members others : List (PyStr × V)}
    (hPerm : members.Perm others) (h : (keys members).Nodup)
    (key : PyStr) : getItem members key = getItem others key := by
  have hOthers : (keys others).Nodup := (hPerm.map Prod.fst).nodup_iff.mp h
  apply Option.ext
  intro value
  rw [getItem_eq_some_iff h, getItem_eq_some_iff hOthers, hPerm.mem_iff]

theorem getItem_mapValues (f : V → W) (members : List (PyStr × V)) (key : PyStr) :
    getItem (members.map (fun m => (m.1, f m.2))) key = (getItem members key).map f := by
  induction members with
  | nil => rfl
  | cons m rest ih =>
    rw [List.map_cons, getItem, getItem, ih]
    split <;> rfl

theorem getItem_filterKeys {p : PyStr → Bool} {key : PyStr} (hKey : p key = true)
    (members : List (PyStr × V)) :
    getItem (members.filter (fun m => p m.1)) key = getItem members key := by
  induction members with
  | nil => rfl
  | cons m rest ih =>
    by_cases hEq : m.1 = key
    · rw [List.filter_cons_of_pos (by rw [hEq]; exact hKey)]
      rw [getItem, getItem, if_pos hEq, if_pos hEq]
    · rw [getItem, if_neg hEq, ← ih]
      by_cases hp : p m.1 = true
      · rw [List.filter_cons, if_pos hp, getItem, if_neg hEq]
      · rw [List.filter_cons, if_neg hp]

-- The Canonical Value

/- What the sorted text of a value reads back as. -/
def canonical (v : Json F) : Json F := reread (sortKeys v)

@[simp] theorem canonical_arr (items : List (Json F)) :
    canonical (.arr items) = .arr (items.map canonical) := by
  rw [canonical, sortKeys, reread]
  congr 1
  induction items with
  | nil => rfl
  | cons v rest ih =>
    rw [sortItems, rereadItems, ih]
    rfl

theorem sortMembers_eq (members : List (PyStr × Json F)) : sortMembers members =
      members.map (fun m => (m.1, sortKeys m.2)) := by
  induction members with
  | nil => rfl
  | cons m rest ih => rw [sortMembers, ih]; rfl

theorem rereadMembers_of_nodup (members read : List (PyStr × Json F))
    (hPlain : ∀ k ∈ keys members, rereadStr k = k)
    (h : (keys read ++ keys members).Nodup) :
    rereadMembers members read = read ++ members.map (fun m => (m.1, reread m.2)) := by
  induction members generalizing read with
  | nil => simp [rereadMembers]
  | cons m rest ih =>
    have hKey : rereadStr m.1 = m.1 := hPlain m.1 (by simp [keys])
    have hNew : m.1 ∉ keys read := by
      intro hMem
      have hApart := (List.nodup_append.mp h).2.2
      exact hApart m.1 hMem m.1 (by simp [keys]) rfl
    rw [rereadMembers, hKey, setItem_of_not_mem hNew, ih]
    · simp
    · intro k hk
      exact hPlain k (List.mem_cons_of_mem _ hk)
    · have hKeys : keys (read ++ [(m.1, reread m.2)]) ++ keys rest = keys read ++ keys (m :: rest) := by
        simp [keys]
      rw [hKeys]
      exact h

/-
  An object with distinct plain keys keeps them, and each of
  its values becomes canonical.
-/
theorem canonical_obj {members : List (PyStr × Json F)} (h : (keys members).Nodup)
    (hPlain : ∀ k ∈ keys members, rereadStr k = k) : ∃ read,
      canonical (.obj members) = .obj read ∧ (keys read).Perm (keys members) ∧ ∀ key,
          getItem read key = (getItem members key).map canonical := by
  let sorted := (sortMembers members).insertionSort keyOrder
  let read := sorted.map (fun m => (m.1, reread m.2))
  have hSorted : sorted.Perm (members.map (fun m => (m.1, sortKeys m.2))) := by
    rw [← sortMembers_eq]
    exact List.perm_insertionSort keyOrder _
  have hKeys : (keys sorted).Perm (keys members) := by
    have hMap := hSorted.map Prod.fst
    rw [List.map_map] at hMap
    exact hMap
  have hPerm : read.Perm (members.map (fun m => (m.1, canonical m.2))) := by
    have hMap := hSorted.map (fun m : PyStr × Json F => (m.1, reread m.2))
    rw [List.map_map] at hMap
    exact hMap
  have hRead : keys read = keys sorted := by simp [read, keys]
  refine ⟨read, ?_, ?_, ?_⟩
  · rw [canonical, sortKeys, reread]
    congr 1
    apply rereadMembers_of_nodup sorted []
    · intro k hk
      exact hPlain k (hKeys.mem_iff.mp hk)
    · exact hKeys.nodup_iff.mpr h
  · rw [hRead]
    exact hKeys
  · intro key
    rw [getItem_perm hPerm (by rw [hRead]; exact hKeys.nodup_iff.mpr h)]
    exact getItem_mapValues canonical members key

end SingboxOps.Json
