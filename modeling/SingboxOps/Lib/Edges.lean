import SingboxOps.Lib.Dict

/-
  Changes between what a memory holds of some subjects and what
  is observed of them now.

  An observation without a value makes the memory forget its
  subject; a subject that is not observed is left as it is.
-/

namespace SingboxOps.Edges

variable {K V : Type} [DecidableEq K] [DecidableEq V]

/- One observation: the edge it makes, and the memory after. -/
def observe (gap : Bool) (memory : Dict K V) (key : K) : Option V → List (K × V × V) × Dict K V
  | none => ([], memory.pop key)
  | some new =>
    (match memory.get key with
      | some old =>
        if !gap && decide (old ≠ new) then [(key, old, new)]
        else []
      | none => [],
      memory.set key new)

def observeAll (gap : Bool) (memory : Dict K V) : Dict K (Option V) → List (K × V × V) × Dict K V
  | [] => ([], memory)
  | (key, value) :: rest =>
    let first := observe gap memory key value
    let more := observeAll gap first.2 rest
    (first.1 ++ more.1, more.2)

/- Two observations of one subject agree. -/
def Agree (seen : Dict K (Option V)) : Prop := ∀ key v v', (key, v) ∈ seen → (key, v') ∈ seen → v = v'

variable {gap : Bool} {memory : Dict K V} {seen : Dict K (Option V)}

omit [DecidableEq V] [DecidableEq K] in
theorem Agree.tail {e : K × Option V} (h : Agree (e :: seen)) : Agree seen :=
  fun key v v' hv hv' => h key v v' (List.mem_cons_of_mem _ hv) (List.mem_cons_of_mem _ hv')

theorem observeAll_cons (gap : Bool) (memory : Dict K V) (e : K × Option V) (rest : Dict K (Option V)) :
    observeAll gap memory (e :: rest) = ((observe gap memory e.1 e.2).1 ++
          (observeAll gap (observe gap memory e.1 e.2).2 rest).1,
        (observeAll gap (observe gap memory e.1 e.2).2 rest).2) :=
  rfl

theorem mem_observe {key k : K} {value : Option V} {a b : V} : (k, a, b) ∈ (observe gap memory key value).1 ↔
      gap = false ∧ k = key ∧ memory.get key = some a ∧ value = some b ∧ a ≠ b := by
  cases value with
  | none => simp [observe]
  | some new =>
    cases hGet : memory.get key with
    | none => simp [observe, hGet]
    | some old =>
      by_cases hEdge : (!gap && decide (old ≠ new)) = true
      · simp only [observe, hGet, hEdge, if_true, List.mem_singleton, Prod.mk.injEq, Option.some.injEq]
        simp only [Bool.and_eq_true, Bool.not_eq_true', decide_eq_true_eq] at hEdge
        constructor
        · rintro ⟨rfl, rfl, rfl⟩
          exact ⟨hEdge.1, rfl, rfl, rfl, hEdge.2⟩
        · rintro ⟨-, rfl, rfl, rfl, -⟩
          exact ⟨rfl, rfl, rfl⟩
      · simp only [observe, hGet]
        rw [if_neg hEdge]
        constructor
        · exact fun h => (List.not_mem_nil h).elim
        · rintro ⟨hGap, -, hOld, hNew, hNe⟩
          rw [← Option.some.inj hOld, ← Option.some.inj hNew] at hNe
          exact (hEdge (by simp [hGap, hNe])).elim

theorem get_observe (key k : K) (value : Option V) :
    (observe gap memory key value).2.get k = if key = k then value else memory.get k := by
  cases value with
  | none => exact Dict.get_pop memory key k
  | some new => exact Dict.get_set memory key k new

theorem get_observeAll (hAgree : Agree seen) (k : K) : (observeAll gap memory seen).2.get k =
      match Dict.get seen k with
      | some value => value
      | none => memory.get k := by
  induction seen generalizing memory with
  | nil => rfl
  | cons e rest ih =>
    rcases e with ⟨key, value⟩
    rw [observeAll]
    dsimp only
    rw [ih hAgree.tail, get_observe]
    rw [Dict.get]
    by_cases hKey : key = k
    · rw [if_pos hKey, if_pos hKey]
      cases hRest : Dict.get rest k with
      | none => rfl
      | some value' =>
        dsimp only
        have hMem := Dict.mem_of_get hRest
        rw [← hKey] at hMem
        exact hAgree key value' value (List.mem_cons_of_mem _ hMem) List.mem_cons_self
    · rw [if_neg hKey, if_neg hKey]

theorem mem_observeAll (hAgree : Agree seen) {k : K} {a b : V} : (k, a, b) ∈ (observeAll gap memory seen).1 ↔
      gap = false ∧ memory.get k = some a ∧ Dict.get seen k = some (some b) ∧ a ≠ b := by
  induction seen generalizing memory with
  | nil =>
    constructor
    · exact fun h => (List.not_mem_nil h).elim
    · exact fun h => (Option.some_ne_none _ h.2.2.1.symm).elim
  | cons e rest ih =>
    rcases e with ⟨key, value⟩
    rw [observeAll]
    dsimp only
    rw [List.mem_append, mem_observe, ih hAgree.tail, get_observe, Dict.get]
    by_cases hKey : key = k
    · rw [if_pos hKey, if_pos hKey, ← hKey]
      constructor
      · rintro (⟨hGap, -, hOld, hNew, hNe⟩ | ⟨hGap, hNow, hLater, hNe⟩)
        · exact ⟨hGap, hOld, congrArg some hNew, hNe⟩
        · -- the same subject again, with the same value
          have hSame := hAgree key value (some b) List.mem_cons_self
              (List.mem_cons_of_mem _ (Dict.mem_of_get hLater))
          rw [hNow] at hSame
          exact (hNe (Option.some.inj hSame)).elim
      · rintro ⟨hGap, hOld, hNew, hNe⟩
        exact .inl ⟨hGap, rfl, hOld, Option.some.inj hNew, hNe⟩
    · rw [if_neg hKey, if_neg hKey]
      constructor
      · rintro (⟨-, hSame, -⟩ | hRest)
        · exact (hKey hSame.symm).elim
        · exact hRest
      · exact .inr

end SingboxOps.Edges
