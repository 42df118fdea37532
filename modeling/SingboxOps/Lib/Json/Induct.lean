import SingboxOps.Lib.Json.Depth
import SingboxOps.Lib.Json.Dumpable

/-
  Induction over the values a reader can make.
-/

namespace SingboxOps.Json

variable {F : Type}

/-
  A property of every scalar a text can denote, which
  containers have when their values have it.
-/
structure ReadClosed (P : Json F → Prop) : Prop where
  null : P .null
  bool : ∀ b, P (.bool b)
  int : ∀ n : ℤ, (decimalDigits n.natAbs).length ≤ maxStrDigits → P (.int n)
  float : ∀ x, P (.float x)
  str : ∀ s, P (.str s)
  arr : ∀ items, (∀ v ∈ items, P v) → P (.arr items)
  obj : ∀ members, (∀ m ∈ members, P m.2) → P (.obj members)

variable {P : Json F → Prop}

-- Held Values

/- The values an open container holds so far. -/
def Frame.Holds (P : Json F → Prop) : Frame F → Prop
  | .arr items => ∀ v ∈ items, P v
  | .obj members _ => ∀ m ∈ members, P m.2

/- The value a mode already holds. -/
def Mode.Holds (P : Json F → Prop) : Mode F → Prop
  | .name _ v => P v
  | .done v => P v
  | _ => True

def StackHolds (P : Json F → Prop) (stack : List (Frame F)) : Prop := ∀ frame ∈ stack, frame.Holds P

def Reader.Holds (P : Json F → Prop) (r : Reader F) : Prop := StackHolds P r.stack ∧ r.mode.Holds P

theorem holds_of_deliver {v : Json F} {stack : List (Frame F)} {r : Reader F}
    (hStack : StackHolds P stack) (hValue : P v)
    (h : deliver v stack = .ok r) : r.Holds P := by
  unfold deliver at h
  split at h
  · cases h
    exact ⟨hStack, hValue⟩
  · next items rest =>
    cases h
    rcases List.forall_mem_cons.mp hStack with ⟨hItems, hRest⟩
    exact ⟨List.forall_mem_cons.mpr ⟨List.forall_mem_cons.mpr ⟨hValue, hItems⟩, hRest⟩, True.intro⟩
  · next members key rest =>
    cases h
    rcases List.forall_mem_cons.mp hStack with ⟨hMembers, hRest⟩
    refine ⟨List.forall_mem_cons.mpr ⟨?_, hRest⟩, True.intro⟩
    intro m hm
    rcases mem_setItem hm with rfl | hOld
    · exact hValue
    · exact hMembers m hOld
  · cases h

theorem holds_of_enter {room : ℕ} {frame : Frame F} {mode : Mode F} {stack : List (Frame F)} {r : Reader F}
    (hStack : StackHolds P stack) (hFrame : frame.Holds P) (hMode : mode.Holds P)
    (h : enter room frame mode stack = .ok r) : r.Holds P := by
  unfold enter at h
  split_ifs at h
  cases h
  exact ⟨List.forall_mem_cons.mpr ⟨hFrame, hStack⟩, hMode⟩

theorem holds_of_stepValue (hP : ReadClosed P)
    {room : ℕ} {stack : List (Frame F)} {c : ℕ} {r : Reader F} (hStack : StackHolds P stack)
    (h : stepValue room stack c = .ok r) : r.Holds P := by
  rcases stepValue_cases h with ⟨mode, hStart, rfl⟩ | hArr | hObj
  · cases hStart with
    | text => exact ⟨hStack, True.intro⟩
    | null => exact ⟨hStack, hP.null⟩
    | bool rest b => exact ⟨hStack, hP.bool b⟩
    | float rest x => exact ⟨hStack, hP.float x⟩
    | number phase read => exact ⟨hStack, True.intro⟩
  · have hFrame : Frame.Holds P (.arr []) := List.forall_mem_nil _
    refine holds_of_enter hStack hFrame ?_ hArr
    exact True.intro
  · have hFrame : Frame.Holds P (.obj [] none) := List.forall_mem_nil _
    refine holds_of_enter hStack hFrame ?_ hObj
    exact True.intro

theorem holds_of_stepNext (hP : ReadClosed P)
    {stack : List (Frame F)} {c : ℕ} {r : Reader F} (hStack : StackHolds P stack)
    (h : stepNext stack c = .ok r) : r.Holds P := by
  unfold stepNext at h
  by_cases hSpace : isSpace c = true
  · rw [if_pos hSpace] at h
    cases h
    exact ⟨hStack, True.intro⟩
  · rw [if_neg hSpace] at h
    cases stack with
    | nil => cases h
    | cons frame rest =>
      rcases List.forall_mem_cons.mp hStack with ⟨hFrame, hRest⟩
      cases frame with
      | arr items =>
        simp only at h
        split_ifs at h
        · cases h
          exact ⟨hStack, True.intro⟩
        · exact holds_of_deliver hRest (hP.arr _ (fun v hv => hFrame v (List.mem_reverse.mp hv))) h
      | obj members key =>
        simp only at h
        split_ifs at h
        · cases h
          exact ⟨hStack, True.intro⟩
        · exact holds_of_deliver hRest (hP.obj _ hFrame) h

-- Steps

variable [FloatText F]

theorem length_decimalDigits_digitsValue {ds : List (Fin 10)} (hLength : ds.length ≤ maxStrDigits) :
    (decimalDigits (digitsValue ds)).length ≤ maxStrDigits := by
  refine length_decimalDigits_le (by decide) ?_
  have hBound : digitsValue ds < 10 ^ ds.length := digitsValue_lt ds
  exact hBound.trans_le (Nat.pow_le_pow_right (by decide) hLength)

theorem holds_of_numberValue (hP : ReadClosed P) {phase : NumberPhase} {x : Numeral} {v : Json F}
    (h : numberValue phase x = .ok v) : P v := by
  have hInt : ∀ hLength : x.whole.length ≤ maxStrDigits,
        P (.int (if x.negative then -(digitsValue x.whole : ℤ)
          else digitsValue x.whole)) := by
    intro hLength
    refine hP.int _ ?_
    split_ifs
    · rw [Int.natAbs_neg, Int.natAbs_natCast]
      exact length_decimalDigits_digitsValue hLength
    · rw [Int.natAbs_natCast]
      exact length_decimalDigits_digitsValue hLength
  unfold numberValue at h
  dsimp only at h
  split at h
  · rcases except_guard_ok h with ⟨hLength, rfl⟩
    exact hInt hLength
  · rcases except_guard_ok h with ⟨hLength, rfl⟩
    exact hInt hLength
  · cases h
    exact hP.float _
  · cases h
    exact hP.float _
  · cases h

theorem holds_of_step (hP : ReadClosed P) {room : ℕ} {r r' : Reader F} {c : ℕ} (hHolds : r.Holds P)
    (h : step room r c = .ok r') : r'.Holds P := by
  rcases r with ⟨stack, mode⟩
  rcases hHolds with ⟨hStack, hMode⟩
  have hSame : Reader.Holds P ⟨stack, mode⟩ := ⟨hStack, hMode⟩
  unfold step at h
  cases mode with
  | value =>
    simp only at h
    split_ifs at h
    · cases h
      exact hSame
    · exact holds_of_stepValue hP hStack h
  | firstItem =>
    simp only at h
    split_ifs at h
    · cases h
      exact hSame
    · exact holds_of_stepNext hP hStack h
    · exact holds_of_stepValue hP hStack h
  | firstKey =>
    simp only at h
    split_ifs at h
    · cases h
      exact hSame
    · exact holds_of_stepNext hP hStack h
    · cases h
      exact ⟨hStack, True.intro⟩
  | key =>
    simp only at h
    split_ifs at h
    · cases h
      exact hSame
    · cases h
      exact ⟨hStack, True.intro⟩
  | colon key =>
    simp only at h
    by_cases hSpace : isSpace c = true
    · rw [if_pos hSpace] at h
      cases h
      exact hSame
    · rw [if_neg hSpace] at h
      by_cases hColon : c = 58
      · rw [if_pos hColon] at h
        split at h
        · cases h
          rcases List.forall_mem_cons.mp hStack with ⟨hFrame, hRest⟩
          exact ⟨List.forall_mem_cons.mpr ⟨hFrame, hRest⟩, True.intro⟩
        · cases h
      · rw [if_neg hColon] at h
        cases h
  | next => exact holds_of_stepNext hP hStack h
  | text isKey read =>
    simp only at h
    split_ifs at h
    · unfold endText at h
      split_ifs at h
      · cases h
        exact ⟨hStack, True.intro⟩
      · exact holds_of_deliver hStack (hP.str _) h
    · cases h
      exact ⟨hStack, True.intro⟩
    · cases h
      exact ⟨hStack, True.intro⟩
  | escape isKey read =>
    simp only at h
    by_cases hUnit : c = 117
    · rw [if_pos hUnit] at h
      cases h
      exact ⟨hStack, True.intro⟩
    · rw [if_neg hUnit] at h
      split at h
      · cases h
        exact ⟨hStack, True.intro⟩
      · cases h
  | unit isKey read digits value =>
    simp only at h
    split at h
    · split_ifs at h
      · cases h
        exact ⟨hStack, True.intro⟩
      · cases h
        exact ⟨hStack, True.intro⟩
    · cases h
  | name rest value =>
    simp only at h
    split at h
    · cases h
    · split_ifs at h
      exact holds_of_deliver hStack hMode h
    · split_ifs at h
      cases h
      exact ⟨hStack, hMode⟩
  | number phase x =>
    simp only at h
    by_cases hName : phase = .minus ∧ c = 73
    · rw [if_pos hName] at h
      cases h
      exact ⟨hStack, hP.float _⟩
    · rw [if_neg hName] at h
      split at h
      · cases h
        exact ⟨hStack, True.intro⟩
      · rcases except_bind_ok h with ⟨v, hValue, hRest⟩
        rcases except_bind_ok hRest with ⟨ended, hDeliver, hEnd⟩
        have hEnded := holds_of_deliver hStack (holds_of_numberValue hP hValue) hDeliver
        split at hEnd
        · next w hDone =>
          split_ifs at hEnd
          cases hEnd
          have hHeld := hEnded.2
          rw [hDone] at hHeld
          exact ⟨(fun _ hm => nomatch hm), hHeld⟩
        · exact holds_of_stepNext hP hEnded.1 hEnd
  | done v =>
    simp only at h
    split_ifs at h
    cases h
    exact hSame

theorem holds_of_run (hP : ReadClosed P) {room : ℕ} {r r' : Reader F} {text : PyStr} (hHolds : r.Holds P)
    (h : run room r text = .ok r') : r'.Holds P := by
  induction text generalizing r with
  | nil =>
    cases h
    exact hHolds
  | cons c rest ih =>
    rcases except_bind_ok h with ⟨next, hStep, hRest⟩
    exact ih (holds_of_step hP hHolds hStep) hRest

theorem loads_induction (hP : ReadClosed P) {room : ℕ} {text : PyStr} {v : Json F}
    (h : loads room text = .ok v) : P v := by
  rcases except_bind_ok h with ⟨r, hRun, hFinish⟩
  have hStart : Reader.Holds P (Reader.start : Reader F) := ⟨(fun _ hm => nomatch hm), True.intro⟩
  have hHolds := holds_of_run hP hStart hRun
  unfold finish at hFinish
  split at hFinish
  · next hStack hDone =>
    cases hFinish
    have hHeld := hHolds.2
    rw [hDone] at hHeld
    exact hHeld
  · exact holds_of_numberValue hP hFinish
  · cases hFinish

end SingboxOps.Json
