import SingboxOps.Lib.Json.Roundtrip
import SingboxOps.Lib.Except

/-
  How deep values nest.

  What a reader with room for some open containers returns
  has no more of them open at once, so it can be read again
  after it is written.
-/

namespace SingboxOps.Json

variable {F : Type}

-- Depth of Containers

@[simp] theorem depth_str (s : PyStr) : depth (.str s : Json F) = 0 := rfl

theorem depth_le_depthItems {items : List (Json F)} {v : Json F}
    (hMem : v ∈ items) : depth v ≤ depthItems items := by
  induction items with
  | nil => cases hMem
  | cons w rest ih =>
    rw [depthItems]
    rcases List.mem_cons.mp hMem with rfl | hRest
    · omega
    · have h := ih hRest
      omega

theorem depth_le_depthMembers {members : List (PyStr × Json F)} {m : PyStr × Json F}
    (hMem : m ∈ members) : depth m.2 ≤ depthMembers members := by
  induction members with
  | nil => cases hMem
  | cons n rest ih =>
    rcases n with ⟨k, w⟩
    rw [depthMembers]
    rcases List.mem_cons.mp hMem with rfl | hRest
    · show depth w ≤ _
      omega
    · have h := ih hRest
      omega

theorem depthItems_le {items : List (Json F)} {bound : ℕ}
    (h : ∀ v ∈ items, depth v ≤ bound) : depthItems items ≤ bound := by
  induction items with
  | nil => exact Nat.zero_le bound
  | cons v rest ih =>
    have hHead := h v (by simp)
    have hRest := ih (fun w hw => h w (by simp [hw]))
    rw [depthItems]
    omega

theorem depthMembers_le {members : List (PyStr × Json F)} {bound : ℕ}
    (h : ∀ m ∈ members, depth m.2 ≤ bound) : depthMembers members ≤ bound := by
  induction members with
  | nil => exact Nat.zero_le bound
  | cons m rest ih =>
    rcases m with ⟨k, v⟩
    have hHead : depth v ≤ bound := h (k, v) (by simp)
    have hRest := ih (fun n hn => h n (by simp [hn]))
    rw [depthMembers]
    omega

theorem mem_of_getItem {V : Type} {members : List (PyStr × V)} {key : PyStr} {v : V}
    (h : getItem members key = some v) : (key, v) ∈ members := by
  induction members with
  | nil => cases h
  | cons m rest ih =>
    rcases m with ⟨k, w⟩
    rw [getItem] at h
    split_ifs at h with hKey
    · rw [hKey, Option.some.inj h]
      simp
    · exact List.mem_cons_of_mem _ (ih h)

theorem mem_setItem {V : Type} {members : List (PyStr × V)} {key : PyStr} {v : V} {m : PyStr × V}
    (h : m ∈ setItem members key v) : m = (key, v) ∨ m ∈ members := by
  induction members with
  | nil => exact Or.inl (List.mem_singleton.mp h)
  | cons n rest ih =>
    rcases n with ⟨k, w⟩
    rw [setItem] at h
    split_ifs at h with hKey
    · rcases List.mem_cons.mp h with rfl | hRest
      · exact Or.inl (by rw [hKey])
      · exact Or.inr (List.mem_cons_of_mem _ hRest)
    · rcases List.mem_cons.mp h with rfl | hRest
      · exact Or.inr List.mem_cons_self
      · rcases ih hRest with hNew | hOld
        · exact Or.inl hNew
        · exact Or.inr (List.mem_cons_of_mem _ hOld)

mutual

theorem depth_sortKeys (v : Json F) : depth (sortKeys v) ≤ depth v := by
  match v with
  | .null => exact le_rfl
  | .bool _ => exact le_rfl
  | .int _ => exact le_rfl
  | .float _ => exact le_rfl
  | .str _ => exact le_rfl
  | .arr items =>
    have h := depthItems_sortItems items
    simp only [sortKeys, depth]
    omega
  | .obj members =>
    have h := depthMembers_sortMembers members
    have hSort : depthMembers ((sortMembers members).insertionSort keyOrder) ≤
          depthMembers (sortMembers members) := by
      apply depthMembers_le
      intro m hm
      exact depth_le_depthMembers ((List.perm_insertionSort keyOrder _).mem_iff.mp hm)
    simp only [sortKeys, depth]
    omega

theorem depthItems_sortItems (items : List (Json F)) : depthItems (sortItems items) ≤ depthItems items := by
  match items with
  | [] => exact le_rfl
  | v :: rest =>
    have hHead := depth_sortKeys v
    have hRest := depthItems_sortItems rest
    simp only [sortItems, depthItems]
    omega

theorem depthMembers_sortMembers (members : List (PyStr × Json F)) :
    depthMembers (sortMembers members) ≤ depthMembers members := by
  match members with
  | [] => exact le_rfl
  | (k, v) :: rest =>
    have hHead := depth_sortKeys v
    have hRest := depthMembers_sortMembers rest
    simp only [sortMembers, depthMembers]
    omega

end

-- Depth of What Is Read

variable {room : ℕ}

/- The values an open container holds so far. -/
def Frame.depth : Frame F → ℕ
  | .arr items => depthItems items
  | .obj members _ => depthMembers members

/- The value a mode already holds. -/
def Mode.depth : Mode F → ℕ
  | .name _ v => Json.depth v
  | .done v => Json.depth v
  | _ => 0

/- Each open container's values fit below it. -/
def StackFits (room : ℕ) : List (Frame F) → Prop
  | [] => True
  | frame :: rest => frame.depth + (rest.length + 1) ≤ room ∧ StackFits room rest

/- All that a reader holds fits into the room. -/
def Reader.Fits (room : ℕ) (r : Reader F) : Prop :=
  StackFits room r.stack ∧ r.mode.depth + r.stack.length ≤ room

theorem fits_of_deliver {v : Json F} {stack : List (Frame F)} {r : Reader F}
    (hStack : StackFits room stack) (hValue : depth v + stack.length ≤ room)
    (h : deliver v stack = .ok r) : r.Fits room := by
  unfold deliver at h
  split at h
  · cases h
    exact ⟨True.intro, hValue⟩
  · next items rest =>
    cases h
    rcases hStack with ⟨hFrame, hRest⟩
    rw [Frame.depth] at hFrame
    rw [List.length_cons] at hValue
    refine ⟨⟨?_, hRest⟩, ?_⟩
    · rw [Frame.depth, depthItems]
      omega
    · simp only [Mode.depth, List.length_cons]
      omega
  · next members key rest =>
    cases h
    rcases hStack with ⟨hFrame, hRest⟩
    rw [Frame.depth] at hFrame
    rw [List.length_cons] at hValue
    have hSet : depthMembers (setItem members key v) ≤ max (depth v) (depthMembers members) := by
      apply depthMembers_le
      intro m hm
      rcases mem_setItem hm with rfl | hOld
      · exact le_max_left _ _
      · exact le_max_of_le_right (depth_le_depthMembers hOld)
    refine ⟨⟨?_, hRest⟩, ?_⟩
    · rw [Frame.depth]
      omega
    · simp only [Mode.depth, List.length_cons]
      omega
  · cases h

theorem fits_of_enter {frame : Frame F} {mode : Mode F} {stack : List (Frame F)}
    {r : Reader F} (hStack : StackFits room stack)
    (hFrame : frame.depth = 0) (hMode : mode.depth = 0)
    (h : enter room frame mode stack = .ok r) : r.Fits room := by
  unfold enter at h
  split_ifs at h with hRoom
  cases h
  refine ⟨⟨?_, hStack⟩, ?_⟩
  · rw [hFrame]
    omega
  · simp only [hMode, List.length_cons]
    omega

theorem fits_of_stepValue {stack : List (Frame F)} {c : ℕ} {r : Reader F}
    (hStack : StackFits room stack) (hLength : stack.length ≤ room)
    (h : stepValue room stack c = .ok r) : r.Fits room := by
  have hPlain : ∀ mode : Mode F, mode.depth = 0 → Reader.Fits room ⟨stack, mode⟩ := by
    intro mode hMode
    refine ⟨hStack, ?_⟩
    simp only [hMode]
    omega
  rcases stepValue_cases h with ⟨mode, hStart, rfl⟩ | hArr | hObj
  · cases hStart <;> exact hPlain _ rfl
  · exact fits_of_enter hStack rfl rfl hArr
  · exact fits_of_enter hStack rfl rfl hObj

theorem fits_of_stepNext {stack : List (Frame F)} {c : ℕ} {r : Reader F}
    (hStack : StackFits room stack) (hLength : stack.length ≤ room)
    (h : stepNext stack c = .ok r) : r.Fits room := by
  have hPlain : ∀ mode : Mode F, mode.depth = 0 → Reader.Fits room ⟨stack, mode⟩ := by
    intro mode hMode
    refine ⟨hStack, ?_⟩
    simp only [hMode]
    omega
  unfold stepNext at h
  by_cases hSpace : isSpace c = true
  · rw [if_pos hSpace] at h
    cases h
    exact hPlain _ rfl
  · rw [if_neg hSpace] at h
    cases stack with
    | nil => cases h
    | cons frame rest =>
      rcases hStack with ⟨hFrame, hRest⟩
      cases frame with
      | arr items =>
        rw [Frame.depth] at hFrame
        simp only at h
        split_ifs at h
        · cases h
          exact hPlain _ rfl
        · refine fits_of_deliver hRest ?_ h
          have hReverse : depthItems items.reverse ≤ depthItems items := by
            apply depthItems_le
            intro v hv
            exact depth_le_depthItems (List.mem_reverse.mp hv)
          rw [depth]
          omega
      | obj members key =>
        rw [Frame.depth] at hFrame
        simp only at h
        split_ifs at h
        · cases h
          exact hPlain _ rfl
        · refine fits_of_deliver hRest ?_ h
          rw [depth]
          omega

variable [FloatText F]

theorem depth_of_numberValue {phase : NumberPhase} {x : Numeral} {v : Json F}
    (h : numberValue phase x = .ok v) : depth v = 0 := by
  unfold numberValue at h
  dsimp only at h
  split at h
  · rcases except_guard_ok h with ⟨_, rfl⟩
    rfl
  · rcases except_guard_ok h with ⟨_, rfl⟩
    rfl
  · cases h
    rfl
  · cases h
    rfl
  · cases h

theorem fits_of_step {r r' : Reader F} {c : ℕ} (hFits : r.Fits room)
    (h : step room r c = .ok r') : r'.Fits room := by
  rcases r with ⟨stack, mode⟩
  rcases hFits with ⟨hStack, hMode⟩
  have hLength : stack.length ≤ room := by
    simp only at hMode
    omega
  have hPlain : ∀ mode : Mode F, mode.depth = 0 → Reader.Fits room ⟨stack, mode⟩ := by
    intro mode hMode
    refine ⟨hStack, ?_⟩
    simp only [hMode]
    omega
  have hSame : Reader.Fits room ⟨stack, mode⟩ := ⟨hStack, hMode⟩
  unfold step at h
  cases mode with
  | value =>
    simp only at h
    split_ifs at h
    · cases h
      exact hSame
    · exact fits_of_stepValue hStack hLength h
  | firstItem =>
    simp only at h
    split_ifs at h
    · cases h
      exact hSame
    · exact fits_of_stepNext hStack hLength h
    · exact fits_of_stepValue hStack hLength h
  | firstKey =>
    simp only at h
    split_ifs at h
    · cases h
      exact hSame
    · exact fits_of_stepNext hStack hLength h
    · cases h
      exact hPlain _ rfl
  | key =>
    simp only at h
    split_ifs at h
    · cases h
      exact hSame
    · cases h
      exact hPlain _ rfl
  | colon key =>
    simp only at h
    by_cases hSpace : isSpace c = true
    · rw [if_pos hSpace] at h
      cases h
      exact hSame
    · rw [if_neg hSpace] at h
      by_cases hColon : c = 58
      · rw [if_pos hColon] at h
        split at h
        · cases h
          exact ⟨hStack, hMode⟩
        · cases h
      · rw [if_neg hColon] at h
        cases h
  | next => exact fits_of_stepNext hStack hLength h
  | text isKey read =>
    simp only at h
    split_ifs at h
    · unfold endText at h
      split_ifs at h
      · cases h
        exact hPlain _ rfl
      · refine fits_of_deliver hStack ?_ h
        rw [depth_str]
        omega
    · cases h
      exact hPlain _ rfl
    · cases h
      exact hPlain _ rfl
  | escape isKey read =>
    simp only at h
    by_cases hUnit : c = 117
    · rw [if_pos hUnit] at h
      cases h
      exact hPlain _ rfl
    · rw [if_neg hUnit] at h
      split at h
      · cases h
        exact hPlain _ rfl
      · cases h
  | unit isKey read digits value =>
    simp only at h
    split at h
    · split_ifs at h
      · cases h
        exact hPlain _ rfl
      · cases h
        exact hPlain _ rfl
    · cases h
  | name rest value =>
    simp only at h
    split at h
    · cases h
    · split_ifs at h
      exact fits_of_deliver hStack hMode h
    · split_ifs at h
      cases h
      exact ⟨hStack, hMode⟩
  | number phase x =>
    simp only at h
    by_cases hName : phase = .minus ∧ c = 73
    · rw [if_pos hName] at h
      cases h
      exact hPlain _ rfl
    · rw [if_neg hName] at h
      split at h
      · cases h
        exact hPlain _ rfl
      · rcases except_bind_ok h with ⟨v, hValue, hRest⟩
        rcases except_bind_ok hRest with ⟨ended, hDeliver, hEnd⟩
        have hEnded := fits_of_deliver hStack (by rw [depth_of_numberValue hValue]; omega)
          hDeliver
        split at hEnd
        · next w hDone =>
          split_ifs at hEnd
          cases hEnd
          have hBound := hEnded.2
          rw [hDone] at hBound
          rw [Mode.depth] at hBound
          refine ⟨True.intro, ?_⟩
          show depth w + 0 ≤ room
          omega
        · exact fits_of_stepNext hEnded.1 (by have hBound := hEnded.2; omega) hEnd
  | done v =>
    simp only at h
    split_ifs at h
    cases h
    exact hSame

theorem fits_of_run {r r' : Reader F} {text : PyStr} (hFits : r.Fits room)
    (h : run room r text = .ok r') : r'.Fits room := by
  induction text generalizing r with
  | nil =>
    cases h
    exact hFits
  | cons c rest ih =>
    rcases except_bind_ok h with ⟨next, hStep, hRest⟩
    exact ih (fits_of_step hFits hStep) hRest

theorem depth_loads {text : PyStr} {v : Json F} (h : loads room text = .ok v) : depth v ≤ room := by
  rcases except_bind_ok h with ⟨r, hRun, hFinish⟩
  have hFits : r.Fits room := fits_of_run (r := Reader.start) ⟨True.intro, Nat.zero_le room⟩ hRun
  unfold finish at hFinish
  split at hFinish
  · next hStack hDone =>
    cases hFinish
    have hBound := hFits.2
    rw [hStack, hDone] at hBound
    exact hBound
  · have hZero := depth_of_numberValue hFinish
    omega
  · cases hFinish

end SingboxOps.Json
