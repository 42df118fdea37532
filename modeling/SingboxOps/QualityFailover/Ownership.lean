import SingboxOps.Lib.Json.Value
import SingboxOps.Lib.Trace

/-
  The ownership of the dedicated group.

  A snapshot of the controller is the JSON object it answered.
  A process owns the group as it left it: with its shape and
  with the fixed member it wrote last, or with none where the
  core released a member that is down.  A snapshot that shows
  anything else suspends the process for good.
-/

namespace SingboxOps.QualityFailover

open Json (getItem)

def auto : PyStr := pyStr "自动选择"

def group : PyStr := pyStr "质量自动选择"

def outer : PyStr := pyStr "节点选择"

variable {F : Type}

-- Snapshots

/- What the controller answers under `proxies`. -/
abbrev Proxies (F : Type) := List (PyStr × Json F)

/- `proxies.get(key, {})` where it is a dictionary -/
def dictAt (proxies : Proxies F) (key : PyStr) : Option (Proxies F) := match getItem proxies key with
  | none => some []
  | some (.obj members) => some members
  | some _ => none

/- `value == text` -/
def isText (value : Option (Json F)) (text : PyStr) : Bool := match value with
  | some (.str s) => decide (s = text)
  | _ => false

/- `type(value) is str` -/
def isStr (value : Option (Json F)) : Bool := match value with
  | some (.str _) => true
  | _ => false

/- `value is b` -/
def isBool (value : Option (Json F)) (b : Bool) : Bool := match value with
  | some (.bool c) => c == b
  | _ => false

def textsAre : List (Json F) → List PyStr → Bool
  | [], [] => true
  | .str s :: items, name :: names => decide (s = name) && textsAre items names
  | _, _ => false

/- `value == names` -/
def isNames (value : Option (Json F)) (names : List PyStr) : Bool := match value with
  | some (.arr items) => textsAre items names
  | _ => false

/- `type(proxies.get(name)) is dict` with this `alive` -/
def aliveIs (proxies : Proxies F) (name : PyStr) (b : Bool) : Bool := match getItem proxies name with
  | some (.obj member) => isBool (getItem member (pyStr "alive")) b
  | _ => false

@[simp] theorem isText_iff {value : Option (Json F)}
    {text : PyStr} : isText value text = true ↔ value = some (.str text) := by
  unfold isText
  split
  · rw [decide_eq_true_eq]
    constructor
    · rintro rfl
      rfl
    · intro h
      cases h
      rfl
  · rename_i hOther
    constructor
    · intro h
      exact Bool.noConfusion h
    · rintro rfl
      exact (hOther text rfl).elim

@[simp] theorem isStr_iff {value : Option (Json F)} :
    isStr value = true ↔ ∃ text, value = some (.str text) := by
  unfold isStr
  split
  · exact ⟨fun _ => ⟨_, rfl⟩, fun _ => rfl⟩
  · rename_i hOther
    constructor
    · intro h
      exact Bool.noConfusion h
    · rintro ⟨text, rfl⟩
      exact (hOther text rfl).elim

@[simp] theorem isBool_iff {value : Option (Json F)}
    {b : Bool} : isBool value b = true ↔ value = some (.bool b) := by
  unfold isBool
  split
  · rw [beq_iff_eq]
    constructor
    · rintro rfl
      rfl
    · intro h
      cases h
      rfl
  · rename_i hOther
    constructor
    · intro h
      exact Bool.noConfusion h
    · rintro rfl
      exact (hOther b rfl).elim

theorem textsAre_iff {items : List (Json F)}
    {names : List PyStr} : textsAre items names = true ↔ items = names.map Json.str := by
  induction items generalizing names with
  | nil =>
    cases names with
    | nil => exact ⟨fun _ => rfl, fun _ => rfl⟩
    | cons name names => exact ⟨fun h => Bool.noConfusion h, fun h => nomatch h⟩
  | cons item items ih =>
    cases names with
    | nil =>
      cases item <;>
        exact ⟨fun h => Bool.noConfusion h, fun h => nomatch h⟩
    | cons name names =>
      cases item with
      | str s =>
        rw [textsAre, Bool.and_eq_true, decide_eq_true_eq, ih, List.map_cons, List.cons.injEq, Json.str.injEq]
      | null | bool | int | float | arr | obj =>
        exact ⟨fun h => Bool.noConfusion h, fun h => nomatch h⟩

@[simp] theorem isNames_iff {value : Option (Json F)} {names : List PyStr} :
    isNames value names = true ↔ value = some (.arr (names.map Json.str)) := by
  unfold isNames
  split
  · rw [textsAre_iff]
    constructor
    · rintro rfl
      rfl
    · intro h
      cases h
      rfl
  · rename_i hOther
    constructor
    · intro h
      exact Bool.noConfusion h
    · rintro rfl
      exact (hOther _ rfl).elim

@[simp] theorem aliveIs_iff {proxies : Proxies F} {name : PyStr} {b : Bool} :
    aliveIs proxies name b = true ↔ ∃ member, getItem proxies name = some (.obj member) ∧
        getItem member (pyStr "alive") = some (.bool b) := by
  unfold aliveIs
  split
  · rename_i member hMember
    rw [isBool_iff, hMember]
    constructor
    · intro h
      exact ⟨member, rfl, h⟩
    · rintro ⟨other, hOther, h⟩
      cases hOther
      exact h
  · rename_i hOther
    constructor
    · intro h
      exact Bool.noConfusion h
    · rintro ⟨member, hMember, -⟩
      exact (hOther member hMember).elim

-- Ownership

structure Owner where
  members : List PyStr
  expected : PyStr
  suspended : Bool
deriving DecidableEq

/- `Ownership.__init__` -/
def Owner.start (names : List PyStr) : Owner := ⟨auto :: names, auto, false⟩

namespace Owner

variable (owner : Owner)

def expectedFixed : PyStr := if owner.expected = auto then [] else owner.expected

/- The core cleared our member after a hard failure of it. -/
def released (proxies groupDict : Proxies F) : Bool :=
  decide (owner.expected ≠ auto) && isText (getItem groupDict (pyStr "fixed")) [] &&
    aliveIs proxies owner.expected false

def release (proxies groupDict : Proxies F) : Owner :=
  if owner.released proxies groupDict then
    { owner with expected := auto }
  else owner

/- Both groups have their shape, and ours its fixed member. -/
def shapeOk (groupDict fallback : Proxies F) : Bool :=
  isText (getItem groupDict (pyStr "type")) (pyStr "Fallback") &&
    isNames (getItem groupDict (pyStr "all")) owner.members.tail &&
    isBool (getItem groupDict (pyStr "hidden")) true &&
    isText (getItem groupDict (pyStr "fixed")) owner.expectedFixed &&
    isText (getItem fallback (pyStr "type")) (pyStr "Fallback") &&
    isNames (getItem fallback (pyStr "all")) owner.members.tail &&
    isStr (getItem fallback (pyStr "fixed"))

def suspend : Owner := { owner with suspended := true }

/- The choice of the user leads to the group. -/
def outerOk (outerDict fallback : Proxies F) : Bool :=
  isText (getItem outerDict (pyStr "type")) (pyStr "Selector") &&
    isText (getItem outerDict (pyStr "now")) group &&
    isText (getItem fallback (pyStr "fixed")) []

def judged (groupDict fallback : Proxies F) : Owner :=
  if owner.shapeOk groupDict fallback then owner
  else owner.suspend

def permitted (proxies : Proxies F) (requireOuter : Bool) : Bool × Owner :=
  match dictAt proxies outer, dictAt proxies group,
      dictAt proxies auto with
  | some outerDict, some groupDict, some fallback =>
    let owner := (owner.release proxies groupDict).judged groupDict fallback
    (!owner.suspended && (!requireOuter || outerOk outerDict fallback), owner)
  | _, _, _ => (false, owner.suspend)

/- `None` where the group is no dictionary or selects nothing. -/
def effective (proxies : Proxies F) : Json F :=
  if owner.expected = auto then
    match getItem proxies group with
    | some (.obj groupDict) => (getItem groupDict (pyStr "now")).getD .null
    | _ => .null
  else .str owner.expected

/- `none` stands for `ValueError("selection")`. -/
def committed (selected : PyStr) : Option Owner :=
  if selected ∈ owner.members then
    some { owner with expected := selected }
  else none

end Owner

-- Writes

/- A request that changes the group. -/
inductive Write where
  | delete
  | put (name : PyStr)
deriving DecidableEq

inductive OwnerError where
  | selection
  | restoreOwnership
  | response
deriving DecidableEq

/- How the request of a write ends for its sender. -/
inductive Answer where
  | acknowledged
  | failed
deriving DecidableEq

/- What a call returns or raises, and the request it made. -/
structure Reply where
  returned : Except OwnerError Bool
  write : Option Write
deriving DecidableEq

/- The request, and `committed` after it. -/
def write (owner : Owner) (request : Write) (selected : PyStr) (answer : Answer) : Reply × Owner :=
  match answer with
  | .failed => (⟨.error .response, some request⟩, owner)
  | .acknowledged =>
    match owner.committed selected with
    | none => (⟨.error .selection, some request⟩, owner)
    | some owner => (⟨.ok true, some request⟩, owner)

/- The group goes through `name`, which is alive. -/
def retains (proxies : Proxies F) (name : PyStr) : Bool := match dictAt proxies group with
  | none => false
  | some groupDict =>
    decide (name ≠ auto) && isText (getItem groupDict (pyStr "now")) name && aliveIs proxies name true

/- A ruling on a snapshot, as `permitted` makes one. -/
abbrev Judge (F : Type) := Owner → Proxies F → Bool → Bool × Owner

/- What `select` asks of its snapshot before it writes. -/
def selectableBy (judge : Judge F) (owner : Owner) (name : PyStr) (proxies : Proxies F)
    (retainCurrent : Bool) : Bool × Owner :=
  if name ∈ owner.members then
    match judge owner proxies true with
    | (false, owner) => (false, owner)
    | (true, owner) => (!retainCurrent || retains proxies name, owner)
  else (false, owner)

def writeFor (name : PyStr) : Write := if name = auto then .delete else .put name

/- `Controller.select` once it has read its snapshot -/
def select (owner : Owner) (name : PyStr) (proxies : Proxies F) (retainCurrent : Bool)
    (answer : Answer) : Reply × Owner :=
  match selectableBy Owner.permitted owner name proxies
      retainCurrent with
  | (false, owner) => (⟨.ok false, none⟩, owner)
  | (true, owner) => write owner (writeFor name) name answer

/- `Controller.restore` once it has read its snapshot -/
def restore (owner : Owner) (proxies : Proxies F) (answer : Answer) : Reply × Owner :=
  match owner.permitted proxies false with
  | (false, owner) => (⟨.error .restoreOwnership, none⟩, owner)
  | (true, owner) => write owner .delete auto answer

/- A call a process makes of its ownership. -/
inductive OwnerCall (F : Type) where
  | permitted (proxies : Proxies F) (requireOuter : Bool)
  | select
    (name : PyStr) (proxies : Proxies F)
    (retainCurrent : Bool) (answer : Answer)
  | restore (proxies : Proxies F) (answer : Answer)
  | committed (selected : PyStr)

def Owner.call (owner : Owner) (call : OwnerCall F) : Reply × Owner := match call with
  | .permitted proxies requireOuter =>
    let ruling := owner.permitted proxies requireOuter
    (⟨.ok ruling.1, none⟩, ruling.2)
  | .select name proxies retainCurrent answer =>
    QualityFailover.select owner name proxies retainCurrent answer
  | .restore proxies answer => QualityFailover.restore owner proxies answer
  | .committed selected =>
    match owner.committed selected with
    | none => (⟨.error .selection, none⟩, owner)
    | some owner => (⟨.ok true, none⟩, owner)

-- Foreign Changes

/- The group is as the core leaves it after our member failed. -/
def Released (owner : Owner) (proxies groupDict : Proxies F) : Prop :=
  owner.expected ≠ auto ∧ getItem groupDict (pyStr "fixed") = some (.str []) ∧
    ∃ member, getItem proxies owner.expected = some (.obj member) ∧
      getItem member (pyStr "alive") = some (.bool false)

/- The snapshot shows the groups as this process left them. -/
structure Own (owner : Owner) (proxies : Proxies F)
    (outerDict groupDict fallback : Proxies F) : Prop where
  outerIs : dictAt proxies outer = some outerDict
  groupIs : dictAt proxies group = some groupDict
  fallbackIs : dictAt proxies auto = some fallback
  groupType : getItem groupDict (pyStr "type") = some (.str (pyStr "Fallback"))
  groupAll : getItem groupDict (pyStr "all") = some (.arr (owner.members.tail.map Json.str))
  groupHidden : getItem groupDict (pyStr "hidden") = some (.bool true)
  groupFixed :
    getItem groupDict (pyStr "fixed") = some (.str owner.expectedFixed) ∨ Released owner proxies groupDict
  fallbackType : getItem fallback (pyStr "type") = some (.str (pyStr "Fallback"))
  fallbackAll : getItem fallback (pyStr "all") = some (.arr (owner.members.tail.map Json.str))
  fallbackFixed : ∃ text, getItem fallback (pyStr "fixed") = some (.str text)

/- Another writer changed a group or its selection. -/
def Foreign (owner : Owner) (proxies : Proxies F) : Prop :=
  ∀ outerDict groupDict fallback, ¬ Own owner proxies outerDict groupDict fallback

theorem released_iff {owner : Owner} {proxies groupDict : Proxies F} :
    owner.released proxies groupDict = true ↔ Released owner proxies groupDict := by
  unfold Owner.released Released
  rw [Bool.and_eq_true, Bool.and_eq_true, decide_eq_true_eq, isText_iff, aliveIs_iff, and_assoc]

theorem shapeOk_iff {owner : Owner} {groupDict fallback : Proxies F} :
    owner.shapeOk groupDict fallback = true ↔ getItem groupDict (pyStr "type") =
          some (.str (pyStr "Fallback")) ∧
        getItem groupDict (pyStr "all") = some (.arr (owner.members.tail.map Json.str)) ∧
        getItem groupDict (pyStr "hidden") = some (.bool true) ∧
        getItem groupDict (pyStr "fixed") = some (.str owner.expectedFixed) ∧
        getItem fallback (pyStr "type") = some (.str (pyStr "Fallback")) ∧
        getItem fallback (pyStr "all") = some (.arr (owner.members.tail.map Json.str)) ∧
        ∃ text, getItem fallback (pyStr "fixed") = some (.str text) := by
  unfold Owner.shapeOk
  simp only [Bool.and_eq_true, isText_iff, isNames_iff, isBool_iff, isStr_iff, and_assoc]

theorem own_iff {owner : Owner} {proxies outerDict groupDict fallback : Proxies F} :
    Own owner proxies outerDict groupDict fallback ↔
      dictAt proxies outer = some outerDict ∧ dictAt proxies group = some groupDict ∧
        dictAt proxies auto = some fallback ∧
        (owner.release proxies groupDict).shapeOk groupDict fallback = true := by
  rw [shapeOk_iff]
  unfold Owner.release
  constructor
  · rintro ⟨hOuter, hGroup, hFallback, hType, hAll, hHidden, hFixed, hType', hAll', hFixed'⟩
    refine ⟨hOuter, hGroup, hFallback, ?_⟩
    split
    · rename_i hReleased
      exact ⟨hType, hAll, hHidden, (released_iff.mp hReleased).2.1, hType', hAll', hFixed'⟩
    · rename_i hReleased
      rcases hFixed with hFixed | hPart
      · exact ⟨hType, hAll, hHidden, hFixed, hType', hAll', hFixed'⟩
      · exact (hReleased (released_iff.mpr hPart)).elim
  · rintro ⟨hOuter, hGroup, hFallback, hShape⟩
    split at hShape
    · rename_i hReleased
      rcases hShape with ⟨hType, hAll, hHidden, -, hType', hAll', hFixed'⟩
      exact ⟨hOuter, hGroup, hFallback, hType, hAll, hHidden,
        .inr (released_iff.mp hReleased), hType', hAll', hFixed'⟩
    · rcases hShape with ⟨hType, hAll, hHidden, hFixed, hType', hAll', hFixed'⟩
      exact ⟨hOuter, hGroup, hFallback, hType, hAll, hHidden, .inl hFixed, hType', hAll', hFixed'⟩

@[simp] theorem release_suspended (owner : Owner) (proxies groupDict : Proxies F) :
    (owner.release proxies groupDict).suspended = owner.suspended := by
  unfold Owner.release
  split <;> rfl

theorem permitted_of_suspended {owner : Owner} {proxies : Proxies F} {requireOuter : Bool}
    (h : (owner.permitted proxies requireOuter).2.suspended = true) :
    (owner.permitted proxies requireOuter).1 = false := by
  revert h
  unfold Owner.permitted
  split
  · dsimp only
    intro h
    rw [h]
    rfl
  · intro _
    rfl

theorem permitted_suspended_iff (owner : Owner) (proxies : Proxies F) (requireOuter : Bool) :
    (owner.permitted proxies requireOuter).2.suspended = true ↔
      owner.suspended = true ∨ Foreign owner proxies := by
  unfold Owner.permitted
  split
  · rename_i outerDict groupDict fallback hOuter hGroup hFallback
    dsimp only [Owner.judged]
    split
    · rename_i hShape
      rw [release_suspended]
      constructor
      · exact .inl
      · rintro (h | hForeign)
        · exact h
        · exact (hForeign _ _ _ (own_iff.mpr ⟨hOuter, hGroup, hFallback, hShape⟩)).elim
    · rename_i hShape
      refine ⟨fun _ => .inr ?_, fun _ => rfl⟩
      intro o g f hOwn
      rcases own_iff.mp hOwn with ⟨-, hG, hF, hOk⟩
      rw [hGroup] at hG
      rw [hFallback] at hF
      cases hG
      cases hF
      exact hShape hOk
  · rename_i hSome
    refine ⟨fun _ => .inr ?_, fun _ => rfl⟩
    intro o g f hOwn
    exact hSome o g f hOwn.outerIs hOwn.groupIs hOwn.fallbackIs

/- The snapshot a call rules on. -/
def looksAt (owner : Owner) (call : OwnerCall F) : Option (Proxies F) := match call with
  | .permitted proxies _ => some proxies
  | .select name proxies _ _ => if name ∈ owner.members then some proxies else none
  | .restore proxies _ => some proxies
  | .committed _ => none

/- The call wrote nothing, and a ruling permitted nothing. -/
def Refused (call : OwnerCall F) (reply : Reply) : Prop := reply.write = none ∧
    ∀ proxies requireOuter, call = .permitted proxies requireOuter → reply.returned = .ok false

theorem call_of_suspends {owner : Owner} {call : OwnerCall F} (h : owner.suspended = true ∨
        ∃ proxies, looksAt owner call = some proxies ∧ Foreign owner proxies) :
    Refused call (owner.call call).1 ∧ (owner.call call).2.suspended = true := by
  cases call with
  | permitted proxies requireOuter =>
    have hSuspended : (owner.permitted proxies requireOuter).2.suspended = true := by
      rw [permitted_suspended_iff]
      rcases h with h | ⟨p, hLook, hForeign⟩
      · exact .inl h
      · cases hLook
        exact .inr hForeign
    refine ⟨⟨rfl, ?_⟩, hSuspended⟩
    rintro p r -
    exact congrArg Except.ok (permitted_of_suspended hSuspended)
  | select name proxies retainCurrent answer =>
    have hNever : ∀ p r, OwnerCall.select name proxies retainCurrent answer ≠
          OwnerCall.permitted p r :=
      fun _ _ hEq => nomatch hEq
    dsimp only [Owner.call, select]
    unfold selectableBy
    by_cases hMem : name ∈ owner.members
    · have hSuspended : (owner.permitted proxies true).2.suspended = true := by
        rw [permitted_suspended_iff]
        rcases h with h | ⟨p, hLook, hForeign⟩
        · exact .inl h
        · rw [looksAt, if_pos hMem] at hLook
          cases hLook
          exact .inr hForeign
      have hFalse := permitted_of_suspended hSuspended
      rw [if_pos hMem]
      generalize owner.permitted proxies true = ruling at *
      rcases ruling with ⟨_ | _, next⟩
      · exact ⟨⟨rfl, fun p r hEq => (hNever p r hEq).elim⟩, hSuspended⟩
      · exact Bool.noConfusion hFalse
    · rw [if_neg hMem]
      rcases h with h | ⟨p, hLook, -⟩
      · exact ⟨⟨rfl, fun p r hEq => (hNever p r hEq).elim⟩, h⟩
      · rw [looksAt, if_neg hMem] at hLook
        cases hLook
  | restore proxies answer =>
    have hSuspended : (owner.permitted proxies false).2.suspended = true := by
      rw [permitted_suspended_iff]
      rcases h with h | ⟨p, hLook, hForeign⟩
      · exact .inl h
      · cases hLook
        exact .inr hForeign
    have hFalse := permitted_of_suspended hSuspended
    dsimp only [Owner.call, restore]
    generalize owner.permitted proxies false = ruling at *
    rcases ruling with ⟨_ | _, next⟩
    · exact ⟨⟨rfl, (fun _ _ hEq => nomatch hEq)⟩, hSuspended⟩
    · exact Bool.noConfusion hFalse
  | committed selected =>
    rcases h with h | ⟨p, hLook, -⟩
    · refine ⟨⟨?_, (fun _ _ hEq => nomatch hEq)⟩, ?_⟩
      · dsimp only [Owner.call]
        split <;> rfl
      · dsimp only [Owner.call]
        cases hNext : owner.committed selected with
        | none => exact h
        | some next =>
          unfold Owner.committed at hNext
          split at hNext
          · cases hNext
            exact h
          · cases hNext
    · cases hLook

/- By induction on the calls that follow. -/
theorem suspended_run (calls : List (OwnerCall F)) {owner : Owner}
    (h : owner.suspended = true) : (finalState Owner.call owner calls).suspended = true := by
  induction calls generalizing owner with
  | nil => exact h
  | cons call rest ih => exact ih (call_of_suspends (.inl h)).2

end SingboxOps.QualityFailover
