import SingboxOps.ClientManagement.Grammar
import SingboxOps.Lib.Json.Induct
import SingboxOps.Lib.Utf8

/-
  One connection of a permitted peer: the frame that is read,
  its audit record and its answer.
-/

namespace SingboxOps.ClientManagement

variable {F : Type}

-- Encodable Answers

/- Text without a lone surrogate. -/
def plainStr (s : PyStr) : Bool := s.all (fun c => !decide (55296 ≤ c ∧ c < 57344))

mutual

/- Every text of the value is without a lone surrogate. -/
def plain : Json F → Bool
  | .str s => plainStr s
  | .arr items => plainItems items
  | .obj members => plainMembers members
  | _ => true

def plainItems : List (Json F) → Bool
  | [] => true
  | v :: rest => plain v && plainItems rest

def plainMembers : List (PyStr × Json F) → Bool
  | [] => true
  | (k, v) :: rest => plainStr k && plain v && plainMembers rest

end

mutual

/- No integer of the value is too long to print. -/
def intsFit : Json F → Bool
  | .int n => Json.dumpable (.int n : Json F)
  | .arr items => intsFitItems items
  | .obj members => intsFitMembers members
  | _ => true

def intsFitItems : List (Json F) → Bool
  | [] => true
  | v :: rest => intsFit v && intsFitItems rest

def intsFitMembers : List (PyStr × Json F) → Bool
  | [] => true
  | (_, v) :: rest => intsFit v && intsFitMembers rest

end

/- The value can be sent. -/
def Encodable (v : Json F) : Prop := plain v = true ∧ intsFit v = true

-- Connections

variable [FloatText F]

inductive ReadError where
  | frame
  | recursion
deriving DecidableEq

/- `read_frame`, behind a header with a size in bounds. -/
def readFrame (room : ℕ) (body : Bytes) : Except ReadError (Json F) := match utf8Decode body with
  | none => .error .frame
  | some text =>
    match (Json.loads room text : Except _ (Json F)) with
    | .ok v => .ok v
    | .error .value => .error .frame
    | .error .recursion => .error .recursion

structure AuditEvent (F : Type) where
  stage : PyStr
  code : PyStr
  op : Option RpcOp
  requestId : Json F

inductive Raised where
  | recursion
  | encoding
deriving DecidableEq

/- The records, the frames and the exception of a connection. -/
structure Handled (F : Type) where
  audits : List (AuditEvent F)
  sent : List (Json F)
  raised : Option Raised

/- `audit_connection`, then the rest. -/
def audited (e : AuditEvent F) (rest : Handled F) : Handled F :=
  if intsFit e.requestId then { rest with audits := e :: rest.audits }
  else ⟨[], [], some .encoding⟩

/- `send_frame` as the last thing of a connection. -/
def answered (answer : Json F) : Handled F := match sendFrame answer with
  | some frame => ⟨[], [frame], none⟩
  | none => ⟨[], [], some .encoding⟩

/-
  The rest of the daemon: the replay cache and the worker.
  The worker prints its result with a tool that knows no lone
  surrogates, and the cache holds answers that were sent.
-/
structure Desk (F : Type) where
  cached : PyStr → Option (Json F)
  work : RpcRequest → Except RpcError (WorkerResult F)
  cached_encodable : ∀ requestId answer, cached requestId = some answer → Encodable answer
  work_encodable : ∀ r wres, work r = .ok wres → Encodable (.obj wres)
  error_plain : ∀ r e, work r = .error e →
      plainStr e.code = true ∧ plainStr e.stage = true ∧ plainStr e.detail = true

/- The answer of the worker, or that it could not be run. -/
def dispatch (desk : Desk F) (r : RpcRequest) : Handled F := match desk.work r with
  | .ok wres => answered (workerAnswer r wres)
  | .error e =>
    audited ⟨e.stage, e.code, some r.op, .str r.args.requestId⟩ (answered (dispatchAnswer r e))

/- A request that passed the schema. -/
def serve (desk : Desk F) (r : RpcRequest) : Handled F :=
  if r.op.Fresh then dispatch desk r
  else
    match desk.cached r.args.requestId with
    | some answer => answered answer
    | none => dispatch desk r

/- `obj.get("request_id")`, echoed to a refused request -/
def echoedId : Json F → Json F
  | .obj obj => (Json.getItem obj (pyStr "request_id")).getD .null
  | _ => .null

/- `handle_connection` of a permitted peer -/
def handleConnection (room : ℕ) (desk : Desk F) (body : Bytes) : Handled F :=
  match (readFrame room body : Except _ (Json F)) with
  | .error .frame =>
    audited ⟨pyStr "parse", pyStr "E_SCHEMA", none, .null⟩ ⟨[], [], none⟩
  | .error .recursion => ⟨[], [], some .recursion⟩
  | .ok frame =>
    match validateRequest frame with
    | .error e =>
      audited ⟨e.stage, e.code, none, echoedId frame⟩ (answered (rejectAnswer frame e))
    | .ok r => serve desk r

-- Encoding

theorem charLength_isSome (c : ℕ) : (charLength c).isSome = !decide (55296 ≤ c ∧ c < 57344) := by
  unfold charLength
  by_cases hLone : 55296 ≤ c ∧ c < 57344
  · rw [if_neg (by omega), if_neg (by omega), if_neg (by omega),
      if_neg (by omega), if_pos hLone]
    simp [hLone]
  · rw [decide_eq_false hLone]
    split_ifs <;> rfl

theorem isSome_bind_add {x y : Option ℕ} (f : ℕ → ℕ → ℕ) : (do
      let n ← x
      let m ← y
      some (f n m)).isSome = (x.isSome && y.isSome) := by
  cases x <;> cases y <;> rfl

theorem isSome_bind_three {x y z : Option ℕ} (f : ℕ → ℕ → ℕ → ℕ) : (do
      let n ← x
      let m ← y
      let k ← z
      some (f n m k)).isSome = (x.isSome && (y.isSome && z.isSome)) := by
  cases x <;> cases y <;> cases z <;> rfl

theorem strLength_isSome (s : PyStr) : (strLength s).isSome = plainStr s := by
  induction s with
  | nil => rfl
  | cons c rest ih =>
    rw [strLength, isSome_bind_add, ih, charLength_isSome]
    rfl

mutual

theorem encodedLength_isSome : ∀ v : Json F, (encodedLength v).isSome = (plain v && intsFit v)
  | .null => rfl
  | .bool true => rfl
  | .bool false => rfl
  | .int n => by
      rw [encodedLength, plain, intsFit]
      · cases Json.dumpable (.int n : Json F) <;> rfl
      all_goals exact fun _ h => nomatch h
  | .float x => rfl
  | .str s => by
      rw [encodedLength, plain, intsFit, strLength_isSome, Bool.and_true]
      all_goals exact fun _ h => nomatch h
  | .arr items => by rw [encodedLength, plain, intsFit, itemsLength_isSome]
  | .obj members => by rw [encodedLength, plain, intsFit, membersLength_isSome]

theorem itemsLength_isSome : ∀ items : List (Json F),
      (itemsLength items).isSome = (plainItems items && intsFitItems items)
  | [] => rfl
  | [v] => by
      have hOne := encodedLength_isSome v
      rw [itemsLength, plainItems, intsFitItems, plainItems,
        intsFitItems, Bool.and_true, Bool.and_true, ← hOne]
      cases encodedLength v <;> rfl
  | v :: w :: rest => by
      have hOne := encodedLength_isSome v
      have hRest := itemsLength_isSome (w :: rest)
      rw [itemsLength, plainItems, intsFitItems, isSome_bind_add, hOne, hRest]
      · cases plain v <;> cases intsFit v <;> simp
      · exact fun h => nomatch h

theorem membersLength_isSome : ∀ members : List (PyStr × Json F),
      (membersLength members).isSome = (plainMembers members && intsFitMembers members)
  | [] => rfl
  | [(k, v)] => by
      have hOne := encodedLength_isSome v
      rw [membersLength, plainMembers, intsFitMembers, plainMembers,
        intsFitMembers, Bool.and_true, Bool.and_true, isSome_bind_add,
        hOne, strLength_isSome, Bool.and_assoc]
  | (k, v) :: w :: rest => by
      have hOne := encodedLength_isSome v
      have hRest := membersLength_isSome (w :: rest)
      have hKey := strLength_isSome k
      rw [membersLength, plainMembers, intsFitMembers, isSome_bind_three, hKey, hOne, hRest]
      · cases plain v <;> cases intsFit v <;>
          simp [Bool.and_assoc]
      · exact fun h => nomatch h

end

theorem sendFrame_isSome_iff {v : Json F} : (sendFrame v).isSome = true ↔ Encodable v := by
  unfold Encodable
  rw [← Bool.and_eq_true, ← encodedLength_isSome]
  unfold sendFrame
  cases encodedLength v <;> exact Iff.rfl

theorem answered_of_encodable {v : Json F} (h : Encodable v) :
    (answered v).sent.length = 1 ∧ (answered v).audits = [] ∧ (answered v).raised = none := by
  have hSome := sendFrame_isSome_iff.mpr h
  unfold answered
  cases hFrame : sendFrame v with
  | none =>
    rw [hFrame] at hSome
    exact nomatch hSome
  | some frame => exact ⟨rfl, rfl, rfl⟩

-- Members

omit [FloatText F] in
theorem plainMembers_iff {members : List (PyStr × Json F)} : plainMembers members = true ↔
      ∀ m ∈ members, plainStr m.1 = true ∧ plain m.2 = true := by
  induction members with
  | nil => simp [plainMembers]
  | cons m rest ih =>
    rcases m with ⟨k, v⟩
    simp [plainMembers, ih]

omit [FloatText F] in
theorem intsFitItems_iff {items : List (Json F)} :
    intsFitItems items = true ↔ ∀ v ∈ items, intsFit v = true := by
  induction items with
  | nil => simp [intsFitItems]
  | cons v rest ih => simp [intsFitItems, ih]

omit [FloatText F] in
theorem intsFitMembers_iff {members : List (PyStr × Json F)} :
    intsFitMembers members = true ↔ ∀ m ∈ members, intsFit m.2 = true := by
  induction members with
  | nil => simp [intsFitMembers]
  | cons m rest ih =>
    rcases m with ⟨k, v⟩
    simp [intsFitMembers, ih]

theorem encodable_obj_iff {members : List (PyStr × Json F)} : Encodable (.obj members) ↔
      ∀ m ∈ members, plainStr m.1 = true ∧ Encodable m.2 := by
  unfold Encodable
  rw [plain, intsFit, plainMembers_iff, intsFitMembers_iff]
  constructor
  · exact fun h m hm => ⟨(h.1 m hm).1, (h.1 m hm).2, h.2 m hm⟩
  · exact fun h => ⟨fun m hm => ⟨(h m hm).1, (h m hm).2.1⟩, fun m hm => (h m hm).2.2⟩

omit [FloatText F] in
theorem encodable_str {s : PyStr} (h : plainStr s = true) : Encodable (.str s : Json F) := ⟨h, rfl⟩

theorem Encodable.getItem {obj : List (PyStr × Json F)} {key : PyStr} {v : Json F} (h : Encodable (.obj obj))
    (hItem : Json.getItem obj key = some v) : Encodable v :=
  (encodable_obj_iff.mp h _ (Json.mem_of_getItem hItem)).2

theorem intsFit_loads {room : ℕ} {text : PyStr} {v : Json F}
    (h : Json.loads room text = .ok v) : intsFit v = true := by
  refine Json.loads_induction (P := fun v => intsFit v = true)
    ⟨rfl, fun _ => rfl, fun n hn => ?_, fun _ => rfl, fun _ => rfl, fun items hItems => ?_,
      fun members hMembers => ?_⟩ h
  · exact decide_eq_true hn
  · exact intsFitItems_iff.mpr hItems
  · exact intsFitMembers_iff.mpr hMembers

-- Error Texts

/- The texts of an error can be sent. -/
def RpcError.Plain (e : RpcError) : Prop :=
  plainStr e.code = true ∧ plainStr e.stage = true ∧ plainStr e.detail = true

theorem plainStr_append {a b : PyStr} (hA : plainStr a = true)
    (hB : plainStr b = true) : plainStr (a ++ b) = true := by
  unfold plainStr at *
  rw [List.all_append, hA, hB]
  rfl

theorem plainStr_pyStr (s : String) : plainStr (pyStr s) = true := by
  unfold plainStr pyStr
  rw [List.all_map, List.all_eq_true]
  intro c _
  have hValid : c.toNat < 55296 ∨ (57343 < c.toNat ∧ c.toNat < 1114112) := c.valid
  rw [Function.comp_apply, Bool.not_eq_true', decide_eq_false_iff_not]
  omega

theorem schemaError_plain {detail : PyStr} (h : plainStr detail = true) : (schemaError detail).Plain :=
  ⟨plainStr_pyStr _, plainStr_pyStr _, h⟩

omit [FloatText F] in
theorem requiredText_plain {spec : OpSpec} {obj : List (PyStr × Json F)}
    {field detail : String} {fits : PyStr → Bool} {e : RpcError}
    (h : requiredText spec obj field fits detail = .error e) : e.Plain := by
  unfold requiredText at h
  split at h
  · split at h
    · cases h
    · cases h
      exact schemaError_plain (plainStr_pyStr _)
  · cases h

omit [FloatText F] in
theorem optionalText_plain {spec : OpSpec} {obj : List (PyStr × Json F)}
    {field detail : String} {fits : PyStr → Bool} {e : RpcError}
    (h : optionalText spec obj field fits detail = .error e) : e.Plain := by
  unfold optionalText at h
  split at h
  · cases h
  · split at h
    · split at h
      · cases h
      · cases h
        exact schemaError_plain (plainStr_pyStr _)
    · cases h

omit [FloatText F] in
theorem validateFingerprint_plain {members : List (PyStr × Json F)} {field : String} {e : RpcError}
    (h : validateFingerprint members field = .error e) : e.Plain := by
  unfold validateFingerprint at h
  split at h
  · cases h
  · split at h
    · cases h
    · cases h
      exact schemaError_plain (plainStr_pyStr _)

theorem validateActor_plain {spec : OpSpec} {obj : List (PyStr × Json F)} {e : RpcError}
    (h : validateActor spec obj = .error e) : e.Plain := by
  unfold validateActor at h
  split at h
  · cases h
  · split at h
    · split at h
      · split at h
        · rcases except_bind_error h with hOne | ⟨_, -, h⟩
          · exact validateFingerprint_plain hOne
          · rcases except_bind_error h with hTwo | ⟨_, -, h⟩
            · exact validateFingerprint_plain hTwo
            · cases h
        · cases h
          exact schemaError_plain (plainStr_pyStr _)
      · cases h
        exact schemaError_plain (plainStr_pyStr _)
    · cases h

theorem validateName_plain {spec : OpSpec} {obj : List (PyStr × Json F)} {e : RpcError}
    (h : validateName spec obj = .error e) : e.Plain := by
  unfold validateName at h
  rcases except_bind_error h with hText | ⟨_, -, h⟩
  · exact requiredText_plain hText
  · split at h
    · cases h
      exact ⟨plainStr_pyStr _, plainStr_pyStr _, plainStr_pyStr _⟩
    · cases h

omit [FloatText F] in
theorem validateBase_plain {spec : OpSpec} {obj : List (PyStr × Json F)} {e : RpcError}
    (hKeys : ∀ m ∈ obj, plainStr m.1 = true)
    (h : validateBase spec obj = .error e) : e.Plain := by
  unfold validateBase at h
  split at h
  · next key value hUnknown =>
    cases h
    exact schemaError_plain (plainStr_append (plainStr_pyStr _)
      (hKeys _ (List.mem_of_find?_eq_some hUnknown)))
  · split at h
    · cases h
      exact schemaError_plain (plainStr_pyStr _)
    · split at h
      · cases h
        exact schemaError_plain (plainStr_pyStr _)
      · cases h

omit [FloatText F] in
theorem validateRequired_plain {op : RpcOp} {obj : List (PyStr × Json F)} {e : RpcError}
    (h : validateRequired op.spec obj = .error e) : e.Plain := by
  unfold validateRequired at h
  split at h
  · next field hMissing =>
    cases h
    exact schemaError_plain (plainStr_append (plainStr_pyStr _) (plainStr_pyStr _))
  · cases h

theorem validateRequest_plain {frame : Json F} {e : RpcError}
    (hKeys : ∀ obj, frame = .obj obj → ∀ m ∈ obj, plainStr m.1 = true)
    (h : validateRequest frame = .error e) : e.Plain := by
  unfold validateRequest at h
  split at h
  · next obj =>
    split at h
    · cases h
      exact ⟨plainStr_pyStr _, plainStr_pyStr _, plainStr_pyStr _⟩
    · next op =>
      dsimp only at h
      rcases except_bind_error h with hError | ⟨_, -, h⟩
      · exact validateBase_plain (hKeys obj rfl) hError
      rcases except_bind_error h with hError | ⟨_, -, h⟩
      · exact validateRequired_plain hError
      rcases except_bind_error h with hError | ⟨_, -, h⟩
      · exact validateName_plain hError
      rcases except_bind_error h with hError | ⟨_, -, h⟩
      · exact requiredText_plain hError
      rcases except_bind_error h with hError | ⟨_, -, h⟩
      · exact requiredText_plain hError
      rcases except_bind_error h with hError | ⟨_, -, h⟩
      · exact requiredText_plain hError
      rcases except_bind_error h with hError | ⟨_, -, h⟩
      · exact requiredText_plain hError
      rcases except_bind_error h with hError | ⟨_, -, h⟩
      · exact optionalText_plain hError
      rcases except_bind_error h with hError | ⟨_, -, h⟩
      · exact optionalText_plain hError
      rcases except_bind_error h with hError | ⟨_, -, h⟩
      · exact validateActor_plain hError
      · cases h
  · cases h
    exact schemaError_plain (plainStr_pyStr _)

-- Answers

theorem errEnvelope_encodable {requestId op : Json F} {e : ErrorFields F}
    (hId : Encodable requestId) (hOp : Encodable op)
    (hCode : Encodable e.code) (hStage : Encodable e.stage) (hDetail : Encodable e.detail)
    (hBackup : Encodable e.backup) : Encodable (errEnvelope requestId op e) := by
  have hBool (b : Bool) : Encodable (.bool b : Json F) := ⟨rfl, rfl⟩
  have hVersion : Encodable (rpcVersion : Json F) := encodable_str (plainStr_pyStr _)
  unfold errEnvelope
  rw [encodable_obj_iff]
  simp only [List.forall_mem_cons, List.not_mem_nil, IsEmpty.forall_iff, implies_true, and_true]
  refine ⟨⟨plainStr_pyStr _, hBool _⟩, ⟨plainStr_pyStr _, hVersion⟩, ⟨plainStr_pyStr _, hId⟩,
    ⟨plainStr_pyStr _, hOp⟩, plainStr_pyStr _, ?_⟩
  rw [encodable_obj_iff]
  simp only [List.forall_mem_cons, List.not_mem_nil, IsEmpty.forall_iff, implies_true, and_true]
  exact ⟨⟨plainStr_pyStr _, hCode⟩, ⟨plainStr_pyStr _, hStage⟩, ⟨plainStr_pyStr _, hBool _⟩,
    ⟨plainStr_pyStr _, hDetail⟩, plainStr_pyStr _, hBackup⟩

theorem fields_encodable {requestId op : Json F} {e : RpcError}
    (hId : Encodable requestId) (hOp : Encodable op)
    (h : e.Plain) : Encodable (errEnvelope requestId op e.fields) :=
  errEnvelope_encodable hId hOp (encodable_str h.1) (encodable_str h.2.1) (encodable_str h.2.2) ⟨rfl, rfl⟩

theorem getDefault_encodable {wres : WorkerResult F} {key : String} {default : Json F}
    (h : Encodable (.obj wres))
    (hDefault : Encodable default) : Encodable (getDefault wres key default) := by
  unfold getDefault
  cases hItem : Json.getItem wres (pyStr key) with
  | none => exact hDefault
  | some v => exact h.getItem hItem

theorem getOr_encodable {wres : WorkerResult F} {key : String} {default : Json F} (h : Encodable (.obj wres))
    (hDefault : Encodable default) : Encodable (getOr wres key default) := by
  unfold getOr
  cases hItem : Json.getItem wres (pyStr key) with
  | none => exact hDefault
  | some v =>
    dsimp only
    split_ifs
    · exact h.getItem hItem
    · exact hDefault

theorem getTruthy_encodable {wres : WorkerResult F} {key : String} (h : Encodable (.obj wres)) :
    ∀ m ∈ getTruthy wres key, plainStr m.1 = true ∧ Encodable m.2 := by
  unfold getTruthy
  cases hItem : Json.getItem wres (pyStr key) with
  | none => exact fun _ hm => nomatch hm
  | some v =>
    dsimp only
    split_ifs
    · intro m hm
      rw [List.mem_singleton.mp hm]
      exact ⟨plainStr_pyStr _, h.getItem hItem⟩
    · exact fun _ hm => nomatch hm

theorem okEnvelope_encodable {requestId : PyStr} {op : RpcOp} {wres : WorkerResult F}
    (hId : plainStr requestId = true)
    (h : Encodable (.obj wres)) : Encodable (okEnvelope requestId op wres) := by
  have hVersion : Encodable (rpcVersion : Json F) := encodable_str (plainStr_pyStr _)
  have hOp : Encodable (.str (pyStr op.name) : Json F) := encodable_str (plainStr_pyStr _)
  unfold okEnvelope
  rw [encodable_obj_iff]
  simp only [List.forall_mem_append, List.forall_mem_cons,
    List.not_mem_nil, IsEmpty.forall_iff, implies_true, and_true]
  exact ⟨⟨⟨⟨⟨plainStr_pyStr _, rfl, rfl⟩, ⟨plainStr_pyStr _, hVersion⟩, ⟨plainStr_pyStr _, encodable_str hId⟩,
    plainStr_pyStr _, hOp⟩,
    getTruthy_encodable h⟩,
    getTruthy_encodable h⟩,
    ⟨plainStr_pyStr _, getOr_encodable h ⟨rfl, rfl⟩⟩,
    plainStr_pyStr _, getDefault_encodable h ⟨rfl, rfl⟩⟩

theorem workerAnswer_encodable {r : RpcRequest} {wres : WorkerResult F}
    (hId : plainStr r.args.requestId = true)
    (h : Encodable (.obj wres)) : Encodable (workerAnswer r wres) := by
  unfold workerAnswer
  split_ifs
  · exact okEnvelope_encodable hId h
  · exact errEnvelope_encodable (encodable_str hId) (encodable_str (plainStr_pyStr _))
      (getDefault_encodable h (encodable_str (plainStr_pyStr _)))
      (getDefault_encodable h (encodable_str (plainStr_pyStr _)))
      (getDefault_encodable h ⟨rfl, rfl⟩)
      (getDefault_encodable h ⟨rfl, rfl⟩)

-- The Gate

/- What a refusal repeats is without lone surrogates. -/
def EchoPlain (frame : Json F) : Prop :=
  plain (echoedId frame) = true ∧ ∀ obj, frame = .obj obj → ∀ m ∈ obj, plainStr m.1 = true

theorem echoPlain_of_plain {frame : Json F} (h : plain frame = true) : EchoPlain frame := by
  cases frame with
  | obj obj =>
    rw [plain, plainMembers_iff] at h
    refine ⟨?_, ?_⟩
    · unfold echoedId
      dsimp only
      cases hItem : Json.getItem obj (pyStr "request_id") with
      | none => rfl
      | some v => exact (h _ (Json.mem_of_getItem hItem)).2
    · intro members hMembers m hm
      cases hMembers
      exact (h m hm).1
  | _ =>
    refine ⟨rfl, ?_⟩
    intro obj hObj
    cases hObj

theorem plainStr_of_all {p : ℕ → Bool} {s : PyStr} (hAscii : ∀ c, p c = true → c < 128)
    (h : s.all p = true) : plainStr s = true := by
  unfold plainStr
  rw [List.all_eq_true] at *
  intro c hc
  have hSmall := hAscii c (h c hc)
  rw [Bool.not_eq_true', decide_eq_false_iff_not]
  omega

theorem lt_of_isNameChar (c : ℕ) (h : isNameChar c = true) : c < 128 := by
  unfold isNameChar isAlnum at h
  simp only [Bool.or_eq_true, Bool.and_eq_true, decide_eq_true_iff, beq_iff_eq] at h
  omega

omit [FloatText F] in
theorem requestId_plain {frame : Json F} {r : RpcRequest}
    (h : validateRequest frame = .ok r) : plainStr r.args.requestId = true := by
  obtain ⟨obj, -, hFits⟩ := (validateRequest_ok_iff frame r).mp h
  have hRun : ∀ s : PyStr, requestIdPattern s = true → plainStr s = true := by
    intro s hs
    unfold requestIdPattern isRun at hs
    rw [Bool.and_eq_true, Bool.and_eq_true] at hs
    exact plainStr_of_all lt_of_isNameChar hs.1.1
  have hMatch := hFits.requestId.2
  unfold matchDollar at hMatch
  rw [Bool.or_eq_true, Bool.and_eq_true, beq_iff_eq] at hMatch
  rcases hMatch with hWhole | ⟨hLast, hInit⟩
  · exact hRun _ hWhole
  · rw [← List.dropLast_append_getLast? 10 hLast]
    exact plainStr_append (hRun _ hInit) (by decide)

theorem rejectAnswer_encodable {room : ℕ} {body : Bytes} {frame : Json F} {e : RpcError}
    (hRead : readFrame room body = .ok frame) (hEcho : EchoPlain frame)
    (h : validateRequest frame = .error e) :
    Encodable (echoedId frame) ∧ Encodable (rejectAnswer frame e) := by
  have hInts : intsFit frame = true := by
    unfold readFrame at hRead
    split at hRead
    · cases hRead
    · split at hRead
      · next hLoads =>
        cases hRead
        exact intsFit_loads hLoads
      · cases hRead
      · cases hRead
  have hId : Encodable (echoedId frame) := by
    refine ⟨hEcho.1, ?_⟩
    cases frame with
    | obj obj =>
      unfold echoedId
      dsimp only
      cases hItem : Json.getItem obj (pyStr "request_id") with
      | none => rfl
      | some v => exact intsFitMembers_iff.mp hInts _ (Json.mem_of_getItem hItem)
    | null => rfl
    | bool b => rfl
    | int n => rfl
    | float x => rfl
    | str s => rfl
    | arr items => rfl
  refine ⟨hId, ?_⟩
  have hAnswer : rejectAnswer frame e = errEnvelope (echoedId frame) .null e.fields := by
    cases frame <;> rfl
  rw [hAnswer]
  exact fields_encodable hId ⟨rfl, rfl⟩ (validateRequest_plain hEcho.2 h)

theorem dispatch_answers (desk : Desk F) {r : RpcRequest} (hId : plainStr r.args.requestId = true) :
    (dispatch desk r).sent.length = 1 ∧ (dispatch desk r).raised = none := by
  unfold dispatch
  cases hWork : desk.work r with
  | ok wres =>
    have hSent := answered_of_encodable (workerAnswer_encodable (r := r) hId
        (desk.work_encodable r wres hWork))
    exact ⟨hSent.1, hSent.2.2⟩
  | error e =>
    have hSent := answered_of_encodable (fields_encodable (encodable_str hId)
          (encodable_str (s := pyStr r.op.name) (plainStr_pyStr _))
          (desk.error_plain r e hWork) : Encodable (dispatchAnswer r e : Json F))
    exact ⟨hSent.1, hSent.2.2⟩

theorem serve_answers (desk : Desk F) {r : RpcRequest} (hId : plainStr r.args.requestId = true) :
    (serve desk r).sent.length = 1 ∧ (serve desk r).raised = none := by
  unfold serve
  split_ifs
  · exact dispatch_answers desk hId
  · cases hCached : desk.cached r.args.requestId with
    | none => exact dispatch_answers desk hId
    | some answer =>
      have hSent := answered_of_encodable (desk.cached_encodable _ _ hCached)
      exact ⟨hSent.1, hSent.2.2⟩

/-
  The gate accepts the closed grammar and, but for a text that
  ends in a newline, nothing else; a frame that is not JSON
  text is recorded once and not answered, and every other
  frame whose echo can be sent is answered once.
-/
theorem gate_answers_the_grammar (room : ℕ) (desk : Desk F) (body : Bytes) : (∀ (frame : Json F) r,
      Grammar frame r → validateRequest frame = .ok r) ∧
    (∀ (frame : Json F) r, NoFinalNewline frame → validateRequest frame = .ok r → Grammar frame r) ∧
    ((readFrame room body : Except ReadError (Json F)) = .error .frame →
      (handleConnection room desk body).audits.length = 1 ∧ (handleConnection room desk body).sent = [] ∧
        (handleConnection room desk body).raised = none) ∧
    (∀ frame, (readFrame room body : Except ReadError (Json F)) = .ok frame →
        EchoPlain frame → (handleConnection room desk body).sent.length = 1 ∧
            (handleConnection room desk body).raised = none) := by
  refine ⟨fun frame r => accepts_grammar, fun frame r hPlain h => grammar_of_accepted h hPlain,
    fun hRead => ?_, fun frame hRead hEcho => ?_⟩
  · unfold handleConnection
    rw [hRead]
    exact ⟨rfl, rfl, rfl⟩
  · unfold handleConnection
    rw [hRead]
    dsimp only
    cases hValid : validateRequest frame with
    | ok r => exact serve_answers desk (requestId_plain hValid)
    | error e =>
      obtain ⟨hId, hAnswer⟩ := rejectAnswer_encodable hRead hEcho hValid
      have hSent := answered_of_encodable hAnswer
      unfold audited
      dsimp only
      rw [if_pos hId.2]
      exact ⟨hSent.1, hSent.2.2⟩

/-
  A desk whose worker lists the clients and can do no more,
  with one of its answers in the cache.
-/
def listingDesk : Desk (IntGrid (2 ^ 53)) where
  cached requestId :=
    if requestId = pyStr "request-00000002" then
      some (.obj [(pyStr "ok", .bool true), (pyStr "request_id", .str requestId)])
    else none
  work r :=
    if r.op = .clientList then .ok [(pyStr "ok", .bool true), (pyStr "data", .arr [])]
    else .error ⟨pyStr "E_INTERNAL", pyStr "dispatch", false, []⟩
  cached_encodable requestId answer h := by
    split_ifs at h with hId
    · cases h
      rw [hId]
      exact ⟨by decide, by decide⟩
  work_encodable r wres h := by
    split_ifs at h
    cases h
    exact ⟨by decide, by decide⟩
  error_plain r e h := by
    split_ifs at h
    cases h
    exact ⟨by decide, by decide, rfl⟩

/- The text of an object of texts. -/
def textBody (members : List (String × String)) : Bytes :=
  let member := fun m : String × String => s!"\"{m.1}\":\"{m.2}\""
  ("\x7b" ++ ",".intercalate (members.map member) ++ "\x7d").toList.map (fun c => UInt8.ofNat c.toNat)

/-
  Requests that the worker answers, that the cache answers,
  that the worker cannot answer, and that are refused.
-/
def listingRequests : List (List (String × String)) :=
  [[("v", "e3-rpc/1"), ("request_id", "request-00000001"), ("op", "client.list")],
    [("v", "e3-rpc/1"), ("request_id", "request-00000002"), ("op", "client.list")],
    [("v", "e3-rpc/1"), ("request_id", "request-00000003"), ("op", "management.status")],
    [("request_id", "request-00000004"), ("op", "client.list")]]

/- Each of them is answered. -/
theorem gate_answers_the_grammar_at_listing : ∀ request ∈ listingRequests,
    (handleConnection 10 listingDesk (textBody request)).sent.length = 1 := by
  have hReads : ∀ request ∈ listingRequests, (readFrame 10 (textBody request) :
      Except ReadError (Json (IntGrid (2 ^ 53)))).toOption.any plain = true := by
    decide +kernel
  intro request hRequest
  have hRead := hReads request hRequest
  cases hFrame : (readFrame 10 (textBody request) : Except ReadError (Json (IntGrid (2 ^ 53)))) with
  | error e =>
    rw [hFrame] at hRead
    cases hRead
  | ok frame =>
    rw [hFrame] at hRead
    exact ((gate_answers_the_grammar 10 listingDesk (textBody request)).2.2.2 frame hFrame
      (echoPlain_of_plain hRead)).1

/- A request for the status whose version is a number. -/
def numberedVersion (version : Json (IntGrid (2 ^ 53))) : Json (IntGrid (2 ^ 53)) := .obj
    [(pyStr "v", version), (pyStr "request_id", .str (pyStr "request-00000001")),
      (pyStr "op", .str (pyStr "management.status"))]

/- The version is a text: the integer 1 is refused. -/
theorem numberedVersion_refused :
    (∀ r, validateRequest (numberedVersion (.int 1)) ≠ .ok r) ∧ ∃ r, validateRequest
        (numberedVersion (.str (pyStr "e3-rpc/1"))) = .ok r := by
  have hText : Json.getItem [(pyStr "v", (.int 1 : Json (IntGrid (2 ^ 53)))),
            (pyStr "request_id", .str (pyStr "request-00000001")),
            (pyStr "op", .str (pyStr "management.status"))]
          (pyStr "v") = some (.int 1) := by
    rfl
  constructor
  · intro r h
    obtain ⟨obj, hObj, hFits⟩ := (validateRequest_ok_iff _ r).mp h
    cases hObj
    exact nomatch hText.symm.trans hFits.version
  · exact ⟨_, rfl⟩

end SingboxOps.ClientManagement
