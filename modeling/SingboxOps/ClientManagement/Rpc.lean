import SingboxOps.Lib.Json.Value

/-
  The RPC core of the client manager: the request schema, the
  answer envelopes and the frame limit.
-/

namespace SingboxOps.ClientManagement

variable {F : Type}

-- Operations

inductive RpcOp where
  | managementStatus
  | managementActivate
  | managementDeactivate
  | clientList
  | clientAdd
  | clientDelete
  | clientExport
  | clientBundle
  | probeEnroll
  | probeRevoke
  | probeList
  | probeResume
deriving DecidableEq

namespace RpcOp

def name : RpcOp → String
  | managementStatus => "management.status"
  | managementActivate => "management.activate"
  | managementDeactivate => "management.deactivate"
  | clientList => "client.list"
  | clientAdd => "client.add"
  | clientDelete => "client.delete"
  | clientExport => "client.export"
  | clientBundle => "client.bundle"
  | probeEnroll => "probe.enroll"
  | probeRevoke => "probe.revoke"
  | probeList => "probe.list"
  | probeResume => "probe.resume"

/- The keys of `OPS`, in its order. -/
def all : List RpcOp := [managementStatus, managementActivate, managementDeactivate,
    clientList, clientAdd, clientDelete, clientExport,
    clientBundle, probeEnroll, probeRevoke, probeList,
    probeResume]

end RpcOp

/- What `OPS` says of the fields of a request. -/
structure OpSpec where
  required : List String
  optional : List String
  allowReserved : Bool
deriving DecidableEq

/- `OPS` -/
def RpcOp.spec : RpcOp → OpSpec
  | managementStatus => ⟨[], [], false⟩
  | managementActivate => ⟨[], ["actor"], false⟩
  | managementDeactivate => ⟨[], ["actor"], false⟩
  | clientList => ⟨[], [], false⟩
  | clientAdd => ⟨["name", "idempotency_key"], ["actor"], false⟩
  | clientDelete => ⟨["name", "idempotency_key"], ["actor"], false⟩
  | clientExport => ⟨["name"], ["actor"], true⟩
  | clientBundle => ⟨["name", "device"], ["actor"], false⟩
  | probeEnroll =>
    ⟨["name", "device", "idempotency_key", "site_label", "path_label"], ["actor"], false⟩
  | probeRevoke => ⟨["name", "device"], ["actor", "probe_id"], false⟩
  | probeList => ⟨["name"], ["cursor", "actor"], false⟩
  | probeResume => ⟨["name", "device"], ["actor"], false⟩

/- `SENSITIVE_RESPONSE_OPS` -/
def sensitiveResponseOps : List RpcOp := [.clientExport, .clientBundle]

/- `FRESH_RESPONSE_OPS` -/
def freshResponseOps : List RpcOp :=
  sensitiveResponseOps ++ [.probeEnroll, .probeRevoke, .probeList, .probeResume]

/- An operation whose answers must be fresh. -/
def RpcOp.Fresh (op : RpcOp) : Prop := op ∈ freshResponseOps

instance (op : RpcOp) : Decidable op.Fresh := by
  unfold RpcOp.Fresh
  infer_instance

-- Requests

/- The fingerprints of an acting session. -/
structure Actor where
  sessionFp : Option PyStr
  stepupFp : Option PyStr
deriving DecidableEq

/- The arguments the worker is given. -/
structure Args where
  requestId : PyStr
  name : Option PyStr
  idempotencyKey : Option PyStr
  device : Option PyStr
  siteLabel : Option PyStr
  pathLabel : Option PyStr
  probeId : Option PyStr
  cursor : Option PyStr
  actor : Option Actor
deriving DecidableEq

/- A request that passed the schema. -/
structure RpcRequest where
  op : RpcOp
  args : Args
deriving DecidableEq

structure RpcError where
  code : PyStr
  stage : PyStr
  retriable : Bool
  detail : PyStr
deriving DecidableEq

/- A schema error: the stage and the flag are always these. -/
def parseError (code detail : PyStr) : RpcError := ⟨code, pyStr "parse", false, detail⟩

def schemaError (detail : PyStr) : RpcError := parseError (pyStr "E_SCHEMA") detail

-- Text Patterns

def isAlnum (c : ℕ) : Bool := (48 ≤ c && c ≤ 57) || (65 ≤ c && c ≤ 90) || (97 ≤ c && c ≤ 122)

/- `[A-Za-z0-9._-]` -/
def isNameChar (c : ℕ) : Bool := isAlnum c || c == 46 || c == 95 || c == 45

/- `s` has between `low` and `high` characters, all as `p`. -/
def isRun (p : ℕ → Bool) (low high : ℕ) (s : PyStr) : Bool := s.all p && low ≤ s.length && s.length ≤ high

/-
  `re.match` of a pattern that ends in `$`: a newline after
  the match is allowed.
-/
def matchDollar (full : PyStr → Bool) (s : PyStr) : Bool :=
  full s || (s.getLast? == some 10 && full s.dropLast)

/- `[A-Za-z0-9][A-Za-z0-9._-]{0,31}` -/
def namePattern : PyStr → Bool
  | [] => false
  | c :: rest => isAlnum c && isRun isNameChar 0 31 rest

/- `[A-Za-z0-9._-]{16,64}` -/
def requestIdPattern : PyStr → Bool := isRun isNameChar 16 64

/- `[A-Za-z0-9._:-]{16,128}` -/
def keyPattern : PyStr → Bool := isRun (fun c => isNameChar c || c == 58) 16 128

/- `[0-9a-f]{16}` -/
def fingerprintPattern : PyStr → Bool := isRun (fun c => (48 ≤ c && c ≤ 57) || (97 ≤ c && c ≤ 102)) 16 16

/- `[ -~]{1,64}` -/
def labelPattern : PyStr → Bool := isRun (fun c => 32 ≤ c && c ≤ 126) 1 64

/- `[a-z0-9-]{1,64}` -/
def probePattern : PyStr → Bool := isRun (fun c => (97 ≤ c && c ≤ 122) || (48 ≤ c && c ≤ 57) || c == 45) 1 64

-- Validation

/- The text of a field, if it is text that fits. -/
def textField (fits : PyStr → Bool) (value : Option (Json F)) : Option PyStr := match value with
  | some (.str s) => if fits s then some s else none
  | _ => none

/- A field that, if the operation has it, must fit. -/
def requiredText (spec : OpSpec) (obj : List (PyStr × Json F)) (field : String) (fits : PyStr → Bool)
    (detail : String) : Except RpcError (Option PyStr) :=
  if field ∈ spec.required then
    match textField fits (Json.getItem obj (pyStr field)) with
    | some s => .ok (some s)
    | none => .error (schemaError (pyStr detail))
  else .ok none

/- A field that, if the request has it, must fit. -/
def optionalText (spec : OpSpec) (obj : List (PyStr × Json F)) (field : String) (fits : PyStr → Bool)
    (detail : String) : Except RpcError (Option PyStr) :=
  match Json.getItem obj (pyStr field) with
  | none => .ok none
  | some value =>
    if field ∈ spec.optional then
      match textField fits (some value) with
      | some s => .ok (some s)
      | none => .error (schemaError (pyStr detail))
    else .ok none

/- `RESERVED_NAME` -/
def reservedName : PyStr := pyStr "legacy"

def validateName (spec : OpSpec) (obj : List (PyStr × Json F)) : Except RpcError (Option PyStr) := do
  let name ← requiredText spec obj "name" (matchDollar namePattern) "name 非法"
  if name = some reservedName && !spec.allowReserved then
    .error (parseError (pyStr "E_RESERVED_NAME") (reservedName ++ pyStr " 是保留名称"))
  else .ok name

def validateFingerprint (members : List (PyStr × Json F)) (field : String) : Except RpcError (Option PyStr) :=
  match Json.getItem members (pyStr field) with
  | none => .ok none
  | some value =>
    match textField (matchDollar fingerprintPattern) (some value) with
    | some s => .ok (some s)
    | none => .error (schemaError (pyStr "actor 指纹非法"))

def validateActor (spec : OpSpec) (obj : List (PyStr × Json F)) : Except RpcError (Option Actor) :=
  match Json.getItem obj (pyStr "actor") with
  | none => .ok none
  | some value =>
    if "actor" ∈ spec.optional then
      match value with
      | .obj members =>
        if members.all (fun m =>
            m.1 == pyStr "session_fp" || m.1 == pyStr "stepup_fp") then do
          let session ← validateFingerprint members "session_fp"
          let stepup ← validateFingerprint members "stepup_fp"
          .ok (some ⟨session, stepup⟩)
        else .error (schemaError (pyStr "actor 含未知字段"))
      | _ => .error (schemaError (pyStr "actor 必须是对象"))
    else .ok none

/- `obj.get("op")`, if it is the name of an operation. -/
def requestedOp (obj : List (PyStr × Json F)) : Option RpcOp := match Json.getItem obj (pyStr "op") with
  | some (.str s) => RpcOp.all.find? (fun op => pyStr op.name = s)
  | _ => none

/- The fields an operation knows. -/
def OpSpec.allowed (spec : OpSpec) : List PyStr :=
  (["v", "request_id", "op"] ++ spec.required ++ spec.optional).map pyStr

/- The fields every request has: no others, version and number. -/
def validateBase (spec : OpSpec) (obj : List (PyStr × Json F)) : Except RpcError PyStr :=
  match obj.find? (fun m => !spec.allowed.contains m.1) with
  | some (key, _) => .error (schemaError (pyStr "未知字段: " ++ key))
  | none =>
    match textField (fun s => s == pyStr "e3-rpc/1")
        (Json.getItem obj (pyStr "v")) with
    | none => .error (schemaError (pyStr "协议版本不匹配"))
    | some _ =>
      match textField (matchDollar requestIdPattern)
          (Json.getItem obj (pyStr "request_id")) with
      | none => .error (schemaError (pyStr "request_id 非法"))
      | some requestId => .ok requestId

def validateRequired (spec : OpSpec) (obj : List (PyStr × Json F)) : Except RpcError Unit :=
  match spec.required.find? (fun field => (Json.getItem obj (pyStr field)).isNone) with
  | some field => .error (schemaError (pyStr "缺少字段: " ++ pyStr field))
  | none => .ok ()

/- `validate_request` -/
def validateRequest (frame : Json F) : Except RpcError RpcRequest := match frame with
  | .obj obj =>
    match requestedOp obj with
    | none => .error (parseError (pyStr "E_OP_UNKNOWN") (pyStr "未知操作"))
    | some op => do
        let spec := op.spec
        let requestId ← validateBase spec obj
        validateRequired spec obj
        let name ← validateName spec obj
        let key ← requiredText spec obj "idempotency_key" (matchDollar keyPattern) "idempotency_key 非法"
        let device ← requiredText spec obj "device" namePattern "设备或标签非法"
        let site ← requiredText spec obj "site_label" labelPattern "设备或标签非法"
        let path ← requiredText spec obj "path_label" labelPattern "设备或标签非法"
        let probe ← optionalText spec obj "probe_id" probePattern "probe_id 非法"
        let cursor ← optionalText spec obj "cursor" probePattern "cursor 非法"
        let actor ← validateActor spec obj
        .ok ⟨op, ⟨requestId, name, key, device, site, path, probe, cursor, actor⟩⟩
  | _ => .error (schemaError (pyStr "请求不是 JSON 对象"))

-- Answers

variable [FloatText F]

/- `bool(v)` -/
def truthy : Json F → Bool
  | .null => false
  | .bool b => b
  | .int n => n != 0
  | .float (.finite x) => FloatText.toRat x != 0
  | .float _ => true
  | .str s => !s.isEmpty
  | .arr items => !items.isEmpty
  | .obj members => !members.isEmpty

/- A dictionary read from the worker. -/
abbrev WorkerResult (F : Type) := List (PyStr × Json F)

/- `wres.get(key) or default` -/
def getOr (wres : WorkerResult F) (key : String) (default : Json F) : Json F :=
  match Json.getItem wres (pyStr key) with
  | some v => if truthy v then v else default
  | none => default

/- `wres.get(key, default)` -/
def getDefault (wres : WorkerResult F) (key : String) (default : Json F) : Json F :=
  (Json.getItem wres (pyStr key)).getD default

/- `wres.get(key)`, if it is true. -/
def getTruthy (wres : WorkerResult F) (key : String) : List (PyStr × Json F) :=
  match Json.getItem wres (pyStr key) with
  | some v => if truthy v then [(pyStr key, v)] else []
  | none => []

def rpcVersion : Json F := .str (pyStr "e3-rpc/1")

/- `ok_envelope` -/
def okEnvelope (requestId : PyStr) (op : RpcOp) (wres : WorkerResult F) : Json F := .obj
    ([(pyStr "ok", .bool true), (pyStr "v", rpcVersion), (pyStr "request_id", .str requestId),
        (pyStr "op", .str (pyStr op.name))] ++
      getTruthy wres "idempotency" ++
      getTruthy wres "transaction" ++
      [(pyStr "warnings", getOr wres "warnings" (.arr [])), (pyStr "data", getDefault wres "data" .null)])

/- The fields of the error of an answer. -/
structure ErrorFields (F : Type) where
  code : Json F
  stage : Json F
  retriable : Bool
  detail : Json F
  backup : Json F

/- `err_envelope` -/
def errEnvelope (requestId op : Json F) (e : ErrorFields F) : Json F := .obj
    [(pyStr "ok", .bool false), (pyStr "v", rpcVersion), (pyStr "request_id", requestId), (pyStr "op", op),
      (pyStr "error", .obj [(pyStr "code", e.code), (pyStr "stage", e.stage),
          (pyStr "retriable", .bool e.retriable),
          (pyStr "detail", e.detail), (pyStr "backup", e.backup)])]

/- The error of an exception: it names no backup. -/
def RpcError.fields (e : RpcError) : ErrorFields F :=
  ⟨.str e.code, .str e.stage, e.retriable, .str e.detail, .null⟩

/- The error a worker reports. -/
def workerError (wres : WorkerResult F) : ErrorFields F where
  code := getDefault wres "code" (.str (pyStr "E_INTERNAL"))
  stage := getDefault wres "stage" (.str (pyStr "done"))
  retriable := truthy (getDefault wres "retriable" (.bool false))
  detail := getDefault wres "detail" (.str [])
  backup := getDefault wres "backup" .null

/- The answer to a request whose worker gave a result. -/
def workerAnswer (request : RpcRequest) (wres : WorkerResult F) : Json F :=
  if truthy (getDefault wres "ok" .null) then
    okEnvelope request.args.requestId request.op wres
  else
    errEnvelope (.str request.args.requestId) (.str (pyStr request.op.name)) (workerError wres)

/- The answer to a request whose worker could not be run. -/
def dispatchAnswer (request : RpcRequest) (e : RpcError) : Json F :=
  errEnvelope (.str request.args.requestId) (.str (pyStr request.op.name)) e.fields

/- The answer to a frame the schema refuses. -/
def rejectAnswer (frame : Json F) (e : RpcError) : Json F :=
  let requestId := match frame with
    | .obj obj => (Json.getItem obj (pyStr "request_id")).getD .null
    | _ => .null
  errEnvelope requestId .null e.fields

/- The answer to a peer that is not the allowed one. -/
def peerAnswer : Json F := errEnvelope .null .null
    (RpcError.fields ⟨pyStr "E_PEER_AUTH", pyStr "peer", false, pyStr "对端身份不被允许"⟩)

-- Frames

/- `MAX_FRAME` -/
def maxFrame : ℕ := 65536

/- The answer sent for one that does not fit in a frame. -/
def oversizeAnswer : Json F := .obj [(pyStr "ok", .bool false), (pyStr "v", rpcVersion),
      (pyStr "request_id", .null),
      (pyStr "error", .obj [(pyStr "code", .str (pyStr "E_INTERNAL")), (pyStr "stage", .str (pyStr "done")),
          (pyStr "retriable", .bool false),
          (pyStr "detail", .str (pyStr "响应超过帧上限"))])]

/-
  The bytes one code point takes inside a string literal that
  is not made ASCII; a lone surrogate cannot be encoded.
-/
def charLength (c : ℕ) : Option ℕ :=
  if c = 34 ∨ c = 92 ∨ (8 ≤ c ∧ c ≤ 10) ∨ c = 12 ∨ c = 13 then some 2
  else if c < 32 then some 6
  else if c < 128 then some 1
  else if c < 2048 then some 2
  else if 55296 ≤ c ∧ c < 57344 then none
  else if c < 65536 then some 3
  else some 4

def strLength : PyStr → Option ℕ
  | [] => some 2
  | c :: rest => do
      let n ← charLength c
      let m ← strLength rest
      some (n + m)

mutual

/-
  `len(json.dumps(v, ensure_ascii=False).encode("utf-8"))` with
  compact separators, or none where that raises.
-/
def encodedLength : Json F → Option ℕ
  | .null => some 4
  | .bool true => some 4
  | .bool false => some 5
  | .int n =>
    if Json.dumpable (.int n : Json F) then some (Json.intText n).length
    else none
  | .float x => some (Json.floatText x).length
  | .str s => strLength s
  | .arr items => itemsLength items
  | .obj members => membersLength members

/- The items, each with the bracket or comma before it. -/
def itemsLength : List (Json F) → Option ℕ
  | [] => some 2
  | [v] => do
      let n ← encodedLength v
      some (n + 2)
  | v :: rest => do
      let n ← encodedLength v
      let m ← itemsLength rest
      some (n + 1 + m)

def membersLength : List (PyStr × Json F) → Option ℕ
  | [] => some 2
  | [(k, v)] => do
      let key ← strLength k
      let n ← encodedLength v
      some (key + 1 + n + 2)
  | (k, v) :: rest => do
      let key ← strLength k
      let n ← encodedLength v
      let m ← membersLength rest
      some (key + 1 + n + 1 + m)

end

/- `send_frame`: what is written for an answer, if it encodes. -/
def sendFrame (answer : Json F) : Option (Json F) := match encodedLength answer with
  | none => none
  | some n => some (if maxFrame < n then oversizeAnswer else answer)

end SingboxOps.ClientManagement
