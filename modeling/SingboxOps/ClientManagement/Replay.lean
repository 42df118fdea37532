import SingboxOps.ClientManagement.Rpc
import SingboxOps.Lib.Dict
import SingboxOps.Lib.Trace
import SingboxOps.Lib.BoundedFloat
import Mathlib.Data.List.Basic

/-
  The replay cache of the RPC core, and the connection threads
  that share it.

  A connection goes through its phases one at a time, in any
  order with the others: the schema, the cache, the worker, the
  cache again, the answer.  The times are readings of the
  monotonic clock, in nanoseconds.
-/

namespace SingboxOps.ClientManagement

variable {F : Type}

-- The Cache

/-
  A stored answer.  The request it was made for is for
  reasoning only: the program stores the time and the answer.
-/
structure Entry (F : Type) where
  stored : ℕ
  answer : Json F
  origin : RpcRequest

/- The cache: answers under the number of their request. -/
abbrev Cache (F : Type) := Dict PyStr (Entry F)

/- `REPLAY_TTL` -/
def replayTtl : ℕ := 600 * 10 ^ 9

/- `REPLAY_MAX` -/
def replayMax : ℕ := 512

/- `replay_get`: what is found, and the cache it leaves. -/
def replayGet (cache : Cache F) (requestId : PyStr) (now : ℕ) : Option (Entry F) × Cache F :=
  match cache.get requestId with
  | none => (none, cache)
  | some e =>
    if replayTtl < now - e.stored then (none, cache.pop requestId)
    else (some e, cache)

/- `replay_put`: the oldest entries go first. -/
def replayPut (cache : Cache F) (requestId : PyStr) (e : Entry F) : Cache F :=
  let grown := cache.set requestId e
  grown.drop (grown.length - replayMax)

-- Cache Lemmas

theorem replayGet_some {cache : Cache F} {requestId : PyStr} {now : ℕ} {e : Entry F}
    (h : (replayGet cache requestId now).1 = some e) :
    (requestId, e) ∈ cache ∧ ¬ replayTtl < now - e.stored := by
  unfold replayGet at h
  cases hGet : cache.get requestId with
  | none =>
    rw [hGet] at h
    exact (Option.some_ne_none e h.symm).elim
  | some found =>
    rw [hGet] at h
    dsimp only at h
    by_cases hOld : replayTtl < now - found.stored
    · rw [if_pos hOld] at h
      exact (Option.some_ne_none e h.symm).elim
    · rw [if_neg hOld] at h
      have hSame : found = e := Option.some.inj h
      rw [← hSame]
      exact ⟨Dict.mem_of_get hGet, hOld⟩

theorem replayGet_subset (cache : Cache F) (requestId : PyStr)
    (now : ℕ) : (replayGet cache requestId now).2 ⊆ cache := by
  unfold replayGet
  cases hGet : cache.get requestId with
  | none => exact fun _ h => h
  | some found =>
    dsimp only
    by_cases hOld : replayTtl < now - found.stored
    · rw [if_pos hOld]
      exact List.filter_subset_self cache
    · rw [if_neg hOld]
      exact fun _ h => h

theorem mem_replayPut {cache : Cache F} {key : PyStr} {e : Entry F} {entry : PyStr × Entry F}
    (h : entry ∈ replayPut cache key e) : entry ∈ cache ∨ entry = (key, e) :=
  Dict.mem_set (List.mem_of_mem_drop h)

-- The Daemon

variable [FloatText F]

/- A run of the worker, or the failure to run it. -/
structure Run (F : Type) where
  request : RpcRequest
  outcome : Except RpcError (WorkerResult F)

/- The answer made of a run. -/
def Run.answer (run : Run F) : Json F := match run.outcome with
  | .ok wres => workerAnswer run.request wres
  | .error e => dispatchAnswer run.request e

/- What a connection thread does next. -/
inductive ThreadPhase (F : Type) where
  | looking
  | working
  | storing (answer : Json F)
  | sending (answer : Json F) (cached : Bool)
  | closed

structure Thread (F : Type) where
  request : RpcRequest
  phase : ThreadPhase F

/- A frame written to a peer, and whether the cache had it. -/
structure Sent (F : Type) where
  request : Option RpcRequest
  frame : Json F
  cached : Bool

/- The daemon, with the worker runs made and the frames sent. -/
structure Daemon (F : Type) where
  cache : Cache F
  threads : List (Thread F)
  runs : List (Run F)
  sent : List (Sent F)

def Daemon.fresh : Daemon F := ⟨[], [], [], []⟩

namespace Daemon

variable (d : Daemon F)

/- Thread `i` goes on to another phase. -/
def setPhase (i : ℕ) (request : RpcRequest) (phase : ThreadPhase F) : Daemon F :=
  { d with threads := d.threads.set i ⟨request, phase⟩ }

/- Write an answer. -/
def emit (request : Option RpcRequest) (answer : Json F) (cached : Bool) : Option (Sent F) × Daemon F :=
  match sendFrame answer with
  | none => (none, d)
  | some frame =>
    let s : Sent F := ⟨request, frame, cached⟩
    (some s, { d with sent := d.sent ++ [s] })

end Daemon

/- What happens to the daemon. -/
inductive Input (F : Type) where
  | connect (peer : Option ℕ) (frame : Option (Json F))
  | look (i now : ℕ)
  | finish (i : ℕ) (outcome : Except RpcError (WorkerResult F))
  | store (i now : ℕ)
  | send (i : ℕ)
  | restart

/- A connection up to its request, `handle_connection`. -/
def stepConnect (allowed : Option ℕ) (d : Daemon F) (peer : Option ℕ)
    (frame : Option (Json F)) : Option (Sent F) × Daemon F :=
  if allowed = none ∨ peer = none ∨ peer ≠ allowed then
    d.emit none peerAnswer false
  else
    match frame with
    | none => (none, d)
    | some f =>
      match validateRequest f with
      | .error e => d.emit none (rejectAnswer f e) false
      | .ok r => (none, { d with threads := d.threads ++ [⟨r, .looking⟩] })

/- The look into the cache. -/
def stepLook (d : Daemon F) (i : ℕ) (r : RpcRequest) (now : ℕ) : Daemon F :=
  if r.op.Fresh then d.setPhase i r .working
  else
    let found := replayGet d.cache r.args.requestId now
    let d' := { d with cache := found.2 }
    match found.1 with
    | some e => d'.setPhase i r (.sending e.answer true)
    | none => d'.setPhase i r .working

/- The end of the worker. -/
def stepFinish (d : Daemon F) (i : ℕ) (r : RpcRequest)
    (outcome : Except RpcError (WorkerResult F)) : Daemon F :=
  let run : Run F := ⟨r, outcome⟩
  let d' := { d with runs := d.runs ++ [run] }
  match outcome with
  | .error _ => d'.setPhase i r (.sending run.answer false)
  | .ok _ =>
    if r.op.Fresh then d'.setPhase i r (.sending run.answer false)
    else d'.setPhase i r (.storing run.answer)

/- The answer goes into the cache. -/
def stepStore (d : Daemon F) (i : ℕ) (r : RpcRequest) (answer : Json F) (now : ℕ) : Daemon F :=
  let cache := replayPut d.cache r.args.requestId ⟨now, answer, r⟩
  { d with cache := cache }.setPhase i r (.sending answer false)

/- One step of the daemon. -/
def step (allowed : Option ℕ) (d : Daemon F) : Input F → Option (Sent F) × Daemon F
  | .connect peer frame => stepConnect allowed d peer frame
  | .look i now =>
    match d.threads[i]? with
    | some ⟨r, .looking⟩ => (none, stepLook d i r now)
    | _ => (none, d)
  | .finish i outcome =>
    match d.threads[i]? with
    | some ⟨r, .working⟩ => (none, stepFinish d i r outcome)
    | _ => (none, d)
  | .store i now =>
    match d.threads[i]? with
    | some ⟨r, .storing answer⟩ => (none, stepStore d i r answer now)
    | _ => (none, d)
  | .send i =>
    match d.threads[i]? with
    | some ⟨r, .sending answer cached⟩ => (d.setPhase i r .closed).emit (some r) answer cached
    | _ => (none, d)
  | .restart => (none, { d with cache := [], threads := [] })

-- The Laws

/- An answer that reports an error. -/
def IsError (answer : Json F) : Prop :=
  ∃ members, answer = .obj members ∧ Json.getItem members (pyStr "ok") = some (.bool false)

/- The answer was made of a worker run for the request. -/
def Backed (runs : List (Run F)) (request : RpcRequest) (answer : Json F) : Prop :=
  ∃ run ∈ runs, run.request = request ∧ run.answer = answer

/-
  The frame answers its own request: it is the answer of a
  worker run for the same operation and arguments.  A frame
  that no request came before is an error.
-/
def AnswersOwn (runs : List (Run F)) (s : Sent F) : Prop := match s.request with
  | none => IsError s.frame
  | some r => ∃ answer, Backed runs r answer ∧ sendFrame answer = some s.frame

/- Answers that must be fresh are not in the cache or from it. -/
structure FreshLaw (d : Daemon F) : Prop where
  stored : ∀ entry ∈ d.cache, ¬ entry.2.origin.op.Fresh
  replayed : ∀ s ∈ d.sent, ∀ r, s.request = some r → r.op.Fresh → s.cached = false

/-
  A thread that finds an answer in the cache finds the answer
  to a request with its own operation and arguments.
-/
def sameRequest (d : Daemon F) : Input F → Bool
  | .look i now =>
    match d.threads[i]? with
    | some ⟨r, .looking⟩ =>
      decide r.op.Fresh || ((replayGet d.cache r.args.requestId now).1.all (fun e => decide (e.origin = r)))
    | _ => true
  | _ => true

/- The requests whose answers were stored, each with the time. -/
abbrev Answered := List (ℕ × RpcRequest)

def answeredStep (d : Daemon F) (answered : Answered) : Input F → Answered
  | .store i now =>
    match d.threads[i]? with
    | some ⟨r, .storing _⟩ => (now, r) :: answered
    | _ => answered
  | .restart => []
  | _ => answered

/-
  No request of another operation or with other arguments was
  answered under the number of the request within the time an
  answer is kept.
-/
def unshared (d : Daemon F) (answered : Answered) : Input F → Bool
  | .look i now =>
    match d.threads[i]? with
    | some ⟨r, .looking⟩ =>
      decide r.op.Fresh || answered.all (fun a => decide (replayTtl < now - a.1) ||
        decide (a.2.args.requestId ≠ r.args.requestId) || decide (a.2 = r))
    | _ => true
  | _ => true

/- The daemon, with the requests it has answered. -/
def stepAnswered (allowed : Option ℕ) (s : Daemon F × Answered)
    (input : Input F) : Option (Sent F) × Daemon F × Answered :=
  let next := step allowed s.1 input
  (next.1, next.2, answeredStep s.1 s.2 input)

-- The Invariant

/-
  What a thread holds.  An answer that was not taken from the
  cache is the thread's own; with `own`, every answer is.
-/
def Thread.Ok (own : Prop) (runs : List (Run F)) (t : Thread F) : Prop := match t.phase with
  | .storing answer => ¬ t.request.op.Fresh ∧ Backed runs t.request answer
  | .sending answer cached =>
    (t.request.op.Fresh → cached = false) ∧ (cached = false ∨ own → Backed runs t.request answer)
  | _ => True

/- What was sent. -/
def Sent.Ok (own : Prop) (runs : List (Run F)) (s : Sent F) : Prop :=
  (∀ r, s.request = some r → r.op.Fresh → s.cached = false) ∧ (s.cached = false ∨ own → AnswersOwn runs s)

structure Inv (own : Prop) (d : Daemon F) : Prop where
  cache : ∀ entry ∈ d.cache, ¬ entry.2.origin.op.Fresh ∧ Backed d.runs entry.2.origin entry.2.answer
  threads : ∀ t ∈ d.threads, t.Ok own d.runs
  sent : ∀ s ∈ d.sent, s.Ok own d.runs

variable {own : Prop} {d : Daemon F}

theorem Backed.mono {runs : List (Run F)} {r : RpcRequest} {answer : Json F} (h : Backed runs r answer)
    (more : List (Run F)) : Backed (runs ++ more) r answer := by
  rcases h with ⟨run, hMem, hRun⟩
  exact ⟨run, List.mem_append_left _ hMem, hRun⟩

theorem Thread.Ok.mono {runs : List (Run F)} {t : Thread F} (h : t.Ok own runs)
    (more : List (Run F)) : t.Ok own (runs ++ more) := by
  rcases t with ⟨r, phase⟩
  cases phase with
  | looking => trivial
  | working => trivial
  | closed => trivial
  | storing answer => exact ⟨h.1, h.2.mono more⟩
  | sending answer cached => exact ⟨h.1, fun hOwn => (h.2 hOwn).mono more⟩

theorem AnswersOwn.mono {runs : List (Run F)} {s : Sent F} (h : AnswersOwn runs s)
    (more : List (Run F)) : AnswersOwn (runs ++ more) s := by
  unfold AnswersOwn at h ⊢
  cases hRequest : s.request with
  | none =>
    rw [hRequest] at h
    exact h
  | some r =>
    rw [hRequest] at h
    rcases h with ⟨answer, hBacked, hFrame⟩
    exact ⟨answer, hBacked.mono more, hFrame⟩

namespace Inv

theorem fresh : Inv own (Daemon.fresh : Daemon F) where
  cache _ h := (List.not_mem_nil h).elim
  threads _ h := (List.not_mem_nil h).elim
  sent _ h := (List.not_mem_nil h).elim

theorem setPhase (hInv : Inv own d) (i : ℕ) {r : RpcRequest} {phase : ThreadPhase F}
    (hPhase : Thread.Ok own d.runs ⟨r, phase⟩) : Inv own (d.setPhase i r phase) where
  cache := hInv.cache
  threads := by
    intro t hMem
    rcases List.mem_or_eq_of_mem_set hMem with hOld | hNew
    · exact hInv.threads t hOld
    · rw [hNew]
      exact hPhase
  sent := hInv.sent

theorem withCache (hInv : Inv own d) {cache : Cache F} (hCache : ∀ entry ∈ cache,
        ¬ entry.2.origin.op.Fresh ∧ Backed d.runs entry.2.origin entry.2.answer) :
    Inv own { d with cache := cache } :=
  ⟨hCache, hInv.threads, hInv.sent⟩

theorem addRun (hInv : Inv own d) (run : Run F) : Inv own { d with runs := d.runs ++ [run] } where
  cache entry h := ⟨(hInv.cache entry h).1, (hInv.cache entry h).2.mono _⟩
  threads t h := (hInv.threads t h).mono _
  sent s h := ⟨(hInv.sent s h).1, fun hOwn => ((hInv.sent s h).2 hOwn).mono _⟩

theorem emit (hInv : Inv own d) {request : Option RpcRequest} {answer : Json F} {cached : Bool}
    (hSent : ∀ frame, sendFrame answer = some frame → Sent.Ok own d.runs ⟨request, frame, cached⟩) :
    Inv own (d.emit request answer cached).2 := by
  unfold Daemon.emit
  cases hFrame : sendFrame answer with
  | none => exact hInv
  | some frame =>
    refine ⟨hInv.cache, hInv.threads, ?_⟩
    intro s hMem
    rcases List.mem_append.mp hMem with hOld | hNew
    · exact hInv.sent s hOld
    · rw [List.mem_singleton.mp hNew]
      exact hSent frame hFrame

end Inv

-- Errors

omit [FloatText F] in
theorem isError_errEnvelope (requestId op : Json F)
    (e : ErrorFields F) : IsError (errEnvelope requestId op e) :=
  ⟨_, rfl, if_pos rfl⟩

theorem isError_sendFrame {answer frame : Json F} (hError : IsError answer)
    (h : sendFrame answer = some frame) : IsError frame := by
  unfold sendFrame at h
  cases hLength : encodedLength answer with
  | none =>
    rw [hLength] at h
    exact (Option.some_ne_none frame h.symm).elim
  | some n =>
    rw [hLength] at h
    have hFrame := Option.some.inj h
    by_cases hLong : maxFrame < n
    · rw [if_pos hLong] at hFrame
      rw [← hFrame]
      exact ⟨_, rfl, if_pos rfl⟩
    · rw [if_neg hLong] at hFrame
      rw [← hFrame]
      exact hError

theorem Inv.emit_error (hInv : Inv own d) {answer : Json F}
    (hError : IsError answer) : Inv own (d.emit none answer false).2 := by
  refine hInv.emit ?_
  intro frame hFrame
  refine ⟨fun _ h => (Option.some_ne_none _ h.symm).elim, ?_⟩
  intro _
  exact isError_sendFrame hError hFrame

-- Steps

theorem Inv.stepConnect (hInv : Inv own d) (allowed peer : Option ℕ)
    (frame : Option (Json F)) : Inv own (stepConnect allowed d peer frame).2 := by
  unfold ClientManagement.stepConnect
  by_cases hPeer : allowed = none ∨ peer = none ∨ peer ≠ allowed
  · rw [if_pos hPeer]
    exact hInv.emit_error (isError_errEnvelope _ _ _)
  · rw [if_neg hPeer]
    cases frame with
    | none => exact hInv
    | some f =>
      dsimp only
      cases validateRequest f with
      | error e => exact hInv.emit_error (isError_errEnvelope _ _ _)
      | ok r =>
        refine ⟨hInv.cache, ?_, hInv.sent⟩
        intro t hMem
        rcases List.mem_append.mp hMem with hOld | hNew
        · exact hInv.threads t hOld
        · rw [List.mem_singleton.mp hNew]
          trivial

theorem Inv.stepLook (hInv : Inv own d) {i now : ℕ} {r : RpcRequest} (hSame : own → ¬ r.op.Fresh → ∀ e,
        (replayGet d.cache r.args.requestId now).1 = some e → e.origin = r) :
    Inv own (stepLook d i r now) := by
  unfold ClientManagement.stepLook
  by_cases hFresh : r.op.Fresh
  · rw [if_pos hFresh]
    exact hInv.setPhase i trivial
  · rw [if_neg hFresh]
    have hCache : Inv own
          { d with
            cache := (replayGet d.cache r.args.requestId now).2 } :=
      hInv.withCache (fun entry h => hInv.cache entry (replayGet_subset _ _ _ h))
    dsimp only
    cases hFound : (replayGet d.cache r.args.requestId now).1 with
    | none => exact hCache.setPhase i trivial
    | some e =>
      refine hCache.setPhase i ⟨fun h => (hFresh h).elim, ?_⟩
      intro hOwn
      have hOrigin : e.origin = r := hSame (hOwn.resolve_left Bool.noConfusion) hFresh e hFound
      have hBacked := (hInv.cache _ (replayGet_some hFound).1).2
      rw [hOrigin] at hBacked
      exact hBacked

theorem Inv.stepFinish (hInv : Inv own d) (i : ℕ) (r : RpcRequest)
    (outcome : Except RpcError (WorkerResult F)) : Inv own (stepFinish d i r outcome) := by
  have hRuns := hInv.addRun ⟨r, outcome⟩
  have hBacked : Backed (d.runs ++ [⟨r, outcome⟩]) r (Run.answer ⟨r, outcome⟩) :=
    ⟨_, List.mem_append_right _ List.mem_cons_self, rfl, rfl⟩
  unfold ClientManagement.stepFinish
  dsimp only
  cases outcome with
  | error e => exact hRuns.setPhase i ⟨fun _ => rfl, fun _ => hBacked⟩
  | ok wres =>
    dsimp only
    by_cases hFresh : r.op.Fresh
    · rw [if_pos hFresh]
      exact hRuns.setPhase i ⟨fun _ => rfl, fun _ => hBacked⟩
    · rw [if_neg hFresh]
      exact hRuns.setPhase i ⟨hFresh, hBacked⟩

theorem Inv.stepStore (hInv : Inv own d) (i now : ℕ)
    {r : RpcRequest} {answer : Json F} (hFresh : ¬ r.op.Fresh)
    (hBacked : Backed d.runs r answer) : Inv own (stepStore d i r answer now) := by
  have hCache : Inv own
        { d with
          cache := replayPut d.cache r.args.requestId ⟨now, answer, r⟩ } := by
    refine hInv.withCache ?_
    intro entry hMem
    rcases mem_replayPut hMem with hOld | hNew
    · exact hInv.cache entry hOld
    · rw [hNew]
      exact ⟨hFresh, hBacked⟩
  exact hCache.setPhase i ⟨fun _ => rfl, fun _ => hBacked⟩

/- Every step keeps the invariant. -/
theorem Inv.step {allowed : Option ℕ} (hInv : Inv own d) (input : Input F)
    (hGuard : own → sameRequest d input = true) : Inv own (step allowed d input).2 := by
  unfold ClientManagement.step
  cases input with
  | connect peer frame => exact hInv.stepConnect allowed peer frame
  | look i now =>
    dsimp only
    split
    · rename_i r hThread
      refine hInv.stepLook ?_
      intro hOwn hFresh e hFound
      have hSame := hGuard hOwn
      simp only [sameRequest, hThread, hFound, Option.all_some, Bool.or_eq_true, decide_eq_true_eq] at hSame
      exact hSame.resolve_left hFresh
    · exact hInv
  | finish i outcome =>
    dsimp only
    split
    · exact hInv.stepFinish i _ outcome
    · exact hInv
  | store i now =>
    dsimp only
    split
    · rename_i r answer hThread
      have hOk := hInv.threads _ (List.mem_of_getElem? hThread)
      exact hInv.stepStore i now hOk.1 hOk.2
    · exact hInv
  | send i =>
    dsimp only
    split
    · rename_i r answer cached hThread
      have hOk := hInv.threads _ (List.mem_of_getElem? hThread)
      have hClosed : Thread.Ok own d.runs ⟨r, .closed⟩ := trivial
      refine (hInv.setPhase i hClosed).emit ?_
      intro frame hFrame
      refine ⟨?_, ?_⟩
      · intro r' hRequest hFresh
        have hSame : r = r' := Option.some.inj hRequest
        exact hOk.1 (hSame ▸ hFresh)
      · intro hOwn
        exact ⟨answer, hOk.2 hOwn, hFrame⟩
    · exact hInv
  | restart =>
    exact ⟨fun _ h => (List.not_mem_nil h).elim, fun _ h => (List.not_mem_nil h).elim, hInv.sent⟩

-- What Was Answered

/- Every stored answer is of a request that was answered. -/
def Recorded (d : Daemon F) (answered : Answered) : Prop := ∀ entry ∈ d.cache,
  entry.2.origin.args.requestId = entry.1 ∧ (entry.2.stored, entry.2.origin) ∈ answered

namespace Recorded

variable {answered : Answered}

omit [FloatText F] in
theorem withCache (h : Recorded d answered) {d' : Daemon F}
    (hCache : d'.cache ⊆ d.cache) : Recorded d' answered :=
  fun entry hMem => h entry (hCache hMem)

theorem stepConnect (h : Recorded d answered) (allowed peer : Option ℕ)
    (frame : Option (Json F)) : Recorded (stepConnect allowed d peer frame).2 answered := by
  have hEmit : ∀ answer : Json F, Recorded (d.emit none answer false).2 answered := by
    intro answer
    unfold Daemon.emit
    cases sendFrame answer <;> exact h
  unfold ClientManagement.stepConnect
  split
  · exact hEmit _
  · split
    · exact h
    · split
      · exact hEmit _
      · exact h

omit [FloatText F] in
theorem stepLook (h : Recorded d answered) (i now : ℕ)
    (r : RpcRequest) : Recorded (stepLook d i r now) answered := by
  unfold ClientManagement.stepLook
  split
  · exact h
  · dsimp only
    split
    · exact h.withCache (replayGet_subset _ _ _)
    · exact h.withCache (replayGet_subset _ _ _)

theorem stepFinish (h : Recorded d answered) (i : ℕ) (r : RpcRequest)
    (outcome : Except RpcError (WorkerResult F)) : Recorded (stepFinish d i r outcome) answered := by
  unfold ClientManagement.stepFinish
  dsimp only
  split
  · exact h
  · split <;> exact h

omit [FloatText F] in
theorem stepStore (h : Recorded d answered) (i now : ℕ) (r : RpcRequest)
    (answer : Json F) : Recorded (stepStore d i r answer now) ((now, r) :: answered) := by
  have hPut : ∀ entry ∈ replayPut d.cache r.args.requestId ⟨now, answer, r⟩,
      entry.2.origin.args.requestId = entry.1 ∧ (entry.2.stored, entry.2.origin) ∈ (now, r) :: answered := by
    intro entry hMem
    rcases mem_replayPut hMem with hOld | hNew
    · rcases h entry hOld with ⟨hNumber, hAnswered⟩
      exact ⟨hNumber, List.mem_cons_of_mem _ hAnswered⟩
    · rw [hNew]
      exact ⟨rfl, List.mem_cons_self⟩
  simp only [Recorded, ClientManagement.stepStore, Daemon.setPhase]
  exact hPut

theorem step (h : Recorded d answered) (allowed : Option ℕ) (input : Input F) :
    Recorded (step allowed d input).2 (answeredStep d answered input) := by
  unfold ClientManagement.step answeredStep
  cases input with
  | connect peer frame => exact h.stepConnect allowed peer frame
  | look i now =>
    dsimp only
    split
    · exact h.stepLook i now _
    · exact h
  | finish i outcome =>
    dsimp only
    split
    · exact h.stepFinish i _ outcome
    · exact h
  | store i now =>
    dsimp only
    split
    · exact h.stepStore i now _ _
    · exact h
  | send i =>
    dsimp only
    split
    · unfold Daemon.emit
      split <;> exact h
    · exact h
  | restart => exact fun _ hMem => (List.not_mem_nil hMem).elim

omit [FloatText F] in
theorem sameRequest (h : Recorded d answered) {input : Input F}
    (hUnshared : unshared d answered input = true) : sameRequest d input = true := by
  cases input with
  | look i now =>
    unfold unshared at hUnshared
    unfold ClientManagement.sameRequest
    dsimp only at hUnshared ⊢
    split
    · rename_i r hThread
      rw [hThread] at hUnshared
      simp only [Bool.or_eq_true, decide_eq_true_eq, List.all_eq_true] at hUnshared
      simp only [Bool.or_eq_true, decide_eq_true_eq]
      refine hUnshared.imp_right ?_
      intro hAll
      cases hFound : (replayGet d.cache r.args.requestId now).1 with
      | none => rfl
      | some e =>
        rcases h _ (replayGet_some hFound).1 with ⟨hNumber, hAnswered⟩
        rcases hAll _ hAnswered with (hOld | hOther) | hSame
        · exact ((replayGet_some hFound).2 hOld).elim
        · exact (hOther hNumber).elim
        · exact decide_eq_true hSame
    · rfl
  | connect peer frame => rfl
  | finish i outcome => rfl
  | store i now => rfl
  | send i => rfl
  | restart => rfl

end Recorded

-- Runs

/- The daemons some run leads to. -/
def DaemonReachable (allowed : Option ℕ) (d : Daemon F) : Prop :=
  Reachable (step allowed) (fun _ _ => True) Daemon.fresh d

/-
  The daemons a run leads to in which no two requests whose
  answers may be kept share a number while one is kept, unless
  they have the same operation and arguments.
-/
def UnsharedReachable (allowed : Option ℕ) (d : Daemon F) : Prop := ∃ answered,
  Reachable (stepAnswered allowed) (fun s input => unshared s.1 s.2 input = true)
    (Daemon.fresh, []) (d, answered)

/-
  In every run no answer that must be fresh is in the cache or
  from it.  In every run in which no number is shared while an
  answer is kept, every frame answers its own request.
-/
theorem replay_answers_same_request (allowed : Option ℕ) (d : Daemon F) :
    (DaemonReachable allowed d → FreshLaw d) ∧
      (UnsharedReachable allowed d → ∀ s ∈ d.sent, AnswersOwn d.runs s) := by
  constructor
  · intro hReach
    have hInv : Inv False d := hReach.invariant Inv.fresh (fun _ input h _ => h.step input False.elim)
    exact ⟨fun entry h => (hInv.cache entry h).1, fun s h => (hInv.sent s h).1⟩
  · rintro ⟨answered, hReach⟩ s hMem
    have hBoth : Inv True (d, answered).1 ∧ Recorded (d, answered).1 (d, answered).2 := by
      refine hReach.invariant (I := fun s => Inv True s.1 ∧ Recorded s.1 s.2) ?_ ?_
      · exact ⟨Inv.fresh, fun _ hNone => (List.not_mem_nil hNone).elim⟩
      · rintro ⟨d, answered⟩ input ⟨hInv, hRecorded⟩ hGuard
        exact ⟨hInv.step input (fun _ => hRecorded.sameRequest hGuard), hRecorded.step allowed input⟩
    exact (hBoth.1.sent s hMem).2 (.inr trivial)

-- Two Requests with One Number

/- The text members of a frame. -/
def textFrame (members : List (String × String)) : Json (IntGrid (2 ^ 53)) :=
  .obj (members.map (fun m => (pyStr m.1, .str (pyStr m.2))))

def listFrame (requestId : String) : Json (IntGrid (2 ^ 53)) := textFrame
    [("v", "e3-rpc/1"), ("request_id", requestId), ("op", "client.list")]

def addFrame (requestId : String) : Json (IntGrid (2 ^ 53)) := textFrame
    [("v", "e3-rpc/1"), ("request_id", requestId), ("op", "client.add"), ("name", "alice"),
      ("idempotency_key", "key-000000000001")]

/- A list is answered, then a client is to be added. -/
def listThenAdd (requestId : String) : List (Input (IntGrid (2 ^ 53))) :=
  [.connect (some 1000) (some (listFrame "request-00000001")), .look 0 0,
    .finish 0 (.ok [(pyStr "ok", .bool true)]),
    .store 0 5, .send 0,
    .connect (some 1000) (some (addFrame requestId)),
    .look 1 10, .send 1]

/- Every look of a run, as `unshared` asks. -/
def unsharedRun (allowed : Option ℕ) (s : Daemon F × Answered) : List (Input F) → Bool
  | [] => true
  | input :: rest =>
    unshared s.1 s.2 input && unsharedRun allowed (stepAnswered allowed s input).2 rest

theorem reachable_of_unsharedRun {allowed : Option ℕ} {inputs : List (Input F)} {s s' : Daemon F × Answered}
    (hReach : Reachable (stepAnswered allowed) (fun s input => unshared s.1 s.2 input = true) s s')
    (h : unsharedRun allowed s' inputs = true) :
    Reachable (stepAnswered allowed) (fun s input => unshared s.1 s.2 input = true) s
      (finalState (stepAnswered allowed) s' inputs) := by
  induction inputs generalizing s' with
  | nil => exact hReach
  | cons input rest ih =>
    rw [unsharedRun, Bool.and_eq_true] at h
    exact ih (hReach.step_of input h.1) h.2

theorem finalState_stepAnswered (allowed : Option ℕ) (s : Daemon F × Answered) (inputs : List (Input F)) :
    (finalState (stepAnswered allowed) s inputs).1 = finalState (step allowed) s.1 inputs := by
  induction inputs generalizing s with
  | nil => rfl
  | cons input rest ih => exact ih _

theorem unsharedReachable_of_run {allowed : Option ℕ} {inputs : List (Input F)}
    (h : unsharedRun allowed (Daemon.fresh, []) inputs = true) :
    UnsharedReachable allowed (finalState (step allowed) Daemon.fresh inputs) := by
  have hSame : (finalState (stepAnswered allowed) (Daemon.fresh, []) inputs).1 =
      finalState (step allowed) Daemon.fresh inputs :=
    finalState_stepAnswered allowed _ inputs
  rw [← hSame]
  exact ⟨_, reachable_of_unsharedRun Reachable.refl h⟩

/- One request is sent twice, and a second one has its own number. -/
def listsThenAdd : List (Input (IntGrid (2 ^ 53))) := listThenAdd "request-00000002" ++
    [.connect (some 1000) (some (listFrame "request-00000001")), .look 2 20, .send 2]

theorem replay_answers_same_request_listThenAdd :
    FreshLaw (finalState (step (some 1000)) Daemon.fresh listsThenAdd) ∧
      ∀ s ∈ (finalState (step (some 1000)) Daemon.fresh listsThenAdd).sent,
        AnswersOwn (finalState (step (some 1000)) Daemon.fresh listsThenAdd).runs s :=
  ⟨(replay_answers_same_request (some 1000) _).1 ⟨_, trace_history _ _ _⟩,
    (replay_answers_same_request (some 1000) _).2 (unsharedReachable_of_run (by decide))⟩

/- The request to add a client is answered with the list. -/
theorem listThenAdd_replays_other : ¬ ∀ (d : Daemon (IntGrid (2 ^ 53))),
      DaemonReachable (some 1000) d → ∀ s ∈ d.sent, AnswersOwn d.runs s := by
  intro hAll
  have hRun := hAll (finalState (step (some 1000)) Daemon.fresh (listThenAdd "request-00000001"))
      ⟨_, trace_history _ _ _⟩
  have hOps : (finalState (step (some 1000)) Daemon.fresh (listThenAdd "request-00000001")).runs.map
          (fun run => run.request.op) = [.clientList] := by
    decide
  have hSent : (finalState (step (some 1000)) Daemon.fresh
        (listThenAdd "request-00000001")).sent.map (fun s => s.request.map RpcRequest.op) =
        [some .clientList, some .clientAdd] := by
    decide
  have hAdd : some RpcOp.clientAdd ∈ (finalState (step (some 1000)) Daemon.fresh
          (listThenAdd "request-00000001")).sent.map (fun s => s.request.map RpcRequest.op) := by
    rw [hSent]
    decide
  rcases List.mem_map.mp hAdd with ⟨s, hMem, hOp⟩
  have hOwn := hRun s hMem
  rcases Option.map_eq_some_iff.mp hOp with ⟨r, hRequest, hAddOp⟩
  unfold AnswersOwn at hOwn
  rw [hRequest] at hOwn
  rcases hOwn with ⟨_, ⟨run, hRunMem, hSame, _⟩, _⟩
  have hRunOp : run.request.op ∈ (finalState (step (some 1000)) Daemon.fresh
          (listThenAdd "request-00000001")).runs.map (fun run => run.request.op) :=
    List.mem_map_of_mem hRunMem
  rw [hOps, hSame, hAddOp] at hRunOp
  exact RpcOp.noConfusion (List.mem_singleton.mp hRunOp)

end SingboxOps.ClientManagement
