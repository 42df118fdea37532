import SingboxOps.Lib.SlidingWindow
import SingboxOps.Lib.Trace
import Mathlib.Algebra.Order.Ring.Rat
import Mathlib.Tactic.Linarith

/-
  The byte budgets of the receiver and of the client.

  A call is the critical section of one connection, with the
  clock it read; times are taken as exact.  A call without
  bytes is granted and leaves no record.
-/

namespace SingboxOps.QualityFailover

open SlidingWindow

variable {T : Type} [CommRing T] [LinearOrder T]
variable {A N : Type} [DecidableEq A] [DecidableEq N]

-- Reservations

/- A call of the receiver's `reserve`, and its record. -/
structure Upload (T A : Type) where
  now : T
  size : ℕ
  account : A

structure Receiver where
  minuteBytes : ℕ
  accounts : Bool

structure ServerState (T A : Type) where
  records : List (Upload T A) := []
  minuteUsed : ℕ := 0

def accountBytes : ℕ := 2097152

/- `Server.reserve` -/
def Receiver.reserve (server : Receiver) (s : ServerState T A) (call : Upload T A) : Bool × ServerState T A :=
  if call.size = 0 then (true, s)
  else
    let records := expire 60 Upload.now call.now s.records
    let total := (records.map Upload.size).sum
    let used := ((records.filter (fun r => r.account = call.account)).map Upload.size).sum
    if server.minuteBytes < total + call.size ∨
        (server.accounts = true ∧ accountBytes < used + call.size) then
      (false, { s with records := records })
    else (true, ⟨records ++ [call], total + call.size⟩)

/- A call of the client's `reserve`. -/
structure Probe (T N : Type) where
  node : N
  size : ℕ
  now : T

structure Spent (T : Type) where
  now : T
  size : ℕ

structure Budget (T : Type) where
  limit : ℕ
  interval : T

structure BudgetState (T N : Type) where
  records : List (Spent T) := []
  last : N → Option T := fun _ => none

def Probe.spent (call : Probe T N) : Spent T := ⟨call.now, call.size⟩

/- `Budget.reserve` -/
def Budget.reserve (budget : Budget T) (s : BudgetState T N) (call : Probe T N) : Bool × BudgetState T N :=
  let records := expire 60 Spent.now call.now s.records
  if call.now - (s.last call.node).getD (-10 ^ 15) <
        budget.interval ∨
      budget.limit < (records.map Spent.size).sum + call.size then
    (false, { s with records := records })
  else
    (true, ⟨records ++ [call.spent], Function.update s.last call.node (some call.now)⟩)

-- Laws

/- The calls of a run that were granted. -/
def granted {ι : Type} (run : List (ι × Bool)) : List ι := (run.filter Prod.snd).map Prod.fst

/- The calls of a run that were granted bytes. -/
def uploads (run : List (Upload T A × Bool)) : List (Upload T A) :=
  (granted run).filter (fun call => decide (call.size ≠ 0))

/- The bytes of a row, if they count for the account. -/
def Upload.sizeFor (account : A) (r : Upload T A) : ℕ :=
  if r.account = account then r.size else 0

/-
  In a run of the receiver, no minute exceeds a budget, and a
  refused call is answered like none by whatever comes later.
-/
structure ServerLaw (server : Receiver) (calls : List (Upload T A)) : Prop where
  total :
    Within 60 Upload.now Upload.size server.minuteBytes (uploads (history server.reserve {} calls))
  account :
    server.accounts = true → ∀ account, Within 60 Upload.now (Upload.sizeFor account) accountBytes
        (uploads (history server.reserve {} calls))
  neutral : ∀ before call after, calls = before ++ call :: after →
      ∀ s, s = finalState server.reserve {} before → (server.reserve s call).1 = false →
          (history server.reserve (server.reserve s call).2 after).map Prod.snd =
            (history server.reserve s after).map Prod.snd

/- The same of the client, whose grants for a node are apart. -/
structure BudgetLaw (budget : Budget T) (calls : List (Probe T N)) : Prop where
  total :
    Within 60 Spent.now Spent.size budget.limit ((granted (history budget.reserve {} calls)).map Probe.spent)
  apart :
    (granted (history budget.reserve {} calls)).Pairwise
      (fun a b => a.node = b.node → budget.interval ≤ b.now - a.now)
  neutral : ∀ before call after, calls = before ++ call :: after →
      ∀ s, s = finalState budget.reserve {} before → (budget.reserve s call).1 = false →
          (history budget.reserve (budget.reserve s call).2 after).map Prod.snd =
            (history budget.reserve s after).map Prod.snd

-- Runs

section

variable {σ ι : Type} {answer : σ → ι → Bool × σ} (time : ι → T)

/- What each call preserves, at its time, holds of a run. -/
theorem run_invariant {I : T → List (ι × Bool) → σ → Prop}
    (hStep : ∀ clock run s call, I clock run s → clock ≤ time call →
      I (time call) (run ++ [(call, (answer s call).1)]) (answer s call).2)
    (calls : List ι)
    {clock : T} {run : List (ι × Bool)} {s : σ} (h : I clock run s)
    (hClock : ∀ call ∈ calls, clock ≤ time call)
    (hCalls : calls.Pairwise (fun a b => time a ≤ time b)) :
    ∃ last, I last (run ++ history answer s calls) (finalState answer s calls) := by
  induction calls generalizing clock run s with
  | nil => exact ⟨clock, by rwa [history, List.append_nil]⟩
  | cons call rest ih =>
    rw [List.pairwise_cons] at hCalls
    have hNext := ih (hStep clock run s call h (hClock call List.mem_cons_self)) hCalls.1 hCalls.2
    rwa [List.append_assoc] at hNext

/- A run may start before its first call. -/
theorem run_start {I : T → List (ι × Bool) → σ → Prop}
    (hStep : ∀ clock run s call, I clock run s → clock ≤ time call →
      I (time call) (run ++ [(call, (answer s call).1)]) (answer s call).2)
    (calls : List ι) {s : σ} (hStart : ∀ clock, I clock [] s)
    (hCalls : calls.Pairwise (fun a b => time a ≤ time b)) :
    ∃ last, I last (history answer s calls) (finalState answer s calls) := by
  cases calls with
  | nil => exact ⟨0, hStart 0⟩
  | cons first rest =>
    refine run_invariant time hStep (first :: rest) (hStart (time first)) ?_ hCalls
    intro call hIn
    rcases List.mem_cons.mp hIn with rfl | hLater
    · exact le_rfl
    · exact (List.pairwise_cons.mp hCalls).1 call hLater

/- States that no later call tells apart answer alike. -/
theorem answers_alike {Alike : T → σ → σ → Prop}
    (hStep : ∀ {clock s t call}, Alike clock s t → clock ≤ time call →
        (answer s call).1 = (answer t call).1 ∧ Alike (time call) (answer s call).2 (answer t call).2)
    (calls : List ι)
    {clock : T} {s t : σ} (h : Alike clock s t) (hClock : ∀ call ∈ calls, clock ≤ time call)
    (hCalls : calls.Pairwise (fun a b => time a ≤ time b)) :
    (history answer s calls).map Prod.snd = (history answer t calls).map Prod.snd := by
  induction calls generalizing clock s t with
  | nil => rfl
  | cons call rest ih =>
    rw [List.pairwise_cons] at hCalls
    obtain ⟨hAnswer, hNext⟩ := hStep h (hClock call List.mem_cons_self)
    rw [history, history, List.map_cons, List.map_cons, hAnswer, ih hNext hCalls.1 hCalls.2]

end

theorem granted_snoc {ι : Type} (run : List (ι × Bool))
    (entry : ι × Bool) : granted (run ++ [entry]) = granted run ++ granted [entry] := by
  unfold granted
  rw [List.filter_append, List.map_append]

theorem uploads_snoc (run : List (Upload T A × Bool)) (entry : Upload T A × Bool) :
    uploads (run ++ [entry]) = uploads run ++ uploads [entry] := by
  unfold uploads
  rw [granted_snoc, List.filter_append]

-- The Receiver

theorem sum_sizeFor (account : A) (rows : List (Upload T A)) : (rows.map (Upload.sizeFor account)).sum =
      ((rows.filter (fun r => r.account = account)).map Upload.size).sum := by
  induction rows with
  | nil => rfl
  | cons r rows ih =>
    by_cases hOwn : r.account = account
    · simp [Upload.sizeFor, hOwn, ← ih]
    · simp [Upload.sizeFor, hOwn, ← ih]

variable [IsStrictOrderedRing T]

/- What holds of the bytes granted up to a moment. -/
structure Metered (server : Receiver) (clock : T) (rows : List (Upload T A))
    (s : ServerState T A) : Prop where
  mirrors : Mirrors 60 Upload.now clock rows s.records
  total : Within 60 Upload.now Upload.size server.minuteBytes rows
  account :
    server.accounts = true → ∀ account, Within 60 Upload.now (Upload.sizeFor account) accountBytes rows

theorem Metered.step {server : Receiver} {clock : T} {rows : List (Upload T A)}
    {s : ServerState T A} (h : Metered server clock rows s) {call : Upload T A}
    (hClock : clock ≤ call.now) : Metered server call.now
      (rows ++ uploads [(call, (server.reserve s call).1)])
      (server.reserve s call).2 := by
  have hKept := h.mirrors.expire hClock
  unfold Receiver.reserve
  by_cases hNone : call.size = 0
  · have hNothing : uploads [(call, true)] = [] := by
      simp [uploads, granted, hNone]
    rw [if_pos hNone, hNothing, List.append_nil]
    exact ⟨h.mirrors.mono hClock, h.total, h.account⟩
  rw [if_neg hNone]
  dsimp only
  split
  · have hNothing : uploads [(call, false)] = [] := rfl
    rw [hNothing, List.append_nil]
    exact ⟨hKept, h.total, h.account⟩
  · rename_i hFits
    rw [not_or, not_and] at hFits
    have hOne : uploads [(call, true)] = [call] := by simp [uploads, granted, hNone]
    rw [hOne]
    refine ⟨hKept.snoc call, h.total.snoc hKept (not_lt.mp hFits.1), ?_⟩
    intro hAccounts account
    by_cases hOwn : call.account = account
    · refine (h.account hAccounts account).snoc hKept ?_
      rw [sum_sizeFor, Upload.sizeFor, if_pos hOwn, ← hOwn]
      exact not_lt.mp (hFits.2 hAccounts)
    · exact (h.account hAccounts account).snoc_zero (if_neg hOwn)

/- From a moment on, two states refuse and grant the same. -/
def ServerState.Alike (clock : T) (s t : ServerState T A) : Prop :=
  ∀ now, clock ≤ now → expire 60 Upload.now now s.records = expire 60 Upload.now now t.records

theorem ServerState.Alike.step (server : Receiver)
    {clock : T} {s t : ServerState T A} (h : s.Alike clock t) {call : Upload T A}
    (hClock : clock ≤ call.now) :
    (server.reserve s call).1 = (server.reserve t call).1 ∧
      (server.reserve s call).2.Alike call.now (server.reserve t call).2 := by
  unfold Receiver.reserve
  by_cases hNone : call.size = 0
  · rw [if_pos hNone, if_pos hNone]
    exact ⟨rfl, fun now hNow => h now (hClock.trans hNow)⟩
  rw [if_neg hNone, if_neg hNone, h call.now hClock]
  dsimp only
  split
  · exact ⟨rfl, fun _ _ => rfl⟩
  · exact ⟨rfl, fun _ _ => rfl⟩

theorem records_of_refused {server : Receiver} {s : ServerState T A} {call : Upload T A}
    (hRefused : (server.reserve s call).1 = false) :
    (server.reserve s call).2.records = expire 60 Upload.now call.now s.records := by
  unfold Receiver.reserve at hRefused ⊢
  by_cases hNone : call.size = 0
  · rw [if_pos hNone] at hRefused
    cases hRefused
  rw [if_neg hNone] at hRefused ⊢
  dsimp only at hRefused ⊢
  split
  · rfl
  · rename_i hFits
    rw [if_neg hFits] at hRefused
    cases hRefused

theorem server_law (server : Receiver) (calls : List (Upload T A))
    (hCalls : calls.Pairwise (fun a b => a.now ≤ b.now)) : ServerLaw server calls := by
  have hStart : ∀ clock, Metered server clock [] ({} : ServerState T A) :=
    fun clock => ⟨Mirrors.nil, fun _ => Nat.zero_le _, fun _ _ _ => Nat.zero_le _⟩
  obtain ⟨_, h⟩ := run_start Upload.now (I := fun clock run => Metered server clock (uploads run))
    (fun _ run _ call h hClock => by
      rw [uploads_snoc]
      exact h.step hClock) calls hStart hCalls
  refine ⟨h.total, h.account, ?_⟩
  rintro before call after rfl s _ hRefused
  obtain ⟨hLater, hAfter⟩ := List.pairwise_cons.mp (List.pairwise_append.mp hCalls).2.1
  have hAlike : (server.reserve s call).2.Alike call.now s := by
    intro now hNow
    rw [records_of_refused hRefused, expire_expire hNow]
  exact answers_alike Upload.now (fun h hClock => h.step server hClock) after hAlike hLater hAfter

-- The Client

/- What holds of the grants for the nodes up to a moment. -/
structure Spaced (budget : Budget T) (clock : T) (calls : List (Probe T N))
    (s : BudgetState T N) : Prop where
  mirrors : Mirrors 60 Spent.now clock (calls.map Probe.spent) s.records
  total : Within 60 Spent.now Spent.size budget.limit (calls.map Probe.spent)
  apart : calls.Pairwise (fun a b => a.node = b.node → budget.interval ≤ b.now - a.now)
  last : ∀ call ∈ calls, ∃ now ∈ s.last call.node, call.now ≤ now
  before : ∀ call ∈ calls, call.now ≤ clock

theorem Spaced.step {budget : Budget T} {clock : T} {calls : List (Probe T N)}
    {s : BudgetState T N} (h : Spaced budget clock calls s) {call : Probe T N}
    (hClock : clock ≤ call.now) : Spaced budget call.now
      (calls ++ granted [(call, (budget.reserve s call).1)])
      (budget.reserve s call).2 := by
  have hKept := h.mirrors.expire hClock
  unfold Budget.reserve
  dsimp only
  split
  · have hNothing : granted [(call, false)] = [] := rfl
    rw [hNothing, List.append_nil]
    exact ⟨hKept, h.total, h.apart, h.last, fun old hOld => (h.before old hOld).trans hClock⟩
  · rename_i hFits
    rw [not_or, not_lt, not_lt] at hFits
    have hOne : granted [(call, true)] = [call] := rfl
    rw [hOne]
    have hBefore : ∀ old ∈ calls ++ [call], old.now ≤ call.now := by
      intro old hOld
      rcases List.mem_append.mp hOld with hIn | hIn
      · exact (h.before old hIn).trans hClock
      · rw [List.mem_singleton.mp hIn]
    refine ⟨?_, ?_, ?_, ?_, hBefore⟩
    · rw [List.map_append]
      exact hKept.snoc call.spent
    · rw [List.map_append]
      exact h.total.snoc hKept hFits.2
    · refine List.pairwise_append.mpr ⟨h.apart, List.pairwise_singleton _ _, ?_⟩
      intro old hOld new hNew hNode
      rw [List.mem_singleton.mp hNew] at hNode ⊢
      obtain ⟨now, hLast, hLe⟩ := h.last old hOld
      rw [hNode] at hLast
      have hInterval := hFits.1
      rw [Option.mem_def.mp hLast, Option.getD_some] at hInterval
      exact hInterval.trans (sub_le_sub_left hLe _)
    · intro old hOld
      change ∃ now ∈ Function.update s.last call.node (some call.now) old.node, old.now ≤ now
      by_cases hNode : old.node = call.node
      · refine ⟨call.now, ?_, hBefore old hOld⟩
        rw [hNode, Function.update_self]
        exact rfl
      · rcases List.mem_append.mp hOld with hIn | hIn
        · rw [Function.update_of_ne hNode]
          exact h.last old hIn
        · exact absurd (by rw [List.mem_singleton.mp hIn]) hNode

/- From a moment on, two states refuse and grant the same. -/
def BudgetState.Alike (clock : T) (s t : BudgetState T N) : Prop := s.last = t.last ∧ ∀ now, clock ≤ now →
    expire 60 Spent.now now s.records = expire 60 Spent.now now t.records

theorem BudgetState.Alike.step (budget : Budget T)
    {clock : T} {s t : BudgetState T N} (h : s.Alike clock t) {call : Probe T N}
    (hClock : clock ≤ call.now) :
    (budget.reserve s call).1 = (budget.reserve t call).1 ∧
      (budget.reserve s call).2.Alike call.now (budget.reserve t call).2 := by
  unfold Budget.reserve
  rw [h.1, h.2 call.now hClock]
  dsimp only
  split
  · exact ⟨rfl, rfl, fun _ _ => rfl⟩
  · exact ⟨rfl, rfl, fun _ _ => rfl⟩

theorem state_of_refused {budget : Budget T} {s : BudgetState T N} {call : Probe T N}
    (hRefused : (budget.reserve s call).1 = false) :
    (budget.reserve s call).2 = { s with records := expire 60 Spent.now call.now s.records } := by
  unfold Budget.reserve at hRefused ⊢
  dsimp only at hRefused ⊢
  split
  · rfl
  · rename_i hFits
    rw [if_neg hFits] at hRefused
    cases hRefused

theorem client_law (budget : Budget T) (calls : List (Probe T N))
    (hCalls : calls.Pairwise (fun a b => a.now ≤ b.now)) : BudgetLaw budget calls := by
  have hStart : ∀ clock, Spaced budget clock [] ({} : BudgetState T N) :=
    fun clock => ⟨Mirrors.nil, fun _ => Nat.zero_le _, List.Pairwise.nil, fun _ hIn => (by cases hIn),
      fun _ hIn => (by cases hIn)⟩
  obtain ⟨_, h⟩ := run_start Probe.now (I := fun clock run => Spaced budget clock (granted run))
    (fun _ run _ call h hClock => by
      rw [granted_snoc]
      exact h.step hClock) calls hStart hCalls
  refine ⟨h.total, h.apart, ?_⟩
  rintro before call after rfl s _ hRefused
  obtain ⟨hLater, hAfter⟩ := List.pairwise_cons.mp (List.pairwise_append.mp hCalls).2.1
  have hAlike : (budget.reserve s call).2.Alike call.now s := by
    rw [state_of_refused hRefused]
    exact ⟨rfl, fun now hNow => expire_expire hNow s.records⟩
  exact answers_alike Probe.now (fun h hClock => h.step budget hClock) after hAlike hLater hAfter

/- Probe traffic stays inside both budgets. -/
theorem probe_budgets (server : Receiver)
    (budget : Budget T) (received : List (Upload T A)) (probed : List (Probe T N))
    (hReceived : received.Pairwise (fun a b => a.now ≤ b.now))
    (hProbed : probed.Pairwise (fun a b => a.now ≤ b.now)) :
    ServerLaw server received ∧ BudgetLaw budget probed :=
  ⟨server_law server received hReceived, client_law budget probed hProbed⟩

/- Two uploads and two probes, a minute apart. -/
theorem probe_budgets_minute : ServerLaw ⟨1000, true⟩ [(⟨0, 700, 1⟩ : Upload ℚ ℕ), ⟨60, 700, 1⟩] ∧
      BudgetLaw ⟨1000, 10⟩ [(⟨1, 700, 0⟩ : Probe ℚ ℕ), ⟨1, 700, 60⟩] :=
  probe_budgets _ _ _ _ (by norm_num) (by norm_num)

end SingboxOps.QualityFailover
