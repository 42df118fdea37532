import SingboxOps.Lib.PyText
import SingboxOps.Lib.Trace
import Mathlib.Data.List.Basic

/-
  The egress baseline of an agent: what a cycle observes,
  stages and commits, and what a crash leaves of it.

  A cycle is an event with the answer of the egress endpoint
  and the fate of its sample.  The baseline file holds the
  address that was written last; the address library is a
  parameter.
-/

namespace SingboxOps.RemoteProbe

-- Addresses

/- What the module `ipaddress` offers. -/
structure IpLibrary (A : Type) where
  ipAddress : PyStr → Option A
  isGlobal : A → Bool
  isMulticast : A → Bool
  text : A → PyStr

/- The text of an address is read back as the address. -/
def IpLibrary.ReadsBack {A : Type} (ip : IpLibrary A) : Prop :=
  ∀ a, ip.ipAddress (stripText (ip.text a)) = some a

variable {A : Type} {ip : IpLibrary A}

def canonicalGlobalIp (ip : IpLibrary A) (value : PyStr) : Option PyStr :=
  match ip.ipAddress (stripText value) with
  | none => none
  | some address =>
    if ip.isGlobal address = false ∨ ip.isMulticast address = true then
      none
    else some (ip.text address)

/- `change` of an egress slot. -/
inductive EgressChange where
  | unknown
  | changed
  | unchanged
deriving DecidableEq

def classifyEgressChange (ip : IpLibrary A) (previous current : Option PyStr) : EgressChange :=
  match previous.bind (canonicalGlobalIp ip),
      current.bind (canonicalGlobalIp ip) with
  | some before, some after => if before ≠ after then .changed else .unchanged
  | _, _ => .unknown

/- The address and the change of a slot that succeeded. -/
structure EgressSlot where
  address : PyStr
  change : EgressChange
deriving DecidableEq

/-
  `probe_egress`: the first token of the answer that is a
  global address; no tokens stand for every failure before.
-/
def probeEgress (ip : IpLibrary A) (previous : Option PyStr) (tokens : List PyStr) : Option EgressSlot :=
  match tokens.find? (fun t => (canonicalGlobalIp ip t).isSome) with
  | none => none
  | some candidate =>
    match canonicalGlobalIp ip candidate with
    | none => none
    | some address => some ⟨address, classifyEgressChange ip previous (some address)⟩

-- The Agent

/-
  The baseline file, the two fields of the running agent, and
  the egress slots of the durably spooled samples.
-/
structure Agent where
  file : Option PyStr
  baseline : Option PyStr
  pending : Option PyStr
  spooled : List (Option EgressSlot)

/-
  What becomes of a cycle after its egress probe: the sample
  does not encode; the spool raises, with the record durable
  or not; the record is durable and the baseline is written,
  or its write raises with the file replaced or not; or the
  process dies before the record is durable, or after, with
  the file replaced or not.
-/
inductive Fate where
  | invalid
  | refused (durable : Bool)
  | spooled
  | unwritten (replaced : Bool)
  | killed
  | killedLater (replaced : Bool)
deriving DecidableEq

/- A cycle: the tokens of the egress answer, and its fate. -/
structure Cycle where
  tokens : List PyStr
  fate : Fate

/- A cycle, or a new process on the same files. -/
inductive AgentEvent where
  | cycle (c : Cycle)
  | restart

/- `_read_baseline` of a new process. -/
def Agent.restarted (ip : IpLibrary A) (g : Agent) : Agent :=
  { g with
    baseline := g.file.bind (canonicalGlobalIp ip)
    pending := none }

/- `_commit_baseline` with a write that lands. -/
def Agent.committed (g : Agent) : Agent := match g.pending with
  | none => g
  | some candidate =>
    { g with
      file := some candidate
      baseline := some candidate
      pending := none }

/- `_commit_baseline` with a write that raises. -/
def Agent.uncommitted (replaced : Bool) (g : Agent) : Agent := match g.pending with
  | none => g
  | some candidate => if replaced then { g with file := some candidate } else g

/- The staging of `collect_sample`. -/
def Agent.staged (slot : Option EgressSlot) (g : Agent) : Agent := match slot with
  | none => g
  | some s => { g with pending := some s.address }

def Agent.appended (slot : Option EgressSlot) (g : Agent) : Agent := { g with spooled := g.spooled ++ [slot] }

/- `run_cycle`, and what opens an agent again. -/
def agentStep (ip : IpLibrary A) (g : Agent) : AgentEvent → Unit × Agent
  | .restart => ((), g.restarted ip)
  | .cycle c =>
    let slot := probeEgress ip g.baseline c.tokens
    let g := g.staged slot
    match c.fate with
    | .invalid => ((), g)
    | .refused durable =>
      ((), { (if durable then g.appended slot else g) with
        pending := none })
    | .spooled => ((), (g.appended slot).committed)
    | .unwritten replaced => ((), (g.appended slot).uncommitted replaced)
    | .killed => ((), g.restarted ip)
    | .killedLater replaced => ((), ((g.appended slot).uncommitted replaced).restarted ip)

-- Canonical Addresses

/- An address that its own canonical form is. -/
def Canonical (ip : IpLibrary A) (a : PyStr) : Prop := canonicalGlobalIp ip a = some a

theorem canonical_of_canonicalGlobalIp (hReads : ip.ReadsBack) {value a : PyStr}
    (h : canonicalGlobalIp ip value = some a) : Canonical ip a := by
  unfold canonicalGlobalIp at h
  split at h
  · cases h
  · rename_i address hParsed
    split at h
    · cases h
    · rename_i hGlobal
      cases h
      unfold Canonical canonicalGlobalIp
      rw [hReads address]
      exact if_neg hGlobal

theorem probeEgress_some (hReads : ip.ReadsBack)
    {previous : Option PyStr} {tokens : List PyStr} {slot : EgressSlot}
    (h : probeEgress ip previous tokens = some slot) :
    Canonical ip slot.address ∧ slot.change = classifyEgressChange ip previous (some slot.address) := by
  unfold probeEgress at h
  split at h
  · cases h
  · split at h
    · cases h
    · rename_i address hAddress
      cases h
      exact ⟨canonical_of_canonicalGlobalIp hReads hAddress, rfl⟩

theorem classify_canonical {a b : PyStr} (ha : Canonical ip a) (hb : Canonical ip b) :
    classifyEgressChange ip (some a) (some b) = if a ≠ b then .changed else .unchanged := by
  unfold classifyEgressChange
  rw [Option.bind_some, Option.bind_some, ha, hb]

-- Carried Addresses

/- A durably spooled sample carries the address. -/
def Agent.Carries (g : Agent) (a : PyStr) : Prop := ∃ slot, some slot ∈ g.spooled ∧ slot.address = a

/-
  The event strands no address: a cycle whose sample does not
  encode observed none.
-/
def Kept (ip : IpLibrary A) (g : Agent) : AgentEvent → Prop
  | .restart => True
  | .cycle c => c.fate = .invalid → probeEgress ip g.baseline c.tokens = none

/- Every address the agent holds was there first or is carried. -/
structure Sourced (ip : IpLibrary A) (first : Option PyStr) (g : Agent) : Prop where
  file : ∀ a, g.file = some a → first = some a ∨ g.Carries a
  baseline : ∀ a, g.baseline = some a → first.bind (canonicalGlobalIp ip) = some a ∨ g.Carries a
  pending : ∀ a, g.pending = some a → g.Carries a
  canonical : ∀ slot, some slot ∈ g.spooled → Canonical ip slot.address

theorem Agent.Carries.appended {g : Agent} {a : PyStr} (h : g.Carries a)
    (slot : Option EgressSlot) : (g.appended slot).Carries a := by
  obtain ⟨s, hs, hAddress⟩ := h
  exact ⟨s, List.mem_append_left _ hs, hAddress⟩

theorem Sourced.restarted {first : Option PyStr} {g : Agent}
    (h : Sourced ip first g) : Sourced ip first (g.restarted ip) := by
  refine ⟨h.file, ?_, ?_, h.canonical⟩
  · intro a hBaseline
    change g.file.bind (canonicalGlobalIp ip) = some a at hBaseline
    cases hFile : g.file with
    | none =>
      rw [hFile] at hBaseline
      cases hBaseline
    | some f =>
      rw [hFile, Option.bind_some] at hBaseline
      rcases h.file f hFile with hFirst | ⟨slot, hSlot, rfl⟩
      · refine .inl ?_
        rw [hFirst]
        exact hBaseline
      · have hSame := h.canonical slot hSlot
        unfold Canonical at hSame
        rw [hSame] at hBaseline
        cases hBaseline
        exact .inr ⟨slot, hSlot, rfl⟩
  · intro a hPending
    cases hPending

theorem Sourced.appended (hReads : ip.ReadsBack)
    {first : Option PyStr} {g : Agent} (h : Sourced ip first g) (previous : Option PyStr)
    (tokens : List PyStr) : Sourced ip first ((g.staged (probeEgress ip previous tokens)).appended
        (probeEgress ip previous tokens)) := by
  cases hSlot : probeEgress ip previous tokens with
  | none =>
    refine ⟨fun a ha => (h.file a ha).imp_right (fun hCarries => hCarries.appended none),
      fun a ha => (h.baseline a ha).imp_right (fun hCarries => hCarries.appended none),
      fun a ha => (h.pending a ha).appended none, ?_⟩
    intro slot hMem
    rcases List.mem_append.mp hMem with hOld | hNew
    · exact h.canonical slot hOld
    · cases List.mem_singleton.mp hNew
  | some s =>
    refine ⟨fun a ha => (h.file a ha).imp_right (fun hCarries => hCarries.appended (some s)),
      fun a ha => (h.baseline a ha).imp_right (fun hCarries => hCarries.appended (some s)), ?_, ?_⟩
    · intro a hPending
      cases hPending
      exact ⟨s, List.mem_append_right _ List.mem_cons_self, rfl⟩
    · intro slot hMem
      rcases List.mem_append.mp hMem with hOld | hNew
      · exact h.canonical slot hOld
      · cases List.mem_singleton.mp hNew
        exact (probeEgress_some hReads hSlot).1

theorem Sourced.committed {first : Option PyStr} {g : Agent}
    (h : Sourced ip first g) : Sourced ip first g.committed := by
  unfold Agent.committed
  split
  · exact h
  · rename_i candidate hPending
    have hCarries := h.pending candidate hPending
    refine ⟨?_, ?_, ?_, h.canonical⟩
    · intro a ha
      cases ha
      exact .inr hCarries
    · intro a ha
      cases ha
      exact .inr hCarries
    · intro a ha
      cases ha

theorem Sourced.uncommitted {first : Option PyStr} {g : Agent} (h : Sourced ip first g)
    (replaced : Bool) : Sourced ip first (g.uncommitted replaced) := by
  unfold Agent.uncommitted
  split
  · exact h
  · rename_i candidate hPending
    split
    · refine ⟨?_, h.baseline, h.pending, h.canonical⟩
      intro a ha
      cases ha
      exact .inr (h.pending candidate hPending)
    · exact h

theorem Sourced.cleared {first : Option PyStr} {g : Agent}
    (h : Sourced ip first g) : Sourced ip first { g with pending := none } := by
  refine ⟨h.file, h.baseline, ?_, h.canonical⟩
  intro a ha
  cases ha

theorem staged_dropped (ip : IpLibrary A) (slot : Option EgressSlot) (g : Agent) :
    (g.staged slot).restarted ip = g.restarted ip ∧
      { g.staged slot with pending := none } = { g with pending := none } := by
  cases slot <;> exact ⟨rfl, rfl⟩

theorem agentStep_sourced (hReads : ip.ReadsBack)
    {first : Option PyStr} {g : Agent} (h : Sourced ip first g) {e : AgentEvent}
    (hKept : Kept ip g e) : Sourced ip first (agentStep ip g e).2 := by
  cases e with
  | restart => exact h.restarted
  | cycle c =>
    have hAppended := h.appended hReads g.baseline c.tokens
    obtain ⟨tokens, fate⟩ := c
    unfold agentStep
    dsimp only at hAppended ⊢
    cases fate with
    | invalid =>
      have hNone := hKept rfl
      dsimp only at hNone ⊢
      rw [hNone]
      exact h
    | refused durable =>
      cases durable with
      | true => exact hAppended.cleared
      | false =>
        have hDropped := (staged_dropped ip (probeEgress ip g.baseline tokens) g).2
        have hEnd : Sourced ip first { g.staged
            (probeEgress ip g.baseline tokens) with
            pending := none } := by
          rw [hDropped]
          exact h.cleared
        exact hEnd
    | spooled => exact hAppended.committed
    | unwritten replaced => exact hAppended.uncommitted replaced
    | killed =>
      dsimp only
      rw [(staged_dropped ip _ g).1]
      exact h.restarted
    | killedLater replaced => exact (hAppended.uncommitted replaced).restarted

-- Successive Samples

/- The record of the cycle is durable. -/
def Fate.durable : Fate → Bool
  | .invalid => false
  | .refused durable => durable
  | .spooled => true
  | .unwritten _ => true
  | .killed => false
  | .killedLater _ => true

/-
  The event makes no observed address durable, and strands
  none.
-/
def Quiet (ip : IpLibrary A) (g : Agent) : AgentEvent → Prop
  | .restart => True
  | .cycle c =>
    (c.fate.durable = true ∨ c.fate = .invalid) → probeEgress ip g.baseline c.tokens = none

/- The address is the baseline, in the file and in memory. -/
structure Settled (g : Agent) (a : PyStr) : Prop where
  file : g.file = some a
  baseline : g.baseline = some a
  pending : g.pending = none

theorem Settled.restarted {g : Agent} {a : PyStr} (h : Settled g a)
    (ha : Canonical ip a) : Settled (g.restarted ip) a := by
  refine ⟨h.file, ?_, rfl⟩
  change g.file.bind (canonicalGlobalIp ip) = some a
  rw [h.file]
  exact ha

theorem agentStep_settled {g : Agent} {a : PyStr} (h : Settled g a) (ha : Canonical ip a) {e : AgentEvent}
    (hQuiet : Quiet ip g e) : Settled (agentStep ip g e).2 a := by
  cases e with
  | restart => exact h.restarted ha
  | cycle c =>
    obtain ⟨tokens, fate⟩ := c
    unfold agentStep
    dsimp only
    by_cases hSilent : probeEgress ip g.baseline tokens = none
    · have hNothing : ∀ slot, Settled (g.appended slot) a := fun _ => ⟨h.file, h.baseline, h.pending⟩
      rw [hSilent]
      cases fate with
      | invalid => exact h
      | refused durable =>
        cases durable with
        | true => exact ⟨h.file, h.baseline, rfl⟩
        | false => exact ⟨h.file, h.baseline, rfl⟩
      | spooled =>
        have hSame : ((g.appended none).committed) =
            g.appended none := by
          unfold Agent.committed Agent.appended
          rw [h.pending]
        change Settled (g.appended none).committed a
        rw [hSame]
        exact hNothing none
      | unwritten replaced =>
        have hSame : ((g.appended none).uncommitted replaced) =
            g.appended none := by
          unfold Agent.uncommitted Agent.appended
          rw [h.pending]
        change Settled ((g.appended none).uncommitted replaced) a
        rw [hSame]
        exact hNothing none
      | killed => exact h.restarted ha
      | killedLater replaced =>
        have hSame : ((g.appended none).uncommitted replaced) =
            g.appended none := by
          unfold Agent.uncommitted Agent.appended
          rw [h.pending]
        change Settled (((g.appended none).uncommitted replaced).restarted ip) a
        rw [hSame]
        exact (hNothing none).restarted ha
    · cases fate with
      | invalid => exact absurd (hQuiet (.inr rfl)) hSilent
      | refused durable =>
        cases durable with
        | true => exact absurd (hQuiet (.inl rfl)) hSilent
        | false =>
          have hDropped := (staged_dropped ip (probeEgress ip g.baseline tokens) g).2
          change Settled { g.staged
            (probeEgress ip g.baseline tokens) with pending := none } a
          rw [hDropped]
          exact ⟨h.file, h.baseline, rfl⟩
      | spooled => exact absurd (hQuiet (.inl rfl)) hSilent
      | unwritten replaced => exact absurd (hQuiet (.inl rfl)) hSilent
      | killed =>
        change Settled ((g.staged (probeEgress ip g.baseline tokens)).restarted ip) a
        rw [(staged_dropped ip _ g).1]
        exact h.restarted ha
      | killedLater replaced => exact absurd (hQuiet (.inl rfl)) hSilent

theorem settled_along {g : Agent} {a : PyStr}
    (h : Settled g a) (ha : Canonical ip a) {events : List AgentEvent}
    (hQuiet : Guarded (agentStep ip) (Quiet ip) g events) :
    Settled (finalState (agentStep ip) g events) a := by
  induction events generalizing g with
  | nil => exact h
  | cons e rest ih => exact ih (agentStep_settled h ha hQuiet.1) hQuiet.2

theorem settled_spooled {g : Agent} {tokens : List PyStr} {slot : EgressSlot}
    (hSlot : probeEgress ip g.baseline tokens = some slot) :
    Settled (agentStep ip g (.cycle ⟨tokens, .spooled⟩)).2
      slot.address := by
  unfold agentStep
  dsimp only
  rw [hSlot]
  exact ⟨rfl, rfl, rfl⟩

/- The sample of a cycle after that carries the difference. -/
theorem change_settled (hReads : ip.ReadsBack) {g : Agent} {a : PyStr} (h : Settled g a) (ha : Canonical ip a)
    {tokens : List PyStr} {slot : EgressSlot}
    (hSlot : probeEgress ip g.baseline tokens = some slot) :
    slot.change = if a ≠ slot.address then .changed else .unchanged := by
  obtain ⟨hCanonical, hChange⟩ := probeEgress_some hReads hSlot
  rw [hChange, h.baseline]
  exact classify_canonical ha hCanonical

/- An agent that opens on a baseline file. -/
def Agent.opened (ip : IpLibrary A) (file : Option PyStr) : Agent :=
  ⟨file, file.bind (canonicalGlobalIp ip), none, []⟩

theorem sourced_opened (file : Option PyStr) : Sourced ip file (Agent.opened ip file) :=
  ⟨fun _ ha => .inl ha, fun _ ha => .inl ha, (fun _ ha => by cases ha),
    fun _ hs => by cases hs⟩

/-
  From an agent that opens on a baseline file: while no cycle
  that does not encode has observed an address, the file and
  the memory hold what was there first or an address that a
  durably spooled sample carries; and after a sample whose
  baseline was written, with no other observation in between,
  the next observation is changed exactly where the addresses
  differ.
-/
theorem baseline_law (hReads : ip.ReadsBack) (file : Option PyStr) (events : List AgentEvent) :
    (Guarded (agentStep ip) (Kept ip) (Agent.opened ip file) events →
      ∀ a, (finalState (agentStep ip) (Agent.opened ip file) events).file = some a ∨
        (finalState (agentStep ip) (Agent.opened ip file) events).baseline = some a →
        (file = some a ∨ file.bind (canonicalGlobalIp ip) = some a) ∨
        (finalState (agentStep ip) (Agent.opened ip file) events).Carries a) ∧
    (∀ first second between slot later,
      let g := finalState (agentStep ip) (Agent.opened ip file) events
      let g' := finalState (agentStep ip) (agentStep ip g (.cycle ⟨first, .spooled⟩)).2 between
      probeEgress ip g.baseline first = some slot →
      Guarded (agentStep ip) (Quiet ip) (agentStep ip g (.cycle ⟨first, .spooled⟩)).2 between →
      probeEgress ip g'.baseline second = some later → later.change =
          if slot.address ≠ later.address then .changed
          else .unchanged) := by
  constructor
  · intro hKept a hHeld
    have hSourced : ∀ {g : Agent} {rest : List AgentEvent}, Sourced ip file g →
            Guarded (agentStep ip) (Kept ip) g rest → Sourced ip file (finalState (agentStep ip) g rest) := by
      intro g rest hStart hGuarded
      induction rest generalizing g with
      | nil => exact hStart
      | cons e rest ih => exact ih (agentStep_sourced hReads hStart hGuarded.1) hGuarded.2
    have hEnd := hSourced (sourced_opened file) hKept
    rcases hHeld with hFile | hBaseline
    · exact (hEnd.file a hFile).imp_left .inl
    · exact (hEnd.baseline a hBaseline).imp_left .inr
  · intro first second between slot later g g' hFirst hQuiet hSecond
    have ha := (probeEgress_some hReads hFirst).1
    have hSettled := settled_along (settled_spooled hFirst) ha hQuiet
    exact change_settled hReads hSettled ha hSecond

/- Two global addresses and their texts. -/
def twoAddresses : IpLibrary Bool where
  ipAddress value :=
    if value = pyStr "1.1.1.1" then some false
    else if value = pyStr "8.8.8.8" then some true
    else none
  isGlobal _ := true
  isMulticast _ := false
  text a := if a then pyStr "8.8.8.8" else pyStr "1.1.1.1"

theorem readsBack_twoAddresses : twoAddresses.ReadsBack := by
  unfold IpLibrary.ReadsBack
  decide

theorem baseline_law_at_two : (EgressSlot.mk (pyStr "8.8.8.8") .changed).change =
      if pyStr "1.1.1.1" ≠ pyStr "8.8.8.8" then .changed
      else .unchanged :=
  (baseline_law readsBack_twoAddresses none []).2 [pyStr "1.1.1.1"]
    [pyStr "8.8.8.8"] [.restart, .cycle ⟨[pyStr "none"], .spooled⟩] ⟨pyStr "1.1.1.1", .unknown⟩
    ⟨pyStr "8.8.8.8", .changed⟩ (by decide) ⟨trivial, fun _ => by decide, trivial⟩
    (by decide)

/-
  Of two successive observations of durable samples the later
  one is changed exactly where the addresses differ.
-/
def Reported (spooled : List (Option EgressSlot)) : Prop := (spooled.filterMap id).IsChain
    (fun s t => t.change = .changed ↔ s.address ≠ t.address)

instance (spooled : List (Option EgressSlot)) :
    Decidable (Reported spooled) := by
  unfold Reported
  infer_instance

/-
  After a baseline that could not be written the next change
  goes unreported, and after a sample that did not encode the
  baseline is an address no sample carries.
-/
theorem baseline_law_fails : (¬ ∀ events, Reported (finalState (agentStep twoAddresses)
        (Agent.opened twoAddresses none) events).spooled) ∧
    (¬ ∀ events a, (finalState (agentStep twoAddresses)
        (Agent.opened twoAddresses none) events).baseline = some a →
        (finalState (agentStep twoAddresses) (Agent.opened twoAddresses none) events).Carries a) := by
  constructor
  · intro hClaim
    have hRun := hClaim [.cycle ⟨[pyStr "1.1.1.1"], .unwritten false⟩, .cycle ⟨[pyStr "8.8.8.8"], .spooled⟩]
    revert hRun
    decide
  · intro hClaim
    obtain ⟨slot, hSlot, -⟩ := hClaim [.cycle ⟨[pyStr "1.1.1.1"], .invalid⟩, .cycle ⟨[], .spooled⟩]
      (pyStr "1.1.1.1") (by decide)
    revert hSlot
    have hNone : (finalState (agentStep twoAddresses) (Agent.opened twoAddresses none)
          [.cycle ⟨[pyStr "1.1.1.1"], .invalid⟩, .cycle ⟨[], .spooled⟩]).spooled = [none] := by
      decide
    rw [hNone]
    intro hSlot
    cases List.mem_singleton.mp hSlot

end SingboxOps.RemoteProbe
