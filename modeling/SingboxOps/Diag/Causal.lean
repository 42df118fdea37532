import SingboxOps.Diag.Cycle
import SingboxOps.Lib.Edges
import SingboxOps.Lib.Except
import SingboxOps.Lib.Trace

/-
  The causal boundary of the failover recorder.

  The memory of a run holds what the cycle before observed:
  always of the groups, and of the nodes as long as none leaves
  the observed set while it is remembered.
-/

namespace SingboxOps.Diag

variable {F : Type} [BoundedFloat F]

-- Observations

/- The observation of a group: what it selects, if usable. -/
def groupObservation (g : Parsed GroupRecord) : PyStr × Option (Option PyStr) := (g.record.name,
    if g.missing || g.broken then none else some g.record.now)

/- The observation of a node: whether it is alive, if known. -/
def nodeObservation (n : Parsed NodeRecord) : PyStr × Option Bool :=
  (n.record.name, if n.missing then none else n.record.alive)

/- What a cycle validly observed of a group's selection. -/
def selectionSeen (summary : Option Summary) (name : PyStr) : Option (Option PyStr) :=
  summary.bind (fun s => (Dict.get (s.groups.map groupObservation) name).join)

/- What a cycle validly observed of a node. -/
def aliveSeen (summary : Option Summary) (name : PyStr) : Option Bool :=
  summary.bind (fun s => (Dict.get (s.nodes.map nodeObservation) name).join)

/-
  A selection changed is recorded exactly when this cycle and
  the one before observed two different selections.
-/
def SelectionLaw (s s' : DiagState) (records : List Record) : Prop := ∀ name old new,
    (∃ r ∈ records, r.body = .selectionChanged name old new) ↔
      selectionSeen s.last name = some old ∧ selectionSeen s'.last name = some new ∧ old ≠ new

/- The same for a node that is alive or not. -/
def AliveLaw (s s' : DiagState) (records : List Record) : Prop := ∀ name old new,
    (∃ r ∈ records, r.body = .aliveFlipped name old new) ↔
      aliveSeen s.last name = some old ∧ aliveSeen s'.last name = some new ∧ old ≠ new

/-
  Every node that is remembered is in the observed set of the
  cycle, if the cycle has a usable `/proxies`.
-/
def Covers (F : Type) [BoundedFloat F] (c : DiagCollector) (s : DiagState) (replies : Replies) : Prop :=
  ∀ summary status, readProxies F c replies.proxies = .ok (some summary, status) →
      ∀ name alive, s.nodeAlive.get name = some alive → name ∈ summary.watched

-- Differences as Edges

/- The edges of the groups, less those from the sentinel. -/
def selectionEdges (edges : List (PyStr × Option PyStr × Option PyStr)) : List Body :=
  (edges.filter (fun e => decide (e.2.1 ≠ some unset))).map
    (fun e => .selectionChanged e.1 e.2.1 e.2.2)

theorem diffGroup_eq (gap : Bool) (memory : Dict PyStr (Option PyStr)) (g : Parsed GroupRecord) :
    diffGroup gap memory g =
      let o := Edges.observe gap memory (groupObservation g).1 (groupObservation g).2
      (selectionEdges o.1, o.2) := by
  unfold diffGroup groupObservation
  dsimp only
  split
  · rfl
  · unfold Edges.observe
    dsimp only
    cases memory.get g.record.name with
    | none => simp [selectionEdges]
    | some old =>
      cases gap with
      | true => simp [selectionEdges]
      | false =>
        by_cases hUnset : old = some unset
        · by_cases hSame : old = g.record.now <;> simp [selectionEdges, hUnset]
        · by_cases hSame : old = g.record.now <;> simp [selectionEdges, hUnset, hSame]

theorem diffGroups_eq (gap : Bool) (memory : Dict PyStr (Option PyStr)) (groups : List (Parsed GroupRecord)) :
    diffGroups gap memory groups =
      let o := Edges.observeAll gap memory (groups.map groupObservation)
      (selectionEdges o.1, o.2) := by
  induction groups generalizing memory with
  | nil => rfl
  | cons g rest ih =>
    rw [diffGroups, diffGroup_eq]
    dsimp only
    rw [ih, List.map_cons, Edges.observeAll_cons]
    unfold selectionEdges
    rw [List.filter_append, List.map_append]

theorem mem_selectionEdges {edges : List (PyStr × Option PyStr × Option PyStr)} {name : PyStr}
    {old new : Option PyStr} : Body.selectionChanged name old new ∈ selectionEdges edges ↔
      (name, old, new) ∈ edges ∧ old ≠ some unset := by
  simp [selectionEdges]

theorem diffNode_eq (gap : Bool) (memory : Dict PyStr Bool) (n : Parsed NodeRecord) : diffNode gap memory n =
      let o := Edges.observe gap memory (nodeObservation n).1 (nodeObservation n).2
      (o.1.map (fun e => .aliveFlipped e.1 e.2.1 e.2.2), o.2) := by
  unfold diffNode nodeObservation
  dsimp only
  split
  · rfl
  · cases n.record.alive with
    | none => rfl
    | some alive =>
      unfold Edges.observe
      dsimp only
      cases memory.get n.record.name with
      | none => rfl
      | some old =>
        dsimp only
        split <;> rfl

theorem diffNodes_eq (gap : Bool) (memory : Dict PyStr Bool) (nodes : List (Parsed NodeRecord)) :
    diffNodes gap memory nodes =
      let o := Edges.observeAll gap memory (nodes.map nodeObservation)
      (o.1.map (fun e => .aliveFlipped e.1 e.2.1 e.2.2), o.2) := by
  induction nodes generalizing memory with
  | nil => rfl
  | cons n rest ih =>
    rw [diffNodes, diffNode_eq]
    dsimp only
    rw [ih, List.map_cons, Edges.observeAll_cons, List.map_append]

-- Summaries

theorem parseGroup_name (p : Platform) (proxies : List (PyStr × Json F))
    (name : PyStr) : (parseGroup p proxies name).record.name = name := by
  unfold parseGroup
  split <;> rfl

theorem parseNode_name {p : Platform} {proxies : List (PyStr × Json F)} {name : PyStr} {n : Parsed NodeRecord}
    (h : parseNode p proxies name = .ok n) : n.record.name = name := by
  unfold parseNode at h
  split at h
  · rcases except_bind_ok h with ⟨_, -, h⟩
    rcases except_bind_ok h with ⟨_, -, h⟩
    rw [← Except.ok.inj h]
  · rw [← Except.ok.inj h]

theorem parseNodes_names {p : Platform} {proxies : List (PyStr × Json F)}
    {names : List PyStr} {nodes : List (Parsed NodeRecord)}
    (h : parseNodes p proxies names = .ok nodes) :
    nodes.map (fun n => n.record.name) = names := by
  induction names generalizing nodes with
  | nil =>
    rw [← Except.ok.inj h]
    rfl
  | cons name rest ih =>
    rcases except_bind_ok h with ⟨n, hFirst, h⟩
    rcases except_bind_ok h with ⟨more, hRest, h⟩
    rw [← Except.ok.inj h, List.map_cons, parseNode_name hFirst, ih hRest]

theorem nodup_watchedNames {explicit : List PyStr} (hExplicit : explicit.Nodup)
    (candidates : List PyStr) : (watchedNames explicit candidates).Nodup := by
  unfold watchedNames
  apply ((List.perm_insertionSort _ _).nodup_iff).mpr
  refine List.nodup_append.mpr ⟨hExplicit, ?_, ?_⟩
  · refine List.Nodup.sublist (List.take_sublist _ _) ?_
    apply ((List.perm_insertionSort _ _).nodup_iff).mpr
    exact (List.nodup_dedup _).filter _
  · intro a ha b hb hSame
    have hMem := List.mem_of_mem_take hb
    rw [List.mem_insertionSort, List.mem_filter] at hMem
    rw [← hSame] at hMem
    exact of_decide_eq_true hMem.2 ha

/- What is true of every summary a collector reads. -/
structure Summary.Sound (c : DiagCollector) (s : Summary) : Prop where
  groups : s.groups.map (fun g => g.record.name) = c.groups
  agree : Edges.Agree (s.groups.map groupObservation)
  nodes : s.nodes.map (fun n => n.record.name) = s.watched
  watched : s.watched.Nodup

theorem sound_of_parse {c : DiagCollector} {payload : Json F} {s : Summary}
    (h : parseProxiesSummary c.platform c.groups c.nodes payload = .ok (some s)) :
    s.Sound c := by
  unfold parseProxiesSummary at h
  split at h
  · exact nomatch h
  · rename_i proxies _
    rcases except_bind_ok h with ⟨nodes, hNodes, h⟩
    rw [← Option.some.inj (Except.ok.inj h)]
    refine ⟨?_, ?_, parseNodes_names hNodes, ?_⟩
    · rw [List.map_map]
      exact List.map_id'' (parseGroup_name c.platform proxies) _
    · intro key v v' hv hv'
      simp only [List.map_map, List.mem_map, Function.comp_apply] at hv hv'
      rcases hv with ⟨name, -, hName⟩
      rcases hv' with ⟨name', -, hName'⟩
      have hKey : name = key := by
        rw [← parseGroup_name c.platform proxies name]
        exact congrArg Prod.fst hName
      have hKey' : name' = key := by
        rw [← parseGroup_name c.platform proxies name']
        exact congrArg Prod.fst hName'
      rw [hKey] at hName
      rw [hKey'] at hName'
      exact congrArg Prod.snd (hName.symm.trans hName')
    · exact nodup_watchedNames (List.nodup_dedup _) _

theorem sound_of_readProxies {c : DiagCollector} {reply : Reply} {s : Summary} {status : Status}
    (h : readProxies F c reply = .ok (some s, status)) : s.Sound c := by
  unfold readProxies at h
  split at h
  · exact nomatch h
  · rcases except_bind_ok h with ⟨payload, -, h⟩
    cases payload with
    | error e => exact nomatch h
    | ok value =>
      rcases except_bind_ok h with ⟨summary, hParse, h⟩
      have hSome : summary = some s := congrArg Prod.fst (Except.ok.inj h)
      rw [hSome] at hParse
      exact sound_of_parse hParse

theorem Summary.Sound.agree_nodes {c : DiagCollector} {s : Summary}
    (h : s.Sound c) : Edges.Agree (s.nodes.map nodeObservation) := by
  have hKeys : (Dict.keys (s.nodes.map nodeObservation)).Nodup := by
    have hNames : Dict.keys (s.nodes.map nodeObservation) = s.watched := by
      rw [← h.nodes]
      simp [Dict.keys, nodeObservation, Function.comp_def]
    rw [hNames]
    exact h.watched
  intro key v v' hv hv'
  exact Option.some.inj ((Dict.get_of_mem hKeys hv).symm.trans (Dict.get_of_mem hKeys hv'))

theorem Summary.Sound.get_group {c : DiagCollector} {s : Summary} (h : s.Sound c) {name : PyStr}
    (hName : name ∈ c.groups) : Dict.get (s.groups.map groupObservation) name ≠ none := by
  intro hNone
  apply Dict.get_eq_none_iff.mp hNone
  rw [← h.groups] at hName
  rcases List.mem_map.mp hName with ⟨g, hg, hSame⟩
  exact List.mem_map.mpr ⟨groupObservation g, List.mem_map_of_mem hg, hSame⟩

theorem Summary.Sound.get_node {c : DiagCollector} {s : Summary} (h : s.Sound c) {name : PyStr}
    (hName : name ∈ s.watched) : Dict.get (s.nodes.map nodeObservation) name ≠ none := by
  intro hNone
  apply Dict.get_eq_none_iff.mp hNone
  rw [← h.nodes] at hName
  rcases List.mem_map.mp hName with ⟨n, hn, hSame⟩
  exact List.mem_map.mpr ⟨nodeObservation n, List.mem_map_of_mem hn, hSame⟩

-- Records

theorem mem_stamp {run : PyStr} {ts : ℤ} {seq : ℕ} {bodies : List Body}
    {body : Body} : (∃ r ∈ stamp run ts seq bodies, r.body = body) ↔ body ∈ bodies := by
  induction bodies generalizing seq with
  | nil => simp [stamp]
  | cons first rest ih =>
    rw [stamp]
    constructor
    · rintro ⟨r, hr, rfl⟩
      rcases List.mem_cons.mp hr with rfl | hRest
      · exact List.mem_cons_self
      · exact List.mem_cons_of_mem _ (ih.mp ⟨r, hRest, rfl⟩)
    · intro hMem
      rcases List.mem_cons.mp hMem with rfl | hRest
      · exact ⟨_, List.mem_cons_self, rfl⟩
      · rcases ih.mpr hRest with ⟨r, hr, hBody⟩
        exact ⟨r, List.mem_cons_of_mem _ hr, hBody⟩

theorem edge_mem_fullCycle {c : DiagCollector} {s : DiagState} {ts : ℤ} {version : PyStr}
    {f : Findings} {body : Body} (hSample : ∀ x, body ≠ .sample x)
    (hCollector : ∀ x y z, body ≠ .collector x y z) :
    (∃ r ∈ (fullCycle c s ts version f).2, r.body = body) ↔ body ∈ (applyDiffs s f.summary).1 := by
  unfold fullCycle
  dsimp only
  rw [mem_stamp]
  constructor
  · intro hMem
    rcases List.mem_cons.mp hMem with hFirst | hRest
    · exact (hSample _ hFirst).elim
    · rcases List.mem_append.mp hRest with hEdge | hLedger
      · exact hEdge
      · rcases List.mem_map.mp hLedger with ⟨code, -, hBody⟩
        exact (hCollector _ _ _ hBody.symm).elim
  · intro hMem
    exact List.mem_cons_of_mem _ (List.mem_append_left _ hMem)

theorem edge_mem_unreachable {s : DiagState} {ts : ℤ} {body : Body} (hSample : ∀ x, body ≠ .sample x)
    (hCollector : ∀ x y z, body ≠ .collector x y z) :
    ¬ ∃ r ∈ (unreachableCycle s ts).2, r.body = body := by
  unfold unreachableCycle
  dsimp only
  rw [mem_stamp]
  intro hMem
  rcases List.mem_cons.mp hMem with hFirst | hLedger
  · exact hSample _ hFirst
  · rcases List.mem_map.mp hLedger with ⟨code, -, hBody⟩
    exact hCollector _ _ _ hBody.symm

theorem selection_mem_applyDiffs {s : DiagState} {summary : Summary}
    (hAgree : Edges.Agree (summary.groups.map groupObservation)) {name : PyStr}
    {old new : Option PyStr} :
    Body.selectionChanged name old new ∈ (applyDiffs s (some summary)).1 ↔
      s.proxiesGap = false ∧ s.groupNow.get name = some old ∧ selectionSeen (some summary) name = some new ∧
        old ≠ new ∧ old ≠ some unset := by
  have hJoin : selectionSeen (some summary) name = some new ↔
        Dict.get (summary.groups.map groupObservation) name = some (some new) :=
    Option.join_eq_some_iff
  have hEdges : Body.selectionChanged name old new ∈ (applyDiffs s (some summary)).1 ↔
      (name, old, new) ∈ (Edges.observeAll s.proxiesGap s.groupNow
        (summary.groups.map groupObservation)).1 ∧ old ≠ some unset := by
    unfold applyDiffs
    dsimp only
    rw [diffGroups_eq, diffNodes_eq, ← mem_selectionEdges]
    simp
  rw [hJoin, hEdges, Edges.mem_observeAll hAgree]
  tauto

theorem alive_mem_applyDiffs {s : DiagState} {summary : Summary}
    (hAgree : Edges.Agree (summary.nodes.map nodeObservation)) {name : PyStr}
    {old new : Bool} :
    Body.aliveFlipped name old new ∈ (applyDiffs s (some summary)).1 ↔
      s.proxiesGap = false ∧ s.nodeAlive.get name = some old ∧ aliveSeen (some summary) name = some new ∧
        old ≠ new := by
  have hJoin : aliveSeen (some summary) name = some new ↔
        Dict.get (summary.nodes.map nodeObservation) name = some (some new) :=
    Option.join_eq_some_iff
  rw [hJoin, ← Edges.mem_observeAll hAgree]
  unfold applyDiffs
  dsimp only
  rw [diffGroups_eq, diffNodes_eq]
  cases old <;> cases new <;> simp [selectionEdges]

-- The Memory

/- The memory of the groups is what the last cycle observed. -/
structure GroupInv (c : DiagCollector) (s : DiagState) : Prop where
  listed : ∀ name old, s.groupNow.get name = some old → name ∈ c.groups
  gap : s.proxiesGap = true → s.last = none
  seen : s.proxiesGap = false → ∀ name, s.groupNow.get name = selectionSeen s.last name

/- No group is remembered as selecting the sentinel. -/
def NoSentinel (s : DiagState) : Prop := ∀ name, s.groupNow.get name ≠ some (some unset)

/- The memory of the nodes is what the last cycle observed. -/
structure NodeInv (s : DiagState) : Prop where
  gap : s.proxiesGap = true → s.last = none
  seen : s.proxiesGap = false → ∀ name, s.nodeAlive.get name = aliveSeen s.last name

theorem groupInv_start (c : DiagCollector) (run : PyStr) : GroupInv c (DiagState.start run) where
  listed _ _ h := (Option.some_ne_none _ h.symm).elim
  gap h := Bool.noConfusion h
  seen _ _ := rfl

theorem nodeInv_start (run : PyStr) : NodeInv (DiagState.start run) where
  gap h := Bool.noConfusion h
  seen _ _ := rfl

theorem fullCycle_state (c : DiagCollector) (s : DiagState) (ts : ℤ) (version : PyStr) (f : Findings) :
    (fullCycle c s ts version f).1.groupNow = (applyDiffs s f.summary).2.groupNow ∧
      (fullCycle c s ts version f).1.nodeAlive = (applyDiffs s f.summary).2.nodeAlive ∧
      (fullCycle c s ts version f).1.proxiesGap = (applyDiffs s f.summary).2.proxiesGap ∧
      (fullCycle c s ts version f).1.last = f.summary := by
  refine ⟨rfl, rfl, rfl, ?_⟩
  unfold fullCycle applyDiffs
  cases f.summary <;> rfl

theorem GroupInv.fullCycle {c : DiagCollector} {s : DiagState}
    (h : GroupInv c s) (ts : ℤ) (version : PyStr) {f : Findings}
    (hSound : ∀ summary, f.summary = some summary → summary.Sound c) :
    GroupInv c (fullCycle c s ts version f).1 ∧
      (NoSentinel s → SelectionLaw s (Diag.fullCycle c s ts version f).1
        (Diag.fullCycle c s ts version f).2) := by
  rcases fullCycle_state c s ts version f with ⟨hGroups, -, hGap, hLast⟩
  cases hSummary : f.summary with
  | none =>
    rw [hSummary] at hGroups hGap hLast
    constructor
    · refine ⟨?_, fun _ => hLast, ?_⟩
      · rw [hGroups]
        exact h.listed
      · rw [hGap]
        exact fun hFalse => Bool.noConfusion hFalse
    · intro hNamed name old new
      rw [edge_mem_fullCycle (by simp) (by simp), hSummary, hLast]
      constructor
      · exact fun hMem => (List.not_mem_nil hMem).elim
      · exact fun hSeen => (Option.some_ne_none _ hSeen.2.1.symm).elim
  | some summary =>
    have hOk := hSound summary hSummary
    rw [hSummary] at hGroups hGap hLast
    have hMemory : ∀ name, (Diag.fullCycle c s ts version f).1.groupNow.get name =
            selectionSeen (some summary) name := by
      intro name
      rw [hGroups]
      change (diffGroups s.proxiesGap s.groupNow summary.groups).2.get name = _
      rw [diffGroups_eq]
      dsimp only
      rw [Edges.get_observeAll hOk.agree]
      unfold selectionSeen
      rw [Option.bind_some]
      cases hGet : Dict.get (summary.groups.map groupObservation) name with
      | some value => rfl
      | none =>
        -- a group that is not listed was never remembered
        cases hOld : s.groupNow.get name with
        | none => rfl
        | some old => exact (hOk.get_group (h.listed name old hOld) hGet).elim
    constructor
    · refine ⟨?_, ?_, ?_⟩
      · intro name old hGet
        rw [hMemory] at hGet
        by_contra hName
        rw [← hOk.groups] at hName
        have hNone : Dict.get (summary.groups.map groupObservation) name = none := by
          rw [Dict.get_eq_none_iff]
          intro hKey
          rcases List.mem_map.mp hKey with ⟨e, he, hSame⟩
          rcases List.mem_map.mp he with ⟨g, hg, rfl⟩
          exact hName (List.mem_map.mpr ⟨g, hg, hSame⟩)
        unfold selectionSeen at hGet
        rw [Option.bind_some, hNone] at hGet
        exact nomatch hGet
      · rw [hGap]
        exact fun hTrue => Bool.noConfusion hTrue
      · rw [hLast]
        exact fun _ => hMemory
    · intro hNamed name old new
      rw [edge_mem_fullCycle (by simp) (by simp),
        hSummary, selection_mem_applyDiffs hOk.agree, hLast]
      constructor
      · rintro ⟨hNoGap, hOld, hNew, hNe, -⟩
        rw [h.seen hNoGap] at hOld
        exact ⟨hOld, hNew, hNe⟩
      · rintro ⟨hOld, hNew, hNe⟩
        cases hGapBefore : s.proxiesGap with
        | true =>
          rw [h.gap hGapBefore] at hOld
          exact (Option.some_ne_none _ hOld.symm).elim
        | false =>
          rw [← h.seen hGapBefore] at hOld
          exact ⟨rfl, hOld, hNew, hNe, fun hSame => hNamed name (hSame ▸ hOld)⟩

theorem NodeInv.fullCycle {c : DiagCollector} {s : DiagState}
    (h : NodeInv s) (ts : ℤ) (version : PyStr) {f : Findings}
    (hSound : ∀ summary, f.summary = some summary → summary.Sound c)
    (hCovers : ∀ summary, f.summary = some summary →
        ∀ name alive, s.nodeAlive.get name = some alive → name ∈ summary.watched) :
    NodeInv (fullCycle c s ts version f).1 ∧ AliveLaw s (Diag.fullCycle c s ts version f).1
        (Diag.fullCycle c s ts version f).2 := by
  rcases fullCycle_state c s ts version f with ⟨-, hNodes, hGap, hLast⟩
  cases hSummary : f.summary with
  | none =>
    rw [hSummary] at hNodes hGap hLast
    constructor
    · refine ⟨fun _ => hLast, ?_⟩
      rw [hGap]
      exact fun hFalse => Bool.noConfusion hFalse
    · intro name old new
      rw [edge_mem_fullCycle (by simp) (by simp), hSummary, hLast]
      constructor
      · exact fun hMem => (List.not_mem_nil hMem).elim
      · exact fun hSeen => (Option.some_ne_none _ hSeen.2.1.symm).elim
  | some summary =>
    have hOk := hSound summary hSummary
    rw [hSummary] at hNodes hGap hLast
    have hMemory : ∀ name, (Diag.fullCycle c s ts version f).1.nodeAlive.get name =
            aliveSeen (some summary) name := by
      intro name
      rw [hNodes]
      change (diffNodes s.proxiesGap s.nodeAlive summary.nodes).2.get name = _
      rw [diffNodes_eq]
      dsimp only
      rw [Edges.get_observeAll hOk.agree_nodes]
      unfold aliveSeen
      rw [Option.bind_some]
      cases hGet : Dict.get (summary.nodes.map nodeObservation) name with
      | some value => rfl
      | none =>
        -- a node that is not observed is not remembered
        cases hOld : s.nodeAlive.get name with
        | none => rfl
        | some old =>
          exact (hOk.get_node (hCovers summary hSummary name old hOld) hGet).elim
    constructor
    · refine ⟨?_, ?_⟩
      · rw [hGap]
        exact fun hTrue => Bool.noConfusion hTrue
      · rw [hLast]
        exact fun _ => hMemory
    · intro name old new
      rw [edge_mem_fullCycle (by simp) (by simp),
        hSummary, alive_mem_applyDiffs hOk.agree_nodes, hLast]
      constructor
      · rintro ⟨hNoGap, hOld, hNew⟩
        rw [h.seen hNoGap] at hOld
        exact ⟨hOld, hNew⟩
      · rintro ⟨hOld, hNew⟩
        cases hGapBefore : s.proxiesGap with
        | true =>
          rw [h.gap hGapBefore] at hOld
          exact (Option.some_ne_none _ hOld.symm).elim
        | false =>
          rw [← h.seen hGapBefore] at hOld
          exact ⟨rfl, hOld, hNew⟩

-- Runs

/- A cycle of a run: the time, and what is answered. -/
structure Cycle where
  ts : ℤ
  replies : Replies
deriving DecidableEq

/-
  A run of the recorder.  An exception that leaves a cycle ends
  the process, and with it the run.
-/
def runStep (F : Type) [BoundedFloat F]
    (c : DiagCollector) : Option DiagState → Cycle → List Record × Option DiagState
  | none, _ => ([], none)
  | some s, cycle =>
    match collectCycle F c s cycle.ts cycle.replies with
    | .ok (s', records) => (records, some s')
    | .error _ => ([], none)

theorem collectCycle_cases {c : DiagCollector} {s s' : DiagState} {ts : ℤ} {replies : Replies}
    {records : List Record}
    (h : collectCycle F c s ts replies = .ok (s', records)) :
    (s', records) = unreachableCycle s ts ∨ ∃ version f status, (s', records) = fullCycle c s ts version f ∧
          readProxies F c replies.proxies = .ok (f.summary, status) := by
  unfold collectCycle at h
  rcases except_bind_ok h with ⟨payload, -, h⟩
  cases hVersion : versionOf payload with
  | none =>
    rw [hVersion] at h
    exact .inl (Except.ok.inj h).symm
  | some version =>
    rw [hVersion] at h
    rcases except_bind_ok h with ⟨⟨summary, status⟩, hProxies, h⟩
    rcases except_bind_ok h with ⟨⟨chains, other, malformed⟩, -, h⟩
    exact .inr ⟨version, _, status, (Except.ok.inj h).symm, hProxies⟩

theorem unreachable_laws {c : DiagCollector} {s : DiagState} (h : GroupInv c s) (ts : ℤ) :
    GroupInv c (unreachableCycle s ts).1 ∧ NodeInv (unreachableCycle s ts).1 ∧
      SelectionLaw s (unreachableCycle s ts).1 (unreachableCycle s ts).2 ∧
      AliveLaw s (unreachableCycle s ts).1 (unreachableCycle s ts).2 := by
  refine ⟨⟨h.listed, fun _ => rfl, fun hGap => Bool.noConfusion hGap⟩,
    ⟨fun _ => rfl, fun hGap => Bool.noConfusion hGap⟩, ?_, ?_⟩
  · intro name old new
    constructor
    · exact fun hMem => (edge_mem_unreachable (by simp) (by simp) hMem).elim
    · exact fun hSeen => (Option.some_ne_none _ hSeen.2.1.symm).elim
  · intro name old new
    constructor
    · exact fun hMem => (edge_mem_unreachable (by simp) (by simp) hMem).elim
    · exact fun hSeen => (Option.some_ne_none _ hSeen.2.1.symm).elim

theorem GroupInv.cycle {c : DiagCollector} {s s' : DiagState} (h : GroupInv c s)
    {ts : ℤ} {replies : Replies} {records : List Record}
    (hCycle : collectCycle F c s ts replies = .ok (s', records)) :
    GroupInv c s' ∧ (NoSentinel s → SelectionLaw s s' records) := by
  rcases collectCycle_cases hCycle with
    hEq | ⟨version, f, status, hEq, hProxies⟩
  · rcases unreachable_laws h ts with ⟨hInv, -, hLaw, -⟩
    rw [← hEq] at hInv hLaw
    exact ⟨hInv, fun _ => hLaw⟩
  · have hSound : ∀ summary, f.summary = some summary → summary.Sound c := by
      intro summary hSummary
      rw [hSummary] at hProxies
      exact sound_of_readProxies hProxies
    have hBoth := h.fullCycle ts version hSound
    rw [← hEq] at hBoth
    exact hBoth

theorem NodeInv.cycle {c : DiagCollector} {s s' : DiagState} (hGroups : GroupInv c s) (h : NodeInv s)
    {ts : ℤ} {replies : Replies} (hCovers : Covers F c s replies) {records : List Record}
    (hCycle : collectCycle F c s ts replies = .ok (s', records)) :
    NodeInv s' ∧ AliveLaw s s' records := by
  rcases collectCycle_cases hCycle with
    hEq | ⟨version, f, status, hEq, hProxies⟩
  · rcases unreachable_laws hGroups ts with ⟨-, hInv, -, hLaw⟩
    rw [← hEq] at hInv hLaw
    exact ⟨hInv, hLaw⟩
  · have hSound : ∀ summary, f.summary = some summary → summary.Sound c := by
      intro summary hSummary
      rw [hSummary] at hProxies
      exact sound_of_readProxies hProxies
    have hWatched : ∀ summary, f.summary = some summary →
          ∀ name alive, s.nodeAlive.get name = some alive → name ∈ summary.watched := by
      intro summary hSummary
      rw [hSummary] at hProxies
      exact hCovers summary status hProxies
    have hBoth := h.fullCycle ts version hSound hWatched
    rw [← hEq] at hBoth
    exact hBoth

/- The state of the run, if it has not ended, satisfies `I`. -/
def Alive (I : DiagState → Prop) (s : Option DiagState) : Prop := ∀ d, s = some d → I d

theorem alive_runStep {c : DiagCollector} {I : DiagState → Prop} {s : Option DiagState} {cycle : Cycle}
    (h : ∀ d, s = some d → ∀ d' records,
        collectCycle F c d cycle.ts cycle.replies = .ok (d', records) → I d') :
    Alive I (runStep F c s cycle).2 := by
  intro d' hSome
  cases s with
  | none => exact nomatch hSome
  | some d =>
    unfold runStep at hSome
    dsimp only at hSome
    cases hCycle : collectCycle F c d cycle.ts cycle.replies with
    | error e =>
      rw [hCycle] at hSome
      exact nomatch hSome
    | ok result =>
      rcases result with ⟨d'', records⟩
      rw [hCycle] at hSome
      rw [← Option.some.inj hSome]
      exact h d rfl d'' records hCycle

/- The states of a run in which no remembered node leaves. -/
def CoveringRun (F : Type) [BoundedFloat F] (c : DiagCollector) (s : DiagState) : Prop :=
  ∃ run, Reachable (runStep F c) (fun s cycle => ∀ d, s = some d → Covers F c d cycle.replies)
      (some (DiagState.start run)) (some s)

/- The states of any run. -/
def AnyRun (F : Type) [BoundedFloat F] (c : DiagCollector) (s : DiagState) : Prop :=
  ∃ run, Reachable (runStep F c) (fun _ _ => True) (some (DiagState.start run)) (some s)

/-
  In every run a changed selection is recorded exactly when two
  cycles in a row observed two different ones, unless a node of
  the sentinel's name is remembered.  The same holds of nodes
  that are alive in every run in which no node leaves the
  observed set while it is remembered.
-/
theorem causal_boundary (c : DiagCollector) (s s' : DiagState) (cycle : Cycle) (records : List Record)
    (hCycle : collectCycle F c s cycle.ts cycle.replies = .ok (s', records)) :
    (AnyRun F c s → NoSentinel s → SelectionLaw s s' records) ∧
      (CoveringRun F c s → Covers F c s cycle.replies → AliveLaw s s' records) := by
  constructor
  · rintro ⟨run, hReach⟩
    have hInv : Alive (GroupInv c) (some s) := by
      refine hReach.invariant ?_ ?_
      · intro d hd
        rw [← Option.some.inj hd]
        exact groupInv_start c run
      · intro d cycle h _
        exact alive_runStep (fun d hd _ _ hOk => ((h d hd).cycle hOk).1)
    exact ((hInv s rfl).cycle hCycle).2
  · rintro ⟨run, hReach⟩ hCovers
    have hInv : Alive (fun d => GroupInv c d ∧ NodeInv d) (some s) := by
      refine hReach.invariant ?_ ?_
      · intro d hd
        rw [← Option.some.inj hd]
        exact ⟨groupInv_start c run, nodeInv_start run⟩
      · intro d cycle h hCovers
        refine alive_runStep ?_
        intro d hd _ _ hOk
        rcases h d hd with ⟨hGroups, hNodes⟩
        exact ⟨(hGroups.cycle hOk).1, (hNodes.cycle hGroups (hCovers d hd) hOk).1⟩
    rcases hInv s rfl with ⟨hGroups, hNodes⟩
    exact (hNodes.cycle hGroups hCovers hCycle).2

-- A Node that Leaves and Returns

/- A platform whose texts are plain and have no time in them. -/
def plainPlatform : Platform where
  strip := id
  lower := id
  fromIso _ := none
  testId := none
  room := 100

def plainCollector : DiagCollector := ⟨plainPlatform, [pyStr "G"], []⟩

def textReply (s : String) : Reply := .answered 200 (asciiEncode (pyStr s))

/- The group has one member; the node `A` is alive or not. -/
def memberCycle (ts : ℤ) (memberName alive : String) : Cycle where
  ts := ts
  replies := ⟨textReply "\x7b\"version\":\"v1\"\x7d",
      textReply ("\x7b\"proxies\":\x7b\"G\":\x7b\"all\":[\"" ++
        memberName ++ "\"]\x7d,\"A\":\x7b\"alive\":" ++ alive ++
        "\x7d\x7d\x7d"),
      textReply "\x7b\"connections\":null\x7d"⟩

/- The recorder after some cycles. -/
def afterCycles (cycles : List Cycle) : Option DiagState :=
  finalState (runStep (IntGrid (2 ^ 53)) plainCollector) (some (DiagState.start [])) cycles

/- The cycle that follows some others, if it returns. -/
def nextCycle (cycles : List Cycle) (cycle : Cycle) : Option (DiagState × DiagState × List Record) :=
  (afterCycles cycles).bind (fun s =>
    match collectCycle (IntGrid (2 ^ 53)) plainCollector s
      cycle.ts cycle.replies with
    | .ok (s', records) => some (s, s', records)
    | .error _ => none)

theorem nextCycle_some {cycles : List Cycle} {cycle : Cycle} {s s' : DiagState} {records : List Record}
    (h : nextCycle cycles cycle = some (s, s', records)) :
    afterCycles cycles = some s ∧ collectCycle (IntGrid (2 ^ 53)) plainCollector s cycle.ts
        cycle.replies = .ok (s', records) := by
  rcases Option.bind_eq_some_iff.mp h with ⟨d, hAfter, hNext⟩
  split at hNext
  · rename_i d' found hOk
    cases hNext
    exact ⟨hAfter, hOk⟩
  · exact nomatch hNext

/- `A` is alive, and then it is not. -/
theorem causal_boundary_nodeDies : ∃ s s' records, nextCycle [memberCycle 0 "A" "true"]
          (memberCycle 30 "A" "false") = some (s, s', records) ∧
        SelectionLaw s s' records ∧ AliveLaw s s' records := by
  have hSome : (nextCycle [memberCycle 0 "A" "true"] (memberCycle 30 "A" "false")).isSome = true := by
    decide
  rcases Option.isSome_iff_exists.mp hSome with ⟨⟨s, s', records⟩, hNext⟩
  rcases nextCycle_some hNext with ⟨hAfter, hCycle⟩
  have hFirst : ∀ d, some (DiagState.start []) = some d → Covers (IntGrid (2 ^ 53)) plainCollector d
          (memberCycle 0 "A" "true").replies := by
    intro d hd _ _ _ _ _ hGet
    rw [← Option.some.inj hd] at hGet
    exact nomatch hGet
  have hCovering : CoveringRun (IntGrid (2 ^ 53)) plainCollector s :=
    ⟨[], hAfter ▸ Reachable.refl.step_of (memberCycle 0 "A" "true") hFirst⟩
  have hAny : AnyRun (IntGrid (2 ^ 53)) plainCollector s :=
    ⟨[], hAfter ▸ Reachable.refl.step_of (memberCycle 0 "A" "true") trivial⟩
  have hWatched : ((readProxies (IntGrid (2 ^ 53)) plainCollector
          (memberCycle 30 "A" "false").replies.proxies).toOption.map
        (fun r => r.1.map Summary.watched)) =
        some (some [pyStr "A"]) := by
    decide
  have hMemory : (afterCycles [memberCycle 0 "A" "true"]).map
        (fun d => d.nodeAlive) = some [(pyStr "A", true)] := by
    decide
  have hCovers : Covers (IntGrid (2 ^ 53)) plainCollector s (memberCycle 30 "A" "false").replies := by
    intro summary status hRead name alive hGet
    rw [hRead] at hWatched
    rw [hAfter] at hMemory
    have hNames : summary.watched = [pyStr "A"] := Option.some.inj (Option.some.inj hWatched)
    have hNodes : s.nodeAlive = [(pyStr "A", true)] := Option.some.inj hMemory
    rw [hNodes] at hGet
    rw [hNames]
    exact List.mem_singleton.mpr (congrArg Prod.fst (List.mem_singleton.mp (Dict.mem_of_get hGet)))
  have hSelected : (afterCycles [memberCycle 0 "A" "true"]).map
        (fun d => d.groupNow) = some [(pyStr "G", none)] := by
    decide
  have hNamed : NoSentinel s := by
    intro name hGet
    rw [hAfter] at hSelected
    have hGroups : s.groupNow = [(pyStr "G", none)] := Option.some.inj hSelected
    rw [hGroups] at hGet
    exact Option.some_ne_none _ (congrArg Prod.snd (List.mem_singleton.mp (Dict.mem_of_get hGet)))
  have hLaws := causal_boundary (F := IntGrid (2 ^ 53)) plainCollector s s'
      (memberCycle 30 "A" "false") records hCycle
  exact ⟨s, s', records, hNext, hLaws.1 hAny hNamed, hLaws.2 hCovering hCovers⟩

/-
  `A` is alive, leaves the group for one cycle, and is dead when
  it is back: the edge bridges the cycle that did not see it.
-/
theorem returningNode_bridges : ¬ ∀ (s s' : DiagState) (cycle : Cycle) (records : List Record),
      AnyRun (IntGrid (2 ^ 53)) plainCollector s →
        collectCycle (IntGrid (2 ^ 53)) plainCollector s cycle.ts cycle.replies = .ok (s', records) →
          AliveLaw s s' records := by
  intro hAll
  have hEdge : (nextCycle [memberCycle 0 "A" "true", memberCycle 30 "B" "true"]
          (memberCycle 60 "A" "false")).map
        (fun r =>
          (decide (Body.aliveFlipped (pyStr "A") true false ∈ r.2.2.map Record.body),
            aliveSeen r.1.last (pyStr "A"))) =
        some (true, none) := by
    decide
  rcases Option.map_eq_some_iff.mp hEdge with ⟨⟨s, s', records⟩, hNext, hFacts⟩
  rcases nextCycle_some hNext with ⟨hAfter, hCycle⟩
  have hAny : AnyRun (IntGrid (2 ^ 53)) plainCollector s := by
    refine ⟨[], ?_⟩
    rw [← hAfter]
    exact ⟨_, trace_history _ _ _⟩
  have hMem := of_decide_eq_true (congrArg Prod.fst hFacts)
  rcases List.mem_map.mp hMem with ⟨r, hr, hBody⟩
  have hSeen := ((hAll s s' (memberCycle 60 "A" "false") records hAny hCycle)
      (pyStr "A") true false).mp ⟨r, hr, hBody⟩
  have hNone : aliveSeen s.last (pyStr "A") = none := congrArg Prod.snd hFacts
  exact Option.some_ne_none _ (hSeen.1.symm.trans hNone)

end SingboxOps.Diag
