import SingboxOps.Diag.Causal

/-
  A cycle of the failover recorder returns, and what it returns,
  unless the reader of a body runs out of room or a time that is
  read has no UTC.
-/

namespace SingboxOps.Diag

variable {F : Type} [BoundedFloat F]

-- Computations That Return

/- The computation returns. -/
def Returns {ε α : Type} (x : Except ε α) : Prop := ∃ a, x = .ok a

section

variable {ε α β : Type}

theorem returns_ok (a : α) : Returns (Except.ok a : Except ε α) := ⟨a, rfl⟩

theorem not_returns_error (e : ε) : ¬ Returns (Except.error e : Except ε α) := fun ⟨_, h⟩ => nomatch h

theorem returns_bind {x : Except ε α}
    {f : α → Except ε β} : Returns (x >>= f) ↔ ∃ a, x = .ok a ∧ Returns (f a) := by
  constructor
  · rintro ⟨b, hb⟩
    rcases except_bind_ok hb with ⟨a, ha, hf⟩
    exact ⟨a, ha, b, hf⟩
  · rintro ⟨a, rfl, b, hf⟩
    exact ⟨b, hf⟩

theorem returns_bind_pure {x : Except ε α} {f : α → β} : Returns (x >>= fun a => pure (f a)) ↔ Returns x := by
  rw [returns_bind]
  constructor
  · rintro ⟨a, ha, -⟩
    exact ⟨a, ha⟩
  · rintro ⟨a, ha⟩
    exact ⟨a, ha, f a, rfl⟩

end

-- The Condition

/- The body nests no deeper than the reader has room. -/
def Shallow (F : Type) [BoundedFloat F] (room : ℕ) : Reply → Prop
  | .failed => True
  | .answered status body =>
    status = 200 → ∀ text, utf8Decode body = some text →
        (Json.loads room text : Except Json.ParseError (Json F)) ≠ .error .recursion

/- A text that names a time names one that UTC can hold. -/
def Convertible (p : Platform) : Json F → Prop
  | .str text =>
    p.strip text ≠ [] → ∀ micros offset, p.fromIso (replaceZ (p.strip text)) = some ⟨micros, some offset⟩ →
          inCalendar (micros - offset) = true
  | _ => True

/- The times of the last eight valid items. -/
def HistoryFit (p : Platform) : Json F → Prop
  | .arr items =>
    ∀ e ∈ (items.reverse.filterMap historyItem).take histKeep, Convertible p e.2
  | _ => True

/- The histories under the first eight test URLs. -/
def ExtraFit (p : Platform) : Json F → Prop
  | .obj members =>
    p.testId.isSome → ∀ e ∈ (sortMembers members).take nodeUrlKeep,
        ∀ detail, e.2 = .obj detail → HistoryFit p (member detail "history")
  | _ => True

/- The times that are read of one node. -/
def NodeFit (p : Platform) (proxies : List (PyStr × Json F)) (name : PyStr) : Prop :=
  ∀ entry, Json.getItem proxies name = some (.obj entry) →
    HistoryFit p (member entry "history") ∧ ExtraFit p (member entry "extra")

/- The starts of the connections through a watched node. -/
def ConnectionsFit (p : Platform) (watched : List PyStr) (items : List (Json F)) : Prop :=
  ∀ item ∈ items, ∀ chains start, chainsOf item = some (chains, start) →
      (∃ name ∈ watched, name ∈ chains) → Convertible p start

/- The payload of a reply, where it has one. -/
def payloadOf (F : Type) [BoundedFloat F] (room : ℕ) (reply : Reply) : Option (Json F) :=
  match (getPayload room reply : Except Escape (Except Status (Json F))) with
  | .ok (.ok payload) => some payload
  | _ => none

/- The proxies of a cycle, if it asks for any. -/
def cycleProxies (F : Type) [BoundedFloat F] (c : DiagCollector)
    (reply : Reply) : Option (List (PyStr × Json F)) :=
  if c.groups = [] then none
  else (payloadOf F c.platform.room reply).bind proxiesOf

/- The nodes whose connections a cycle looks for. -/
def cycleWatched (F : Type) [BoundedFloat F] (c : DiagCollector) (reply : Reply) : List PyStr :=
  (cycleProxies F c reply).elim [] (observedNames c.platform c.groups c.nodes)

/- The list of connections of a payload. -/
def connectionsOf : Json F → List (Json F)
  | .obj members =>
    match Json.getItem members (pyStr "connections") with
    | some (.arr items) => items
    | _ => []
  | _ => []

/-
  The bodies that are read are shallow, and so are convertible
  the times that are read of them.  Without a version the other
  two paths are not asked.
-/
structure Quiet (F : Type) [BoundedFloat F] (c : DiagCollector) (replies : Replies) : Prop where
  version : Shallow F c.platform.room replies.version
  rest :
    ((payloadOf F c.platform.room replies.version).bind (fun v => versionOf (.ok v))).isSome →
      (c.groups ≠ [] → Shallow F c.platform.room replies.proxies) ∧
        (∀ proxies, cycleProxies F c replies.proxies = some proxies →
          ∀ name ∈ observedNames c.platform c.groups c.nodes proxies, NodeFit c.platform proxies name) ∧
        Shallow F c.platform.room replies.connections ∧
        ∀ payload, payloadOf F c.platform.room replies.connections = some payload →
            ConnectionsFit c.platform (cycleWatched F c replies.proxies) (connectionsOf payload)

-- When the Parsers Return

theorem returns_getPayload {room : ℕ}
    {reply : Reply} : Returns (getPayload (F := F) room reply) ↔ Shallow F room reply := by
  cases reply with
  | failed => exact ⟨fun _ => trivial, fun _ => returns_ok _⟩
  | answered status body =>
    unfold getPayload Shallow
    by_cases hStatus : status = 200
    · dsimp only
      rw [if_pos hStatus]
      cases hDecode : utf8Decode body with
      | none => exact ⟨(fun _ _ _ h => nomatch h), fun _ => returns_ok _⟩
      | some text =>
        dsimp only
        cases hLoads : (Json.loads room text : Except Json.ParseError (Json F)) with
        | ok payload =>
          refine ⟨?_, fun _ => returns_ok _⟩
          intro _ _ other hOther
          rw [← Option.some.inj hOther, hLoads]
          exact fun h => nomatch h
        | error e =>
          cases e with
          | value =>
            refine ⟨?_, fun _ => returns_ok _⟩
            intro _ _ other hOther
            rw [← Option.some.inj hOther, hLoads]
            exact fun h => nomatch h
          | recursion =>
            constructor
            · exact fun h => (not_returns_error _ h).elim
            · exact fun h => (h hStatus text rfl hLoads).elim
    · dsimp only
      rw [if_neg hStatus]
      exact ⟨fun _ h => (hStatus h).elim, fun _ => returns_ok _⟩

theorem returns_parseTs {p : Platform}
    {value : Json F} : Returns (parseTs p value) ↔ Convertible p value := by
  cases value with
  | null => exact ⟨fun _ => trivial, fun _ => returns_ok _⟩
  | bool b => exact ⟨fun _ => trivial, fun _ => returns_ok _⟩
  | float x => exact ⟨fun _ => trivial, fun _ => returns_ok _⟩
  | arr items => exact ⟨fun _ => trivial, fun _ => returns_ok _⟩
  | obj members => exact ⟨fun _ => trivial, fun _ => returns_ok _⟩
  | int n =>
    refine ⟨fun _ => trivial, fun _ => ?_⟩
    unfold parseTs
    dsimp only
    cases (floatOfInt? n : Option F) with
    | none => exact returns_ok _
    | some x => exact returns_ok _
  | str text =>
    unfold parseTs Convertible
    dsimp only
    by_cases hBlank : p.strip text = []
    · rw [if_pos hBlank]
      exact ⟨fun _ h => (h hBlank).elim, fun _ => returns_ok _⟩
    · rw [if_neg hBlank]
      cases hIso : p.fromIso (replaceZ (p.strip text)) with
      | none => exact ⟨(fun _ _ _ _ h => nomatch h), fun _ => returns_ok _⟩
      | some stamp =>
        rcases stamp with ⟨micros, offset⟩
        dsimp only
        unfold Stamp.toUtc
        cases offset with
        | none => exact ⟨(fun _ _ _ _ h => nomatch h), fun _ => returns_ok _⟩
        | some off =>
          dsimp only
          by_cases hFit : inCalendar (micros - off) = true
          · rw [if_pos hFit]
            refine ⟨?_, fun _ => returns_ok _⟩
            intro _ _ m o h
            cases h
            exact hFit
          · rw [if_neg hFit]
            constructor
            · exact fun h => (not_returns_error _ h).elim
            · exact fun h => (hFit (h hBlank _ _ rfl)).elim

theorem returns_historyLoop {p : Platform} {keep : ℕ} {items : List (Json F)} :
    Returns (historyLoop p keep items) ↔ ∀ e ∈ (items.filterMap historyItem).take keep,
        Convertible p e.2 := by
  induction items generalizing keep with
  | nil =>
    cases keep with
    | zero => exact ⟨(fun _ _ h => nomatch h), fun _ => returns_ok _⟩
    | succ keep => exact ⟨(fun _ _ h => nomatch h), fun _ => returns_ok _⟩
  | cons item rest ih =>
    cases keep with
    | zero =>
      rw [List.take_zero]
      exact ⟨(fun _ _ h => nomatch h), fun _ => returns_ok _⟩
    | succ keep =>
      rw [historyLoop]
      cases hItem : historyItem item with
      | none =>
        rw [List.filterMap_cons_none hItem]
        dsimp only
        rw [returns_bind_pure, ih]
      | some e =>
        rcases e with ⟨delay, time⟩
        rw [List.filterMap_cons_some hItem, List.take_succ_cons,
          List.forall_mem_cons, ← ih, ← returns_parseTs]
        dsimp only
        rw [returns_bind]
        constructor
        · rintro ⟨micros, hTime, hRest⟩
          rw [returns_bind_pure] at hRest
          exact ⟨⟨micros, hTime⟩, hRest⟩
        · rintro ⟨⟨micros, hTime⟩, hRest⟩
          refine ⟨micros, hTime, ?_⟩
          rw [returns_bind_pure]
          exact hRest

theorem returns_parseHistory {p : Platform}
    {raw : Json F} : Returns (parseHistory p raw) ↔ HistoryFit p raw := by
  cases raw with
  | arr items =>
    unfold parseHistory HistoryFit
    rw [returns_bind_pure]
    exact returns_historyLoop
  | null => exact ⟨fun _ => trivial, fun _ => returns_ok _⟩
  | bool b => exact ⟨fun _ => trivial, fun _ => returns_ok _⟩
  | int n => exact ⟨fun _ => trivial, fun _ => returns_ok _⟩
  | float x => exact ⟨fun _ => trivial, fun _ => returns_ok _⟩
  | str s => exact ⟨fun _ => trivial, fun _ => returns_ok _⟩
  | obj members => exact ⟨fun _ => trivial, fun _ => returns_ok _⟩

theorem returns_parseUrls {p : Platform} {testId : PyStr → PyStr} {members : List (PyStr × Json F)} :
    Returns (parseUrls p testId members) ↔ ∀ e ∈ members, ∀ detail, e.2 = .obj detail →
        HistoryFit p (member detail "history") := by
  induction members with
  | nil => exact ⟨(fun _ _ h => nomatch h), fun _ => returns_ok _⟩
  | cons e rest ih =>
    rcases e with ⟨url, value⟩
    rw [List.forall_mem_cons, ← ih]
    cases value with
    | obj detail =>
      rw [parseUrls, returns_bind]
      constructor
      · rintro ⟨history, hHistory, hRest⟩
        rw [returns_bind_pure] at hRest
        refine ⟨?_, hRest⟩
        rintro _ ⟨⟩
        exact returns_parseHistory.mp ⟨history, hHistory⟩
      · rintro ⟨hDetail, hRest⟩
        rcases returns_parseHistory.mpr (hDetail detail rfl) with ⟨history, hHistory⟩
        refine ⟨history, hHistory, ?_⟩
        rw [returns_bind_pure]
        exact hRest
    | _ =>
      simp only [parseUrls, reduceCtorEq, false_implies, implies_true, true_and]
      rw [returns_bind_pure]

theorem returns_parseExtra {p : Platform}
    {extra : Json F} : Returns (parseExtra p extra) ↔ ExtraFit p extra := by
  cases extra with
  | obj members =>
    unfold parseExtra ExtraFit
    cases p.testId with
    | none => exact ⟨(fun _ h => nomatch h), fun _ => returns_ok _⟩
    | some testId =>
      dsimp only
      rw [returns_bind_pure, returns_parseUrls]
      exact ⟨fun h _ => h, fun h => h rfl⟩
  | null =>
    refine ⟨fun _ => trivial, fun _ => ?_⟩
    unfold parseExtra
    exact returns_ok _
  | _ =>
    refine ⟨fun _ => trivial, fun _ => ?_⟩
    unfold parseExtra
    exact returns_ok _

theorem returns_parseNode {p : Platform} {proxies : List (PyStr × Json F)}
    {name : PyStr} : Returns (parseNode p proxies name) ↔ NodeFit p proxies name := by
  unfold parseNode NodeFit
  split
  · rename_i entry hEntry
    rw [returns_bind]
    constructor
    · rintro ⟨history, hHistory, hRest⟩ other hOther
      rw [hEntry] at hOther
      cases hOther
      rw [returns_bind_pure] at hRest
      exact ⟨returns_parseHistory.mp ⟨history, hHistory⟩, returns_parseExtra.mp hRest⟩
    · intro hFit
      rcases hFit entry hEntry with ⟨hHistory, hExtra⟩
      rcases returns_parseHistory.mpr hHistory with ⟨history, hParsed⟩
      refine ⟨history, hParsed, ?_⟩
      rw [returns_bind_pure]
      exact returns_parseExtra.mpr hExtra
  · rename_i hNone
    refine ⟨?_, fun _ => returns_ok _⟩
    intro _ entry hEntry
    exact (hNone entry hEntry).elim

theorem returns_parseNodes {p : Platform} {proxies : List (PyStr × Json F)} {names : List PyStr} :
    Returns (parseNodes p proxies names) ↔ ∀ name ∈ names, NodeFit p proxies name := by
  induction names with
  | nil => exact ⟨(fun _ _ h => nomatch h), fun _ => returns_ok _⟩
  | cons name rest ih =>
    rw [List.forall_mem_cons, ← ih, ← returns_parseNode, parseNodes, returns_bind]
    constructor
    · rintro ⟨node, hNode, hRest⟩
      rw [returns_bind_pure] at hRest
      exact ⟨⟨node, hNode⟩, hRest⟩
    · rintro ⟨⟨node, hNode⟩, hRest⟩
      refine ⟨node, hNode, ?_⟩
      rw [returns_bind_pure]
      exact hRest

theorem add_node (st : ChainStat) (start : Option ℤ) : (st.add start).node = st.node := by
  cases start <;> rfl

theorem nodes_map_add {stats : List ChainStat} {watched chains : List PyStr} (start : Option ℤ)
    (hNames : stats.map ChainStat.node = watched) : (stats.map (fun st =>
      if st.node ∈ chains then st.add start else st)).map
      ChainStat.node = watched := by
  rw [← hNames, List.map_map]
  apply List.map_congr_left
  intro st _
  rw [Function.comp_apply]
  split
  · exact add_node st start
  · rfl

theorem returns_connectionLoop
    {p : Platform} {watched : List PyStr} {stats : List ChainStat} {items : List (Json F)}
    (hNames : stats.map ChainStat.node = watched) :
    Returns (connectionLoop p stats items) ↔ ConnectionsFit p watched items := by
  induction items generalizing stats with
  | nil => exact ⟨(fun _ _ h => nomatch h), fun _ => returns_ok _⟩
  | cons item rest ih =>
    unfold ConnectionsFit
    rw [List.forall_mem_cons, connectionLoop]
    cases hChains : chainsOf item with
    | none =>
      dsimp only
      rw [returns_bind_pure, ih hNames]
      exact ⟨fun h => ⟨(fun _ _ hNone => nomatch hNone), h⟩, fun h => h.2⟩
    | some found =>
      rcases found with ⟨chains, start⟩
      dsimp only
      have hHit : (stats.any (fun st => decide (st.node ∈ chains)) =
            true) ↔ ∃ name ∈ watched, name ∈ chains := by
        rw [← hNames, List.any_eq_true]
        simp
      by_cases hAny : stats.any (fun st => decide (st.node ∈ chains)) = true
      · rw [if_pos hAny, returns_bind]
        constructor
        · rintro ⟨micros, hTime, hRest⟩
          rw [ih (nodes_map_add micros hNames)] at hRest
          refine ⟨?_, hRest⟩
          intro _ _ hSome _
          cases hSome
          exact returns_parseTs.mp ⟨micros, hTime⟩
        · rintro ⟨hStart, hRest⟩
          rcases returns_parseTs.mpr (hStart chains start rfl (hHit.mp hAny)) with ⟨micros, hTime⟩
          refine ⟨micros, hTime, ?_⟩
          rw [ih (nodes_map_add micros hNames)]
          exact hRest
      · rw [if_neg hAny, ih hNames]
        refine ⟨fun h => ⟨?_, h⟩, fun h => h.2⟩
        intro _ _ hSome hMem
        cases hSome
        exact (hAny (hHit.mpr hMem)).elim

theorem returns_parseConnections {p : Platform} {watched : List PyStr} {payload : Json F} :
    Returns (parseConnectionsSummary p watched payload) ↔
      ConnectionsFit p watched (connectionsOf payload) := by
  have hNone : ConnectionsFit (F := F) p watched [] := fun _ h => nomatch h
  unfold parseConnectionsSummary connectionsOf
  cases payload with
  | obj members =>
    dsimp only
    cases Json.getItem members (pyStr "connections") with
    | none => exact ⟨fun _ => hNone, fun _ => returns_ok _⟩
    | some value =>
      cases value with
      | arr items =>
        dsimp only
        rw [returns_bind_pure]
        apply returns_connectionLoop
        rw [List.map_map]
        exact List.map_id'' (fun _ => rfl) _
      | _ => exact ⟨fun _ => hNone, fun _ => returns_ok _⟩
  | _ => exact ⟨fun _ => hNone, fun _ => returns_ok _⟩

theorem returns_parseProxies {p : Platform} {groupNames nodes : List PyStr} {payload : Json F} :
    Returns (parseProxiesSummary p groupNames nodes payload) ↔
      ∀ proxies, proxiesOf payload = some proxies → ∀ name ∈ observedNames p groupNames nodes proxies,
          NodeFit p proxies name := by
  unfold parseProxiesSummary
  cases hProxies : proxiesOf payload with
  | none => exact ⟨(fun _ _ h => nomatch h), fun _ => returns_ok _⟩
  | some proxies =>
    dsimp only
    rw [returns_bind_pure, returns_parseNodes]
    constructor
    · rintro h _ ⟨⟩
      exact h
    · exact fun h => h proxies rfl

theorem watched_of_parse {p : Platform} {groupNames nodes : List PyStr} {payload : Json F}
    {summary : Option Summary}
    (h : parseProxiesSummary p groupNames nodes payload = .ok summary) :
    summary.elim [] Summary.watched = (proxiesOf payload).elim [] (observedNames p groupNames nodes) := by
  unfold parseProxiesSummary at h
  cases hProxies : proxiesOf payload with
  | none =>
    rw [hProxies] at h
    rw [← Except.ok.inj h]
    rfl
  | some proxies =>
    rw [hProxies] at h
    rcases except_bind_ok h with ⟨parsed, -, h⟩
    rw [← Except.ok.inj h]
    rfl

theorem payloadOf_of_ok {room : ℕ} {reply : Reply} {payload : Json F}
    (h : getPayload room reply = .ok (.ok payload)) :
    payloadOf F room reply = some payload := by
  unfold payloadOf
  rw [h]

theorem payloadOf_of_error {room : ℕ} {reply : Reply} {status : Status}
    (h : getPayload (F := F) room reply = .ok (.error status)) :
    payloadOf F room reply = none := by
  unfold payloadOf
  rw [h]

theorem returns_readProxies {c : DiagCollector} {reply : Reply} :
    Returns (readProxies F c reply) ↔ (c.groups ≠ [] → Shallow F c.platform.room reply) ∧
        ∀ proxies, cycleProxies F c reply = some proxies →
          ∀ name ∈ observedNames c.platform c.groups c.nodes proxies,
            NodeFit c.platform proxies name := by
  unfold readProxies cycleProxies
  by_cases hGroups : c.groups = []
  · rw [if_pos hGroups, if_pos hGroups]
    exact ⟨fun _ => ⟨fun h => (h hGroups).elim, (fun _ h => nomatch h)⟩, fun _ => returns_ok _⟩
  · rw [if_neg hGroups, if_neg hGroups, ← returns_getPayload, returns_bind]
    constructor
    · rintro ⟨payload, hPayload, hRest⟩
      refine ⟨fun _ => ⟨payload, hPayload⟩, ?_⟩
      cases payload with
      | error status =>
        rw [payloadOf_of_error hPayload]
        exact fun _ h => nomatch h
      | ok value =>
        rw [payloadOf_of_ok hPayload]
        dsimp only at hRest
        rw [returns_bind_pure] at hRest
        exact returns_parseProxies.mp hRest
    · rintro ⟨hShallow, hFit⟩
      rcases hShallow hGroups with ⟨payload, hPayload⟩
      refine ⟨payload, hPayload, ?_⟩
      cases payload with
      | error status => exact returns_ok _
      | ok value =>
        rw [payloadOf_of_ok hPayload] at hFit
        dsimp only
        rw [returns_bind_pure]
        exact returns_parseProxies.mpr hFit

theorem watched_of_readProxies
    {c : DiagCollector} {reply : Reply} {summary : Option Summary} {status : Status}
    (h : readProxies F c reply = .ok (summary, status)) :
    summary.elim [] Summary.watched = cycleWatched F c reply := by
  unfold readProxies at h
  unfold cycleWatched cycleProxies
  by_cases hGroups : c.groups = []
  · rw [if_pos hGroups] at h ⊢
    have hNone : none = summary := congrArg Prod.fst (Except.ok.inj h)
    rw [← hNone]
    rfl
  · rw [if_neg hGroups] at h ⊢
    rcases except_bind_ok h with ⟨payload, hPayload, h⟩
    cases payload with
    | error e =>
      have hNone : none = summary := congrArg Prod.fst (Except.ok.inj h)
      rw [payloadOf_of_error hPayload, ← hNone]
      rfl
    | ok value =>
      rcases except_bind_ok h with ⟨parsed, hParse, h⟩
      have hSame : parsed = summary := congrArg Prod.fst (Except.ok.inj h)
      rw [payloadOf_of_ok hPayload, ← hSame]
      exact watched_of_parse hParse

theorem returns_readConnections {c : DiagCollector} {watched : List PyStr} {reply : Reply} :
    Returns (readConnections F c watched reply) ↔ Shallow F c.platform.room reply ∧
        ∀ payload, payloadOf F c.platform.room reply = some payload →
            ConnectionsFit c.platform watched (connectionsOf payload) := by
  unfold readConnections
  rw [returns_bind, ← returns_getPayload]
  constructor
  · rintro ⟨payload, hPayload, hRest⟩
    refine ⟨⟨payload, hPayload⟩, ?_⟩
    cases payload with
    | error status =>
      rw [payloadOf_of_error hPayload]
      exact fun _ h => nomatch h
    | ok value =>
      rw [payloadOf_of_ok hPayload]
      rintro _ ⟨⟩
      dsimp only at hRest
      rw [returns_bind_pure] at hRest
      exact returns_parseConnections.mp hRest
  · rintro ⟨⟨payload, hPayload⟩, hFit⟩
    refine ⟨payload, hPayload, ?_⟩
    cases payload with
    | error status => exact returns_ok _
    | ok value =>
      dsimp only
      rw [returns_bind_pure]
      exact returns_parseConnections.mpr (hFit value (payloadOf_of_ok hPayload))

theorem versionOf_eq {room : ℕ} {reply : Reply} {payload : Except Status (Json F)}
    (h : getPayload room reply = .ok payload) :
    versionOf payload = (payloadOf F room reply).bind (fun v => versionOf (.ok v)) := by
  cases payload with
  | error status =>
    rw [payloadOf_of_error h]
    rfl
  | ok value =>
    rw [payloadOf_of_ok h]
    rfl

theorem returns_collectCycle (c : DiagCollector) (s : DiagState) (ts : ℤ)
    (replies : Replies) : Returns (collectCycle F c s ts replies) ↔ Quiet F c replies := by
  unfold collectCycle
  rw [returns_bind]
  constructor
  · rintro ⟨payload, hPayload, hRest⟩
    refine ⟨returns_getPayload.mp ⟨payload, hPayload⟩, ?_⟩
    rw [← versionOf_eq hPayload]
    intro hVersion
    rcases Option.isSome_iff_exists.mp hVersion with ⟨version, hSome⟩
    rw [hSome] at hRest
    dsimp only at hRest
    rcases returns_bind.mp hRest with ⟨⟨summary, status⟩, hProxies, hRest⟩
    dsimp only at hRest
    rw [returns_bind_pure, returns_readConnections, watched_of_readProxies hProxies] at hRest
    rcases returns_readProxies.mp ⟨_, hProxies⟩ with ⟨hShallow, hNodes⟩
    exact ⟨hShallow, hNodes, hRest⟩
  · rintro ⟨hVersion, hQuiet⟩
    rcases returns_getPayload.mpr hVersion with ⟨payload, hPayload⟩
    refine ⟨payload, hPayload, ?_⟩
    rw [← versionOf_eq hPayload] at hQuiet
    cases hSome : versionOf payload with
    | none => exact returns_ok _
    | some version =>
      rw [hSome] at hQuiet
      rcases hQuiet rfl with ⟨hShallow, hNodes, hConnections⟩
      rcases returns_readProxies.mpr ⟨hShallow, hNodes⟩ with ⟨⟨summary, status⟩, hProxies⟩
      dsimp only
      refine returns_bind.mpr ⟨(summary, status), hProxies, ?_⟩
      dsimp only
      rw [returns_bind_pure, returns_readConnections, watched_of_readProxies hProxies]
      exact hConnections

-- What a Cycle Returns

def Body.isEdge : Body → Bool
  | .selectionChanged _ _ _ => true
  | .aliveFlipped _ _ _ => true
  | _ => false

/- The code of a collector record. -/
def Body.code? : Body → Option Code
  | .collector code _ _ => some code
  | _ => none

/-
  The records of a cycle: one sample, then the edges, then a
  collector record for each code that is present, numbered on
  from the state.  The count of a code goes up by one when it is
  present; an absent code starts again after a cycle that had a
  version, and keeps its count after one that had none.
-/
structure CycleLaw (s s' : DiagState) (records : List Record) :
    Prop where
  shape : ∃ sample edges codes, records.map Record.body = .sample sample :: (edges ++ codes) ∧
        (∀ e ∈ edges, e.isEdge = true) ∧
        (∀ e ∈ codes, e.code?.isSome = true) ∧
        (codes.filterMap Body.code?).Nodup ∧
        ∀ code, some code ∉ codes.map Body.code? → s'.errCounts.get code =
            if sample.apiReachable then none
            else s.errCounts.get code
  numbers :
    records.map Record.seq = List.range' (s.seq + 1) records.length ∧ s'.seq = s.seq + records.length
  counted : ∀ code scope count, Body.collector code scope count ∈ records.map Record.body →
        scope = code.scope ∧ count = (s.errCounts.get code).getD 0 + 1 ∧ s'.errCounts.get code = some count

theorem map_body_stamp (run : PyStr) (ts : ℤ) (seq : ℕ)
    (bodies : List Body) : (stamp run ts seq bodies).map Record.body = bodies := by
  induction bodies generalizing seq with
  | nil => rfl
  | cons body rest ih => rw [stamp, List.map_cons, ih]

theorem map_seq_stamp (run : PyStr) (ts : ℤ) (seq : ℕ) (bodies : List Body) :
    (stamp run ts seq bodies).map Record.seq = List.range' (seq + 1) (stamp run ts seq bodies).length := by
  induction bodies generalizing seq with
  | nil => rfl
  | cons body rest ih => rw [stamp, List.map_cons, ih, List.length_cons, List.range'_succ]

theorem get_bumpCounts {codes : List Code} (hNodup : codes.Nodup) (counts : Dict Code ℕ) (code : Code) :
    (bumpCounts counts codes).get code =
      if code ∈ codes then some ((counts.get code).getD 0 + 1)
      else counts.get code := by
  induction codes generalizing counts with
  | nil => rfl
  | cons first rest ih =>
    rcases List.nodup_cons.mp hNodup with ⟨hFirst, hRest⟩
    rw [bumpCounts, ih hRest, Dict.get_set]
    by_cases hSame : first = code
    · rw [← hSame, if_neg hFirst, if_pos rfl, if_pos List.mem_cons_self]
    · rw [if_neg hSame]
      have hMem : code ∈ first :: rest ↔ code ∈ rest := by simp [Ne.symm hSame]
      rw [if_congr hMem rfl rfl]

theorem nodup_present (present : Code → Bool) : (Code.all.filter present).Nodup :=
  List.Nodup.filter _ (by decide)

theorem mem_present {present : Code → Bool}
    {code : Code} : code ∈ Code.all.filter present ↔ present code = true := by
  rw [List.mem_filter]
  refine ⟨fun h => h.2, fun h => ⟨?_, h⟩⟩
  cases code <;> decide

theorem get_foldCollector (counts : Dict Code ℕ) (present : Code → Bool) (full : Bool) (code : Code) :
    (foldCollector counts present full).2.get code =
      if present code then some ((counts.get code).getD 0 + 1)
      else if full then none
      else counts.get code := by
  have hBumped := get_bumpCounts (nodup_present present) counts code
  rw [if_congr mem_present rfl rfl] at hBumped
  unfold foldCollector
  dsimp only
  cases full with
  | false =>
    rw [if_neg Bool.false_ne_true, if_neg Bool.false_ne_true]
    exact hBumped
  | true =>
    rw [if_pos rfl, if_pos rfl, Dict.get_filter, hBumped]
    by_cases hPresent : present code = true
    · rw [if_pos hPresent, if_pos hPresent, if_pos hPresent]
    · rw [if_neg hPresent, if_neg hPresent]

theorem codes_foldCollector (counts : Dict Code ℕ) (present : Code → Bool) (full : Bool) :
    (foldCollector counts present full).1.map Body.code? = (Code.all.filter present).map some := by
  unfold foldCollector
  dsimp only
  rw [List.map_map]
  rfl

theorem filterMap_foldCollector (counts : Dict Code ℕ) (present : Code → Bool) (full : Bool) :
    (foldCollector counts present full).1.filterMap Body.code? = Code.all.filter present := by
  unfold foldCollector
  dsimp only
  rw [List.filterMap_map]
  exact List.filterMap_some

theorem edges_applyDiffs (s : DiagState)
    (summary : Option Summary) : ∀ e ∈ (applyDiffs s summary).1, e.isEdge = true := by
  cases summary with
  | none => exact fun _ h => nomatch h
  | some summary =>
    intro e he
    unfold applyDiffs at he
    dsimp only at he
    rw [diffGroups_eq, diffNodes_eq] at he
    rcases List.mem_append.mp he with hGroup | hNode
    · rcases List.mem_map.mp hGroup with ⟨_, -, rfl⟩
      rfl
    · rcases List.mem_map.mp hNode with ⟨_, -, rfl⟩
      rfl

/- A cycle made of a sample, edges and the ledger of its codes. -/
theorem cycleLaw_of {s s' : DiagState} {ts : ℤ} (sample : Sample) (edges : List Body) (present : Code → Bool)
    (hEdges : ∀ e ∈ edges, e.isEdge = true)
    (hSeq : s'.seq = s.seq + (stamp s.run ts s.seq (.sample sample :: edges ++
            (foldCollector s.errCounts present sample.apiReachable).1)).length)
    (hCounts : s'.errCounts = (foldCollector s.errCounts present sample.apiReachable).2) :
    CycleLaw s s' (stamp s.run ts s.seq (.sample sample :: edges ++
          (foldCollector s.errCounts present sample.apiReachable).1)) where
  shape := by
    refine ⟨sample, edges, _, map_body_stamp _ _ _ _, hEdges, ?_, ?_, ?_⟩
    · intro e he
      rcases List.mem_map.mp he with ⟨code, -, rfl⟩
      rfl
    · rw [filterMap_foldCollector]
      exact nodup_present present
    · intro code hAbsent
      rw [codes_foldCollector] at hAbsent
      have hNot : ¬ present code = true := by
        intro hPresent
        exact hAbsent (List.mem_map.mpr ⟨code, mem_present.mpr hPresent, rfl⟩)
      rw [hCounts, get_foldCollector, if_neg hNot]
  numbers := ⟨map_seq_stamp _ _ _ _, hSeq⟩
  counted := by
    intro code scope count hMem
    rw [map_body_stamp] at hMem
    rcases List.mem_cons.mp hMem with hSample | hMem
    · exact nomatch hSample
    · rcases List.mem_append.mp hMem with hEdge | hCode
      · exact nomatch hEdges _ hEdge
      · rcases List.mem_map.mp hCode with ⟨code', hCode', hBody⟩
        cases hBody
        refine ⟨rfl, rfl, ?_⟩
        rw [hCounts, get_foldCollector, if_pos (mem_present.mp hCode')]

theorem cycleLaw_of_ok {c : DiagCollector} {s s' : DiagState} {ts : ℤ} {replies : Replies}
    {records : List Record}
    (h : collectCycle F c s ts replies = .ok (s', records)) : CycleLaw s s' records := by
  rcases collectCycle_cases h with
    hEq | ⟨version, f, status, hEq, -⟩
  · cases hEq
    exact cycleLaw_of _ [] _ (fun _ h => nomatch h) rfl rfl
  · cases hEq
    exact cycleLaw_of (f.sample version) _ (f.present c) (edges_applyDiffs s f.summary) rfl rfl

-- Runs

/- The records of the cycles of a run, up to one that raises. -/
def collectRun (F : Type) [BoundedFloat F] (c : DiagCollector) (s : DiagState) :
    List (ℤ × Replies) → Except Escape (DiagState × List Record)
  | [] => .ok (s, [])
  | (ts, replies) :: rest => do
    let first ← collectCycle F c s ts replies
    let later ← collectRun F c first.1 rest
    .ok (later.1, first.2 ++ later.2)

theorem returns_collectRun (c : DiagCollector) (s : DiagState) (calls : List (ℤ × Replies)) :
    Returns (collectRun F c s calls) ↔ ∀ call ∈ calls, Quiet F c call.2 := by
  induction calls generalizing s with
  | nil => exact iff_of_true ⟨_, rfl⟩ (fun _ h => (List.not_mem_nil h).elim)
  | cons call rest ih =>
    rw [collectRun, returns_bind, List.forall_mem_cons, ← returns_collectCycle c s call.1]
    constructor
    · rintro ⟨first, hFirst, hRest⟩
      obtain ⟨later, hLater, -⟩ := returns_bind.mp hRest
      exact ⟨⟨first, hFirst⟩, (ih first.1).mp ⟨later, hLater⟩⟩
    · rintro ⟨⟨first, hFirst⟩, hRest⟩
      obtain ⟨later, hLater⟩ := (ih first.1).mpr hRest
      exact ⟨first, hFirst, returns_bind.mpr ⟨later, hLater, ⟨_, rfl⟩⟩⟩

/- The records of a run are numbered on from its start, without a gap. -/
theorem collectRun_seq {c : DiagCollector} {s : DiagState} {calls : List (ℤ × Replies)}
    {r : DiagState × List Record} (h : collectRun F c s calls = .ok r) :
    r.2.map Record.seq = List.range' (s.seq + 1) r.2.length ∧ r.1.seq = s.seq + r.2.length := by
  induction calls generalizing s r with
  | nil =>
    cases h
    exact ⟨rfl, rfl⟩
  | cons call rest ih =>
    obtain ⟨first, hFirst, h⟩ := except_bind_ok h
    obtain ⟨later, hLater, h⟩ := except_bind_ok h
    cases h
    obtain ⟨hNumbers, hSeq⟩ := (cycleLaw_of_ok hFirst).numbers
    obtain ⟨hLaterNumbers, hLaterSeq⟩ := ih hLater
    rw [hSeq] at hLaterNumbers hLaterSeq
    refine ⟨?_, by rw [hLaterSeq, List.length_append, Nat.add_assoc]⟩
    rw [List.map_append, hNumbers, hLaterNumbers, List.length_append, Nat.add_right_comm,
      List.range'_append_1]

-- Cycles Return

/-
  From any state a cycle returns its records, as the law says,
  exactly when no body that is read is too deep and every time
  that is read has a UTC.
-/
theorem cycle_total_iff (c : DiagCollector) (s : DiagState) (ts : ℤ) (replies : Replies) : (∃ s' records,
        collectCycle F c s ts replies = .ok (s', records) ∧ CycleLaw s s' records) ↔
      Quiet F c replies := by
  rw [← returns_collectCycle c s ts replies]
  constructor
  · rintro ⟨s', records, hOk, -⟩
    exact ⟨_, hOk⟩
  · rintro ⟨⟨s', records⟩, hOk⟩
    exact ⟨s', records, hOk, cycleLaw_of_ok hOk⟩

/- The text of a first year with an offset before UTC's. -/
def firstYear : PyStr := pyStr "0001-01-01T00:00:00+01:00"

/- A platform that reads that text, as `fromisoformat` does. -/
def firstYearPlatform : Platform :=
  { plainPlatform with
    fromIso := fun text =>
      if text = firstYear then some ⟨minMicros, some (3600 * 10 ^ 6)⟩
      else none }

/- The node `A` has a probe in the first year. -/
def firstYearReplies : Replies := ⟨textReply "\x7b\"version\":\"v1\"\x7d",
    textReply ("\x7b\"proxies\":\x7b\"G\":\x7b\"all\":[\"A\"]\x7d," ++
      "\"A\":\x7b\"alive\":true,\"history\":[\x7b\"time\":" ++
      "\"0001-01-01T00:00:00+01:00\",\"delay\":12\x7d]\x7d\x7d\x7d"),
    textReply "\x7b\"connections\":null\x7d"⟩

/- The time cannot be converted, and the cycle raises. -/
theorem firstYear_raises : ¬ ∃ s' records, collectCycle (IntGrid (2 ^ 53))
          ⟨firstYearPlatform, [pyStr "G"], []⟩
          (DiagState.start []) 0 firstYearReplies =
        .ok (s', records) ∧
        CycleLaw (DiagState.start []) s' records := by
  rintro ⟨s', records, hOk, -⟩
  have hError : (collectCycle (IntGrid (2 ^ 53)) ⟨firstYearPlatform, [pyStr "G"], []⟩
        (DiagState.start []) 0 firstYearReplies).toOption =
        none := by
    decide +kernel
  rw [hOk] at hError
  exact nomatch hError

end SingboxOps.Diag
