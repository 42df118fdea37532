import SingboxOps.Diag.Total
import Mathlib.Data.List.ReduceOption

/-
  The aggregates of the connections through a node, against
  all the starts of these connections.
-/

namespace SingboxOps.Diag

variable {F : Type} [BoundedFloat F]

-- The Reference

/- The instant a connection has started, where it is usable. -/
def startOf (p : Platform) (start : Json F) : Option ℤ := match parseTs p start with
  | .ok micros => micros
  | .error _ => none

/- The starts of the valid connections whose chains hold a name. -/
def startsThrough (p : Platform) (items : List (Json F)) (name : PyStr) : List (Option ℤ) :=
  (items.filterMap chainsOf).filterMap (fun c =>
    if name ∈ c.1 then some (startOf p c.2) else none)

/- The seconds of the first and the last of all the starts. -/
def ChainStat.ofStarts (name : PyStr) (starts : List (Option ℤ)) : ChainStat where
  node := name
  activeChainCount := starts.length
  oldestStart := starts.reduceOption.min?.map isoZ
  newestStart := starts.reduceOption.max?.map isoZ
  invalidStartCount := (starts.filter Option.isNone).length

def reference (p : Platform) (items : List (Json F)) (name : PyStr) : ChainStat :=
  ChainStat.ofStarts name (startsThrough p items name)

/- The elements that are no connections with a list of chains. -/
def malformedCount (items : List (Json F)) : ℕ := (items.filter (fun item => (chainsOf item).isNone)).length

/-
  The aggregates are the reference's, whatever the order in
  which the connections are listed.
-/
structure Exact (p : Platform) (watched : List PyStr) (members : List (PyStr × Json F))
    (items : List (Json F)) : Prop where
  value :
    parseConnectionsSummary p watched (.obj members) =
      .ok (some (watched.map (reference p items)), malformedCount items)
  order : ∀ members' items', Json.getItem members' (pyStr "connections") = some (.arr items') →
        items'.Perm items → parseConnectionsSummary p watched (.obj members') =
            parseConnectionsSummary p watched (.obj members)

-- Extremes

theorem min_concat (xs : List ℤ) (x : ℤ) : (xs ++ [x]).min? = some (xs.min?.elim x (fun m => min m x)) := by
  cases xs with
  | nil => rfl
  | cons first rest =>
    change some ((rest ++ [x]).foldl min first) = _
    rw [List.foldl_append]
    rfl

theorem max_concat (xs : List ℤ) (x : ℤ) : (xs ++ [x]).max? = some (xs.max?.elim x (fun m => max m x)) := by
  cases xs with
  | nil => rfl
  | cons first rest =>
    change some ((rest ++ [x]).foldl max first) = _
    rw [List.foldl_append]
    rfl

theorem min_of_perm {xs ys : List ℤ} (hPerm : xs.Perm ys) : xs.min? = ys.min? := by
  ext m
  rw [List.min?_eq_some_iff, List.min?_eq_some_iff, hPerm.mem_iff]
  simp only [hPerm.mem_iff]

theorem max_of_perm {xs ys : List ℤ} (hPerm : xs.Perm ys) : xs.max? = ys.max? := by
  ext m
  rw [List.max?_eq_some_iff, List.max?_eq_some_iff, hPerm.mem_iff]
  simp only [hPerm.mem_iff]

/-
  The stored second of the minimum, read again, decides as the
  minimum itself: a start between the two has its second.
-/
theorem isoZ_min (m micros : ℤ) :
    (if micros < isoZ m * 10 ^ 6 then isoZ micros else isoZ m) = isoZ (min m micros) := by
  unfold isoZ
  rcases le_total m micros with hLe | hLe
  · rw [min_eq_left hLe, if_neg (by omega)]
  · rw [min_eq_right hLe]
    split
    · rfl
    · omega

theorem isoZ_max (m micros : ℤ) :
    (if isoZ m * 10 ^ 6 < micros then isoZ micros else isoZ m) = isoZ (max m micros) := by
  unfold isoZ
  rcases le_total m micros with hLe | hLe
  · rw [max_eq_right hLe]
    split
    · rfl
    · omega
  · rw [max_eq_left hLe]
    split
    · omega
    · rfl

theorem oldest_concat (xs : List ℤ) (micros : ℤ) : (if (xs.min?.map isoZ).all
        (fun s => decide (micros < s * 10 ^ 6)) then
      some (isoZ micros)
    else xs.min?.map isoZ) = ((xs ++ [micros]).min?).map isoZ := by
  rw [min_concat]
  cases xs.min? with
  | none => rfl
  | some m =>
    change (if decide (micros < isoZ m * 10 ^ 6) = true then _
      else _) = some (isoZ (min m micros))
    rw [← isoZ_min]
    by_cases hEarlier : micros < isoZ m * 10 ^ 6
    · rw [if_pos (decide_eq_true hEarlier), if_pos hEarlier]
    · rw [if_neg (by rwa [decide_eq_true_eq]), if_neg hEarlier]
      rfl

theorem newest_concat (xs : List ℤ) (micros : ℤ) : (if (xs.max?.map isoZ).all
        (fun s => decide (s * 10 ^ 6 < micros)) then
      some (isoZ micros)
    else xs.max?.map isoZ) = ((xs ++ [micros]).max?).map isoZ := by
  rw [max_concat]
  cases xs.max? with
  | none => rfl
  | some m =>
    change (if decide (isoZ m * 10 ^ 6 < micros) = true then _
      else _) = some (isoZ (max m micros))
    rw [← isoZ_max]
    by_cases hLater : isoZ m * 10 ^ 6 < micros
    · rw [if_pos (decide_eq_true hLater), if_pos hLater]
    · rw [if_neg (by rwa [decide_eq_true_eq]), if_neg hLater]
      rfl

theorem ofStarts_add (name : PyStr) (starts : List (Option ℤ)) (start : Option ℤ) :
    (ChainStat.ofStarts name starts).add start = ChainStat.ofStarts name (starts ++ [start]) := by
  unfold ChainStat.ofStarts ChainStat.add
  cases start with
  | none => simp [List.reduceOption_append]
  | some micros =>
    rw [List.reduceOption_append]
    dsimp only
    rw [oldest_concat, newest_concat]
    simp

theorem ofStarts_of_perm {name : PyStr} {starts later : List (Option ℤ)} (hPerm : starts.Perm later) :
    ChainStat.ofStarts name starts = ChainStat.ofStarts name later := by
  have hTimes : starts.reduceOption.Perm later.reduceOption := hPerm.filterMap id
  unfold ChainStat.ofStarts
  rw [hPerm.length_eq, min_of_perm hTimes, max_of_perm hTimes, (hPerm.filter Option.isNone).length_eq]

-- The Loop

theorem startsThrough_cons (p : Platform) (item : Json F) (rest : List (Json F)) (name : PyStr) :
    startsThrough p (item :: rest) name = (match chainsOf item with
        | some (chains, start) => if name ∈ chains then [startOf p start] else []
        | none => []) ++ startsThrough p rest name := by
  unfold startsThrough
  rw [List.filterMap_cons]
  cases chainsOf item with
  | none => rfl
  | some found =>
    rcases found with ⟨chains, start⟩
    dsimp only
    rw [List.filterMap_cons]
    dsimp only
    split <;> split <;> simp_all

/- Every aggregate is that of the starts seen so far. -/
theorem connectionLoop_eq {p : Platform} {watched : List PyStr} {items : List (Json F)}
    (hFit : ConnectionsFit p watched items)
    (before : PyStr → List (Option ℤ)) : connectionLoop p (watched.map
          (fun name => ChainStat.ofStarts name (before name)))
        items =
      .ok (watched.map (fun name => ChainStat.ofStarts name (before name ++ startsThrough p items name)),
        malformedCount items) := by
  induction items generalizing before with
  | nil =>
    have hNone : ∀ name, startsThrough p ([] : List (Json F)) name = [] := fun _ => rfl
    simp only [hNone, List.append_nil]
    rfl
  | cons item rest ih =>
    have hRest : ConnectionsFit p watched rest := fun other hIn => hFit other (List.mem_cons_of_mem item hIn)
    rw [connectionLoop]
    simp only [startsThrough_cons]
    cases hChains : chainsOf item with
    | none =>
      have hCount : malformedCount (item :: rest) = malformedCount rest + 1 := by
        unfold malformedCount
        rw [List.filter_cons_of_pos (by rw [hChains]; rfl),
          List.length_cons]
      dsimp only
      rw [ih hRest before, hCount]
      rfl
    | some found =>
      rcases found with ⟨chains, start⟩
      have hCount : malformedCount (item :: rest) =
          malformedCount rest := by
        unfold malformedCount
        rw [List.filter_cons_of_neg (by simp [hChains])]
      dsimp only
      rw [hCount]
      by_cases hHit : ∃ name ∈ watched, name ∈ chains
      · obtain ⟨micros, hStart⟩ := returns_parseTs.mpr
          (hFit item List.mem_cons_self chains start hChains hHit)
        have hOf : startOf p start = micros := by rw [startOf, hStart]
        have hAny : (watched.map (fun name =>
            ChainStat.ofStarts name (before name))).any
            (fun st => decide (st.node ∈ chains)) = true := by
          obtain ⟨name, hIn, hName⟩ := hHit
          exact List.any_eq_true.mpr ⟨_, List.mem_map_of_mem hIn, decide_eq_true hName⟩
        rw [if_pos hAny, hStart]
        change connectionLoop p _ rest = _
        have hStep := ih hRest (fun name =>
          before name ++ if name ∈ chains then [micros] else [])
        simp only [List.append_assoc] at hStep
        rw [hOf, ← hStep, List.map_map]
        congr 1
        refine List.map_congr_left (fun name _ => ?_)
        rw [Function.comp_apply]
        change (if name ∈ chains then _ else _) = _
        split
        · exact ofStarts_add name _ micros
        · rw [List.append_nil]
      · have hAny : ¬ (watched.map (fun name =>
            ChainStat.ofStarts name (before name))).any
            (fun st => decide (st.node ∈ chains)) = true := by
          rw [List.any_eq_true]
          rintro ⟨st, hIn, hName⟩
          obtain ⟨name, hWatched, rfl⟩ := List.mem_map.mp hIn
          exact hHit ⟨name, hWatched, of_decide_eq_true hName⟩
        rw [if_neg hAny, ih hRest before]
        congr 2
        refine List.map_congr_left (fun name hIn => ?_)
        rw [if_neg (fun hName => hHit ⟨name, hIn, hName⟩), List.nil_append]

theorem parseConnections_eq {p : Platform} {watched : List PyStr}
    {members : List (PyStr × Json F)} {items : List (Json F)}
    (hItems : Json.getItem members (pyStr "connections") = some (.arr items))
    (hFit : ConnectionsFit p watched items) :
    parseConnectionsSummary p watched (.obj members) =
      .ok (some (watched.map (reference p items)), malformedCount items) := by
  unfold parseConnectionsSummary
  dsimp only
  rw [hItems]
  dsimp only
  have hLoop := connectionLoop_eq hFit (fun _ => [])
  change (connectionLoop p (watched.map (fun name => ChainStat.ofStarts name [])) items >>= _) = _
  rw [hLoop]
  rfl

theorem reference_of_perm {p : Platform} {items later : List (Json F)}
    (hPerm : items.Perm later) : reference p items = reference p later := by
  funext name
  exact ofStarts_of_perm ((hPerm.filterMap chainsOf).filterMap _)

/-
  The aggregates are the reference's exactly where each start
  that is read can be converted.
-/
theorem aggregates_exact_iff {p : Platform} {watched : List PyStr}
    {members : List (PyStr × Json F)} {items : List (Json F)}
    (hItems : Json.getItem members (pyStr "connections") = some (.arr items)) :
    Exact p watched members items ↔ ConnectionsFit p watched items := by
  constructor
  · intro h
    have hReturns := returns_parseConnections.mp ⟨_, h.value⟩
    unfold connectionsOf at hReturns
    dsimp only at hReturns
    rwa [hItems] at hReturns
  · intro hFit
    refine ⟨parseConnections_eq hItems hFit, ?_⟩
    intro members' items' hItems' hPerm
    have hFit' : ConnectionsFit p watched items' := fun item hIn => hFit item (hPerm.mem_iff.mp hIn)
    rw [parseConnections_eq hItems hFit, parseConnections_eq hItems' hFit', reference_of_perm hPerm]
    unfold malformedCount
    rw [(hPerm.filter _).length_eq]

/- A payload with one connection through the node `A`. -/
def onePayload (start : Json (IntGrid (2 ^ 53))) : List (PyStr × Json (IntGrid (2 ^ 53))) :=
  [(pyStr "connections", .arr [.obj [(pyStr "chains", .arr [.str (pyStr "A")]), (pyStr "start", start)]])]

/- Two connections through a node, one past it, one that is no object. -/
def mixedItems : List (Json (IntGrid (2 ^ 53))) :=
  [.obj [(pyStr "chains", .arr [.str (pyStr "A")]), (pyStr "start", .int (-1))],
    .obj [(pyStr "chains", .arr [.str (pyStr "B")]), (pyStr "start", .str firstYear)],
    .null, .obj [(pyStr "chains", .arr [.str (pyStr "A")]), (pyStr "start", .null)]]

theorem aggregates_exact_of_seconds :
    Exact firstYearPlatform [pyStr "A"] [(pyStr "connections", .arr mixedItems)] mixedItems := by
  refine (aggregates_exact_iff rfl).mpr ?_
  unfold mixedItems
  intro item hIn chains start hChains hWatched
  simp only [List.mem_cons, List.not_mem_nil, or_false] at hIn
  rcases hIn with rfl | rfl | rfl | rfl
  · cases hChains
    exact True.intro
  · cases hChains
    exact absurd hWatched (by decide)
  · cases hChains
  · cases hChains
    exact True.intro

/- A start in the first year raises. -/
theorem firstYear_start_raises : ¬ Exact firstYearPlatform [pyStr "A"] (onePayload (.str firstYear))
      [.obj [(pyStr "chains", .arr [.str (pyStr "A")]), (pyStr "start", .str firstYear)]] := by
  intro h
  have hValue := h.value
  have hRaised : parseConnectionsSummary firstYearPlatform [pyStr "A"] (.obj (onePayload (.str firstYear))) =
      .error .overflow := by
    decide
  rw [hRaised] at hValue
  cases hValue

end SingboxOps.Diag
