import SingboxOps.QualityFailover.Telemetry
import SingboxOps.Lib.Trace

/-
  The connections of the own probes are invisible to the
  passive watch, over every run of it.
-/

namespace SingboxOps.QualityFailover.Telemetry

open Json (getItem)

variable {F : Type}

/- The second list has more connections, of own probes. -/
inductive Probed : List (Json F) → List (Json F) → Prop where
  | nil : Probed [] []
  | cons {xs ys : List (Json F)} (item : Json F) :
      Probed xs ys → Probed (item :: xs) (item :: ys)
  | probe {xs ys : List (Json F)} {item : Proxies F} {id : PyStr} {chains : List (Json F)} :
      probing item = true →
      getItem item (pyStr "id") = some (.str id) →
      id.length ≤ 128 →
      getItem item (pyStr "chains") = some (.arr chains) →
      Probed xs ys → Probed xs (.obj item :: ys)

variable {xs ys : List (Json F)} {payload payload' : Json F}

theorem Probed.length_le (h : Probed xs ys) : xs.length ≤ ys.length := by
  induction h with
  | nil => exact le_refl _
  | cons _ _ ih => exact Nat.succ_le_succ ih
  | probe _ _ _ _ _ ih => exact Nat.le_succ_of_le ih

theorem sample_probed (h : Probed xs ys) (s : Sample) : sample ys s = sample xs s := by
  induction h generalizing s with
  | nil => rfl
  | cons item _ ih =>
    cases item with
    | obj members => simp only [sample, ih]
    | _ => rfl
  | probe hProbing hId hShort hChains _ ih =>
    rw [sample, hId, hChains]
    simp only [if_neg (not_lt.mpr hShort), hProbing, if_true]
    exact ih s

/- The same answer of the controller, with own probes in it. -/
def Besides (payload payload' : Json F) : Prop :=
  payload' = payload ∨ ∃ members members' xs ys, payload = .obj members ∧
    payload' = .obj members' ∧ getItem members (pyStr "connections") = some (.arr xs) ∧
    getItem members' (pyStr "connections") = some (.arr ys) ∧ ys.length ≤ 4096 ∧ Probed xs ys

theorem suspicion_besides (h : Besides payload payload') (threshold : ℕ)
    (lanes : List (Lane ℚ)) (p : Passive) (now : ℚ) :
    p.suspicion threshold lanes payload' now = p.suspicion threshold lanes payload now := by
  obtain rfl | ⟨members, members', xs, ys, rfl, rfl, hxs, hys, hFew, hProbed⟩ := h
  · rfl
  · have hLess := hProbed.length_le
    simp only [Passive.suspicion, hxs, hys, sample_probed hProbed,
      if_neg (not_lt.mpr hFew), if_neg (not_lt.mpr (hLess.trans hFew))]

/- What one look at the connections is given. -/
structure Look (F : Type) where
  lanes : List (Lane ℚ)
  payload : Json F
  now : ℚ

def look (threshold : ℕ) (p : Passive) (i : Look F) : List PyStr × Passive :=
  p.suspicion threshold i.lanes i.payload i.now

/-
  Two runs whose answers differ in connections of own probes
  suspect the same nodes at every look and remember the same:
  no probing ever makes the watch suspect a node, or stop.
-/
theorem own_probes_unseen (threshold : ℕ) {looks looks' : List (Look F)}
    (h : List.Forall₂ (fun i i' => i'.lanes = i.lanes ∧ i'.now = i.now ∧
      Besides i.payload i'.payload) looks looks') (p : Passive) :
    (history (look threshold) p looks').map Prod.snd = (history (look threshold) p looks).map Prod.snd ∧
      finalState (look threshold) p looks' = finalState (look threshold) p looks := by
  induction h generalizing p with
  | nil => exact ⟨rfl, rfl⟩
  | @cons i i' rest rest' hFirst _ ih =>
    obtain ⟨hLanes, hNow, hBesides⟩ := hFirst
    have hLook : look threshold p i' = look threshold p i := by
      rw [look, look, hLanes, hNow, suspicion_besides hBesides]
    rw [history, history, List.map_cons, List.map_cons, hLook, (ih _).1]
    exact ⟨rfl, by rw [finalState, finalState, hLook, (ih _).2]⟩

/- Probes before and after the connection of a client, in two looks. -/
theorem own_probes_unseen_once :
    let probe : Json (Grid 1) := .obj [(pyStr "id", .str []), (pyStr "chains", .arr []),
      (pyStr "metadata", .obj [(pyStr "inboundName", .str (pyStr "quality-probe-a"))])]
    let client : Json (Grid 1) := .obj [(pyStr "id", .str (pyStr "c")), (pyStr "chains", .arr []),
      (pyStr "metadata", .obj [(pyStr "inboundName", .str (pyStr "mixed"))])]
    let answer := fun items : List (Json (Grid 1)) => Json.obj [(pyStr "connections", .arr items)]
    finalState (look 1) {} [⟨[], answer [client, probe], 0⟩, ⟨[], answer [probe, client], 5⟩] =
      finalState (look 1) {} [⟨[], answer [client], 0⟩, ⟨[], answer [client], 5⟩] := by
  intro probe client answer
  have hAfter : Besides (answer [client]) (answer [client, probe]) :=
    Or.inr ⟨_, _, [client], [client, probe], rfl, rfl, rfl, rfl, by decide,
      .cons client (.probe (by decide) rfl (by decide) rfl .nil)⟩
  have hBefore : Besides (answer [client]) (answer [probe, client]) :=
    Or.inr ⟨_, _, [client], [probe, client], rfl, rfl, rfl, rfl, by decide,
      .probe (by decide) rfl (by decide) rfl (.cons client .nil)⟩
  exact (own_probes_unseen 1
    (by exact .cons ⟨rfl, rfl, hAfter⟩ (.cons ⟨rfl, rfl, hBefore⟩ .nil)) {}).2

end SingboxOps.QualityFailover.Telemetry
