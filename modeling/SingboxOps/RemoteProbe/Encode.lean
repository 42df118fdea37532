import SingboxOps.Lib.Except
import SingboxOps.Lib.Json.Dict
import SingboxOps.RemoteProbe.Payload

/-
  Encoding a sample, and what the values of a closed schema
  read back as.
-/

namespace SingboxOps.RemoteProbe

open Json (canonical depth rereadStr)

variable {F : Type} [FloatText F]

-- Encoding

/-
  True iff the bytes already are the canonical encoding of
  their own value.
-/
def canonicalRoundtripOk (room : ℕ) (raw : Bytes) : Except PyError Bool :=
  match (loadsBytes room raw : Except PyError (Json F)) with
  | .error .value => .ok false
  | .error e => .error e
  | .ok v =>
    match canonicalBytes v with
    | .error .value => .ok false
    | .error .type => .ok false
    | .error e => .error e
    | .ok again => .ok (decide (again = raw))

/- Validate, encode and size-check one sample. -/
def encodeSample (room : ℕ) (sample : Json F) : Except PyError Bytes := do
  let problems ← validateSample sample
  if problems ≠ [] then .error .value
  else
    let raw ← canonicalBytes sample
    if maxBodyBytes < raw.length then .error .value
    else
      let stable ← canonicalRoundtripOk (F := F) room raw
      if stable then .ok raw else .error .value

-- Plain Values

/- A scalar that reads back as it is. -/
def Plain (v : Json F) : Prop := canonical v = v ∧ depth v = 0

/- Text without surrogates. -/
def PlainText (s : String) : Prop := ∀ c ∈ pyStr s, c < 55296

instance (s : String) : Decidable (PlainText s) := by
  unfold PlainText
  infer_instance

theorem plain_str {s : PyStr} (h : ∀ c ∈ s, c < 55296) : Plain (.str s : Json F) := by
  refine ⟨?_, rfl⟩
  change Json.str (rereadStr s) = .str s
  rw [Json.rereadStr_of_lt h]

theorem plain_of_isOneOf {v : Json F} {tokens : List String} (hTokens : ∀ t ∈ tokens, PlainText t)
    (h : isOneOf v tokens = true) : Plain v := by
  rcases List.any_eq_true.mp h with ⟨token, hToken, hText⟩
  cases v with
  | str s =>
    have hEq : s = pyStr token := by simpa [isText] using hText
    rw [hEq]
    exact plain_str (hTokens token hToken)
  | _ => cases hText

theorem plain_of_isNullOrAtLeast {v : Json F} {low : ℤ} (h : isNullOrAtLeast low v = true) : Plain v := by
  cases v with
  | null => exact ⟨rfl, rfl⟩
  | int n => exact ⟨rfl, rfl⟩
  | _ => cases h

theorem plain_of_isBool {v : Json F} (h : isBool v = true) : Plain v := by
  cases v with
  | bool b => exact ⟨rfl, rfl⟩
  | _ => cases h

theorem plain_of_equalsInt {v : Json F} {n : ℤ} (h : equalsInt v n = true) : Plain v := by
  cases v with
  | bool b => exact ⟨rfl, rfl⟩
  | int m => exact ⟨rfl, rfl⟩
  | float x => exact ⟨rfl, rfl⟩
  | _ => cases h

theorem plain_of_validSampleEpoch {v : Json F} (h : validSampleEpoch v = .ok true) : Plain v := by
  cases v with
  | int n => exact ⟨rfl, rfl⟩
  | float x => exact ⟨rfl, rfl⟩
  | _ => cases h

theorem plain_of_validSeq {v : Json F} (h : validSeq v = true) : Plain v := by
  cases v with
  | int n => exact ⟨rfl, rfl⟩
  | _ => cases h

theorem plain_of_validProbeId {v : Json F} (h : validProbeId v = true) : Plain v := by
  cases v with
  | str s =>
    apply plain_str
    intro c hc
    have hLt := mem_probeIdGrammar h c hc
    omega
  | _ => cases h

theorem plain_of_validRun {v : Json F} (h : validRun v = true) : Plain v := by
  cases v with
  | str s =>
    apply plain_str
    intro c hc
    have hLt := mem_runGrammar h c hc
    omega
  | _ => cases h

-- Objects of a Closed Schema

variable {V : Type}

theorem keysAre_iff {members : List (PyStr × V)} {ks : List String} :
    keysAre members ks = true ↔ (∀ key ∈ Json.keys members, ∃ k ∈ ks, key = pyStr k) ∧
        ∀ k ∈ ks, pyStr k ∈ Json.keys members := by
  simp only [keysAre, Json.keys, Bool.and_eq_true, List.all_eq_true,
    List.any_eq_true, beq_iff_eq, List.mem_map]
  constructor
  · rintro ⟨hClosed, hFull⟩
    refine ⟨?_, hFull⟩
    rintro key ⟨m, hm, rfl⟩
    exact hClosed m hm
  · rintro ⟨hClosed, hFull⟩
    exact ⟨fun m hm => hClosed m.1 ⟨m, hm, rfl⟩, hFull⟩

theorem item_of_keysAre {members : List (PyStr × V)} {ks : List String}
    (h : keysAre members ks = true) {k : String}
    (hk : k ∈ ks) : ∃ v, item members k = .ok v := by
  have hMem := (keysAre_iff.mp h).2 k hk
  have hFound : ∃ v, Json.getItem members (pyStr k) = some v := by
    clear h hk
    induction members with
    | nil => cases hMem
    | cons m rest ih =>
      rw [Json.getItem]
      split
      · exact ⟨_, rfl⟩
      · rename_i hNe
        rcases List.mem_cons.mp hMem with hHead | hTail
        · exact absurd hHead.symm hNe
        · exact ih hTail
  rcases hFound with ⟨v, hv⟩
  exact ⟨v, by rw [item, hv]⟩

theorem getItem_of_item {members : List (PyStr × V)} {k : String} {v : V}
    (h : item members k = .ok v) : Json.getItem members (pyStr k) = some v := by
  unfold item at h
  cases hGet : Json.getItem members (pyStr k) with
  | none => rw [hGet] at h; cases h
  | some w => rw [hGet] at h; cases h; rfl

/-
  What an object of a schema reads back as: the same keys,
  each with its canonical value.
-/
theorem canonical_members {members : List (PyStr × Json F)} {ks : List String}
    (hPlain : ∀ k ∈ ks, PlainText k) (hKeys : keysAre members ks = true)
    (hDistinct : (Json.keys members).Nodup) : ∃ read,
      canonical (.obj members) = .obj read ∧ keysAre read ks = true ∧
        ∀ k v, item members k = .ok v → item read k = .ok (canonical v) := by
  have hNames := keysAre_iff.mp hKeys
  have hText : ∀ key ∈ Json.keys members, rereadStr key = key := by
    intro key hKey
    rcases hNames.1 key hKey with ⟨k, hk, rfl⟩
    exact Json.rereadStr_of_lt (hPlain k hk)
  rcases Json.canonical_obj hDistinct hText with ⟨read, hRead, hPerm, hItems⟩
  refine ⟨read, hRead, ?_, ?_⟩
  · rw [keysAre_iff]
    constructor
    · intro key hKey
      exact hNames.1 key (hPerm.mem_iff.mp hKey)
    · intro k hk
      exact hPerm.mem_iff.mpr (hNames.2 k hk)
  · intro k v hItem
    rw [item, hItems, getItem_of_item hItem]
    rfl

theorem depth_obj_le {members : List (PyStr × Json F)} {ks : List String} {bound : ℕ}
    (hKeys : keysAre members ks = true) (hDistinct : (Json.keys members).Nodup)
    (hValues : ∀ k ∈ ks, ∀ v, item members k = .ok v → depth v ≤ bound) :
    depth (.obj members) ≤ bound + 1 := by
  have hMembers : Json.depthMembers members ≤ bound := by
    apply Json.depthMembers_le
    rintro ⟨key, v⟩ hm
    have hName := (keysAre_iff.mp hKeys).1 key (List.mem_map.mpr ⟨_, hm, rfl⟩)
    rcases hName with ⟨k, hk, rfl⟩
    apply hValues k hk v
    rw [item, (Json.getItem_eq_some_iff hDistinct).mpr hm]
  rw [Json.depth]
  omega

/-
  An object of a schema whose values are all plain scalars.
-/
structure PlainObject (ks : List String) (members : List (PyStr × Json F)) : Prop where
  keys : keysAre members ks = true
  values : ∀ k ∈ ks, ∃ v, item members k = .ok v ∧ Plain v

/- Two objects of a schema with the same values. -/
structure SameFields (ks : List String) (members read : List (PyStr × V)) : Prop where
  left : keysAre members ks = true
  right : keysAre read ks = true
  values : ∀ k ∈ ks, item read k = item members k

theorem PlainObject.canonical {ks : List String} {members : List (PyStr × Json F)}
    (h : PlainObject ks members) (hPlain : ∀ k ∈ ks, PlainText k)
    (hDistinct : (Json.keys members).Nodup) : ∃ read,
      Json.canonical (.obj members) = .obj read ∧ SameFields ks members read := by
  rcases canonical_members hPlain h.keys hDistinct with ⟨read, hRead, hKeys, hItems⟩
  refine ⟨read, hRead, h.keys, hKeys, ?_⟩
  intro k hk
  rcases h.values k hk with ⟨v, hItem, hValue⟩
  rw [hItems k v hItem, hItem, hValue.1]

theorem PlainObject.depth_le {ks : List String} {members : List (PyStr × Json F)} (h : PlainObject ks members)
    (hDistinct : (Json.keys members).Nodup) : depth (.obj members) ≤ 1 := by
  apply depth_obj_le h.keys hDistinct
  intro k hk v hItem
  rcases h.values k hk with ⟨w, hw, hPlain⟩
  rw [hw] at hItem
  cases hItem
  exact hPlain.2.le

end SingboxOps.RemoteProbe
