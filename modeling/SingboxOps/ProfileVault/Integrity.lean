import SingboxOps.Lib.BoundedFloat
import SingboxOps.Lib.Except
import SingboxOps.Lib.Trace
import SingboxOps.ProfileVault.Operations
import SingboxOps.RemoteProbe.StateFile

/-
  The integrity of the vault, over every run and every crash.

  A profile becomes visible complete, by one rename, and is
  complete in every state after it; only its own removal can
  take a required object from it.
-/

namespace SingboxOps.ProfileVault

open RemoteProbe (hexdigest)

variable {F : Type} [FloatText F]

-- What a Complete Profile Rests On

theorem readFile_congr {d d' : Dir} {name : String} (h : d'.get (pyStr name) = d.get (pyStr name))
    (limit : ℕ) : readFile d' name limit = readFile d name limit := by
  unfold readFile
  rw [h]

theorem readCertificate_congr {d d' : Dir} (h : d'.get (pyStr "server.pem") = d.get (pyStr "server.pem")) :
    readCertificate d' = readCertificate d := by
  unfold readCertificate
  rw [readFile_congr h]

theorem readSecret_congr {d d' : Dir} (h : d'.get (pyStr "ingest.key") = d.get (pyStr "ingest.key")) :
    readSecret d' = readSecret d := by
  unfold readSecret
  rw [readFile_congr h]

theorem enabled_congr (c : Checks F) {d d' : Dir}
    (h : d'.get (pyStr "control.json") = d.get (pyStr "control.json")) :
    enabled c d' = enabled c d := by
  unfold enabled
  rw [readFile_congr h]

theorem load_congr (c : Checks F) (key : PyStr) {d d' : Dir}
    (h : d'.get (pyStr "profile.json") = d.get (pyStr "profile.json"))
    (hCert : d'.get (pyStr "server.pem") = d.get (pyStr "server.pem")) :
    load c key d' = load c key d := by
  unfold load
  rw [readFile_congr h, readCertificate_congr hCert]

theorem Complete.switched {c : Checks F} {key : PyStr} {d d' : Dir} (h : Complete c key d)
    (hOthers : ∀ name ∈ required, name ≠ pyStr "control.json" → d'.get name = d.get name)
    (hControl : ∃ b, enabled c d' = .ok b) : Complete c key d' := by
  have hCert := hOthers (pyStr "server.pem") (by simp [required]) (by decide)
  refine ⟨?_, hControl, ?_, ?_, ?_⟩
  · rw [load_congr c key (hOthers _ (by simp [required]) (by decide)) hCert]
    exact h.loads
  · rw [readSecret_congr (hOthers _ (by simp [required]) (by decide))]
    exact h.secret
  · rw [readCertificate_congr hCert]
    exact h.certificate
  · rw [hOthers _ (by simp [required]) (by decide)]
    exact h.spool

theorem Complete.congr {c : Checks F} {key : PyStr} {d d' : Dir} (h : Complete c key d)
    (hSame : ∀ name ∈ required, d'.get name = d.get name) : Complete c key d' := by
  refine h.switched (fun name hName _ => hSame name hName) ?_
  rw [enabled_congr c (hSame _ (by simp [required]))]
  exact h.control

-- Texts

theorem length_hexdigest (digest : Bytes) : (hexdigest digest).length = 2 * digest.length := by
  induction digest with
  | nil => rfl
  | cons b rest ih =>
    rw [hexdigest, List.flatMap_cons, List.length_append]
    change 2 + (hexdigest rest).length = _
    rw [ih, List.length_cons]
    omega

theorem mem_hexdigest {digest : Bytes} {ch : ℕ}
    (h : ch ∈ hexdigest digest) : (48 ≤ ch ∧ ch ≤ 57) ∨ (97 ≤ ch ∧ ch ≤ 102) := by
  rcases List.mem_flatMap.mp h with ⟨b, -, hDigit⟩
  have hByte : b.toNat < 256 := b.toNat_lt
  have hCases : ch = Json.hexDigit (b.toNat / 16) ∨ ch = Json.hexDigit (b.toNat % 16) := by
    simpa using hDigit
  unfold Json.hexDigit at hCases
  rcases hCases with rfl | rfl
  · split <;> omega
  · split <;> omega

theorem isKey_hexdigest {digest : Bytes} (h : digest.length = 32) : isKey (hexdigest digest) = true := by
  unfold isKey
  rw [Bool.and_eq_true, beq_iff_eq, length_hexdigest, h, List.all_eq_true]
  refine ⟨?_, rfl⟩
  intro ch hCh
  have hRange := mem_hexdigest hCh
  simp only [Bool.or_eq_true, Bool.and_eq_true, decide_eq_true_eq]
  exact hRange

theorem isKey_of_validate {c : Checks F} {manifest : Json F} {certificate key : PyStr}
    (h : c.validate manifest certificate = .ok key) :
    isKey key = true ∧ (∃ raw, canonical manifest = .ok raw ∧ raw.length ≤ manifestLimit) ∧
      certificate.length ≤ certLimit := by
  unfold Checks.validate at h
  split at h
  · split at h
    · rename_i members _
      rcases except_bind_ok h with ⟨identity, hId, hRest⟩
      rcases except_bind_ok hRest with ⟨raw, hRaw, hLast⟩
      split at hLast
      · cases hLast
      · rename_i hLimit
        split at hLast
        · split at hLast
          · cases hLast
          · split at hLast
            · rename_i hCert
              cases hLast
              refine ⟨?_, ⟨raw, hRaw, Nat.le_of_not_lt hLimit⟩, hCert⟩
              unfold profileId at hId
              split at hId
              · split at hId
                · cases hId
                  exact isKey_hexdigest (c.sha256_length _)
                · cases hId
              · cases hId
            · cases hLast
        · cases hLast
    · cases h
  · cases h

theorem strip_of_ends {data : Bytes} (h : ∀ b ∈ data, isSpace b = false) : strip (data ++ [10]) = data := by
  have hLine : isSpace 10 = true := rfl
  unfold strip
  cases data with
  | nil => rfl
  | cons b rest =>
    have hFirst : isSpace b = false := h b List.mem_cons_self
    have hDrop : ((b :: rest) ++ [10]).dropWhile isSpace = (b :: rest) ++ [10] := by
      rw [List.cons_append, List.dropWhile_cons_of_neg]
      rw [hFirst]
      exact Bool.false_ne_true
    rw [hDrop, List.reverse_append, List.reverse_singleton,
      List.singleton_append, List.dropWhile_cons_of_pos hLine]
    have hBack : (b :: rest).reverse.dropWhile isSpace = (b :: rest).reverse := by
      cases hRev : (b :: rest).reverse with
      | nil => rfl
      | cons x xs =>
        have hMem : x ∈ b :: rest := by
          rw [← List.mem_reverse, hRev]
          exact List.mem_cons_self
        rw [List.dropWhile_cons_of_neg]
        rw [h x hMem]
        exact Bool.false_ne_true
    rw [hBack, List.reverse_reverse]

theorem map_toNat_asciiEncode {s : PyStr} (h : ∀ c ∈ s, c < 128) : (asciiEncode s).map UInt8.toNat = s := by
  unfold asciiEncode
  rw [List.map_map]
  conv_rhs => rw [← List.map_id s]
  refine List.map_congr_left ?_
  intro c hC
  exact toNat_ofNat_ascii (h c hC)

theorem readSecret_of_written {d : Dir} {secret : Bytes} (hLength : secret.length = 32)
    (h : d.get (pyStr "ingest.key") = some (.file (secretBytes secret))) :
    ∃ value, readSecret d = .ok value := by
  have hAscii : ∀ ch ∈ hexdigest secret, ch < 128 := by
    intro ch hCh
    have hRange := mem_hexdigest hCh
    omega
  have hStrip : strip (secretBytes secret) = asciiEncode (hexdigest secret) := by
    refine strip_of_ends ?_
    intro b hB
    rcases List.mem_map.mp hB with ⟨ch, hCh, rfl⟩
    have hNat := toNat_ofNat_ascii (hAscii ch hCh)
    have hRange := mem_hexdigest hCh
    unfold isSpace
    rw [hNat]
    exact decide_eq_false (by omega)
  refine ⟨hexdigest secret, ?_⟩
  unfold readSecret readFile
  rw [h]
  have hSize : (secretBytes secret).length ≤ secretLimit := by
    rw [secretBytes, List.length_append, asciiEncode, List.length_map, length_hexdigest, hLength]
    decide
  dsimp only
  rw [if_pos hSize]
  change (if isKey ((strip (secretBytes secret)).map UInt8.toNat) = true then _ else _) = _
  rw [hStrip, map_toNat_asciiEncode hAscii, if_pos (isKey_hexdigest hLength)]

theorem readCertificate_of_written {d : Dir} {text : PyStr} {data : Bytes}
    (hData : encodeAscii text = .ok data) (hLength : text.length ≤ certLimit)
    (h : d.get (pyStr "server.pem") = some (.file data)) : readCertificate d = .ok text := by
  unfold encodeAscii at hData
  split at hData
  · rename_i hAscii
    cases hData
    have hChars : ∀ ch ∈ text, ch < 128 := by
      intro ch hCh
      exact of_decide_eq_true (List.all_eq_true.mp hAscii ch hCh)
    have hSize : (asciiEncode text).length ≤ certLimit := by
      rwa [asciiEncode, List.length_map]
    have hBytes : (asciiEncode text).all (fun b => b.toNat < 128) = true := by
      rw [List.all_eq_true]
      intro b hB
      rcases List.mem_map.mp hB with ⟨ch, hCh, rfl⟩
      rw [toNat_ofNat_ascii (hChars ch hCh)]
      exact decide_eq_true (hChars ch hCh)
    unfold readCertificate readFile
    rw [h]
    dsimp only
    rw [if_pos hSize]
    change decodeAscii (asciiEncode text) = _
    rw [decodeAscii, if_pos hBytes, map_toNat_asciiEncode hChars]
  · cases hData

theorem readJson_controlBytes (c : Checks F) (b : Bool) :
    readJson c (controlBytes (F := F) b) = .ok (.obj [(pyStr "enabled", .bool b)]) := by
  have hAscii : ∀ ch ∈ Json.render (.obj [(pyStr "enabled", .bool b)] : Json F), ch < 128 := by
    intro ch hCh
    have hPrint := (Json.printable_render _ ch hCh).2
    omega
  have hDump : Json.dumpable (.obj [(pyStr "enabled", .bool b)] : Json F) = true := by
    rfl
  have hDepth : Json.depth (.obj [(pyStr "enabled", .bool b)] : Json F) ≤ c.room := by
    have hRoom := c.room_pos
    simp only [Json.depth, Json.depthMembers]
    omega
  unfold readJson controlBytes RemoteProbe.loadsBytes
  rw [utf8Decode_asciiEncode hAscii]
  dsimp only
  rw [Json.loads_render hDump hDepth]
  rfl

theorem enabled_of_written (c : Checks F) {d : Dir} {b : Bool}
    (h : d.get (pyStr "control.json") = some (.file (controlBytes (F := F) b))) :
    enabled c d = .ok b := by
  have hSize : (controlBytes (F := F) b).length ≤ 128 := by
    cases b <;> exact Nat.le_of_ble_eq_true rfl
  unfold enabled readFile
  rw [h]
  dsimp only
  rw [if_pos hSize]
  change configured (readJson c (controlBytes (F := F) b) >>= _) = _
  rw [readJson_controlBytes]
  rfl

-- The Invariant

structure Inv (c : Checks F) (v : Vault) : Prop where
  complete : ∀ key d, isKey key = true → v.get key = some d → Complete c key d
  locks : ∀ name d, v.get name = some d → d.get spoolLock ≠ some .dir
  nodup : (Dict.keys v).Nodup
  slots : slots v ≤ maxProfiles

namespace Inv

variable {c : Checks F} {v : Vault}

theorem empty : Inv c [] where
  complete _ _ _ h := nomatch h
  locks _ _ h := nomatch h
  nodup := List.nodup_nil
  slots := Nat.zero_le _

theorem set_old (h : Inv c v) {name : PyStr} {d d' : Dir} (hGet : v.get name = some d)
    (hLock : d'.get spoolLock ≠ some .dir)
    (hComplete : isKey name = true → Complete c name d') : Inv c (v.set name d') where
  complete key dir hKey hDir := by
    rw [Dict.get_set] at hDir
    split at hDir
    · rename_i hName
      cases hDir
      subst hName
      exact hComplete hKey
    · exact h.complete key dir hKey hDir
  locks other dir hDir := by
    rw [Dict.get_set] at hDir
    split at hDir
    · cases hDir
      exact hLock
    · exact h.locks other dir hDir
  nodup := Dict.nodup_set h.nodup name d'
  slots := by
    unfold ProfileVault.slots
    rw [Dict.keys_set_of_get_some hGet]
    exact h.slots

theorem set_new (h : Inv c v)
    {name : PyStr} {d : Dir} (hGet : v.get name = none) (hLock : d.get spoolLock ≠ some .dir)
    (hComplete : isKey name = true → Complete c name d)
    (hSlots : ProfileVault.slots v < maxProfiles) : Inv c (v.set name d) where
  complete key dir hKey hDir := by
    rw [Dict.get_set] at hDir
    split at hDir
    · rename_i hName
      cases hDir
      subst hName
      exact hComplete hKey
    · exact h.complete key dir hKey hDir
  locks other dir hDir := by
    rw [Dict.get_set] at hDir
    split at hDir
    · cases hDir
      exact hLock
    · exact h.locks other dir hDir
  nodup := Dict.nodup_set h.nodup name d
  slots := by
    unfold ProfileVault.slots at hSlots ⊢
    rw [Dict.set_of_get_none hGet, Dict.keys, List.map_append, List.filter_append, List.length_append]
    have hOne : (List.filter isSlot (List.map Prod.fst [(name, d)])).length ≤ 1 := List.length_filter_le _ _
    change (List.filter isSlot (Dict.keys v)).length + _ ≤ _
    omega

theorem pop (h : Inv c v) (name : PyStr) : Inv c (v.pop name) where
  complete key dir hKey hDir := by
    rw [Dict.get_pop] at hDir
    split at hDir
    · cases hDir
    · exact h.complete key dir hKey hDir
  locks other dir hDir := by
    rw [Dict.get_pop] at hDir
    split at hDir
    · cases hDir
    · exact h.locks other dir hDir
  nodup := Dict.nodup_pop h.nodup name
  slots := by
    refine le_trans ?_ h.slots
    unfold ProfileVault.slots
    refine List.Sublist.length_le ?_
    exact List.Sublist.filter _ (List.filter_sublist.map Prod.fst)

end Inv

theorem slots_pop_lt {v : Vault} {name : PyStr} {d : Dir} (hGet : v.get name = some d)
    (hSlot : isSlot name = true) : slots (v.pop name) < slots v := by
  have hMem : name ∈ (Dict.keys v).filter isSlot := by
    refine List.mem_filter.mpr ⟨?_, hSlot⟩
    exact List.mem_map.mpr ⟨_, Dict.mem_of_get hGet, rfl⟩
  have hSub : ((Dict.keys (v.pop name)).filter isSlot).Sublist ((Dict.keys v).filter isSlot) :=
    List.Sublist.filter _ (List.filter_sublist.map Prod.fst)
  unfold slots
  rcases Nat.lt_or_ge ((Dict.keys (v.pop name)).filter isSlot).length
      ((Dict.keys v).filter isSlot).length with hLt | hGe
  · exact hLt
  · have hEq := hSub.eq_of_length_le hGe
    rw [← hEq] at hMem
    have hIn := (List.mem_filter.mp hMem).1
    have hNone : (v.pop name).get name = none := by rw [Dict.get_pop, if_pos rfl]
    exact (Dict.get_eq_none_iff.mp hNone hIn).elim

theorem isKey_stageName (uuid : PyStr) : isKey (stageName uuid) = false := by rfl

theorem isSlot_stageName (uuid : PyStr) : isSlot (stageName uuid) = true := by
  unfold isSlot stageName
  rw [Bool.or_eq_true]
  right
  exact List.isPrefixOf_iff_prefix.mpr (List.prefix_append _ _)

theorem get_removeFrom (names : List PyStr) (d : Dir) (name : PyStr) :
    (removeFrom names d).get name = if name ∈ names then none else d.get name := by
  unfold removeFrom
  rw [Dict.get_filter (fun key => decide (key ∉ names))]
  by_cases hMem : name ∈ names
  · rw [if_pos hMem, if_neg]
    rw [decide_eq_true_eq]
    exact fun h => h hMem
  · rw [if_neg hMem, if_pos (decide_eq_true hMem)]

theorem get_of_removeFrom {names : List PyStr} {d : Dir} {name : PyStr} {node : Node}
    (h : (removeFrom names d).get name = some node) : d.get name = some node := by
  rw [get_removeFrom] at h
  split at h
  · cases h
  · exact h

theorem lock_set {d : Dir} {name : PyStr} {node : Node} (h : d.get spoolLock ≠ some .dir)
    (hNode : node = .dir → name ≠ spoolLock) :
    (d.set name node).get spoolLock ≠ some .dir := by
  rw [Dict.get_set]
  split
  · rename_i hName
    intro hDir
    exact hNode (Option.some.inj hDir) hName
  · exact h

-- Staging

abbrev Staging := List (PyStr × Except VaultError Bytes)

/- The files are there, with what was to be written. -/
def Written (files : Staging) (d : Dir) : Prop :=
  ∀ f ∈ files, ∃ data, f.2 = .ok data ∧ d.get f.1 = some (.file data)

/- The stage holds these files, and the target is not there. -/
structure Staged (c : Checks F) (stage key : PyStr) (holds : Dir → Prop) (v : Vault) : Prop where
  inv : Inv c v
  absent : v.get key = none
  stage : ∃ d, v.get stage = some d ∧ holds d

section Staged

variable {c : Checks F} {stage key : PyStr}
variable {holds holds' : Dir → Prop}

theorem Staged.inDir (hStage : isKey stage = false) {f : Dir → Option Dir} (hChange :
      ∀ d d', holds d → d.get spoolLock ≠ some .dir →
        f d = some d' → holds' d' ∧ d'.get spoolLock ≠ some .dir)
    {v v' : Vault} (h : Staged c stage key holds v)
    (hSome : inDir stage f v = some v') : Staged c stage key holds' v' := by
  rcases h with ⟨hInv, hAbsent, d, hGet, hHolds⟩
  unfold ProfileVault.inDir at hSome
  rw [hGet] at hSome
  rcases Option.map_eq_some_iff.mp hSome with ⟨d', hD', rfl⟩
  rcases hChange d d' hHolds (hInv.locks stage d hGet) hD' with ⟨hHolds', hLock⟩
  refine ⟨hInv.set_old hGet hLock ?_, ?_, d', ?_, hHolds'⟩
  · intro hKey
    rw [hStage] at hKey
    cases hKey
  · rw [Dict.get_set, if_neg]
    · exact hAbsent
    · rintro rfl
      rw [hGet] at hAbsent
      cases hAbsent
  · rw [Dict.get_set, if_pos rfl]

theorem Written.set {files : Staging} {d : Dir} {name : PyStr} {node : Node} (h : Written files d)
    (hFresh : ∀ f ∈ files, f.1 ≠ name) : Written files (d.set name node) := by
  intro f hF
  rcases h f hF with ⟨data, hData, hGet⟩
  refine ⟨data, hData, ?_⟩
  rw [Dict.get_set, if_neg (fun hEq => hFresh f hF hEq.symm)]
  exact hGet

theorem carries_stageFile (hStage : isKey stage = false)
    {files : Staging} {f : PyStr × Except VaultError Bytes} (hFresh : ∀ g ∈ files, g.1 ≠ f.1)
    (torn : ℕ) : Carries (Inv c) (Staged c stage key (Written files)) (stageFile stage torn f)
      (Staged c stage key (Written (files ++ [f]))) := by
  unfold stageFile
  split
  · rename_i data hData
    have hFill : ∀ bytes v v', Staged c stage key (Written files) v →
          inDir stage (fill f.1 bytes) v = some v' → Staged c stage key (Written files) v' := by
      intro bytes v v' h hSome
      refine h.inDir hStage ?_ hSome
      intro d d' hHolds hLock hD'
      cases hD'
      exact ⟨hHolds.set hFresh, lock_set hLock (fun hNode => by cases hNode)⟩
    refine .cons (fun _ h => h.inv) ?_ (.cons (fun _ h => h.inv) (hFill _)
        (.cons (fun _ h => h.inv) ?_ (.nil (fun _ h => h.inv) (fun _ h => h))))
    · intro v v' h hSome
      refine h.inDir hStage ?_ hSome
      intro d d' hHolds hLock hD'
      unfold create at hD'
      split at hD'
      · cases hD'
      · cases hD'
        exact ⟨hHolds.set hFresh, lock_set hLock (fun hNode => by cases hNode)⟩
    · intro v v' h hSome
      refine h.inDir hStage ?_ hSome
      intro d d' hHolds hLock hD'
      cases hD'
      refine ⟨?_, lock_set hLock (fun hNode => by cases hNode)⟩
      intro g hG
      rcases List.mem_append.mp hG with hOld | hNew
      · exact hHolds.set hFresh g hOld
      · rw [List.mem_singleton.mp hNew]
        refine ⟨data, hData, ?_⟩
        rw [Dict.get_set, if_pos rfl]
  · exact .cons (R := fun _ => False) (fun _ h => h.inv) (fun _ _ _ hSome => by cases hSome)
      (.nil (fun _ h => h.elim) (fun _ h => h.elim))

theorem carries_stageFiles (hStage : isKey stage = false) (torn : ℕ) (files : Staging) (done : Staging)
    (hNodup : ((done ++ files).map Prod.fst).Nodup) :
    Carries (Inv c) (Staged c stage key (Written done)) (files.flatMap (stageFile stage torn))
      (Staged c stage key (Written (done ++ files))) := by
  induction files generalizing done with
  | nil =>
    rw [List.append_nil]
    exact .nil (fun _ h => h.inv) (fun _ h => h)
  | cons f rest ih =>
    rw [List.flatMap_cons]
    have hSplit : done ++ f :: rest = (done ++ [f]) ++ rest := by
      rw [List.append_assoc, List.singleton_append]
    rw [hSplit] at hNodup ⊢
    refine .append (carries_stageFile hStage ?_ torn) (ih (done ++ [f]) hNodup)
    intro g hG hName
    rw [List.map_append, List.nodup_append] at hNodup
    have hDone := hNodup.1
    rw [List.map_append, List.nodup_append] at hDone
    exact hDone.2.2 g.1 (List.mem_map_of_mem hG) f.1 (List.mem_singleton_self _) hName

end Staged

/- The manifest is accepted again after it was written and read. -/
def ReadsBack (c : Checks F) (a : Enrollment F) : Prop :=
  ∀ raw, canonical a.manifest = .ok raw → ∃ manifest, readJson c raw = .ok manifest ∧
      c.validate manifest a.certificate = c.validate a.manifest a.certificate

theorem complete_of_written {c : Checks F} {a : Enrollment F} {key : PyStr} {secret : Bytes}
    {d : Dir} (hValid : c.validate a.manifest a.certificate = .ok key)
    (hSecret : importSecret a = .ok secret) (hBack : ReadsBack c a)
    (hWritten : Written (profileFiles a secret) d)
    (hSpool : d.get (pyStr "spool") = some .dir) : Complete c key d := by
  rcases isKey_of_validate hValid with ⟨-, ⟨raw, hRaw, hLimit⟩, hCertLength⟩
  have hLength : secret.length = 32 := by
    unfold importSecret at hSecret
    split at hSecret
    · cases hSecret
    · split at hSecret
      · rename_i hOk
        cases hSecret
        exact hOk.1
      · cases hSecret
  have hManifest : d.get (pyStr "profile.json") = some (.file raw) := by
    rcases hWritten (pyStr "profile.json", canonical a.manifest)
      (by simp [profileFiles]) with ⟨data, hData, hGet⟩
    rw [hRaw] at hData
    cases hData
    exact hGet
  have hKey : d.get (pyStr "ingest.key") = some (.file (secretBytes secret)) := by
    rcases hWritten (pyStr "ingest.key", .ok (secretBytes secret))
      (by simp [profileFiles]) with ⟨data, hData, hGet⟩
    cases hData
    exact hGet
  have hControl : d.get (pyStr "control.json") = some (.file (controlBytes (F := F) true)) := by
    rcases hWritten (pyStr "control.json", .ok (controlBytes (F := F) true))
      (by simp [profileFiles]) with ⟨data, hData, hGet⟩
    cases hData
    exact hGet
  rcases hWritten (pyStr "server.pem", encodeAscii a.certificate)
    (by simp [profileFiles]) with ⟨pem, hPem, hPemGet⟩
  have hCert := readCertificate_of_written hPem hCertLength hPemGet
  rcases hBack raw hRaw with ⟨manifest, hRead, hSame⟩
  refine ⟨⟨manifest, ?_⟩, ⟨true, enabled_of_written c hControl⟩,
    readSecret_of_written hLength hKey, ⟨_, hCert⟩, hSpool⟩
  have hFile : readFile d "profile.json" manifestLimit = .ok raw := by
    unfold readFile
    rw [hManifest]
    dsimp only
    rw [if_pos hLimit]
  unfold load
  rw [hFile, hCert]
  change configured (readJson c raw >>= _) = _
  rw [hRead]
  change configured (c.validate manifest a.certificate >>= _) = _
  rw [hSame, hValid]
  change configured (if key = key then _ else _) = _
  rw [if_pos rfl]
  rfl

theorem profileFiles_names (a : Enrollment F) (secret : Bytes) :
    ((profileFiles a secret).map Prod.fst).Nodup ∧ ∀ f ∈ profileFiles a secret, f.1 ≠ pyStr "spool" := by
  have hNames : (profileFiles a secret).map Prod.fst = [pyStr "profile.json", pyStr "ingest.key",
            pyStr "server.pem", pyStr "control.json"] ∨
        (profileFiles a secret).map Prod.fst = [pyStr "profile.json", pyStr "ingest.key",
            pyStr "server.pem", pyStr "control.json",
            pyStr "mihomo.key"] := by
    unfold profileFiles
    split
    · exact .inr rfl
    · exact .inl rfl
  have hSpool : pyStr "spool" ∉ (profileFiles a secret).map Prod.fst := by
    rcases hNames with h | h <;> rw [h] <;> decide
  constructor
  · rcases hNames with h | h <;> rw [h] <;> decide
  · intro f hF hName
    exact hSpool (hName ▸ List.mem_map_of_mem hF)

section Enroll

variable {c : Checks F} {a : Enrollment F} {e : Meeting} {key : PyStr}
variable {secret : Bytes}

theorem carries_enrollPlan (hValid : c.validate a.manifest a.certificate = .ok key)
    (hSecret : importSecret a = .ok secret)
    (hBack : ReadsBack c a) : Carries (Inv c) (fun v => Inv c v ∧ v.get key = none ∧ slots v < maxProfiles)
      (enrollPlan a e key secret) (Inv c) := by
  have hStage := isKey_stageName e.uuid
  have hKey := (isKey_of_validate hValid).1
  have hNames := profileFiles_names a secret
  unfold enrollPlan
  refine .cons (R := Staged c (stageName e.uuid) key (Written []))
    (fun _ h => h.1) ?_ (.append (R := Staged c (stageName e.uuid) key
        (Written ([] ++ profileFiles a secret)))
      (carries_stageFiles hStage e.torn _ [] hNames.1) ?_)
  · rintro v v' ⟨hInv, hAbsent, hSlots⟩ hSome
    unfold makeDir at hSome
    split at hSome
    · rename_i d hGet
      cases hSome
      exact ⟨hInv, hAbsent, d, hGet, fun _ hF => nomatch hF⟩
    · rename_i hGet
      cases hSome
      refine ⟨hInv.set_new hGet (fun hEq => nomatch hEq) ?_ hSlots, ?_, [], ?_, fun _ hF => nomatch hF⟩
      · intro hYes
        rw [hStage] at hYes
        cases hYes
      · rw [Dict.get_set, if_neg]
        · exact hAbsent
        · rintro rfl
          rw [hStage] at hKey
          cases hKey
      · rw [Dict.get_set, if_pos rfl]
  · rw [List.nil_append]
    refine .cons (R := Staged c (stageName e.uuid) key
        (fun d => Written (profileFiles a secret) d ∧ d.get (pyStr "spool") = some .dir))
      (fun _ h => h.inv) ?_
      (.cons (R := Inv c) (fun _ h => h.inv) ?_
        (.cons (fun _ h => h) ?_ (.nil (fun _ h => h) (fun _ h => h))))
    · intro v v' h hSome
      refine h.inDir hStage ?_ hSome
      intro d d' hHolds hLock hD'
      unfold makeSpool at hD'
      split at hD'
      · rename_i hDir
        cases hD'
        exact ⟨⟨hHolds, hDir⟩, hLock⟩
      · cases hD'
      · cases hD'
        refine ⟨⟨hHolds.set hNames.2, ?_⟩, lock_set hLock (fun _ => by decide)⟩
        rw [Dict.get_set, if_pos rfl]
    · rintro v v' ⟨hInv, hAbsent, d, hGet, hHolds, hSpool⟩ hSome
      unfold publish at hSome
      rw [hGet] at hSome
      cases hSome
      have hFree := slots_pop_lt hGet (isSlot_stageName e.uuid)
      refine (hInv.pop _).set_new ?_ (hInv.locks _ d hGet) ?_ (lt_of_lt_of_le hFree hInv.slots)
      · rw [Dict.get_pop]
        split
        · rfl
        · exact hAbsent
      · intro _
        exact complete_of_written hValid hSecret hBack hHolds hSpool
    · intro v v' h hSome
      cases hSome
      exact h

/- An import keeps the invariant, wherever it is stopped. -/
theorem importProfile_inv (hBack : ReadsBack c a) {v : Vault}
    (h : Inv c v) : Inv c (importProfile c a e v).2 := by
  unfold importProfile
  split
  · exact h
  · rename_i secret hSecret
    split
    · exact h
    · rename_i key hValid
      split
      · split
        · exact h
        · rename_i hAbsent
          split
          · exact h
          · rename_i hSlots
            have hCut := (carries_enrollPlan (e := e) hValid hSecret hBack).cut
                e.steps v ⟨h, hAbsent, Nat.lt_of_not_le hSlots⟩
            generalize perform (enrollPlan a e key secret) e.steps v = staged at hCut
            rcases staged with ⟨_ | _, v'⟩
            · dsimp only [enrolled]
              split
              · exact hCut
              · unfold removeTree
                split
                · exact hCut.pop _
                · split
                  · exact hCut
                  · rename_i names d hGet
                    refine hCut.set_old hGet ?_ ?_
                    · intro hLock
                      exact hCut.locks _ d hGet (get_of_removeFrom hLock)
                    · intro hYes
                      rw [isKey_stageName] at hYes
                      cases hYes
            · exact hCut
      · exact h

theorem importProfile_existing (c : Checks F) (a : Enrollment F) (e : Meeting) {key : PyStr}
    (hValid : c.validate a.manifest a.certificate = .ok key) {v : Vault}
    (hThere : v.get key ≠ none) : (importProfile c a e v).2 = v := by
  unfold importProfile
  split
  · rfl
  · rw [hValid]
    dsimp only
    split
    · split
      · rfl
      · rename_i hNone
        exact (hThere hNone).elim
    · rfl

end Enroll

-- Control

section Control

variable {c : Checks F} {e : Meeting} {key : PyStr}

/- The profile is there, and its directory holds more. -/
structure Present (c : Checks F) (key : PyStr) (holds : Dir → Prop) (v : Vault) : Prop where
  inv : Inv c v
  present : ∃ d, v.get key = some d ∧ Complete c key d ∧ holds d

theorem Present.inDir {holds holds' : Dir → Prop} {f : Dir → Option Dir} (hChange :
      ∀ d d', Complete c key d → holds d → d.get spoolLock ≠ some .dir → f d = some d' →
          Complete c key d' ∧ holds' d' ∧ d'.get spoolLock ≠ some .dir)
    {v v' : Vault} (h : Present c key holds v)
    (hSome : inDir key f v = some v') : Present c key holds' v' := by
  rcases h with ⟨hInv, d, hGet, hComplete, hHolds⟩
  unfold ProfileVault.inDir at hSome
  rw [hGet] at hSome
  rcases Option.map_eq_some_iff.mp hSome with ⟨d', hD', rfl⟩
  rcases hChange d d' hComplete hHolds (hInv.locks key d hGet) hD' with ⟨hComplete', hHolds', hLock⟩
  refine ⟨hInv.set_old hGet hLock (fun _ => hComplete'), d', ?_, hComplete', hHolds'⟩
  rw [Dict.get_set, if_pos rfl]

theorem Complete.set {d : Dir} {name : PyStr} (h : Complete c key d) (hName : name ∉ required)
    (node : Node) : Complete c key (d.set name node) := by
  refine h.congr ?_
  intro other hOther
  rw [Dict.get_set, if_neg]
  rintro rfl
  exact hName hOther

theorem controlTemp_not_required (uuid : PyStr) : controlTemp uuid ∉ required := by
  intro h
  have hHead : ∀ name ∈ required, name.head? ≠ some 46 := by decide
  exact hHead _ h rfl

theorem controlTemp_ne_spoolLock (uuid : PyStr) : controlTemp uuid ≠ spoolLock := by
  intro h
  have hHead := congrArg List.head? h
  cases hHead

theorem present_of_profileDir {v : Vault} {d : Dir} (h : Inv c v)
    (hDir : profileDir v key = .ok d) : Present c key (fun _ => True) v := by
  unfold profileDir at hDir
  split at hDir
  · rename_i hKey
    split at hDir
    · rename_i dir hGet
      exact ⟨h, dir, hGet, h.complete key dir hKey hGet, trivial⟩
    · cases hDir
  · cases hDir

theorem carries_controlPlan (value : Bool) : Carries (Inv c) (Present c key (fun _ => True))
      (controlPlan (F := F) e key value) (Inv c) := by
  have hTemp := controlTemp_not_required e.uuid
  have hFill : ∀ (holds : Dir → Prop) bytes v v', Present c key holds v →
        inDir key (fill (controlTemp e.uuid) bytes) v = some v' → Present c key
            (fun d => d.get (controlTemp e.uuid) = some (.file bytes)) v' := by
    intro holds bytes v v' h hSome
    refine h.inDir ?_ hSome
    intro d d' hComplete _ hLock hD'
    cases hD'
    refine ⟨hComplete.set hTemp _, ?_, lock_set hLock (fun hNode => by cases hNode)⟩
    rw [Dict.get_set, if_pos rfl]
  unfold controlPlan writeFile
  refine .cons (R := Present c key (fun _ => True)) (fun _ h => h.inv) ?_
    (.cons (fun _ h => h.inv) (hFill _ _) (.cons (fun _ h => h.inv) (hFill _ _)
        (.cons (R := Present c key (fun _ => True)) (fun _ h => h.inv) ?_
          (.cons (fun _ h => h.inv) ?_ (.nil (fun _ h => h) (fun _ h => h))))))
  · intro v v' h hSome
    refine h.inDir ?_ hSome
    intro d d' hComplete _ hLock hD'
    unfold create at hD'
    split at hD'
    · cases hD'
    · cases hD'
      exact ⟨hComplete.set hTemp _, trivial, lock_set hLock (fun hNode => by cases hNode)⟩
  · intro v v' h hSome
    refine h.inDir ?_ hSome
    intro d d' hComplete hData hLock hD'
    unfold replaceFile at hD'
    rw [hData] at hD'
    cases hD'
    refine ⟨?_, trivial, ?_⟩
    · have hOthers : ∀ name ∈ required, name ≠ pyStr "control.json" →
            (Dict.set (Dict.pop d (controlTemp e.uuid)) (pyStr "control.json")
              (.file (controlBytes (F := F) value))).get name =
              d.get name := by
        intro name hName hNe
        rw [Dict.get_set, if_neg hNe.symm, Dict.get_pop, if_neg]
        rintro rfl
        exact hTemp hName
      have hControl : (Dict.set (Dict.pop d (controlTemp e.uuid)) (pyStr "control.json")
            (.file (controlBytes (F := F) value))).get (pyStr "control.json") =
            some (.file (controlBytes (F := F) value)) := by
        rw [Dict.get_set, if_pos rfl]
      exact hComplete.switched hOthers ⟨value, enabled_of_written c hControl⟩
    · refine lock_set ?_ (fun hNode => by cases hNode)
      rw [Dict.get_pop, if_neg (controlTemp_ne_spoolLock e.uuid)]
      exact hLock
  · intro v v' h hSome
    cases hSome
    exact h.inv

theorem setEnabled_inv (value : Option Bool) {v : Vault}
    (h : Inv c v) : Inv c (setEnabled c key value e v).2 := by
  unfold setEnabled
  split
  · exact h
  · rename_i value
    split
    · split
      · exact h
      · rename_i d hDir
        split
        · exact h
        · have hCut : Inv c (perform (controlPlan (F := F) e key value) e.steps v).2 :=
            (carries_controlPlan value).cut e.steps v (present_of_profileDir h hDir)
          generalize perform (controlPlan (F := F) e key value) e.steps v = done at hCut
          rcases done with ⟨_ | _, v'⟩ <;> exact hCut
    · exact h

end Control

-- Purge

section Purge

variable {c : Checks F} {e : Meeting} {key : PyStr}

/- The removal of a profile has not taken a required object. -/
def KeepsRequired (e : Meeting) : Prop := ∀ names, e.removal = some names → ∀ name ∈ required, name ∉ names

/-
  What a removal leaves of a profile is a profile just if it
  took no required object.
-/
theorem removeFrom_complete_iff {d : Dir} (h : Complete c key d) (names : List PyStr) :
    Complete c key (removeFrom names d) ↔ ∀ name ∈ required, name ∉ names := by
  constructor
  · intro hLeft name hName hMem
    have hGone : (removeFrom names d).get name = none := by rw [get_removeFrom, if_pos hMem]
    have hRead : ∀ file limit, name = pyStr file → readFile (removeFrom names d) file limit = .error .os := by
      rintro file limit rfl
      unfold readFile
      rw [hGone]
    simp only [required, List.mem_cons, List.not_mem_nil, or_false] at hName
    rcases hName with rfl | rfl | rfl | rfl | rfl
    · rcases hLeft.loads with ⟨m, hLoad⟩
      unfold load at hLoad
      rw [hRead _ _ rfl] at hLoad
      cases hLoad
    · rcases hLeft.secret with ⟨value, hValue⟩
      unfold readSecret at hValue
      rw [hRead _ _ rfl] at hValue
      cases hValue
    · rcases hLeft.certificate with ⟨text, hText⟩
      unfold readCertificate at hText
      rw [hRead _ _ rfl] at hText
      cases hText
    · rcases hLeft.control with ⟨b, hControl⟩
      unfold enabled at hControl
      rw [hRead _ _ rfl] at hControl
      cases hControl
    · have hSpool := hLeft.spool
      rw [hGone] at hSpool
      cases hSpool
  · intro hKeeps
    refine h.congr ?_
    intro name hName
    rw [get_removeFrom, if_neg (hKeeps name hName)]

theorem openSpoolLock_change {d d' : Dir} (hComplete : Complete c key d) (hLock : d.get spoolLock ≠ some .dir)
    (hSome : openSpoolLock d = some d') :
    Complete c key d' ∧ d'.get spoolLock ≠ some .dir := by
  unfold openSpoolLock at hSome
  split at hSome
  · cases hSome
    exact ⟨hComplete, hLock⟩
  · cases hSome
  · cases hSome
    exact ⟨hComplete.set (by decide) _,
      lock_set hLock (fun hNode => by cases hNode)⟩

theorem carries_openSpoolLock : Carries (Inv c) (Present c key (fun _ => True))
      [inDir key openSpoolLock] (Present c key (fun _ => True)) := by
  refine .cons (fun _ h => h.inv) ?_ (.nil (fun _ h => h.inv) (fun _ h => h))
  intro v v' h hSome
  refine h.inDir ?_ hSome
  intro d d' hComplete _ hLock hD'
  rcases openSpoolLock_change hComplete hLock hD' with ⟨hNext, hNextLock⟩
  exact ⟨hNext, trivial, hNextLock⟩

theorem removeProfile_inv (hKeeps : KeepsRequired e) {v : Vault}
    (h : Present c key (fun _ => True) v) : Inv c (removeProfile e key v).2 := by
  rcases h with ⟨hInv, d, hGet, hComplete, -⟩
  unfold removeProfile
  split
  · split
    · unfold removeTree
      cases hRemoval : e.removal with
      | none => exact hInv.pop key
      | some names =>
        dsimp only
        rw [hGet]
        refine hInv.set_old hGet ?_ ?_
        · intro hLock
          exact hInv.locks key d hGet (get_of_removeFrom hLock)
        · intro _
          exact (removeFrom_complete_iff hComplete names).mpr (hKeeps names hRemoval)
    · exact hInv
  · exact hInv

theorem purge_inv (hKeeps : KeepsRequired e) {v : Vault} (h : Inv c v) : Inv c (purge c key e v).2 := by
  unfold purge
  split
  · split
    · exact h
    · rename_i d hDir
      split
      · exact h
      · have hPlan : Carries (Inv c) (Present c key (fun _ => True)) [inDir key openSpoolLock]
              (Present c key (fun _ => True)) :=
          carries_openSpoolLock
        have hPresent := present_of_profileDir h hDir
        have hCut := hPlan.cut e.steps v hPresent
        have hDone := hPlan.done e.steps v hPresent
        split
        · rename_i v' hPerform
          rw [hPerform] at hDone
          exact removeProfile_inv hKeeps (hDone rfl)
        · rename_i v' hPerform
          rw [hPerform] at hCut
          exact hCut
  · exact h

/- Nothing is in the way of a purge, and nothing stops it. -/
structure Quiet (e : Meeting) : Prop where
  lock : e.lockFree = true
  spool : e.spoolFree = true
  walk : e.walkOk = true
  steps : 0 < e.steps
  removal : e.removal = none

theorem purge_completes {v : Vault} (h : Inv c v) (hKey : isKey key = true) {d : Dir}
    (hGet : v.get key = some d) (hDisabled : enabled c d = .ok false)
    (hQuiet : Quiet e) :
    (purge c key e v).1 = .answered (.ok .done) ∧ (purge c key e v).2.get key = none := by
  have hComplete := h.complete key d hKey hGet
  have hPurgeable : purgeable c key d = .ok () := by
    rcases hComplete.loads with ⟨m, hLoad⟩
    unfold purgeable
    rw [hLoad, hDisabled, hComplete.spool]
  have hDir : profileDir v key = .ok d := by
    unfold profileDir
    rw [if_pos hKey, hGet]
  have hOpen : ∃ d', openSpoolLock d = some d' := by
    unfold openSpoolLock
    split
    · exact ⟨d, rfl⟩
    · rename_i hLock
      exact (h.locks key d hGet hLock).elim
    · exact ⟨_, rfl⟩
  rcases hOpen with ⟨d', hOpen⟩
  have hPerform : perform [inDir key openSpoolLock] e.steps v = (true, v.set key d') := by
    cases hSteps : e.steps with
    | zero =>
      have hPos := hQuiet.steps
      rw [hSteps] at hPos
      exact (Nat.lt_irrefl 0 hPos).elim
    | succ steps =>
      have hChange : inDir key openSpoolLock v = some (v.set key d') := by
        unfold inDir
        rw [hGet]
        dsimp only
        rw [hOpen]
        rfl
      rw [perform, hChange]
      rfl
  unfold purge
  rw [if_pos hQuiet.lock, hDir]
  dsimp only
  rw [hPurgeable]
  dsimp only
  rw [hPerform]
  dsimp only
  unfold removeProfile
  rw [if_pos hQuiet.spool, if_pos hQuiet.walk, hQuiet.removal]
  refine ⟨rfl, ?_⟩
  change ((v.set key d').pop key).get key = none
  rw [Dict.get_pop, if_pos rfl]

end Purge

-- Every Run

/-
  An import's manifest reads back, and a purge is not stopped
  after its removal has taken a required object.
-/
def Uncut (c : Checks F) (input : Call F × Meeting) : Prop := match input.1 with
  | .importProfile a => ReadsBack c a
  | .setEnabled _ _ => True
  | .purge _ => KeepsRequired input.2

theorem step_inv {c : Checks F} {v : Vault} {input : Call F × Meeting} (h : Inv c v)
    (hUncut : Uncut c input) : Inv c (step c v input).2 := by
  rcases input with ⟨call, e⟩
  cases call with
  | importProfile a => exact importProfile_inv hUncut h
  | setEnabled key value => exact setEnabled_inv value h
  | purge key => exact purge_inv hUncut h

/-
  What holds of the vault: each name `keys` lists is a profile
  and can be purged once disabled, and there are not too many.
-/
structure Sound (c : Checks F) (v : Vault) : Prop where
  complete : ∀ key ∈ keys v, ∃ d, v.get key = some d ∧ Complete c key d
  few : (keys v).length ≤ maxProfiles
  purgeable : ∀ key ∈ keys v, ∀ d e, v.get key = some d → enabled c d = .ok false → Quiet e →
        (purge c key e v).1 = .answered (.ok .done) ∧ (purge c key e v).2.get key = none

theorem Inv.sound {c : Checks F} {v : Vault} (h : Inv c v) : Sound c v where
  complete key hMem := by
    rcases List.mem_filter.mp hMem with ⟨hIn, hKey⟩
    cases hGet : v.get key with
    | none => exact (Dict.get_eq_none_iff.mp hGet hIn).elim
    | some d => exact ⟨d, rfl, h.complete key d hKey hGet⟩
  few := by
    refine le_trans ?_ h.slots
    unfold keys ProfileVault.slots
    refine List.Sublist.length_le ?_
    refine List.monotone_filter_right _ ?_
    intro name hKey
    unfold isSlot
    rw [hKey]
    rfl
  purgeable key hMem d e hGet hDisabled hQuiet :=
    purge_completes h (List.mem_filter.mp hMem).2 hGet hDisabled hQuiet

/-
  In every run of uncut operations the vault is sound after
  each of them, crashes included.  An import of an identity
  that is there changes nothing, in any vault; and a removal
  that was stopped leaves a profile just if it took no
  required object.
-/
theorem vault_integrity (c : Checks F) (h : List ((Call F × Meeting) × Outcome)) (v : Vault) :
    (Trace (step c) (fun _ input => Uncut c input) [] h v → Sound c v) ∧
      (∀ (a : Enrollment F) (e : Meeting) (key : PyStr), c.validate a.manifest a.certificate = .ok key →
        v.get key ≠ none → (importProfile c a e v).2 = v) ∧
      ∀ (key : PyStr) (d : Dir) (names : List PyStr), Complete c key d →
          (Complete c key (removeFrom names d) ↔ ∀ name ∈ required, name ∉ names) := by
  refine ⟨?_, ?_, ?_⟩
  · intro hTrace
    have hInv : Inv c v := hTrace.invariant (I := Inv c) Inv.empty (fun _ _ h hUncut => step_inv h hUncut)
    exact hInv.sound
  · intro a e key hValid hThere
    exact importProfile_existing c a e hValid hThere
  · intro key d names hComplete
    exact removeFrom_complete_iff hComplete names

-- A Run

theorem readsBack_of_reread {F : Type} [PyFloat F]
    {c : Checks F} {a : Enrollment F} (hDepth : Json.depth a.manifest ≤ c.room)
    (hSame : Json.reread (Json.sortKeys a.manifest) = a.manifest) : ReadsBack c a := by
  intro raw hRaw
  unfold canonical at hRaw
  split at hRaw
  · rename_i payload hPayload
    cases hRaw
    refine ⟨a.manifest, ?_, rfl⟩
    unfold readJson
    rw [RemoteProbe.loadsBytes_canonicalBytes hPayload hDepth, hSame]
  · cases hRaw

abbrev Grid := IntGrid (2 ^ 53)

/- Checks that refuse nothing, and one digest for all. -/
def plainChecks : Checks Grid where
  room := 10
  room_pos := by decide
  sha256 := fun _ => List.replicate 32 0
  sha256_length := fun _ => List.length_replicate
  refuses := fun _ _ => none

def zeroKey : PyStr := List.replicate 64 48

def enrollment : Enrollment Grid where
  manifest := .obj [(pyStr "agent", .obj [(pyStr "vps_host", .str (pyStr "192.0.2.1"))]),
      (pyStr "certificate_sha256", .str zeroKey),
      (pyStr "ingest_url", .str (pyStr "https://192.0.2.1/i")),
      (pyStr "probe_id", .str (pyStr "p-1")),
      (pyStr "server_id", .str (List.replicate 32 48)),
      (pyStr "v", .int 1)]
  secret := some (List.replicate 32 7)
  certificate := pyStr "PEM"
  controller := .absent

def quietMeeting : Meeting where
  lockFree := true
  spoolFree := true
  walkOk := true
  uuid := pyStr "0"
  torn := 0
  steps := 100
  crash := false
  stageRemoval := none
  removal := none

/- A crash after the first object of the removal. -/
def cutMeeting : Meeting :=
  { quietMeeting with
    crash := true
    removal := some [pyStr "profile.json"] }

theorem vault_integrity_enrolled : Sound plainChecks (finalState (step plainChecks) []
      [(.importProfile enrollment, quietMeeting), (.setEnabled zeroKey (some false), quietMeeting),
        (.purge zeroKey, quietMeeting), (.importProfile enrollment, quietMeeting)]) := by
  have hImport : Uncut plainChecks (.importProfile enrollment, quietMeeting) :=
    readsBack_of_reread (by decide) rfl
  have hPurge : Uncut plainChecks (.purge zeroKey, quietMeeting) := by
    intro removed hRemoved
    cases hRemoved
  have hPause : Uncut plainChecks (.setEnabled zeroKey (some false), quietMeeting) := True.intro
  have hStart : Trace (step plainChecks) (fun _ input => Uncut plainChecks input) [] [] [] := .start
  exact (vault_integrity plainChecks _ _).1
    ((((hStart.snoc _ hImport).snoc _ hPause).snoc _ hPurge).snoc _ hImport)
/- The profile that was imported, paused and half removed. -/
def halfRemoved : Vault := finalState (step plainChecks) []
    [(.importProfile enrollment, quietMeeting), (.setEnabled zeroKey (some false), quietMeeting),
      (.purge zeroKey, cutMeeting)]

/-
  After the crash `keys` lists the profile, and every later
  purge of it is refused and changes nothing.
-/
theorem halfRemoved_stays : keys halfRemoved = [zeroKey] ∧
      purge plainChecks zeroKey quietMeeting halfRemoved = (.answered (.error .os), halfRemoved) := by
  decide +kernel

end SingboxOps.ProfileVault
