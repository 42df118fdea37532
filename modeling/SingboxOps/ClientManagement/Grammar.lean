import SingboxOps.ClientManagement.Rpc
import SingboxOps.Lib.Except
import SingboxOps.Lib.BoundedFloat

/-
  The requests that the schema accepts.

  A pattern that ends in `$` is matched at the end of a text
  or before its last newline.  The grammar is stated for both
  ways to match it.
-/

namespace SingboxOps.ClientManagement

variable {F : Type}

-- The Grammar

/- How a pattern that ends in `$` is matched. -/
abbrev Anchor := (PyStr → Bool) → PyStr → Bool

/- The anchor of a pattern matched as a whole. -/
def whole : Anchor := fun full => full

/- A field that the operation requires, as an argument. -/
def RequiredField (spec : OpSpec) (obj : List (PyStr × Json F)) (field : String) (fits : PyStr → Bool)
    (arg : Option PyStr) : Prop :=
  if field ∈ spec.required then
    ∃ s, Json.getItem obj (pyStr field) = some (.str s) ∧ fits s = true ∧ arg = some s
  else arg = none

/- A field that the operation allows, as an argument. -/
def OptionalField (spec : OpSpec) (obj : List (PyStr × Json F)) (field : String) (fits : PyStr → Bool)
    (arg : Option PyStr) : Prop :=
  if field ∈ spec.optional ∧
      (Json.getItem obj (pyStr field)).isSome then
    ∃ s, Json.getItem obj (pyStr field) = some (.str s) ∧ fits s = true ∧ arg = some s
  else arg = none

/- A fingerprint of an actor, where it is given. -/
def FingerprintField (anchor : Anchor) (members : List (PyStr × Json F)) (field : String)
    (arg : Option PyStr) : Prop :=
  match Json.getItem members (pyStr field) with
  | none => arg = none
  | some value => ∃ s, value = .str s ∧ anchor fingerprintPattern s = true ∧ arg = some s

/- The actor, where the operation allows it and it is given. -/
def ActorField (anchor : Anchor) (spec : OpSpec) (obj : List (PyStr × Json F)) (arg : Option Actor) : Prop :=
  if "actor" ∈ spec.optional ∧
      (Json.getItem obj (pyStr "actor")).isSome then
    ∃ members actor, Json.getItem obj (pyStr "actor") = some (.obj members) ∧
        (∀ m ∈ members, m.1 = pyStr "session_fp" ∨ m.1 = pyStr "stepup_fp") ∧
        FingerprintField anchor members "session_fp" actor.sessionFp ∧
        FingerprintField anchor members "stepup_fp" actor.stepupFp ∧
        arg = some actor
  else arg = none

/- The request and its arguments are those of an object. -/
structure Fits (anchor : Anchor) (obj : List (PyStr × Json F)) (r : RpcRequest) : Prop where
  op : Json.getItem obj (pyStr "op") = some (.str (pyStr r.op.name))
  known : ∀ m ∈ obj, m.1 ∈ r.op.spec.allowed
  version : Json.getItem obj (pyStr "v") = some (.str (pyStr "e3-rpc/1"))
  requestId :
    Json.getItem obj (pyStr "request_id") = some (.str r.args.requestId) ∧
      anchor requestIdPattern r.args.requestId = true
  name : RequiredField r.op.spec obj "name" (anchor namePattern) r.args.name
  reserved : r.args.name = some reservedName → r.op.spec.allowReserved = true
  key :
    RequiredField r.op.spec obj "idempotency_key" (anchor keyPattern) r.args.idempotencyKey
  device : RequiredField r.op.spec obj "device" namePattern r.args.device
  site :
    RequiredField r.op.spec obj "site_label" labelPattern r.args.siteLabel
  path :
    RequiredField r.op.spec obj "path_label" labelPattern r.args.pathLabel
  probe : OptionalField r.op.spec obj "probe_id" probePattern r.args.probeId
  cursor : OptionalField r.op.spec obj "cursor" probePattern r.args.cursor
  actor : ActorField anchor r.op.spec obj r.args.actor

/- The closed grammar: every text is one of its class. -/
def Grammar (frame : Json F) (r : RpcRequest) : Prop := ∃ obj, frame = .obj obj ∧ Fits whole obj r

-- Fields

theorem textField_eq_some_iff {fits : PyStr → Bool} {value : Option (Json F)}
    {s : PyStr} : textField fits value = some s ↔ value = some (.str s) ∧ fits s = true := by
  unfold textField
  split
  · next t =>
    by_cases hFits : fits t = true
    · rw [if_pos hFits]
      constructor
      · intro h
        cases h
        exact ⟨rfl, hFits⟩
      · rintro ⟨h, -⟩
        cases h
        rfl
    · rw [if_neg hFits]
      refine iff_of_false (fun h => nomatch h) ?_
      rintro ⟨h, hOther⟩
      cases h
      exact hFits hOther
  · next hNot =>
    refine iff_of_false (fun h => nomatch h) ?_
    rintro ⟨h, -⟩
    exact hNot s h

theorem requiredText_ok_iff {spec : OpSpec} {obj : List (PyStr × Json F)} {field : String}
    {fits : PyStr → Bool} {detail : String}
    {arg : Option PyStr} :
    requiredText spec obj field fits detail = .ok arg ↔
      RequiredField spec obj field fits arg := by
  unfold requiredText RequiredField
  by_cases hRequired : field ∈ spec.required
  · rw [if_pos hRequired, if_pos hRequired]
    cases hText : textField fits (Json.getItem obj (pyStr field)) with
    | some s =>
      obtain ⟨hItem, hFits⟩ := textField_eq_some_iff.mp hText
      constructor
      · intro h
        cases h
        exact ⟨s, hItem, hFits, rfl⟩
      · rintro ⟨t, hOther, -, rfl⟩
        rw [hItem] at hOther
        cases hOther
        rfl
    | none =>
      refine iff_of_false (fun h => nomatch h) ?_
      rintro ⟨t, hItem, hFits, -⟩
      rw [textField_eq_some_iff.mpr ⟨hItem, hFits⟩] at hText
      exact nomatch hText
  · rw [if_neg hRequired, if_neg hRequired]
    exact ⟨fun h => (Except.ok.inj h).symm, fun h => h ▸ rfl⟩

theorem optionalText_ok_iff {spec : OpSpec} {obj : List (PyStr × Json F)} {field : String}
    {fits : PyStr → Bool} {detail : String}
    {arg : Option PyStr} :
    optionalText spec obj field fits detail = .ok arg ↔
      OptionalField spec obj field fits arg := by
  unfold optionalText OptionalField
  cases hItem : Json.getItem obj (pyStr field) with
  | none =>
    rw [if_neg (fun h => nomatch h.2)]
    exact ⟨fun h => (Except.ok.inj h).symm, fun h => h ▸ rfl⟩
  | some value =>
    dsimp only
    by_cases hOptional : field ∈ spec.optional
    · rw [if_pos hOptional, if_pos ⟨hOptional, rfl⟩]
      cases hText : textField fits (some value) with
      | some s =>
        obtain ⟨hValue, hFits⟩ := textField_eq_some_iff.mp hText
        constructor
        · intro h
          cases h
          exact ⟨s, hValue, hFits, rfl⟩
        · rintro ⟨t, hOther, -, rfl⟩
          rw [hValue] at hOther
          cases hOther
          rfl
      | none =>
        refine iff_of_false (fun h => nomatch h) ?_
        rintro ⟨t, hValue, hFits, -⟩
        rw [textField_eq_some_iff.mpr ⟨hValue, hFits⟩] at hText
        exact nomatch hText
    · rw [if_neg hOptional, if_neg (fun h => hOptional h.1)]
      exact ⟨fun h => (Except.ok.inj h).symm, fun h => h ▸ rfl⟩

theorem validateName_ok_iff {spec : OpSpec} {obj : List (PyStr × Json F)} {arg : Option PyStr} :
    validateName spec obj = .ok arg ↔ RequiredField spec obj "name" (matchDollar namePattern) arg ∧
        (arg = some reservedName → spec.allowReserved = true) := by
  unfold validateName
  rw [except_bind_ok_iff]
  simp only [requiredText_ok_iff]
  constructor
  · rintro ⟨name, hField, hRest⟩
    by_cases hReserved : (decide (name = some reservedName) && !spec.allowReserved) = true
    · rw [if_pos hReserved] at hRest
      exact nomatch hRest
    · rw [if_neg hReserved] at hRest
      cases hRest
      refine ⟨hField, fun hName => ?_⟩
      simpa [hName] using hReserved
  · rintro ⟨hField, hReserved⟩
    refine ⟨arg, hField, ?_⟩
    rw [if_neg]
    intro h
    rw [Bool.and_eq_true, decide_eq_true_iff] at h
    rw [hReserved h.1] at h
    exact nomatch h.2

theorem validateFingerprint_ok_iff {members : List (PyStr × Json F)} {field : String} {arg : Option PyStr} :
    validateFingerprint members field = .ok arg ↔
      FingerprintField matchDollar members field arg := by
  unfold validateFingerprint FingerprintField
  cases Json.getItem members (pyStr field) with
  | none => exact ⟨fun h => (Except.ok.inj h).symm, fun h => h ▸ rfl⟩
  | some value =>
    dsimp only
    cases hText : textField (matchDollar fingerprintPattern) (some value) with
    | some s =>
      obtain ⟨hValue, hFits⟩ := textField_eq_some_iff.mp hText
      constructor
      · intro h
        cases h
        exact ⟨s, Option.some.inj hValue, hFits, rfl⟩
      · rintro ⟨t, hOther, -, rfl⟩
        rw [hOther] at hValue
        cases hValue
        rfl
    | none =>
      refine iff_of_false (fun h => nomatch h) ?_
      rintro ⟨t, rfl, hFits, -⟩
      rw [textField_eq_some_iff.mpr ⟨rfl, hFits⟩] at hText
      exact nomatch hText

theorem validateActor_ok_iff {spec : OpSpec} {obj : List (PyStr × Json F)} {arg : Option Actor} :
    validateActor spec obj = .ok arg ↔ ActorField matchDollar spec obj arg := by
  unfold validateActor ActorField
  cases hItem : Json.getItem obj (pyStr "actor") with
  | none =>
    rw [if_neg (fun h => nomatch h.2)]
    exact ⟨fun h => (Except.ok.inj h).symm, fun h => h ▸ rfl⟩
  | some value =>
    dsimp only
    by_cases hOptional : "actor" ∈ spec.optional
    · rw [if_pos hOptional, if_pos ⟨hOptional, rfl⟩]
      cases value with
      | obj members =>
        dsimp only
        by_cases hKeys : members.all (fun m =>
              m.1 == pyStr "session_fp" || m.1 == pyStr "stepup_fp") = true
        · rw [if_pos hKeys, except_bind_ok_iff]
          simp only [except_bind_ok_iff, validateFingerprint_ok_iff]
          constructor
          · rintro ⟨session, hSession, stepup, hStepup, h⟩
            cases h
            refine ⟨members, ⟨session, stepup⟩, rfl, ?_, hSession, hStepup, rfl⟩
            simpa [List.all_eq_true] using hKeys
          · rintro ⟨members', actor, hSame, -, hSession, hStepup, rfl⟩
            cases hSame
            exact ⟨actor.sessionFp, hSession, actor.stepupFp, hStepup, rfl⟩
        · rw [if_neg hKeys]
          refine iff_of_false (fun h => nomatch h) ?_
          rintro ⟨members', actor, hSame, hAll, -⟩
          cases hSame
          refine hKeys ?_
          simpa [List.all_eq_true] using hAll
      | null =>
        exact iff_of_false (fun h => nomatch h) (fun ⟨_, _, h, _⟩ => nomatch h)
      | bool b =>
        exact iff_of_false (fun h => nomatch h) (fun ⟨_, _, h, _⟩ => nomatch h)
      | int n =>
        exact iff_of_false (fun h => nomatch h) (fun ⟨_, _, h, _⟩ => nomatch h)
      | float x =>
        exact iff_of_false (fun h => nomatch h) (fun ⟨_, _, h, _⟩ => nomatch h)
      | str s =>
        exact iff_of_false (fun h => nomatch h) (fun ⟨_, _, h, _⟩ => nomatch h)
      | arr items =>
        exact iff_of_false (fun h => nomatch h) (fun ⟨_, _, h, _⟩ => nomatch h)
    · rw [if_neg hOptional, if_neg (fun h => hOptional h.1)]
      exact ⟨fun h => (Except.ok.inj h).symm, fun h => h ▸ rfl⟩

-- Requests

theorem find?_name (op : RpcOp) : RpcOp.all.find? (fun other =>
      pyStr other.name = pyStr op.name) = some op := by
  cases op <;> decide

theorem requestedOp_eq_some_iff {obj : List (PyStr × Json F)} {op : RpcOp} :
    requestedOp obj = some op ↔ Json.getItem obj (pyStr "op") = some (.str (pyStr op.name)) := by
  unfold requestedOp
  constructor
  · intro h
    split at h
    · next s hItem =>
      have hName := List.find?_some h
      rw [decide_eq_true_iff] at hName
      rw [hItem, hName]
    · exact nomatch h
  · intro h
    rw [h]
    exact find?_name op

theorem validateBase_ok_iff {spec : OpSpec} {obj : List (PyStr × Json F)} {requestId : PyStr} :
    validateBase spec obj = .ok requestId ↔ (∀ m ∈ obj, m.1 ∈ spec.allowed) ∧
        Json.getItem obj (pyStr "v") = some (.str (pyStr "e3-rpc/1")) ∧
        Json.getItem obj (pyStr "request_id") = some (.str requestId) ∧
          matchDollar requestIdPattern requestId = true := by
  unfold validateBase
  cases hUnknown : obj.find? (fun m => !spec.allowed.contains m.1) with
  | some m =>
    refine iff_of_false (fun h => nomatch h) ?_
    rintro ⟨hKnown, -⟩
    have hMem := List.mem_of_find?_eq_some hUnknown
    have hNot := List.find?_some hUnknown
    simp [hKnown m hMem] at hNot
  | none =>
    have hKnown : ∀ m ∈ obj, m.1 ∈ spec.allowed := by
      intro m hMem
      have hNot := List.find?_eq_none.mp hUnknown m hMem
      simpa using hNot
    dsimp only
    cases hVersion : textField (fun s => s == pyStr "e3-rpc/1") (Json.getItem obj (pyStr "v")) with
    | none =>
      refine iff_of_false (fun h => nomatch h) ?_
      rintro ⟨-, hItem, -⟩
      have hText : textField (fun s => s == pyStr "e3-rpc/1") (Json.getItem obj (pyStr "v")) =
            some (pyStr "e3-rpc/1") :=
        textField_eq_some_iff.mpr ⟨hItem, beq_self_eq_true _⟩
      exact nomatch hVersion.symm.trans hText
    | some version =>
      obtain ⟨hItem, hSame⟩ := textField_eq_some_iff.mp hVersion
      rw [beq_iff_eq] at hSame
      rw [hSame] at hItem
      dsimp only
      cases hId : textField (matchDollar requestIdPattern) (Json.getItem obj (pyStr "request_id")) with
      | none =>
        refine iff_of_false (fun h => nomatch h) ?_
        rintro ⟨-, -, hRequest⟩
        rw [textField_eq_some_iff.mpr hRequest] at hId
        exact nomatch hId
      | some found =>
        have hFound := textField_eq_some_iff.mp hId
        constructor
        · intro h
          cases h
          exact ⟨hKnown, hItem, hFound⟩
        · rintro ⟨-, -, hRequest, -⟩
          rw [hFound.1] at hRequest
          cases hRequest
          rfl

theorem validateRequired_ok_iff {spec : OpSpec} {obj : List (PyStr × Json F)} :
    validateRequired spec obj = .ok () ↔ ∀ field ∈ spec.required,
        (Json.getItem obj (pyStr field)).isSome = true := by
  unfold validateRequired
  cases hMissing : spec.required.find? (fun field => (Json.getItem obj (pyStr field)).isNone) with
  | some field =>
    refine iff_of_false (fun h => nomatch h) (fun h => ?_)
    have hNone := List.find?_some hMissing
    have hSome := h field (List.mem_of_find?_eq_some hMissing)
    rw [Option.isNone_iff_eq_none] at hNone
    rw [hNone] at hSome
    exact nomatch hSome
  | none =>
    refine iff_of_true rfl (fun field hMem => ?_)
    have hNot := List.find?_eq_none.mp hMissing field hMem
    rw [Option.isNone_iff_eq_none] at hNot
    exact Option.isSome_iff_ne_none.mpr hNot

theorem required_subset (op : RpcOp) : op.spec.required ⊆
      ["name", "idempotency_key", "device", "site_label", "path_label"] := by
  cases op <;> decide

theorem RequiredField.isSome {spec : OpSpec} {obj : List (PyStr × Json F)} {field : String}
    {fits : PyStr → Bool} {arg : Option PyStr} (h : RequiredField spec obj field fits arg)
    (hRequired : field ∈ spec.required) : (Json.getItem obj (pyStr field)).isSome = true := by
  unfold RequiredField at h
  rw [if_pos hRequired] at h
  obtain ⟨s, hItem, -⟩ := h
  rw [hItem]
  rfl

theorem Fits.required {anchor : Anchor} {obj : List (PyStr × Json F)} {r : RpcRequest}
    (h : Fits anchor obj r) : ∀ field ∈ r.op.spec.required,
      (Json.getItem obj (pyStr field)).isSome = true := by
  intro field hMem
  have hOne := required_subset r.op hMem
  simp only [List.mem_cons, List.not_mem_nil, or_false] at hOne
  rcases hOne with rfl | rfl | rfl | rfl | rfl
  · exact h.name.isSome hMem
  · exact h.key.isSome hMem
  · exact h.device.isSome hMem
  · exact h.site.isSome hMem
  · exact h.path.isSome hMem

theorem validateRequest_ok_iff (frame : Json F) (r : RpcRequest) :
    validateRequest frame = .ok r ↔ ∃ obj, frame = .obj obj ∧ Fits matchDollar obj r := by
  unfold validateRequest
  cases frame with
  | obj obj =>
    dsimp only
    cases hOp : requestedOp obj with
    | none =>
      refine iff_of_false (fun h => nomatch h) ?_
      rintro ⟨obj', hSame, hFits⟩
      cases hSame
      rw [requestedOp_eq_some_iff.mpr hFits.op] at hOp
      exact nomatch hOp
    | some op =>
      have hItem := requestedOp_eq_some_iff.mp hOp
      dsimp only
      simp only [except_bind_ok_iff, validateBase_ok_iff, validateName_ok_iff, requiredText_ok_iff,
        optionalText_ok_iff, validateActor_ok_iff]
      constructor
      · rintro ⟨requestId, ⟨hKnown, hVersion, hId⟩, ⟨⟩, -, name, ⟨hName, hReserved⟩, key, hKey, device,
          hDevice, site, hSite, path, hPath, probe, hProbe,
          cursor, hCursor, actor, hActor, h⟩
        cases h
        exact ⟨obj, rfl, hItem, hKnown, hVersion, hId, hName, hReserved, hKey, hDevice, hSite, hPath, hProbe,
          hCursor, hActor⟩
      · rintro ⟨obj', hSame, h⟩
        cases hSame
        have hOther := h.op
        rw [← requestedOp_eq_some_iff, hOp] at hOther
        cases hOther
        exact ⟨_, ⟨h.known, h.version, h.requestId⟩, (), validateRequired_ok_iff.mpr h.required, _,
          ⟨h.name, h.reserved⟩, _, h.key, _, h.device, _,
          h.site, _, h.path, _, h.probe, _, h.cursor, _,
          h.actor, rfl⟩
  | null => exact iff_of_false (fun h => nomatch h) (fun ⟨_, h, _⟩ => nomatch h)
  | bool b => exact iff_of_false (fun h => nomatch h) (fun ⟨_, h, _⟩ => nomatch h)
  | int n => exact iff_of_false (fun h => nomatch h) (fun ⟨_, h, _⟩ => nomatch h)
  | float x => exact iff_of_false (fun h => nomatch h) (fun ⟨_, h, _⟩ => nomatch h)
  | str s => exact iff_of_false (fun h => nomatch h) (fun ⟨_, h, _⟩ => nomatch h)
  | arr items => exact iff_of_false (fun h => nomatch h) (fun ⟨_, h, _⟩ => nomatch h)

-- Final Newlines

def EndsInNewline (value : Option (Json F)) : Prop := ∃ s, value = some (.str s) ∧ s.getLast? = some 10

/-
  No text that is matched up to a `$` ends in a newline: the
  name, the number, the key and the fingerprints.
-/
structure NoFinalNewline (frame : Json F) : Prop where
  fields : ∀ obj, frame = .obj obj → ∀ field ∈ ["request_id", "name", "idempotency_key"],
        ¬ EndsInNewline (Json.getItem obj (pyStr field))
  fingerprints :
    ∀ obj members, frame = .obj obj → Json.getItem obj (pyStr "actor") = some (.obj members) →
        ∀ field ∈ ["session_fp", "stepup_fp"], ¬ EndsInNewline (Json.getItem members (pyStr field))

theorem matchDollar_of_whole {full : PyStr → Bool} {s : PyStr}
    (h : full s = true) : matchDollar full s = true := by
  unfold matchDollar
  rw [h]
  rfl

theorem whole_of_matchDollar {full : PyStr → Bool} {s : PyStr} (h : matchDollar full s = true)
    (hLast : s.getLast? ≠ some 10) : full s = true := by
  unfold matchDollar at h
  rw [Bool.or_eq_true, Bool.and_eq_true, beq_iff_eq] at h
  exact h.resolve_right (fun hNewline => hLast hNewline.1)

theorem RequiredField.imp {spec : OpSpec} {obj : List (PyStr × Json F)} {field : String}
    {fits fits' : PyStr → Bool} {arg : Option PyStr}
    (h : RequiredField spec obj field fits arg)
    (hImp : ∀ s, Json.getItem obj (pyStr field) = some (.str s) → fits s = true → fits' s = true) :
    RequiredField spec obj field fits' arg := by
  unfold RequiredField at *
  by_cases hRequired : field ∈ spec.required
  · rw [if_pos hRequired] at *
    obtain ⟨s, hItem, hFits, hArg⟩ := h
    exact ⟨s, hItem, hImp s hItem hFits, hArg⟩
  · rw [if_neg hRequired] at *
    exact h

theorem FingerprintField.imp {anchor anchor' : Anchor} {members : List (PyStr × Json F)}
    {field : String} {arg : Option PyStr} (h : FingerprintField anchor members field arg)
    (hImp : ∀ s, Json.getItem members (pyStr field) = some (.str s) →
        anchor fingerprintPattern s = true → anchor' fingerprintPattern s = true) :
    FingerprintField anchor' members field arg := by
  unfold FingerprintField at *
  cases hItem : Json.getItem members (pyStr field) with
  | none =>
    rw [hItem] at h
    exact h
  | some value =>
    rw [hItem] at h
    obtain ⟨s, rfl, hFits, hArg⟩ := h
    exact ⟨s, rfl, hImp s hItem hFits, hArg⟩

theorem ActorField.imp {anchor anchor' : Anchor} {spec : OpSpec}
    {obj : List (PyStr × Json F)} {arg : Option Actor} (h : ActorField anchor spec obj arg)
    (hImp : ∀ members, Json.getItem obj (pyStr "actor") = some (.obj members) →
        ∀ field ∈ ["session_fp", "stepup_fp"], ∀ s, Json.getItem members (pyStr field) = some (.str s) →
            anchor fingerprintPattern s = true → anchor' fingerprintPattern s = true) :
    ActorField anchor' spec obj arg := by
  unfold ActorField at *
  by_cases hGiven : "actor" ∈ spec.optional ∧ (Json.getItem obj (pyStr "actor")).isSome = true
  · rw [if_pos hGiven] at *
    obtain ⟨members, actor, hItem, hKeys, hSession, hStepup, hArg⟩ := h
    exact ⟨members, actor, hItem, hKeys, hSession.imp (hImp members hItem _ (by decide)),
      hStepup.imp (hImp members hItem _ (by decide)), hArg⟩
  · rw [if_neg hGiven] at *
    exact h

theorem Fits.of_whole {obj : List (PyStr × Json F)} {r : RpcRequest}
    (h : Fits whole obj r) : Fits matchDollar obj r :=
  { h with
    requestId := ⟨h.requestId.1, matchDollar_of_whole h.requestId.2⟩
    name := h.name.imp (fun _ _ => matchDollar_of_whole)
    key := h.key.imp (fun _ _ => matchDollar_of_whole)
    actor := h.actor.imp (fun _ _ _ _ _ _ => matchDollar_of_whole) }

theorem Fits.to_whole {obj : List (PyStr × Json F)} {r : RpcRequest} (h : Fits matchDollar obj r)
    (hPlain : NoFinalNewline (.obj obj : Json F)) : Fits whole obj r := by
  have hField : ∀ field ∈ ["request_id", "name", "idempotency_key"],
        ∀ s, Json.getItem obj (pyStr field) = some (.str s) → s.getLast? ≠ some 10 :=
    fun field hMem s hItem hLast => hPlain.fields obj rfl field hMem ⟨s, hItem, hLast⟩
  exact
    { h with
      requestId :=
        ⟨h.requestId.1, whole_of_matchDollar h.requestId.2
          (hField _ (by decide) _ h.requestId.1)⟩
      name := h.name.imp (fun s hItem hFits =>
        whole_of_matchDollar hFits (hField _ (by decide) s hItem))
      key := h.key.imp (fun s hItem hFits =>
        whole_of_matchDollar hFits (hField _ (by decide) s hItem))
      actor := h.actor.imp
        (fun members hActor field hMem s hItem hFits =>
          whole_of_matchDollar hFits (fun hLast =>
            hPlain.fingerprints obj members rfl hActor field hMem
              ⟨s, hItem, hLast⟩)) }

theorem accepts_grammar {frame : Json F} {r : RpcRequest}
    (h : Grammar frame r) : validateRequest frame = .ok r := by
  obtain ⟨obj, hFrame, hFits⟩ := h
  exact (validateRequest_ok_iff frame r).mpr ⟨obj, hFrame, hFits.of_whole⟩

theorem grammar_of_accepted {frame : Json F} {r : RpcRequest} (h : validateRequest frame = .ok r)
    (hPlain : NoFinalNewline frame) : Grammar frame r := by
  obtain ⟨obj, rfl, hFits⟩ := (validateRequest_ok_iff frame r).mp h
  exact ⟨obj, rfl, hFits.to_whole hPlain⟩

end SingboxOps.ClientManagement
