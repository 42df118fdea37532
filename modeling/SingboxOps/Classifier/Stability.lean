import SingboxOps.Classifier.Totality

/-
  Exactly when the classifier returns whatever the order of
  the rows, and returns the same.
-/

namespace SingboxOps.Classifier

variable {F : Type} [BoundedFloat F]

-- Steady Evidence

/- Every key of the evidence names a section. -/
def KnownKeys (members : Members F) : Prop := members.all (fun m => m.1 ∈ evidenceSections) = true

/- No section is refused. -/
structure Acceptable (members : Members F) (w : Window F) : Prop where
  dicts : dictRefusals members = ∅
  rows : ∀ sec ∈ listSections, ¬ Bad (stopsIn members w sec)

/-
  Steady sections; and rows that pass the gate hold no number
  and no name the analysis fails on.
-/
structure MembersSteady (members : Members F) (w : Window F) : Prop where
  sections : SectionsSteady members w
  convertible : Acceptable members w → Convertible (readBundle members w)

/-
  The window can be read, and measured by it the sections are
  steady.
-/
def Steady (evidence : Json F) : Prop := match evidence with
  | .obj members =>
    ∃ window, validWindow (sectionOf members .window) = .ok window ∧
        (KnownKeys members → ∀ w, window = some w → MembersSteady members w)
  | _ => True

-- Refusals of Acceptable Sections

theorem outcome_eq_empty {sec : Section} {stops : Option (List Stop)}
    (h : outcome sec stops = .ok ∅) : ¬ Bad stops := by
  intro hBad
  cases stops with
  | none => exact Finset.singleton_ne_empty _ (Except.ok.inj h)
  | some l =>
    cases l with
    | nil => exact hBad rfl
    | cons s rest =>
      cases s with
      | shape => exact Finset.singleton_ne_empty _ (Except.ok.inj h)
      | outside => exact Finset.insert_ne_empty _ _ (Except.ok.inj h)
      | raised e => cases h

theorem acceptable_of_rowRefusals {members : Members F} {w : Window F}
    (h : rowRefusals members w = .ok ∅) : Acceptable members w := by
  rw [rowRefusals_eq] at h
  rcases except_bind_ok h with ⟨t1, h1, h⟩
  rcases except_bind_ok h with ⟨t2, h2, h⟩
  rcases except_bind_ok h with ⟨t3, h3, h⟩
  rcases except_bind_ok h with ⟨t4, h4, h⟩
  rcases except_bind_ok h with ⟨t5, h5, h⟩
  have hEmpty := Except.ok.inj h
  simp only [Finset.union_eq_empty] at hEmpty
  rcases hEmpty with ⟨⟨⟨⟨⟨hDicts, rfl⟩, rfl⟩, rfl⟩, rfl⟩, rfl⟩
  refine ⟨hDicts, ?_⟩
  intro sec hSec
  simp only [listSections, List.mem_cons, List.not_mem_nil, or_false] at hSec
  rcases hSec with rfl | rfl | rfl | rfl | rfl
  · exact outcome_eq_empty h1
  · exact outcome_eq_empty h2
  · exact outcome_eq_empty h3
  · exact outcome_eq_empty h4
  · exact outcome_eq_empty h5

theorem not_raises_of_not_bad {stops : Option (List Stop)} (h : ¬ Bad stops) : ¬ Raises stops := by
  intro hRaises
  rcases hRaises with ⟨l, hl, e, hMem⟩
  have hNil : stops = some [] := not_not.mp h
  rw [hNil] at hl
  cases hl
  cases hMem

theorem rowRefusals_of_acceptable {members : Members F} {w : Window F}
    (h : Acceptable members w) : rowRefusals members w = .ok ∅ := by
  rcases rowRefusals_ok (fun sec hSec =>
    not_raises_of_not_bad (h.rows sec hSec)) with
    ⟨tokens, hTokens, hMem⟩
  have hEmpty : tokens = ∅ := by
    apply Finset.eq_empty_of_forall_notMem
    intro t ht
    rcases (hMem t).mp ht with
      hDict | ⟨sec, hSec, _, hBad⟩ | ⟨_, sec, hSec, l, hl, hHead⟩
    · rw [h.dicts] at hDict
      cases hDict
    · exact h.rows sec hSec hBad
    · apply h.rows sec hSec
      intro hNil
      rw [hNil] at hl
      cases hl
      cases hHead
  rw [hTokens, hEmpty]

theorem rowRefusals_empty_iff {members : Members F}
    {w : Window F} : rowRefusals members w = .ok ∅ ↔ Acceptable members w :=
  ⟨acceptable_of_rowRefusals, rowRefusals_of_acceptable⟩

theorem Acceptable.steady {members : Members F} {w : Window F}
    (h : Acceptable members w) : SectionsSteady members w where
  noRaise sec hSec := not_raises_of_not_bad (h.rows sec hSec)
  unmixed := by
    left
    intro sec hSec hMixed
    rcases hMixed with ⟨l, hl, hShape, _⟩
    have hNil : stopsIn members w sec = some [] := not_not.mp (h.rows sec hSec)
    rw [hNil] at hl
    cases hl
    cases hShape

theorem acceptable_reordered {members members' : Members F} {w : Window F}
    (h : List.Forall₂ MemberReordered members members') :
    Acceptable members' w ↔ Acceptable members w := by
  constructor
  · intro hAcceptable
    refine ⟨?_, ?_⟩
    · rw [← dictRefusals_reordered h]
      exact hAcceptable.dicts
    · intro sec hSec hBad
      apply hAcceptable.rows sec hSec
      exact (sameStops_of_reordered h w sec).bad.mpr hBad
  · intro hAcceptable
    refine ⟨?_, ?_⟩
    · rw [dictRefusals_reordered h]
      exact hAcceptable.dicts
    · intro sec hSec hBad
      apply hAcceptable.rows sec hSec
      exact (sameStops_of_reordered h w sec).bad.mp hBad

-- What Is Detected

/- The detection of evidence refused with a valid window. -/
def refusedAs (w : Window F) (tokens : Finset UnknownToken) : Detection F :=
  ⟨sealed .indeterminate .insufficient ⟨w.start, w.stop, w.buckets⟩ ⟨∅, tokens⟩, [], none, none⟩

theorem refusedAs_unknowns (w : Window F) (tokens : Finset UnknownToken) :
    (refusedAs w tokens).classification.unknowns = tokens := by
  rfl

/- What an unusable window is echoed as. -/
def refusedBlind (tokens : Finset UnknownToken) : Detection F :=
  ⟨sealed .indeterminate .insufficient ⟨PyFloat.round 0, PyFloat.round 0, 0⟩ ⟨∅, tokens⟩, [], none, none⟩

theorem refusedDetection_obj (members : Members F) (tokens : Finset UnknownToken) :
    refusedDetection (.obj members) tokens = (validWindow (sectionOf members .window)).map
        (fun window => window.elim (refusedBlind tokens) (fun w => refusedAs w tokens)) := by
  unfold refusedDetection echoWindow
  dsimp only
  cases validWindow (sectionOf members .window) with
  | error e => rfl
  | ok window =>
    cases window with
    | none => rfl
    | some w => rfl

theorem detect_obj (members : Members F) : detect (.obj members) = (do
      let tokens ← refusals (.obj members)
      if tokens ≠ ∅ then refusedDetection (.obj members) tokens
      else
        match windowIn members with
        | some w => do
            let verdict ← analyse (readBundle members w)
            pure (detectionOf w.start verdict)
        | none => refusedDetection (.obj members) tokens) := by
  rfl

theorem detect_window_error {members : Members F} {e : Raised}
    (h : validWindow (sectionOf members .window) = .error e) :
    detect (.obj members) = .error e := by
  have hRefused : ∀ tokens, refusedDetection (.obj members) tokens = .error e := by
    intro tokens
    rw [refusedDetection_obj, h]
    rfl
  rw [detect_obj]
  unfold refusals
  by_cases hKnown : KnownKeys members
  · unfold KnownKeys at hKnown
    simp only [hKnown, Bool.not_true, Bool.false_eq_true, if_false]
    rw [h]
    rfl
  · unfold KnownKeys at hKnown
    rw [Bool.not_eq_true] at hKnown
    simp only [hKnown, Bool.not_false, if_true]
    exact hRefused _

theorem detect_unread {members : Members F} {window : Option (Window F)}
    (hWindow : validWindow (sectionOf members .window) = .ok window)
    (h : KnownKeys members → window = none) :
    ∃ tokens, tokens ≠ ∅ ∧ refusals (.obj members) = .ok tokens ∧
      ∃ d, refusedDetection (.obj members) tokens = .ok d := by
  have hEcho : ∀ tokens, ∃ d, refusedDetection (.obj members) tokens = .ok d := by
    intro tokens
    rw [refusedDetection_obj, hWindow]
    exact ⟨_, rfl⟩
  unfold refusals
  by_cases hKnown : KnownKeys members
  · have hNone := h hKnown
    subst hNone
    unfold KnownKeys at hKnown
    refine ⟨{.evidenceRejected .window}, Finset.singleton_ne_empty _, ?_, hEcho _⟩
    simp only [hKnown, Bool.not_true, Bool.false_eq_true, if_false]
    rw [hWindow]
    rfl
  · unfold KnownKeys at hKnown
    rw [Bool.not_eq_true] at hKnown
    refine ⟨{.evidenceShapeRejected}, Finset.singleton_ne_empty _, ?_, hEcho _⟩
    simp only [hKnown, Bool.not_false, if_true]

/- Evidence whose rows are read. -/
theorem detect_read {members : Members F} {w : Window F}
    (hWindow : validWindow (sectionOf members .window) = .ok (some w))
    (hKnown : KnownKeys members) : detect (.obj members) = (do
      let tokens ← rowRefusals members w
      if tokens ≠ ∅ then pure (refusedAs w tokens)
      else do
        let verdict ← analyse (readBundle members w)
        pure (detectionOf w.start verdict)) := by
  have hRefusals : refusals (.obj members) = rowRefusals members w := by
    unfold KnownKeys at hKnown
    unfold refusals
    simp only [hKnown, Bool.not_true, Bool.false_eq_true, if_false]
    rw [hWindow]
    rfl
  have hRefused : ∀ tokens, refusedDetection (.obj members) tokens = .ok (refusedAs w tokens) := by
    intro tokens
    rw [refusedDetection_obj, hWindow]
    rfl
  have hIn : windowIn members = some w := by
    unfold windowIn
    rw [hWindow]
  rw [detect_obj, hRefusals, hIn]
  simp only [hRefused]
  rfl

-- Reordered Evidence

theorem window_reordered {members members' : Members F} (h : List.Forall₂ MemberReordered members members') :
    sectionOf members' .window = sectionOf members .window := by
  unfold sectionOf
  rw [(getItem_reordered h _).1 (by decide)]

theorem knownKeys_reordered {members members' : Members F}
    (h : List.Forall₂ MemberReordered members members') :
    KnownKeys members' ↔ KnownKeys members := by
  have hAll : ∀ l : Members F, l.all (fun m => m.1 ∈ evidenceSections) =
          (l.map Prod.fst).all (fun key => key ∈ evidenceSections) := by
    intro l
    rw [List.all_map]
    rfl
  unfold KnownKeys
  rw [hAll, hAll, keys_reordered h]

theorem stable_of_unread {members : Members F} {window : Option (Window F)}
    (hWindow : validWindow (sectionOf members .window) = .ok window)
    (h : KnownKeys members → window = none) : Stable (.obj members) := by
  rcases detect_unread hWindow h with ⟨tokens, hTokens, hRefusals, d, hRefused⟩
  refine ⟨d, ?_⟩
  have hAll : ∀ members', List.Forall₂ MemberReordered members members' → detect (.obj members') = .ok d := by
    intro members' hReordered
    have hRefusals' : refusals (.obj members') = .ok tokens := by
      rw [← hRefusals]
      unfold refusals
      have hKeys := knownKeys_reordered hReordered
      unfold KnownKeys at hKeys
      have hSame := Bool.eq_iff_iff.mpr hKeys
      dsimp only
      rw [hSame, window_reordered hReordered, hWindow]
      by_cases hKnown : KnownKeys members
      · rw [h hKnown]
        rfl
      · unfold KnownKeys at hKnown
        rw [Bool.not_eq_true] at hKnown
        rw [hKnown]
        rfl
    have hRefused' : refusedDetection (.obj members') tokens = .ok d := by
      rw [← hRefused, refusedDetection_obj, refusedDetection_obj, window_reordered hReordered]
    rw [detect_obj, hRefusals']
    change (if tokens ≠ ∅ then _ else _) = _
    rw [if_pos hTokens]
    exact hRefused'
  intro evidence' hReordered
  cases hReordered with
  | same _ =>
    apply hAll
    exact List.forall₂_same.mpr (fun m _ => .same m)
  | sections _ members' hMembers => exact hAll members' hMembers

/- A window that reads, with its rows, in every order. -/
theorem detect_read_reordered {members members' : Members F} {w : Window F}
    (hWindow : validWindow (sectionOf members .window) = .ok (some w))
    (hKnown : KnownKeys members)
    (h : List.Forall₂ MemberReordered members members') : detect (.obj members') = (do
      let tokens ← rowRefusals members' w
      if tokens ≠ ∅ then pure (refusedAs w tokens)
      else do
        let verdict ← analyse (readBundle members' w)
        pure (detectionOf w.start verdict)) := by
  apply detect_read
  · rw [window_reordered h]
    exact hWindow
  · exact (knownKeys_reordered h).mpr hKnown

theorem stable_of_reordered {members : Members F} {d : Detection F} (h : ∀ members',
      List.Forall₂ MemberReordered members members' → detect (.obj members') = .ok d) :
    Stable (.obj members) := by
  refine ⟨d, ?_⟩
  intro evidence' hReordered
  cases hReordered with
  | same _ =>
    apply h
    exact List.forall₂_same.mpr (fun m _ => .same m)
  | sections _ members' hMembers => exact h members' hMembers

theorem stable_of_read {members : Members F} {w : Window F}
    (hWindow : validWindow (sectionOf members .window) = .ok (some w))
    (hKnown : KnownKeys members)
    (h : MembersSteady members w) : Stable (.obj members) := by
  rcases rowRefusals_ok h.sections.noRaise with ⟨tokens, hTokens, _⟩
  by_cases hEmpty : tokens = ∅
  · subst hEmpty
    have hConvertible := h.convertible (rowRefusals_empty_iff.mp hTokens)
    rcases analyse_returns_iff.mpr hConvertible with ⟨verdict, hVerdict⟩
    apply stable_of_reordered (d := detectionOf w.start verdict)
    intro members' hReordered
    have hAnalyse : analyse (readBundle members' w) = .ok verdict := by
      rw [← hVerdict]
      exact analyse_reordered hConvertible.names (readBundle_reordered hReordered w)
    rw [detect_read_reordered hWindow hKnown hReordered,
      rowRefusals_reordered h.sections hReordered, hTokens, hAnalyse]
    rfl
  · apply stable_of_reordered (d := refusedAs w tokens)
    intro members' hReordered
    rw [detect_read_reordered hWindow hKnown hReordered, rowRefusals_reordered h.sections hReordered, hTokens]
    change (if tokens ≠ ∅ then _ else _) = _
    rw [if_pos hEmpty]
    rfl

-- Stable Evidence Is Steady

theorem Stable.detects {members members' : Members F} {d : Detection F}
    (h : ∀ evidence', Reordered (.obj members) evidence' → detect evidence' = .ok d)
    (hReordered : List.Forall₂ MemberReordered members members') :
    detect (.obj members') = .ok d :=
  h _ (.sections members members' hReordered)

/- What a detection says of the refusals. -/
theorem refusals_of_detect {members : Members F} {w : Window F} {d : Detection F} (h : (do
      let tokens ← rowRefusals members w
      if tokens ≠ ∅ then pure (refusedAs w tokens)
      else do
        let verdict ← analyse (readBundle members w)
        pure (detectionOf w.start verdict)) = Except.ok d) :
    (∃ tokens, tokens ≠ ∅ ∧ rowRefusals members w = .ok tokens ∧ d = refusedAs w tokens) ∨
      (Acceptable members w ∧ Convertible (readBundle members w)) := by
  rcases except_bind_ok h with ⟨tokens, hTokens, h⟩
  split at h
  · rename_i hNe
    cases h
    exact Or.inl ⟨tokens, hNe, hTokens, rfl⟩
  · rename_i hEmpty
    rw [not_not] at hEmpty
    subst hEmpty
    rcases except_bind_ok h with ⟨verdict, hVerdict, _⟩
    exact Or.inr ⟨rowRefusals_empty_iff.mp hTokens, analyse_returns_iff.mp ⟨verdict, hVerdict⟩⟩

theorem membersSteady_of_stable {members : Members F} {w : Window F}
    (hWindow : validWindow (sectionOf members .window) = .ok (some w))
    (hKnown : KnownKeys members)
    (h : Stable (.obj members)) : MembersSteady members w := by
  rcases h with ⟨d, h⟩
  have hRead : ∀ members', List.Forall₂ MemberReordered members members' →
        (∃ tokens, tokens ≠ ∅ ∧ rowRefusals members' w = .ok tokens ∧ d = refusedAs w tokens) ∨
          (Acceptable members' w ∧ Convertible (readBundle members' w)) := by
    intro members' hReordered
    apply refusals_of_detect
    rw [← detect_read_reordered hWindow hKnown hReordered]
    exact Stable.detects h hReordered
  have hSelf : List.Forall₂ MemberReordered members members := List.forall₂_same.mpr (fun m _ => .same m)
  rcases hRead members hSelf with ⟨tokens, hNe, hTokens, hRefused⟩ | ⟨hAcceptable, hConvertible⟩
  · have hNot : ¬ Acceptable members w := by
      intro hAcceptable
      rw [rowRefusals_of_acceptable hAcceptable] at hTokens
      exact hNe (Except.ok.inj hTokens).symm
    refine ⟨?_, fun hAcceptable => absurd hAcceptable hNot⟩
    apply sectionsSteady_of_refusals tokens
    intro members' hReordered
    rcases hRead members' hReordered with ⟨tokens', _, hTokens', hRefused'⟩ | ⟨hAcceptable, _⟩
    · have hSame : refusedAs w tokens' = refusedAs w tokens := hRefused'.symm.trans hRefused
      have hUnknowns := congrArg (fun d => d.classification.unknowns) hSame
      rw [refusedAs_unknowns, refusedAs_unknowns] at hUnknowns
      rw [hTokens', hUnknowns]
    · exact absurd ((acceptable_reordered hReordered).mp hAcceptable) hNot
  · exact ⟨hAcceptable.steady, fun _ => hConvertible⟩

/- Exactly on steady evidence does the order decide nothing. -/
theorem stable_iff_steady (evidence : Json F) : Stable evidence ↔ Steady evidence := by
  cases evidence with
  | obj members =>
    constructor
    · intro h
      cases hWindow : validWindow (sectionOf members .window) with
      | error e =>
        rcases h with ⟨d, h⟩
        have hDetect := h _ (.same _)
        rw [detect_window_error hWindow] at hDetect
        cases hDetect
      | ok window =>
        refine ⟨window, hWindow, ?_⟩
        intro hKnown w hw
        subst hw
        exact membersSteady_of_stable hWindow hKnown h
    · intro h
      rcases h with ⟨window, hWindow, h⟩
      by_cases hUnread : KnownKeys members → window = none
      · exact stable_of_unread hWindow hUnread
      · push Not at hUnread
        rcases hUnread with ⟨hKnown, hSome⟩
        rcases Option.ne_none_iff_exists'.mp hSome with ⟨w, rfl⟩
        exact stable_of_read hWindow hKnown (h hKnown w rfl)
  | _ =>
    apply iff_of_true
    · refine ⟨refusedBlind {.evidenceShapeRejected}, ?_⟩
      intro evidence' hReordered
      cases hReordered
      rfl
    · exact True.intro

/- A device row named by a list. -/
def namelessDevice : Json (IntGrid (2 ^ 53)) := namedFields [("window", namedFields
        [("start_epoch", .int 600), ("end_epoch", .int 900)]),
      ("health", namedFields [("enabled", .bool true), ("degraded", .bool false),
          ("last_error_code", .null)]),
      ("reader", namedFields [("status", .str (pyStr "fresh"))]),
      ("samples", .arr []),
      ("device_states", .arr [namedFields [("epoch", .int 600), ("device", .arr []),
            ("inbound", .str (pyStr "vless-in")),
            ("active_connections", .int 0),
            ("reason", .str (pyStr "heartbeat"))]]),
      ("probe_rows", .arr []), ("journal_events", .arr []),
      ("audit", .arr [])]

/- The classifier raises on it. -/
theorem not_stable_namelessDevice : ¬ ∀ evidence : Json (IntGrid (2 ^ 53)), Stable evidence := by
  intro h
  rcases h namelessDevice with ⟨d, hDetect⟩
  have hRaised : (detect namelessDevice).toOption.isNone = true := by decide +kernel
  rw [hDetect _ (.same _)] at hRaised
  cases hRaised

end SingboxOps.Classifier
