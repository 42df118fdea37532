import SingboxOps.Classifier.Attribution
import Mathlib.Data.List.Perm.Basic

/-
  When the classifier returns, and when the order of the rows
  does not matter.

  A section's scan stops at its first bad row, so its refusal
  is what stands first among the stops of its rows.  The
  statistics of accepted rows are sums, counts, sets and
  maxima, which no order changes.
-/

namespace SingboxOps.Classifier

open JournalIngest (field hasExactly)

variable {F : Type} [BoundedFloat F]

-- Reordered Evidence

/- `LIST_SECTIONS` -/
def listSections : List Section := [.samples, .deviceStates, .probeRows, .journalEvents, .audit]

/- The list section a key names. -/
def sectionNamed (key : PyStr) : Option Section := listSections.find? (fun sec => sec.token = key)

/- A member with the rows of a list section rearranged. -/
inductive MemberReordered :
    PyStr × Json F → PyStr × Json F → Prop where
  | same (m : PyStr × Json F) : MemberReordered m m
  | rows (key : PyStr) (rows rows' : List (Json F)) :
      (sectionNamed key).isSome →
      rows.Perm rows' →
      MemberReordered (key, .arr rows) (key, .arr rows')

/- Evidence with the rows of its list sections rearranged. -/
inductive Reordered : Json F → Json F → Prop where
  | same (evidence : Json F) : Reordered evidence evidence
  | sections (members members' : Members F) :
      List.Forall₂ MemberReordered members members' →
      Reordered (.obj members) (.obj members')

/-
  The classifier returns, and returns the same for every order
  of the rows.
-/
def Stable (evidence : Json F) : Prop :=
  ∃ d, ∀ evidence', Reordered evidence evidence' → detect evidence' = .ok d

/- Two values of a section, equal up to the order of rows. -/
def SameRows (v v' : Json F) : Prop := v = v' ∨ ∃ rows rows',
    v = .arr rows ∧ v' = .arr rows' ∧ rows.Perm rows'

theorem sectionNamed_token {sec : Section} (h : sec ∈ listSections) : sectionNamed sec.token = some sec := by
  revert sec
  decide

theorem getItem_reordered {members members' : Members F} (h : List.Forall₂ MemberReordered members members')
    (key : PyStr) :
    (sectionNamed key = none → Json.getItem members' key = Json.getItem members key) ∧
      SameRows ((Json.getItem members key).getD .null) ((Json.getItem members' key).getD .null) := by
  induction h with
  | nil => exact ⟨fun _ => rfl, Or.inl rfl⟩
  | cons hMember hRest ih =>
    cases hMember with
    | same m =>
      simp only [Json.getItem]
      split
      · exact ⟨fun _ => rfl, Or.inl rfl⟩
      · exact ih
    | rows k rows rows' hSection hPerm =>
      simp only [Json.getItem]
      split
      · rename_i hKey
        constructor
        · intro hNone
          rw [hKey, hNone] at hSection
          cases hSection
        · exact Or.inr ⟨rows, rows', rfl, rfl, hPerm⟩
      · exact ih

theorem keys_reordered {members members' : Members F} (h : List.Forall₂ MemberReordered members members') :
    members'.map Prod.fst = members.map Prod.fst := by
  induction h with
  | nil => rfl
  | cons hMember hRest ih =>
    cases hMember with
    | same m => rw [List.map_cons, List.map_cons, ih]
    | rows k rows rows' hSection hPerm => rw [List.map_cons, List.map_cons, ih]

-- Stops

/- Why a check stopped at a row. -/
def stopOf {α : Type} (gate : Gate α) : Option Stop := match gate with
  | .ok _ => none
  | .error s => some s

/- `_row_reason` -/
def rowReason (w : Window F) (sec : Section) (row : Json F) : Option Stop := match sec with
  | .samples => stopOf (readSample w.start w.stop row)
  | .deviceStates => stopOf (readDevice w.start w.stop row)
  | .probeRows => stopOf (readProbe w.start w.stop row)
  | .journalEvents => stopOf (readJournal w.start w.stop row)
  | .audit => stopOf (readAudit w.start w.stop row)
  | _ => some .shape

/- The stops of a section's rows, where it has rows to scan. -/
def sectionStops (w : Window F) (sec : Section) (value : Json F) : Option (List Stop) :=
  match value with
  | .arr rows =>
    if maxRecordsPerSection < rows.length then none
    else some (rows.filterMap (rowReason w sec))
  | _ => none

/- What a scan makes of the first stop. -/
def scanned (sec : Section) (first : Option Stop) : Except Raised (Finset UnknownToken) :=
  match first with
  | none => .ok ∅
  | some .shape => .ok {.evidenceRejected sec}
  | some .outside => .ok {.evidenceOutsideWindow, .evidenceRejected sec}
  | some (.raised e) => .error e

/- What becomes of a section with these stops. -/
def outcome (sec : Section) (stops : Option (List Stop)) : Except Raised (Finset UnknownToken) :=
  match stops with
  | none => .ok {.evidenceRejected sec}
  | some stops => scanned sec stops.head?

theorem scanRows_eq {α : Type} (sec : Section) (read : Json F → Gate α) (rows : List (Json F)) :
    scanRows sec read rows = scanned sec (rows.filterMap (fun row => stopOf (read row))).head? := by
  induction rows with
  | nil => rfl
  | cons row rows ih =>
    rw [scanRows, List.filterMap_cons]
    cases hRead : read row with
    | ok a => simpa [stopOf] using ih
    | error s => cases s <;> rfl

theorem sectionRefusals_eq {α : Type} (w : Window F) (sec : Section) {read : Json F → Gate α}
    (hRead : ∀ row, rowReason w sec row = stopOf (read row))
    (value : Json F) :
    sectionRefusals sec read value = outcome sec (sectionStops w sec value) := by
  cases value with
  | arr rows =>
    simp only [sectionRefusals, sectionStops]
    split
    · rfl
    · rw [scanRows_eq, outcome]
      simp only [hRead]
  | _ => rfl

/- The refusals of the two object sections. -/
def dictRefusals (members : Members F) : Finset UnknownToken :=
  (if (readHealth (sectionOf members .health)).isSome then ∅
    else {UnknownToken.evidenceRejected .health}) ∪
  (if (readReader (sectionOf members .reader)).isSome then ∅
    else {UnknownToken.evidenceRejected .reader})

/- The scan of a section of the evidence. -/
def sectionOutcome (members : Members F) (w : Window F)
    (sec : Section) : Except Raised (Finset UnknownToken) :=
  outcome sec (sectionStops w sec (sectionOf members sec))

theorem rowRefusals_eq (members : Members F) (w : Window F) : rowRefusals members w = (do
      let samples ← sectionOutcome members w .samples
      let devices ← sectionOutcome members w .deviceStates
      let probes ← sectionOutcome members w .probeRows
      let journal ← sectionOutcome members w .journalEvents
      let audit ← sectionOutcome members w .audit
      pure (dictRefusals members ∪ samples ∪ devices ∪ probes ∪ journal ∪ audit)) := by
  unfold rowRefusals sectionOutcome
  dsimp only
  rw [sectionRefusals_eq w .samples (fun _ => rfl), sectionRefusals_eq w .deviceStates (fun _ => rfl),
    sectionRefusals_eq w .probeRows (fun _ => rfl),
    sectionRefusals_eq w .journalEvents (fun _ => rfl),
    sectionRefusals_eq w .audit (fun _ => rfl)]
  rfl

-- Which Refusals a Scan Gives

/- A section that is no list of acceptable rows. -/
def Bad (stops : Option (List Stop)) : Prop := stops ≠ some []

/- The scan stops at a row outside the window. -/
def HeadOutside (stops : Option (List Stop)) : Prop := ∃ l, stops = some l ∧ l.head? = some .outside

/- Some row raises. -/
def Raises (stops : Option (List Stop)) : Prop := ∃ l, stops = some l ∧ ∃ e, Stop.raised e ∈ l

/- A row of the wrong shape beside one outside the window. -/
def Mixed (stops : Option (List Stop)) : Prop := ∃ l, stops = some l ∧ Stop.shape ∈ l ∧ Stop.outside ∈ l

/- Every bad row lies outside the window, and there is one. -/
def OutsideOnly (stops : Option (List Stop)) : Prop := ∃ l, stops = some l ∧ Stop.shape ∉ l ∧ Stop.outside ∈ l

/- The stops of a section of the evidence. -/
def stopsIn (members : Members F) (w : Window F) (sec : Section) : Option (List Stop) :=
  sectionStops w sec (sectionOf members sec)

/-
  The order of the rows decides nothing: no row raises, and
  where a section mixes rows of the wrong shape with rows
  outside the window, another names the latter anyway.
-/
structure SectionsSteady (members : Members F) (w : Window F) : Prop where
  noRaise : ∀ sec ∈ listSections, ¬ Raises (stopsIn members w sec)
  unmixed :
    (∀ sec ∈ listSections, ¬ Mixed (stopsIn members w sec)) ∨
      ∃ sec ∈ listSections, OutsideOnly (stopsIn members w sec)

theorem outcome_ok (sec : Section) {stops : Option (List Stop)} (h : ¬ Raises stops) :
    ∃ tokens, outcome sec stops = .ok tokens ∧ ∀ t, t ∈ tokens ↔
        (t = .evidenceRejected sec ∧ Bad stops) ∨ (t = .evidenceOutsideWindow ∧ HeadOutside stops) := by
  cases stops with
  | none =>
    refine ⟨_, rfl, ?_⟩
    intro t
    simp [Bad, HeadOutside]
  | some l =>
    cases l with
    | nil =>
      refine ⟨_, rfl, ?_⟩
      intro t
      simp [Bad, HeadOutside]
    | cons s rest =>
      cases s with
      | shape =>
        refine ⟨_, rfl, ?_⟩
        intro t
        simp [Bad, HeadOutside]
      | outside =>
        refine ⟨_, rfl, ?_⟩
        intro t
        simp [Bad, HeadOutside, or_comm]
      | raised e => exact absurd ⟨_, rfl, e, List.mem_cons_self⟩ h

theorem outcome_error {sec : Section} {l : List Stop} {e : Raised}
    (h : l.head? = some (.raised e)) : outcome sec (some l) = .error e := by
  rw [outcome, h]
  rfl

theorem rowRefusals_ok {members : Members F} {w : Window F}
    (h : ∀ sec ∈ listSections, ¬ Raises (stopsIn members w sec)) :
    ∃ tokens, rowRefusals members w = .ok tokens ∧ ∀ t, t ∈ tokens ↔ t ∈ dictRefusals members ∨
          (∃ sec ∈ listSections, t = .evidenceRejected sec ∧ Bad (stopsIn members w sec)) ∨
          (t = .evidenceOutsideWindow ∧ ∃ sec ∈ listSections, HeadOutside (stopsIn members w sec)) := by
  rcases outcome_ok .samples (h .samples (by decide))
    with ⟨t1, h1, hMem1⟩
  rcases outcome_ok .deviceStates (h .deviceStates (by decide)) with ⟨t2, h2, hMem2⟩
  rcases outcome_ok .probeRows (h .probeRows (by decide)) with ⟨t3, h3, hMem3⟩
  rcases outcome_ok .journalEvents (h .journalEvents (by decide)) with ⟨t4, h4, hMem4⟩
  rcases outcome_ok .audit (h .audit (by decide)) with ⟨t5, h5, hMem5⟩
  refine ⟨dictRefusals members ∪ t1 ∪ t2 ∪ t3 ∪ t4 ∪ t5, ?_, ?_⟩
  · rw [rowRefusals_eq]
    simp only [sectionOutcome]
    unfold stopsIn at h1 h2 h3 h4 h5
    rw [h1, h2, h3, h4, h5]
    rfl
  · intro t
    simp only [Finset.mem_union, hMem1, hMem2, hMem3, hMem4,
      hMem5, listSections, List.mem_cons, List.not_mem_nil,
      or_false, exists_eq_or_imp, exists_eq_left, and_or_left]
    apply Iff.of_eq
    ac_rfl

theorem rowRefusals_error {members : Members F} {w : Window F}
    (h : ∃ sec ∈ listSections, ∃ e, sectionOutcome members w sec = .error e) :
    ∃ e, rowRefusals members w = .error e := by
  rw [rowRefusals_eq]
  cases h1 : sectionOutcome members w .samples with
  | error e => exact ⟨e, rfl⟩
  | ok t1 =>
  cases h2 : sectionOutcome members w .deviceStates with
  | error e => exact ⟨e, rfl⟩
  | ok t2 =>
  cases h3 : sectionOutcome members w .probeRows with
  | error e => exact ⟨e, rfl⟩
  | ok t3 =>
  cases h4 : sectionOutcome members w .journalEvents with
  | error e => exact ⟨e, rfl⟩
  | ok t4 =>
  cases h5 : sectionOutcome members w .audit with
  | error e => exact ⟨e, rfl⟩
  | ok t5 =>
    rcases h with ⟨sec, hSec, e, hError⟩
    simp only [listSections, List.mem_cons, List.not_mem_nil, or_false] at hSec
    rcases hSec with rfl | rfl | rfl | rfl | rfl <;>
    simp_all

-- Rearranged Sections

/- Two sections' stops, equal up to order. -/
def SameStops (stops stops' : Option (List Stop)) : Prop :=
  (stops = none ∧ stops' = none) ∨ ∃ l l', stops = some l ∧ stops' = some l' ∧ l.Perm l'

theorem sameStops_of_reordered {members members' : Members F}
    (h : List.Forall₂ MemberReordered members members') (w : Window F)
    (sec : Section) : SameStops (stopsIn members w sec) (stopsIn members' w sec) := by
  unfold stopsIn
  rcases (getItem_reordered h sec.token).2 with
    hSame | ⟨rows, rows', hRows, hRows', hPerm⟩
  · have hEq : sectionOf members' sec = sectionOf members sec := hSame.symm
    rw [hEq]
    cases hStops : sectionStops w sec (sectionOf members sec) with
    | none => exact Or.inl ⟨rfl, rfl⟩
    | some l => exact Or.inr ⟨l, l, rfl, rfl, List.Perm.refl l⟩
  · have hOf : sectionOf members sec = .arr rows := hRows
    have hOf' : sectionOf members' sec = .arr rows' := hRows'
    rw [hOf, hOf']
    simp only [sectionStops, hPerm.length_eq]
    split
    · exact Or.inl ⟨rfl, rfl⟩
    · exact Or.inr ⟨_, _, rfl, rfl, hPerm.filterMap _⟩

theorem SameStops.raises {stops stops' : Option (List Stop)}
    (h : SameStops stops stops') : Raises stops' → Raises stops := by
  rintro ⟨l, hl, e, hMem⟩
  rcases h with ⟨rfl, rfl⟩ | ⟨m, m', rfl, rfl, hPerm⟩
  · cases hl
  · cases hl
    exact ⟨m, rfl, e, hPerm.mem_iff.mpr hMem⟩

theorem SameStops.bad {stops stops' : Option (List Stop)}
    (h : SameStops stops stops') : Bad stops' ↔ Bad stops := by
  rcases h with ⟨rfl, rfl⟩ | ⟨m, m', rfl, rfl, hPerm⟩
  · exact Iff.rfl
  · unfold Bad
    rw [ne_eq, ne_eq, Option.some.injEq, Option.some.injEq]
    constructor
    · rintro hNe rfl
      exact hNe hPerm.nil_eq.symm
    · rintro hNe rfl
      exact hNe hPerm.eq_nil

theorem SameStops.mixed {stops stops' : Option (List Stop)}
    (h : SameStops stops stops') : Mixed stops' ↔ Mixed stops := by
  rcases h with ⟨rfl, rfl⟩ | ⟨m, m', rfl, rfl, hPerm⟩
  · exact Iff.rfl
  · simp only [Mixed, Option.some.injEq, exists_eq_left', hPerm.mem_iff]

theorem SameStops.outsideOnly {stops stops' : Option (List Stop)}
    (h : SameStops stops stops') : OutsideOnly stops' ↔ OutsideOnly stops := by
  rcases h with ⟨rfl, rfl⟩ | ⟨m, m', rfl, rfl, hPerm⟩
  · exact Iff.rfl
  · simp only [OutsideOnly, Option.some.injEq, exists_eq_left', hPerm.mem_iff]

theorem SectionsSteady.reordered {members members' : Members F} {w : Window F}
    (hSteady : SectionsSteady members w)
    (h : List.Forall₂ MemberReordered members members') : SectionsSteady members' w where
  noRaise sec hSec hRaises := hSteady.noRaise sec hSec ((sameStops_of_reordered h w sec).raises hRaises)
  unmixed := by
    rcases hSteady.unmixed with hNone | ⟨sec, hSec, hOnly⟩
    · left
      intro sec hSec hMixed
      exact hNone sec hSec ((sameStops_of_reordered h w sec).mixed.mp hMixed)
    · exact Or.inr ⟨sec, hSec, (sameStops_of_reordered h w sec).outsideOnly.mpr hOnly⟩

theorem SectionsSteady.outside_iff {members : Members F} {w : Window F}
    (h : SectionsSteady members w) : (∃ sec ∈ listSections, HeadOutside (stopsIn members w sec)) ↔
      ∃ sec ∈ listSections, OutsideOnly (stopsIn members w sec) := by
  constructor
  · rintro ⟨sec, hSec, l, hl, hHead⟩
    have hMem : Stop.outside ∈ l := List.mem_of_mem_head? hHead
    by_cases hShape : Stop.shape ∈ l
    · rcases h.unmixed with hNone | hOnly
      · exact absurd ⟨l, hl, hShape, hMem⟩ (hNone sec hSec)
      · exact hOnly
    · exact ⟨sec, hSec, l, hl, hShape, hMem⟩
  · rintro ⟨sec, hSec, l, hl, hShape, hMem⟩
    refine ⟨sec, hSec, l, hl, ?_⟩
    cases l with
    | nil => cases hMem
    | cons s rest =>
      cases s with
      | outside => rfl
      | shape => exact absurd List.mem_cons_self hShape
      | raised e => exact absurd ⟨_, hl, e, List.mem_cons_self⟩ (h.noRaise sec hSec)

theorem dictRefusals_reordered {members members' : Members F}
    (h : List.Forall₂ MemberReordered members members') :
    dictRefusals members' = dictRefusals members := by
  have hHealth := (getItem_reordered h Section.health.token).1 (by decide)
  have hReader := (getItem_reordered h Section.reader.token).1 (by decide)
  unfold dictRefusals sectionOf
  rw [hHealth, hReader]

theorem rowRefusals_reordered {members members' : Members F} {w : Window F}
    (hSteady : SectionsSteady members w)
    (h : List.Forall₂ MemberReordered members members') :
    rowRefusals members' w = rowRefusals members w := by
  have hSteady' := hSteady.reordered h
  rcases rowRefusals_ok hSteady.noRaise with ⟨tokens, hTokens, hMem⟩
  rcases rowRefusals_ok hSteady'.noRaise with ⟨tokens', hTokens', hMem'⟩
  rw [hTokens, hTokens']
  congr 1
  ext t
  have hBad : (∃ sec ∈ listSections, t = .evidenceRejected sec ∧ Bad (stopsIn members' w sec)) ↔
        ∃ sec ∈ listSections, t = .evidenceRejected sec ∧ Bad (stopsIn members w sec) := by
    simp only [(sameStops_of_reordered h w _).bad]
  have hOutside : (∃ sec ∈ listSections, HeadOutside (stopsIn members' w sec)) ↔
        ∃ sec ∈ listSections, HeadOutside (stopsIn members w sec) := by
    rw [hSteady.outside_iff, hSteady'.outside_iff]
    simp only [(sameStops_of_reordered h w _).outsideOnly]
  rw [hMem, hMem', dictRefusals_reordered h, hBad, hOutside]

-- Some Stops First

/- The elements that meet a test before the others. -/
def moveFirst {α : Type} (p : α → Bool) (l : List α) : List α := l.filter p ++ l.filter (fun a => !p a)

theorem moveFirst_perm {α : Type} (p : α → Bool) (l : List α) : l.Perm (moveFirst p l) :=
  (List.filter_append_perm p l).symm

theorem moveFirst_head {α : Type} {p : α → Bool} {l : List α}
    (h : ∃ a ∈ l, p a = true) : ∃ a, (moveFirst p l).head? = some a ∧ p a = true ∧ a ∈ l := by
  rcases h with ⟨b, hb, hp⟩
  cases hFirst : l.filter p with
  | nil =>
    rw [List.filter_eq_nil_iff] at hFirst
    exact absurd hp (hFirst b hb)
  | cons a rest =>
    have hMem : a ∈ l.filter p := by
      rw [hFirst]
      exact List.mem_cons_self
    rw [List.mem_filter] at hMem
    refine ⟨a, ?_, hMem.2, hMem.1⟩
    rw [moveFirst, hFirst]
    rfl

/- The rows whose stops meet a test, first in their section. -/
def arrangeMember (w : Window F) (p : Stop → Bool) (m : PyStr × Json F) : PyStr × Json F :=
  match sectionNamed m.1, m.2 with
  | some sec, .arr rows =>
    (m.1, .arr (moveFirst (fun row => (rowReason w sec row).any p) rows))
  | _, _ => m

def arrange (w : Window F) (p : Stop → Bool) (members : Members F) : Members F :=
  members.map (arrangeMember w p)

theorem arrange_reordered (w : Window F) (p : Stop → Bool)
    (members : Members F) : List.Forall₂ MemberReordered members (arrange w p members) := by
  induction members with
  | nil => exact .nil
  | cons m rest ih =>
    refine .cons ?_ ih
    rcases m with ⟨key, value⟩
    unfold arrangeMember
    split
    · rename_i sec rows hSection hRows
      dsimp only at hSection hRows
      subst hRows
      exact .rows key rows _ (by rw [hSection]; rfl)
        (moveFirst_perm _ rows)
    · exact .same _

theorem getItem_arrange {w : Window F} {p : Stop → Bool} {members : Members F} {sec : Section}
    (hSec : sec ∈ listSections) :
    sectionOf (arrange w p members) sec =
      match sectionOf members sec with
      | .arr rows => .arr (moveFirst (fun row => (rowReason w sec row).any p) rows)
      | value => value := by
  have hNamed := sectionNamed_token hSec
  unfold sectionOf arrange
  induction members with
  | nil => rfl
  | cons m rest ih =>
    rcases m with ⟨key, value⟩
    rw [List.map_cons, Json.getItem]
    by_cases hKey : key = sec.token
    · subst hKey
      cases value with
      | arr rows => simp [arrangeMember, hNamed, Json.getItem]
      | _ => simp [arrangeMember, hNamed, Json.getItem]
    · have hKeep : (arrangeMember w p (key, value)).1 = key := by
        unfold arrangeMember
        split <;> rfl
      rw [hKeep, if_neg hKey, ih, Json.getItem, if_neg hKey]

theorem stopsIn_arrange {w : Window F} {p : Stop → Bool} {members : Members F} {sec : Section}
    (hSec : sec ∈ listSections) :
    stopsIn (arrange w p members) w sec = (stopsIn members w sec).map (moveFirst p) := by
  unfold stopsIn
  rw [getItem_arrange hSec]
  cases sectionOf members sec with
  | arr rows =>
    simp only [sectionStops, ← (moveFirst_perm _ rows).length_eq]
    split
    · rfl
    · rw [Option.map_some, moveFirst, List.filterMap_append,
        moveFirst, List.filter_filterMap, List.filter_filterMap,
        List.filterMap_filter, List.filterMap_filter]
      congr 2
      · apply List.filterMap_congr
        intro row _
        cases rowReason w sec row with
        | none => simp
        | some s => cases hs : p s <;> simp [hs, Option.filter]
      · apply List.filterMap_congr
        intro row _
        cases rowReason w sec row with
        | none => simp
        | some s => cases hs : p s <;> simp [hs, Option.filter]
  | _ => rfl

-- Order Matters Otherwise

def Stop.isRaised : Stop → Bool
  | .raised _ => true
  | _ => false

theorem rowRefusals_raises {members : Members F} {w : Window F} {sec : Section} (hSec : sec ∈ listSections)
    (h : Raises (stopsIn members w sec)) :
    ∃ e, rowRefusals (arrange w Stop.isRaised members) w = .error e := by
  rcases h with ⟨l, hl, e, hMem⟩
  rcases moveFirst_head (p := Stop.isRaised) ⟨_, hMem, rfl⟩ with ⟨s, hHead, hRaised, _⟩
  cases s with
  | raised e' =>
    apply rowRefusals_error
    refine ⟨sec, hSec, e', ?_⟩
    have hStops : stopsIn (arrange w Stop.isRaised members) w sec = some (moveFirst Stop.isRaised l) := by
      rw [stopsIn_arrange hSec, hl]
      rfl
    unfold sectionOutcome
    unfold stopsIn at hStops
    rw [hStops]
    exact outcome_error hHead
  | shape => cases hRaised
  | outside => cases hRaised

theorem outside_notMem_dictRefusals (members : Members F) :
    UnknownToken.evidenceOutsideWindow ∉ dictRefusals members := by
  unfold dictRefusals
  split <;> split <;> simp

theorem headOutside_of_mixed {members : Members F} {w : Window F} {sec : Section} (hSec : sec ∈ listSections)
    (h : Mixed (stopsIn members w sec)) : HeadOutside
      (stopsIn (arrange w (fun s => s = .outside) members) w sec) := by
  rcases h with ⟨l, hl, _, hOutside⟩
  rcases moveFirst_head (p := fun s => s = Stop.outside) ⟨_, hOutside, by simp⟩ with ⟨s, hHead, hIs, _⟩
  refine ⟨moveFirst (fun s => s = .outside) l, ?_, ?_⟩
  · rw [stopsIn_arrange hSec, hl]
    rfl
  · rw [hHead]
    simpa using hIs

theorem outsideOnly_of_headOutside {members : Members F} {w : Window F} {sec : Section}
    (hSec : sec ∈ listSections)
    (h : HeadOutside (stopsIn (arrange w (fun s => s = .shape) members) w sec)) :
    OutsideOnly (stopsIn members w sec) := by
  rcases h with ⟨l', hl', hHead⟩
  rw [stopsIn_arrange hSec] at hl'
  cases hl : stopsIn members w sec with
  | none =>
    rw [hl] at hl'
    cases hl'
  | some l =>
    rw [hl] at hl'
    cases hl'
    refine ⟨l, rfl, ?_, ?_⟩
    · intro hShape
      rcases moveFirst_head (p := fun s => s = Stop.shape) ⟨_, hShape, by simp⟩ with ⟨s, hHead', hIs, _⟩
      rw [hHead] at hHead'
      cases hHead'
      simp at hIs
    · exact (moveFirst_perm _ l).mem_iff.mpr (List.mem_of_mem_head? hHead)

theorem sectionsSteady_of_refusals {members : Members F} {w : Window F} (tokens : Finset UnknownToken)
    (h : ∀ members', List.Forall₂ MemberReordered members members' → rowRefusals members' w = .ok tokens) :
    SectionsSteady members w := by
  have hNoRaise : ∀ sec ∈ listSections, ¬ Raises (stopsIn members w sec) := by
    intro sec hSec hRaises
    rcases rowRefusals_raises hSec hRaises with ⟨e, hError⟩
    rw [h _ (arrange_reordered w _ members)] at hError
    cases hError
  refine ⟨hNoRaise, ?_⟩
  by_contra hAmbiguous
  rw [not_or] at hAmbiguous
  rcases hAmbiguous with ⟨hMixed, hNone⟩
  push Not at hMixed
  rcases hMixed with ⟨sec, hSec, hMixed⟩
  have hKept : ∀ p, ∀ sec ∈ listSections, ¬ Raises (stopsIn (arrange w p members) w sec) := by
    intro p sec hSec hRaises
    apply hNoRaise sec hSec
    exact (sameStops_of_reordered (arrange_reordered w p members) w sec).raises hRaises
  have hFirst : UnknownToken.evidenceOutsideWindow ∈ tokens := by
    rcases rowRefusals_ok (hKept (fun s => s = .outside)) with ⟨tokens', hTokens', hMem⟩
    rw [h _ (arrange_reordered w _ members)] at hTokens'
    cases hTokens'
    exact (hMem _).mpr (Or.inr (Or.inr ⟨rfl, sec, hSec, headOutside_of_mixed hSec hMixed⟩))
  rcases rowRefusals_ok (hKept (fun s => s = .shape)) with ⟨tokens', hTokens', hMem⟩
  rw [h _ (arrange_reordered w _ members)] at hTokens'
  cases hTokens'
  rcases (hMem _).mp hFirst with
    hDict | ⟨_, _, hToken, _⟩ | ⟨_, sec', hSec', hHead⟩
  · exact outside_notMem_dictRefusals _ hDict
  · cases hToken
  · exact hNone ⟨sec', hSec', outsideOnly_of_headOutside hSec' hHead⟩

end SingboxOps.Classifier
