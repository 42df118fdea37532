import SingboxOps.JournalReader.Counts
import SingboxOps.Lib.Json.Dict

/-
  The reader and the consumer of an exchange file agree.

  The body of a batch is read back line by line as the header
  and the records it was written from.  A body is written
  unless a timestamp lies beyond what the format takes, or a
  counter is too long to print.
-/

namespace SingboxOps.JournalReader

open JournalIngest (JournalClass JournalProto JournalDcls Boundary
  Header Event Num Parsed field headerKeys eventKeys
  hasExactly eqInt eqStr intFrom? hexText? tokenOf? timestamp?
  port? nullOr? validateHeader validateEvent splitText bodyLines
  parseLine parseLines parseExchangeText)

variable {F : Type} [BoundedFloat F] {r : TextRules F} {b : Batch F}

-- Flat Objects

/- A flat object whose text reads back as it is. -/
structure Flat (members : List (PyStr × Json F)) : Prop where
  nodup : (Json.keys members).Nodup
  plain : ∀ k ∈ Json.keys members, Json.rereadStr k = k
  depth : ∀ m ∈ members, Json.depth m.2 = 0
  fixed : ∀ m ∈ members, Json.canonical m.2 = m.2

/- A value that is read back as it is, and no container. -/
def Settled (v : Json F) : Prop := Json.depth v = 0 ∧ Json.canonical v = v

theorem loads_dumps {members : List (PyStr × Json F)}
    (h : Flat members) (hDump : Json.dumpable (.obj members) = true)
    (room : ℕ) : ∃ read, Json.loads (room + 1) (dumps members) = .ok (.obj read) ∧
        (Json.keys read).Perm (Json.keys members) ∧
        ∀ key, Json.getItem read key = Json.getItem members key := by
  rcases Json.canonical_obj h.nodup h.plain with ⟨read, hRead, hKeys, hItems⟩
  have hDepth : Json.depth (.obj members : Json F) ≤ room + 1 := by
    have hMembers : Json.depthMembers members ≤ 0 := Json.depthMembers_le (fun m hm => (h.depth m hm).le)
    rw [Json.depth]
    omega
  have hLoads := Json.loads_render (Json.dumpable_sortKeys _ hDump) ((Json.depth_sortKeys _).trans hDepth)
  refine ⟨read, ?_, hKeys, ?_⟩
  · unfold dumps
    rw [hLoads]
    exact congrArg _ hRead
  · intro key
    rw [hItems]
    cases hGet : Json.getItem members key with
    | none => rfl
    | some v => exact congrArg some (h.fixed _ (Json.mem_of_getItem hGet))

theorem newline_not_mem_dumps (members : List (PyStr × Json F)) : 10 ∉ dumps members := by
  intro hMem
  have hRange := Json.printable_render _ 10 hMem
  omega

/- The checks see an object by its keys and their values. -/
section Seen

variable {members others : List (PyStr × Json F)}

omit [BoundedFloat F] in
theorem hasExactly_congr (hKeys : (Json.keys members).Perm (Json.keys others))
    (hItems : ∀ key, Json.getItem members key = Json.getItem others key)
    (keys : List PyStr) : hasExactly members keys = hasExactly others keys := by
  have hAll : members.all (fun m => m.1 ∈ keys) = others.all (fun m => m.1 ∈ keys) := by
    have hMap : ∀ l : List (PyStr × Json F),
        l.all (fun m => m.1 ∈ keys) = (Json.keys l).all (fun k => k ∈ keys) := by
      intro l
      unfold Json.keys
      rw [List.all_map]
      rfl
    rw [hMap, hMap]
    exact hKeys.all_eq
  unfold hasExactly
  rw [hAll]
  congr 1
  simp only [hItems]

omit [BoundedFloat F] in
theorem field_congr (hItems : ∀ key, Json.getItem members key = Json.getItem others key)
    (key : String) : field members key = field others key := by
  unfold field
  rw [hItems]

theorem validateEvent_congr (hKeys : (Json.keys members).Perm (Json.keys others))
    (hItems : ∀ key, Json.getItem members key = Json.getItem others key) :
    validateEvent members = validateEvent others := by
  unfold validateEvent
  rw [hasExactly_congr hKeys hItems]
  simp only [field_congr hItems]

theorem validateHeader_congr (hKeys : (Json.keys members).Perm (Json.keys others))
    (hItems : ∀ key, Json.getItem members key = Json.getItem others key) :
    validateHeader members = validateHeader others := by
  unfold validateHeader
  rw [hasExactly_congr hKeys hItems]
  simp only [field_congr hItems]

end Seen

-- Values

omit [BoundedFloat F] in
theorem settled_int (n : ℤ) : Settled (.int n : Json F) := ⟨rfl, rfl⟩

omit [BoundedFloat F] in
theorem settled_null : Settled (.null : Json F) := ⟨rfl, rfl⟩

omit [BoundedFloat F] in
theorem settled_num (n : Num F) : Settled (numJson n) := by
  cases n with
  | int n => exact ⟨rfl, rfl⟩
  | float x => exact ⟨rfl, rfl⟩

omit [BoundedFloat F] in
theorem settled_str {s : PyStr} (hs : ∀ c ∈ s, c < 55296) : Settled (.str s : Json F) :=
  ⟨rfl, congrArg Json.str (Json.rereadStr_of_lt hs)⟩

theorem settled_hex {s : PyStr} (hs : s.all (fun c => (48 ≤ c && c ≤ 57) || (97 ≤ c && c ≤ 102)) = true) :
    Settled (.str s : Json F) := by
  apply settled_str
  intro c hc
  have hRange := List.all_eq_true.mp hs c hc
  simp only [Bool.or_eq_true, Bool.and_eq_true, decide_eq_true_eq] at hRange
  omega

theorem settled_orNull {α : Type} {f : α → Json F} {a : Option α}
    (h : ∀ x, a = some x → Settled (f x)) : Settled (orNull f a) := by
  cases a with
  | none => exact settled_null
  | some x => exact h x rfl

theorem class_plain (c : JournalClass) : ∀ u ∈ c.token, u < 55296 := by
  cases c <;> decide

theorem proto_plain (c : JournalProto) : ∀ u ∈ c.token, u < 55296 := by
  cases c <;> decide

theorem dcls_plain (c : JournalDcls) : ∀ u ∈ c.token, u < 55296 := by
  cases c <;> decide

theorem boundary_plain (c : Boundary) : ∀ u ∈ c.token, u < 55296 := by
  cases c <;> decide

omit [BoundedFloat F] in
theorem tokenOf?_class (c : JournalClass) : tokenOf? JournalClass.all JournalClass.token
      (.str c.token : Json F) = some c := by
  cases c <;> rfl

omit [BoundedFloat F] in
theorem tokenOf?_proto (c : JournalProto) : tokenOf? JournalProto.all JournalProto.token
      (.str c.token : Json F) = some c := by
  cases c <;> rfl

omit [BoundedFloat F] in
theorem tokenOf?_dcls (c : JournalDcls) : tokenOf? JournalDcls.all JournalDcls.token
      (.str c.token : Json F) = some c := by
  cases c <;> rfl

omit [BoundedFloat F] in
theorem tokenOf?_boundary (c : Boundary) : tokenOf? Boundary.all Boundary.token
      (.str c.token : Json F) = some c := by
  cases c <;> rfl

-- Records

/- What the records of a batch are like, but for their dates. -/
structure Formed (e : Event F) : Prop where
  ts : 0 ≤ e.ts.toRat
  port : ∀ n, e.port = some n → 1 ≤ n ∧ n ≤ 65535
  fp : ∀ s, e.fp = some s → s.length = 16 ∧ s.all (fun c => (48 ≤ c && c ≤ 57) || (97 ≤ c && c ≤ 102)) = true
  n : 1 ≤ e.n
  fp_other : e.cls ≠ .other → e.fp = none
  dcls_port : e.port = none → e.dcls = none

theorem timestamp?_numJson {ts : Num F} (h : 0 ≤ ts.toRat) :
    timestamp? (numJson ts) = if ts.toRat ≤ 10 ^ 11 then some ts else none := by
  cases ts with
  | int n =>
    have hPos : ¬ n < 0 := by
      have hCast : (0 : ℚ) ≤ (n : ℚ) := h
      exact not_lt.mpr (by exact_mod_cast hCast)
    have hIff : ((Num.int n : Num F).toRat ≤ 10 ^ 11) ↔ ¬ n > 10 ^ 11 := by
      change ((n : ℚ) ≤ 10 ^ 11) ↔ _
      rw [gt_iff_lt, not_lt]
      exact_mod_cast Iff.rfl
    change (if n < 0 ∨ n > 10 ^ 11 then none
      else some (Num.int n)) = _
    by_cases hLate : n > 10 ^ 11
    · rw [if_pos (Or.inr hLate), if_neg (fun hLe => hIff.mp hLe hLate)]
    · rw [if_neg (not_or.mpr ⟨hPos, hLate⟩), if_pos (hIff.mpr hLate)]
  | float x =>
    have hPos : ¬ PyFloat.toRat x < 0 := not_lt.mpr h
    change (if PyFloat.toRat x < 0 ∨ PyFloat.toRat x > 10 ^ 11
      then none else some (Num.float x)) =
      if PyFloat.toRat x ≤ 10 ^ 11 then _ else _
    by_cases hLate : PyFloat.toRat x > 10 ^ 11
    · rw [if_pos (Or.inr hLate), if_neg (not_le.mpr hLate)]
    · rw [if_neg (not_or.mpr ⟨hPos, hLate⟩), if_pos (not_lt.mp hLate)]

omit [BoundedFloat F] in
theorem nullOr?_orNull {α : Type} {check : Json F → Option α} {f : α → Json F} (a : Option α)
    (h : ∀ x, a = some x → f x ≠ .null ∧ check (f x) = some x) :
    nullOr? check (orNull f a) = some a := by
  cases a with
  | none => rfl
  | some x =>
    rcases h x rfl with ⟨hNull, hCheck⟩
    unfold nullOr? orNull
    split
    · rename_i hEq
      exact absurd hEq hNull
    · rw [hCheck]
      rfl

theorem validateEvent_eventMembers {e : Event F} (h : Formed e) :
    validateEvent (eventMembers e) = if e.ts.toRat ≤ 10 ^ 11 then some e else none := by
  have hKeys : hasExactly (eventMembers e) eventKeys = true := rfl
  have hKind : eqStr (field (eventMembers e) "t") (pyStr "e") = true := rfl
  have hTs : field (eventMembers e) "ts" = numJson e.ts := rfl
  have hCls : field (eventMembers e) "cls" = .str e.cls.token := rfl
  have hProto : field (eventMembers e) "proto" = .str e.proto.token := rfl
  have hPort : field (eventMembers e) "port" = orNull .int e.port := rfl
  have hDcls : field (eventMembers e) "dcls" = orNull (fun d => .str d.token) e.dcls := rfl
  have hFp : field (eventMembers e) "fp" = orNull .str e.fp := rfl
  have hN : field (eventMembers e) "n" = .int e.n := rfl
  have hPortOf : nullOr? port? (orNull Json.int e.port : Json F) = some e.port := by
    apply nullOr?_orNull
    intro n hn
    exact ⟨by simp, if_pos (h.port n hn)⟩
  have hDclsOf : nullOr? (tokenOf? JournalDcls.all JournalDcls.token)
        (orNull (fun d : JournalDcls => .str d.token) e.dcls : Json F) = some e.dcls := by
    apply nullOr?_orNull
    intro d _
    exact ⟨by simp, tokenOf?_dcls d⟩
  have hFpOf : nullOr? (hexText? 16) (orNull Json.str e.fp : Json F) = some e.fp := by
    apply nullOr?_orNull
    intro s hs
    exact ⟨by simp, if_pos (h.fp s hs)⟩
  have hNOf : intFrom? 1 (.int e.n : Json F) = some e.n := if_pos h.n
  have hFpRule : ¬ (e.cls ≠ .other ∧ e.fp ≠ none) := fun hBoth => hBoth.2 (h.fp_other hBoth.1)
  have hDclsRule : ¬ (e.dcls ≠ none ∧ e.port = none) := fun hBoth => hBoth.1 (h.dcls_port hBoth.2)
  unfold validateEvent
  rw [hKeys, hKind, hTs, hCls, hProto, hPort, hDcls, hFp, hN,
    timestamp?_numJson h.ts, tokenOf?_class, tokenOf?_proto,
    hPortOf, hDclsOf, hFpOf, hNOf]
  by_cases hDate : e.ts.toRat ≤ 10 ^ 11
  · rw [if_pos hDate, if_pos hDate]
    change (if e.cls ≠ .other ∧ e.fp ≠ none then none
      else if e.dcls ≠ none ∧ e.port = none then none
      else some e) = some e
    rw [if_neg hFpRule, if_neg hDclsRule]
  · rw [if_neg hDate, if_neg hDate]
    rfl

theorem flat_eventMembers {e : Event F} (h : Formed e) : Flat (eventMembers e) := by
  have hEach : ∀ m ∈ eventMembers e, Settled m.2 := by
    unfold eventMembers
    simp only [List.forall_mem_cons]
    refine ⟨settled_str (by decide), settled_num e.ts,
      settled_str (class_plain _), settled_str (proto_plain _),
      settled_orNull (fun n _ => settled_int n),
      settled_orNull (fun d _ => settled_str (dcls_plain d)),
      settled_orNull (fun s hs => settled_hex (h.fp s hs).2),
      settled_int e.n, ?_⟩
    intro m hm
    cases hm
  refine ⟨?_, ?_, fun m hm => (hEach m hm).1, fun m hm => (hEach m hm).2⟩
  · change (eventKeys).Nodup
    decide
  · intro k hk
    apply Json.rereadStr_of_lt
    revert k
    change ∀ k ∈ eventKeys, ∀ c ∈ k, c < 55296
    decide

-- Headers

/- The header of a batch as a record. -/
def headerOf (b : Batch F) (limited : ℕ) (p : Position) : Header where
  seq := p.seq
  run := p.run
  epoch := p.epoch
  boundary := p.boundary
  lines := b.lines
  eligible := b.eligible
  infoDropped := b.infoDropped
  nomatchDropped := b.nomatchDropped
  priorityUnusable := b.priorityUnusable
  pfail := b.pfail
  limited := limited

theorem validateHeader_headerMembers (b : Batch F) (limited : ℕ) (p : Position) :
    validateHeader (headerMembers b limited p) = some (headerOf b limited p) := by
  have hKeys : hasExactly (headerMembers b limited p) headerKeys = true :=
    rfl
  have hKind : eqStr (field (headerMembers b limited p) "t") (pyStr "h") = true := rfl
  have hV : eqInt (field (headerMembers b limited p) "v") 1 = true := rfl
  have hCv : eqInt (field (headerMembers b limited p) "cv") 1 = true := rfl
  have hNat : ∀ n : ℕ, intFrom? 0 (.int n : Json F) = some (n : ℤ) := by
    intro n
    change (if (0 : ℤ) ≤ n then some (n : ℤ) else none) = _
    exact if_pos (Int.natCast_nonneg n)
  have hSeq : intFrom? 1 (.int p.seq : Json F) = some (p.seq : ℤ) := if_pos (by exact_mod_cast p.seq_pos)
  have hEpoch : intFrom? 1 (.int p.epoch : Json F) = some (p.epoch : ℤ) :=
    if_pos (by exact_mod_cast p.epoch_pos)
  have hRun : hexText? 32 (.str p.run : Json F) = some p.run := if_pos p.run_hex
  unfold validateHeader
  rw [hKeys, hKind, hV, hCv]
  change (do
    let seq ← intFrom? 1 (.int p.seq : Json F)
    let run ← hexText? 32 (.str p.run : Json F)
    let epoch ← intFrom? 1 (.int p.epoch : Json F)
    let boundary ← tokenOf? Boundary.all Boundary.token (.str p.boundary.token : Json F)
    let lines ← intFrom? 0 (.int b.lines : Json F)
    let eligible ← intFrom? 0 (.int b.eligible : Json F)
    let infoDropped ← intFrom? 0 (.int b.infoDropped : Json F)
    let nomatchDropped ← intFrom? 0 (.int b.nomatchDropped : Json F)
    let priorityUnusable ← intFrom? 0 (.int b.priorityUnusable : Json F)
    let pfail ← intFrom? 0 (.int b.pfail : Json F)
    let limited ← intFrom? 0 (.int limited : Json F)
    pure { seq, run, epoch, boundary, lines, eligible,
           infoDropped, nomatchDropped, priorityUnusable,
           pfail, limited : Header }) = _
  rw [hSeq, hRun, hEpoch, tokenOf?_boundary, hNat, hNat, hNat, hNat, hNat, hNat, hNat]
  rfl

theorem flat_headerMembers (b : Batch F) (limited : ℕ) (p : Position) : Flat (headerMembers b limited p) := by
  have hEach : ∀ m ∈ headerMembers b limited p, Settled m.2 := by
    unfold headerMembers
    simp only [List.forall_mem_cons]
    refine ⟨settled_str (by decide), settled_int _, settled_int _,
      settled_int _, settled_hex p.run_hex.2, settled_int _,
      settled_str (boundary_plain _), settled_int _,
      settled_int _, settled_int _, settled_int _, settled_int _,
      settled_int _, settled_int _, ?_⟩
    intro m hm
    cases hm
  refine ⟨?_, ?_, fun m hm => (hEach m hm).1, fun m hm => (hEach m hm).2⟩
  · change (headerKeys).Nodup
    decide
  · intro k hk
    apply Json.rereadStr_of_lt
    revert k
    change ∀ k ∈ headerKeys, ∀ c ∈ k, c < 55296
    decide

-- Bodies

theorem splitText_line {line : PyStr} (h : 10 ∉ line)
    (rest : PyStr) : splitText (line ++ 10 :: rest) = line :: splitText rest := by
  induction line with
  | nil => rw [List.nil_append, splitText, if_pos rfl]
  | cons c line ih =>
    have hNe : c ≠ 10 := by
      rintro rfl
      exact h List.mem_cons_self
    have hRest := ih (fun hMem => h (List.mem_cons_of_mem _ hMem))
    rw [List.cons_append, splitText, if_neg hNe, hRest]

theorem bodyLines_flatMap {lines : List PyStr} (h : ∀ line ∈ lines, 10 ∉ line) :
    bodyLines (lines.flatMap (fun line => line ++ [10])) = lines := by
  have hSplit : splitText (lines.flatMap (fun line => line ++ [10])) = lines ++ [[]] := by
    induction lines with
    | nil => rfl
    | cons line rest ih =>
      have hRest := ih (fun l hl => h l (List.mem_cons_of_mem _ hl))
      rw [List.flatMap_cons, List.append_assoc]
      change splitText (line ++ 10 :: rest.flatMap (fun line => line ++ [10])) = _
      rw [splitText_line (h line List.mem_cons_self), hRest]
      rfl
  unfold bodyLines
  simp only [hSplit]
  rw [if_pos (List.getLast?_concat ..), List.dropLast_concat]

/- What a record needs to be written. -/
structure Ready (e : Event F) : Prop where
  formed : Formed e
  date : e.ts.toRat ≤ 10 ^ 11
  dump : Json.dumpable (.obj (eventMembers e)) = true

theorem parseLine_event {e : Event F} (h : Ready e) (room seq index : ℕ)
    (parsed : Parsed F) : parseLine (room + 1) seq index parsed (dumps (eventMembers e)) =
      .ok (.ok { parsed with events := parsed.events ++ [e] }) := by
  rcases loads_dumps (flat_eventMembers h.formed) h.dump room with ⟨read, hLoads, hKeys, hItems⟩
  have hEvent : validateEvent read = some e := by
    rw [validateEvent_congr hKeys hItems, validateEvent_eventMembers h.formed, if_pos h.date]
  have hKind : eqStr ((Json.getItem read (pyStr "t")).getD .null) (pyStr "h") = false := by
    rw [hItems]
    rfl
  unfold parseLine
  rw [hLoads]
  simp only [hKind, hEvent]
  rfl

theorem parseLines_events {rows : List (Event F)}
    (h : ∀ e ∈ rows, Ready e) (room seq index : ℕ) (header : Header)
    (events : List (Event F)) : parseLines (room + 1) seq index ⟨some header, events⟩
        (rows.map (fun e => dumps (eventMembers e))) =
      .ok (.ok ⟨some header, events ++ rows⟩) := by
  induction rows generalizing index events with
  | nil =>
    rw [List.append_nil]
    rfl
  | cons e rest ih =>
    have hRest := ih (fun x hx => h x (List.mem_cons_of_mem _ hx)) (index + 1) (events ++ [e])
    rw [List.append_assoc] at hRest
    rw [List.map_cons, parseLines, parseLine_event (h e List.mem_cons_self)]
    exact hRest

theorem parseLine_header {limited : ℕ} {p : Position}
    (hDump : Json.dumpable (.obj (headerMembers b limited p)) = true)
    (room : ℕ) : parseLine (room + 1) p.seq 0 (⟨none, []⟩ : Parsed F) (dumps (headerMembers b limited p)) =
      .ok (.ok ⟨some (headerOf b limited p), []⟩) := by
  rcases loads_dumps (flat_headerMembers b limited p) hDump room with ⟨read, hLoads, hKeys, hItems⟩
  have hHeader : validateHeader read = some (headerOf b limited p) := by
    rw [validateHeader_congr hKeys hItems, validateHeader_headerMembers]
  have hKind : eqStr ((Json.getItem read (pyStr "t")).getD .null) (pyStr "h") = true := by
    rw [hItems]
    rfl
  unfold parseLine
  rw [hLoads]
  simp only [hKind, hHeader]
  have hSeq : ¬ (headerOf b limited p).seq ≠ p.seq := not_not.mpr rfl
  rw [if_pos True.intro, if_neg (by simp), if_neg hSeq]

/- A body as it is written. -/
def bodyText (b : Batch F) (p : Position) : PyStr := (headerMembers b (records b).2 p ::
      (records b).1.map eventMembers).flatMap
    (fun members => dumps members ++ [10])

/- The consumer reads what the reader wrote. -/
theorem parseExchangeText_bodyText {p : Position}
    (hDump : Json.dumpable (.obj (headerMembers b (records b).2 p)) = true)
    (hRows : ∀ e ∈ (records b).1, Ready e)
    (room : ℕ) :
    parseExchangeText (room + 1) p.seq (bodyText b p) =
      .ok (.ok (headerOf b (records b).2 p, (records b).1)) := by
  let lines : List PyStr := dumps (headerMembers b (records b).2 p) ::
      (records b).1.map (fun e => dumps (eventMembers e))
  have hText : bodyText b p = lines.flatMap (fun line => line ++ [10]) := by
    simp [bodyText, lines, List.flatMap_map]
  have hLines : bodyLines (bodyText b p) = lines := by
    rw [hText]
    apply bodyLines_flatMap
    intro line hLine
    rcases List.mem_cons.mp hLine with rfl | hRow
    · exact newline_not_mem_dumps _
    · rcases List.mem_map.mp hRow with ⟨e, _, rfl⟩
      exact newline_not_mem_dumps _
  have hSome : bodyText b p ≠ [] := by
    intro hNil
    have hEmpty : bodyLines [] = [] := rfl
    rw [hNil, hEmpty] at hLines
    exact absurd hLines.symm (List.cons_ne_nil _ _)
  have hParse : parseLines (room + 1) p.seq 0 ⟨none, []⟩ lines =
        .ok (.ok ⟨some (headerOf b (records b).2 p), (records b).1⟩) := by
    rw [parseLines, parseLine_header hDump]
    exact parseLines_events hRows room p.seq 1 _ []
  unfold parseExchangeText
  rw [if_neg hSome]
  simp only [hLines]
  rw [if_neg (List.cons_ne_nil _ _), hParse]

-- Dates

theorem formed_rows (h : Sound b) : ∀ row ∈ b.groups.map rowOf, Formed row := by
  intro row hRow
  rcases List.mem_map.mp hRow with ⟨e, he, rfl⟩
  have hCount := h.count e he
  refine ⟨h.first e he, ?_, ?_, ?_, ?_, ?_⟩
  · intro n hn
    rcases Option.map_eq_some_iff.mp hn with ⟨port, _, rfl⟩
    have hPort := port.property
    omega
  · intro s hs
    rcases Option.map_eq_some_iff.mp hs with ⟨fp, _, rfl⟩
    exact fp.property
  · simp only [rowOf]
    exact_mod_cast hCount
  · intro hCls
    simp only [rowOf]
    rw [e.1.fp_other hCls]
    rfl
  · intro hPort
    exact e.1.dcls_port (Option.map_eq_none_iff.mp hPort)

theorem folded_row (h : Sound b) {e : JournalClass × (Num F × ℤ)} (he : e ∈ foldedBuckets b) :
    1 ≤ e.2.2 ∧ (∃ row ∈ (sortedRows b).drop keptRecords, row.cls = e.1 ∧ row.ts = e.2.1) ∧
      ∀ row ∈ (sortedRows b).drop keptRecords, row.cls = e.1 → e.2.1.toRat ≤ row.ts.toRat := by
  have hFolded := folded_buckets h
  have hGet := Dict.get_of_mem hFolded.nodup he
  rcases hFolded.bucket _ _ hGet with ⟨hOne, hRow⟩
  refine ⟨hOne, hRow, ?_⟩
  intro row hMem hCls
  rcases hFolded.found row hMem with ⟨bucket, hBucket, hLe⟩
  rw [hCls, hGet] at hBucket
  cases hBucket
  exact hLe

theorem formed_records (h : Sound b) : ∀ row ∈ (records b).1, Formed row := by
  have hSorted : ∀ row ∈ sortedRows b, Formed row := by
    intro row hRow
    exact formed_rows h row ((List.perm_insertionSort _ _).mem_iff.mp hRow)
  unfold records
  split
  · exact formed_rows h
  · intro row hRow
    rcases List.mem_append.mp hRow with hKept | hFold
    · exact hSorted row (List.mem_of_mem_take hKept)
    · rcases List.mem_map.mp hFold with ⟨e, he, rfl⟩
      rcases folded_row h ((List.perm_insertionSort _ _).mem_iff.mp he) with
        ⟨hOne, ⟨from_, hFrom, _, hTs⟩, _⟩
      have hFormed := hSorted from_ (List.mem_of_mem_drop hFrom)
      refine ⟨?_, ?_, ?_, hOne, fun _ => rfl, fun _ => rfl⟩
      · simp only [foldedRow]
        rw [← hTs]
        exact hFormed.ts
      · intro n hn
        cases hn
      · intro s hs
        cases hs

/-
  No record is later than the format takes.  Where records are
  folded, the earliest one of a class stands for the others.
-/
def Dated (b : Batch F) : Prop :=
  if b.groups.length ≤ maxRecordsPerFile then
    ∀ e ∈ b.groups, PyFloat.toRat e.2.first ≤ 10 ^ 11
  else
    (∀ row ∈ (sortedRows b).take keptRecords, row.ts.toRat ≤ 10 ^ 11) ∧
    ∀ row ∈ (sortedRows b).drop keptRecords, ∃ other ∈ (sortedRows b).drop keptRecords,
        other.cls = row.cls ∧ other.ts.toRat ≤ 10 ^ 11

theorem dated_iff (h : Sound b) : (∀ row ∈ (records b).1, row.ts.toRat ≤ 10 ^ 11) ↔ Dated b := by
  unfold records Dated
  split
  · simp only [List.forall_mem_map]
    exact Iff.rfl
  · simp only [List.forall_mem_append, List.forall_mem_map]
    apply and_congr_right
    intro _
    constructor
    · intro hAll row hRow
      rcases (folded_buckets h).found row hRow with ⟨bucket, hBucket, _⟩
      have hMem := Dict.mem_of_get hBucket
      rcases folded_row h hMem with ⟨_, ⟨other, hOther, hCls, hTs⟩, _⟩
      refine ⟨other, hOther, hCls, ?_⟩
      rw [hTs]
      exact hAll (row.cls, bucket) ((List.perm_insertionSort _ _).mem_iff.mpr hMem)
    · intro hEach e he
      have hMem := (List.perm_insertionSort _ _).mem_iff.mp he
      rcases folded_row h hMem with ⟨_, ⟨row, hRow, hCls, _⟩, hLeast⟩
      rcases hEach row hRow with ⟨other, hOther, hSame, hDate⟩
      exact (hLeast other hOther (hSame.trans hCls)).trans hDate

-- Counters

/- The limited counter, with the records that are folded. -/
def limitedAfter (b : Batch F) : ℕ :=
  if b.groups.length ≤ maxRecordsPerFile then b.limited
  else b.limited + (b.groups.length - keptRecords)

theorem records_limited (b : Batch F) : (records b).2 = limitedAfter b := by
  unfold records limitedAfter
  split
  · rfl
  · rfl

/- The numbers of a header are short enough to print. -/
def Writable (b : Batch F) (p : Position) : Prop := b.lines < 10 ^ Json.maxStrDigits ∧
    limitedAfter b < 10 ^ Json.maxStrDigits ∧
    p.seq < 10 ^ Json.maxStrDigits ∧
    p.epoch < 10 ^ Json.maxStrDigits

theorem writable_iff {count : (JournalClass → Bool) → ℕ} (h : Tally b count) (p : Position) :
    Json.dumpable (.obj (headerMembers b (records b).2 p)) = true ↔ Writable b p := by
  have hLines := h.lines
  have hUnusable := h.unusable
  rw [Json.dumpable, Json.dumpableMembers_iff, records_limited]
  unfold headerMembers Writable
  simp only [List.forall_mem_cons, Json.dumpable_natCast_iff]
  constructor
  · rintro ⟨_, _, _, hSeq, _, hEpoch, _, hLine, _, _, _, _, _, hLimited, _⟩
    exact ⟨hLine, hLimited, hSeq, hEpoch⟩
  · rintro ⟨hLine, hLimited, hSeq, hEpoch⟩
    refine ⟨rfl, rfl, rfl, hSeq, rfl, hEpoch, rfl, hLine,
      by omega, by omega, by omega, by omega, by omega, hLimited,
      ?_⟩
    intro m hm
    cases hm

omit [BoundedFloat F] in
theorem dumpable_below {n : ℤ} (hPos : 0 ≤ n) (bound : ℕ) (hn : n ≤ bound)
    (hBound : bound < 10 ^ Json.maxStrDigits) : Json.dumpable (.int n : Json F) = true := by
  rcases Int.eq_ofNat_of_zero_le hPos with ⟨k, rfl⟩
  apply Json.dumpable_natCast
  omega

theorem dumpable_eventMembers {e : Event F}
    (h : Formed e) (hDate : e.ts.toRat ≤ 10 ^ 11) {bound : ℕ} (hN : e.n ≤ bound)
    (hBound : bound < 10 ^ Json.maxStrDigits) :
    Json.dumpable (.obj (eventMembers e)) = true := by
  have hLarge : 10 ^ 12 ≤ 10 ^ Json.maxStrDigits := Nat.pow_le_pow_right (by decide) (by decide)
  have hTs : Json.dumpable (numJson e.ts) = true := by
    have hFirst := h.ts
    cases hCase : e.ts with
    | float x => rfl
    | int n =>
      rw [hCase] at hDate hFirst
      have hLow : (0 : ℚ) ≤ (n : ℚ) := hFirst
      have hHigh : (n : ℚ) ≤ 10 ^ 11 := hDate
      have hLow' : 0 ≤ n := by exact_mod_cast hLow
      have hHigh' : n ≤ 10 ^ 11 := by exact_mod_cast hHigh
      exact dumpable_below hLow' (10 ^ 11) (by exact_mod_cast hHigh') (by omega)
  have hPort : Json.dumpable (orNull Json.int e.port : Json F) = true := by
    cases hCase : e.port with
    | none => rfl
    | some n =>
      have hRange := h.port n hCase
      exact dumpable_below (by omega) 65535 (by omega) (by omega)
  have hDcls : Json.dumpable (orNull (fun d : JournalDcls => .str d.token) e.dcls : Json F) = true := by
    cases e.dcls <;> rfl
  have hFp : Json.dumpable (orNull Json.str e.fp : Json F) = true := by
    cases e.fp <;> rfl
  have hOne := h.n
  have hCount : Json.dumpable (.int e.n : Json F) = true := dumpable_below (by omega) bound hN hBound
  rw [Json.dumpable, Json.dumpableMembers_iff]
  unfold eventMembers
  simp only [List.forall_mem_cons]
  refine ⟨rfl, hTs, rfl, rfl, hPort, hDcls, hFp, hCount, ?_⟩
  intro m hm
  cases hm

theorem n_le_eligible {count : (JournalClass → Bool) → ℕ}
    (h : Tally b count) : ∀ row ∈ (records b).1, row.n ≤ b.eligible := by
  intro row hRow
  have hAll : countOf (fun _ => true) (records b).1 = b.eligible := by
    have hCount := countOf_records (fun _ => true) b
    rw [h.groups, ← h.eligible] at hCount
    exact_mod_cast hCount
  rw [← hAll]
  unfold countOf
  simp only [if_true]
  apply List.single_le_sum
  · intro n hn
    rcases List.mem_map.mp hn with ⟨e, he, rfl⟩
    have hOne := (formed_records h.sound e he).n
    omega
  · exact List.mem_map_of_mem hRow

theorem exchangeBody_eq {count : (JournalClass → Bool) → ℕ}
    (h : Tally b count) {p : Position} (hDated : Dated b)
    (hWritable : Writable b p) :
    exchangeBody b p = some (bodyText b p) ∧ ∀ e ∈ (records b).1, Ready e := by
  have hLines := h.lines
  have hReady : ∀ e ∈ (records b).1, Ready e := by
    intro e he
    have hDate := (dated_iff h.sound).mpr hDated e he
    have hFormed := formed_records h.sound e he
    exact ⟨hFormed, hDate, dumpable_eventMembers hFormed hDate (n_le_eligible h e he)
        (by have hBound := hWritable.1; omega)⟩
  refine ⟨?_, hReady⟩
  have hHeader := (writable_iff h p).mpr hWritable
  have hRows : (records b).1.any (fun e =>
        (validateEvent (eventMembers e)).isNone || !Json.dumpable (.obj (eventMembers e))) = false := by
    rw [List.any_eq_false]
    intro e he
    rw [validateEvent_eventMembers (hReady e he).formed, if_pos (hReady e he).date, (hReady e he).dump]
    simp
  unfold exchangeBody
  simp only [validateHeader_headerMembers, hHeader, hRows]
  rfl

theorem dated_of_exchangeBody {count : (JournalClass → Bool) → ℕ} (h : Tally b count)
    {p : Position} {text : PyStr}
    (hText : exchangeBody b p = some text) : Dated b ∧ Writable b p := by
  unfold exchangeBody at hText
  simp only [validateHeader_headerMembers] at hText
  split at hText
  · cases hText
  · split at hText
    · cases hText
    · rename_i hHeader
      split at hText
      · cases hText
      · rename_i hRows
        constructor
        · rw [← dated_iff h.sound]
          intro row hRow
          by_contra hLate
          apply hRows
          rw [List.any_eq_true]
          refine ⟨row, hRow, ?_⟩
          rw [validateEvent_eventMembers (formed_records h.sound row hRow), if_neg hLate]
          rfl
        · rw [← writable_iff h p]
          simpa using hHeader

-- Agreement

/-
  The body of a batch is accepted for its sequence number, as
  records that lose no count.
-/
def Agreed (r : TextRules F) (es : List (Entry F)) (b : Batch F) (p : Position) : Prop :=
  ∃ (text : PyStr) (header : Header) (events : List (Event F)), exchangeBody b p = some text ∧ (∀ room,
        parseExchangeText (room + 1) p.seq text = .ok (.ok (header, events))) ∧
      events.length ≤ maxRecordsPerFile ∧
      header.lines = header.eligible + header.infoDropped + header.nomatchDropped + header.pfail ∧
      countOf (fun _ => true) events = header.eligible ∧
      header.eligible = es.countP (fun e => (entryClass r e).isSome) ∧
      (∀ cls : JournalClass, countOf (fun c => decide (c = cls)) events =
          es.countP (fun e => decide (entryClass r e = some cls))) ∧
      (events.filterMap Event.fp).dedup.length ≤ maxFpPerWindow

theorem countOf_eq {count : (JournalClass → Bool) → ℕ} (h : Tally b count)
    (p : JournalClass → Bool) : countOf p (records b).1 = count p := by
  have hCount := countOf_records p b
  rw [h.groups] at hCount
  exact_mod_cast hCount

theorem fps_few (h : Sound b) : ((records b).1.filterMap Event.fp).dedup.length ≤ maxFpPerWindow := by
  have hSub : ((records b).1.filterMap Event.fp).dedup ⊆
        b.fps.map Subtype.val := by
    intro fp hFp
    rcases List.mem_filterMap.mp (List.mem_dedup.mp hFp) with ⟨row, hRow, hEq⟩
    exact fps_records h row hRow fp hEq
  have hLength := ((List.nodup_dedup _).subperm hSub).length_le
  rw [List.length_map] at hLength
  exact hLength.trans h.few

/-
  Producer and consumer agree on a batch exactly if its dates
  are taken and its numbers can be printed.
-/
theorem exchange_agrees_iff (r : TextRules F) (es : List (Entry F)) (b : Batch F) (h : consume r es = some b)
    (p : Position) : Agreed r es b p ↔ Dated b ∧ Writable b p := by
  have hTally := tally_consume h
  constructor
  · rintro ⟨text, _, _, hText, _⟩
    exact dated_of_exchangeBody hTally hText
  · rintro ⟨hDated, hWritable⟩
    rcases exchangeBody_eq hTally hDated hWritable with ⟨hBody, hReady⟩
    have hLines := hTally.lines
    have hEligible := hTally.eligible
    refine ⟨bodyText b p, headerOf b (records b).2 p,
      (records b).1, hBody, ?_, length_records hTally.sound, ?_,
      ?_, ?_, ?_, fps_few hTally.sound⟩
    · exact parseExchangeText_bodyText ((writable_iff hTally p).mpr hWritable) hReady
    · simp only [headerOf]
      exact_mod_cast hLines
    · rw [countOf_eq hTally]
      exact congrArg Nat.cast hEligible.symm
    · simp only [headerOf]
      rw [hEligible]
      rfl
    · intro cls
      rw [countOf_eq hTally]
      congr 2
      funext e
      cases entryClass r e with
      | none => rfl
      | some c => simp

-- A Timestamp Out of Range

instance : Decidable (Dated b) := by
  unfold Dated
  infer_instance

instance (p : Position) : Decidable (Writable b p) :=
  inferInstanceAs (Decidable (_ ∧ _ ∧ _ ∧ _))

instance gridFits : Fact (2 ^ 53 ≤ 2 ^ 64) := ⟨by norm_num⟩

/- Text that has no level, no address and no template. -/
def plainRules : TextRules (IntGrid (2 ^ 64)) where
  unicode :=
    { isDigit := fun c => 48 ≤ c && c ≤ 57
      decimal := fun c =>
        if 48 ≤ c ∧ c ≤ 57 then some (Fin.ofNat 10 (c - 48))
        else none }
  normalizeMessage := fun message =>
    match message with
    | .str s => (s, none)
    | _ => ([], none)
  dialTimeout := fun _ => false
  dialAddresses := fun _ => []
  blank := fun _ => false
  buildTemplate := fun text => text
  residualUnsafe := fun _ => false
  fingerprint := fun _ => ⟨List.replicate 16 48, rfl, by decide⟩

/- A reset of a connection at some microsecond. -/
def resetEntry (realtime : String) : Entry (IntGrid (2 ^ 64)) where
  message := .str (pyStr "connection reset by peer")
  priority := .str (pyStr "6")
  realtime := .str (pyStr realtime)
  sourceRealtime := .null

def firstPosition : Position where
  seq := 1
  run := List.replicate 32 97
  epoch := 1
  boundary := .none
  seq_pos := le_refl 1
  epoch_pos := le_refl 1
  run_hex := by decide

def resetBatch (realtime : String) : Batch (IntGrid (2 ^ 64)) :=
  (consume plainRules [resetEntry realtime]).getD Batch.empty

theorem consume_resetEntry (realtime : String)
    (h : (consume plainRules [resetEntry realtime]).isSome = true) :
    consume plainRules [resetEntry realtime] = some (resetBatch realtime) := by
  unfold resetBatch
  rcases Option.isSome_iff_exists.mp h with ⟨b, hb⟩
  rw [hb]
  rfl

theorem exchange_agrees_resetEntry : Agreed plainRules [resetEntry "1700000000000000"]
      (resetBatch "1700000000000000") firstPosition :=
  (exchange_agrees_iff plainRules [resetEntry "1700000000000000"] (resetBatch "1700000000000000")
    (consume_resetEntry _ (by decide +kernel)) firstPosition).mpr
    ⟨by decide +kernel, by decide +kernel⟩

/- A timestamp of the year 8307: the batch cannot be written. -/
theorem lateEntry_not_agreed : consume plainRules [resetEntry "200000000000000000"] =
        some (resetBatch "200000000000000000") ∧
      ¬ Agreed plainRules [resetEntry "200000000000000000"]
        (resetBatch "200000000000000000") firstPosition := by
  have hBatch := consume_resetEntry "200000000000000000" (by decide +kernel)
  refine ⟨hBatch, ?_⟩
  rintro ⟨text, _, _, hText, _⟩
  have hDated := (dated_of_exchangeBody (tally_consume hBatch) hText).1
  revert hDated
  decide +kernel

end SingboxOps.JournalReader
