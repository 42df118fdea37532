import SingboxOps.ClientExport.Printing

/-
  The renderer and the parser of exports.

  What is read is what the renderer prints of the fields it
  recovers, where both proxies have one server and the bounds
  of a hop range are of ASCII digits.
-/

namespace SingboxOps.ClientExport

-- Recovered Facts

/- The value of a field. -/
def Profile.field (fields : Fields) (name : String) : PyStr := (Dict.get fields (pyStr name)).getD []

/- The bounds of the hop range, as the parser matched them. -/
def Profile.hop (p : Profile) : Option (PyStr × PyStr) :=
  (Dict.get p.blocks.hysteria (pyStr "ports")).bind hopRange

/- The facts that a profile carries. -/
def factsOf (p : Profile) : Facts where
  server_ip := Profile.field p.blocks.reality "server"
  reality_port := Profile.field p.blocks.reality "port"
  reality_uuid := Profile.field p.blocks.reality "uuid"
  reality_server_name := Profile.field p.blocks.reality "servername"
  public_key := Profile.field p.blocks.reality "public-key"
  short_id := Profile.field p.blocks.reality "short-id"
  hy_port := Profile.field p.blocks.hysteria "port"
  ishopping := if p.hop.isSome then pyStr "TRUE" else pyStr "FALSE"
  hy_hopping_start := (p.hop.map Prod.fst).getD []
  hy_hopping_end := (p.hop.map Prod.snd).getD []
  hy_password := Profile.field p.blocks.hysteria "password"
  hy_server_name := Profile.field p.blocks.hysteria "sni"

def Export.facts (e : Export) : Facts where
  server_ip := e.server
  reality_port := e.port
  reality_uuid := e.uuid
  reality_server_name := e.servername
  public_key := e.publicKey
  short_id := e.shortId
  hy_port := e.hysteriaPort
  ishopping := if e.hop.isSome then pyStr "TRUE" else pyStr "FALSE"
  hy_hopping_start := (e.hop.map Prod.fst).getD []
  hy_hopping_end := (e.hop.map Prod.snd).getD []
  hy_password := e.password
  hy_server_name := e.sni

theorem hop_of_holds {p : Profile} {e : Export} (hHolds : Holds p e)
    (hAccepted : Accepted e) : p.hop = e.hop := by
  unfold Profile.hop
  rw [hHolds.hysteria, get_ports]
  have hHop := hAccepted.hop
  cases hPair : e.hop with
  | none => rfl
  | some pair =>
    rw [hPair] at hHop
    exact HopOk.range hHop

theorem get_reality (e : Export) : Profile.field e.realityFields "server" = e.server ∧
      Profile.field e.realityFields "port" = e.port ∧
      Profile.field e.realityFields "uuid" = e.uuid ∧
      Profile.field e.realityFields "servername" = e.servername ∧
      Profile.field e.realityFields "public-key" = e.publicKey ∧
      Profile.field e.realityFields "short-id" = e.shortId :=
  ⟨rfl, rfl, rfl, rfl, rfl, rfl⟩

theorem get_hysteria (e : Export) : Profile.field e.hysteriaFields "port" = e.hysteriaPort ∧
      Profile.field e.hysteriaFields "password" = e.password ∧
      Profile.field e.hysteriaFields "sni" = e.sni := by
  cases hPair : e.hop with
  | none =>
    unfold Export.hysteriaFields
    rw [hPair]
    exact ⟨rfl, rfl, rfl⟩
  | some pair =>
    unfold Export.hysteriaFields
    rw [hPair]
    exact ⟨rfl, rfl, rfl⟩

theorem factsOf_holds {p : Profile} {e : Export} (hHolds : Holds p e)
    (hAccepted : Accepted e) : factsOf p = e.facts := by
  rcases get_reality e with ⟨h1, h2, h3, h4, h5, h6⟩
  rcases get_hysteria e with ⟨h7, h8, h9⟩
  unfold factsOf Export.facts
  rw [hop_of_holds hHolds hAccepted, hHolds.reality, hHolds.hysteria, h1, h2, h3, h4, h5, h6, h7, h8, h9]

-- Without the Bandwidth

def isLegacy (line : PyStr) : Bool := LEGACY_BANDWIDTH_LINES.contains line

/- No bandwidth line is a line of this entry. -/
def Entry.free (entry : Entry) : Bool := match entry with
  | .literal expected => !isLegacy expected
  | .value key _ _ =>
    decide (6 ≤ key.length) && LEGACY_BANDWIDTH_LINES.all (fun line => decide (line.take 6 ≠ key.take 6))

theorem not_legacy_of_key {key : PyStr} (hLength : 6 ≤ key.length)
    (hKey : ∀ line ∈ LEGACY_BANDWIDTH_LINES, line.take 6 ≠ key.take 6)
    (value : PyStr) : isLegacy (key ++ value) = false := by
  rw [Bool.eq_false_iff]
  intro hLegacy
  refine hKey _ (List.contains_iff_mem.mp hLegacy) ?_
  rw [List.take_append_of_le_length hLength]

theorem filter_fill {spec : List Entry} (h : spec.all Entry.free = true)
    (values : List PyStr) : ∀ line ∈ fill spec values, isLegacy line = false := by
  induction spec generalizing values with
  | nil =>
    intro line hLine
    cases hLine
  | cons entry spec ih =>
    rw [List.all_cons, Bool.and_eq_true] at h
    rcases h with ⟨hHere, hRest⟩
    cases entry with
    | literal expected =>
      intro line hLine
      rcases List.mem_cons.mp hLine with rfl | hLine
      · rw [Entry.free, Bool.not_eq_true'] at hHere
        exact hHere
      · exact ih hRest values line hLine
    | value key checker name =>
      unfold Entry.free at hHere
      simp only [Bool.and_eq_true, decide_eq_true_eq, List.all_eq_true] at hHere
      cases values with
      | nil =>
        intro line hLine
        cases hLine
      | cons value values =>
        intro line hLine
        rcases List.mem_cons.mp hLine with rfl | hLine
        · exact not_legacy_of_key hHere.1 hHere.2 value
        · exact ih hRest values line hLine

theorem filter_free {lines : List PyStr} (h : ∀ line ∈ lines, isLegacy line = false) :
    lines.filter (fun line => !isLegacy line) = lines := by
  rw [List.filter_eq_self]
  intro line hLine
  rw [h line hLine]
  rfl

/- The same export without the bandwidth lines. -/
def Export.plain (e : Export) : Export := { e with legacy := false }

theorem hop_free (hop : Option (PyStr × PyStr)) : ∀ line ∈ hopLines hop, isLegacy line = false := by
  intro line hLine
  cases hop with
  | none => cases hLine
  | some pair =>
    rcases List.mem_cons.mp hLine with rfl | hLine
    · exact not_legacy_of_key (by decide)
        (by decide) _
    · rw [List.mem_singleton.mp hLine]
      decide

theorem filter_hysteria (e : Export) :
    e.hysteriaLines.filter (fun line => !isLegacy line) = e.plain.hysteriaLines := by
  have hHead : HISTERIA2_HEAD.all Entry.free = true := by decide
  have hPassword : PASSWORD_SPEC.all Entry.free = true := by decide
  have hTail : HISTERIA2_TAIL.all Entry.free = true := by decide
  have hBandwidth : (bandwidthLines e.legacy).filter (fun line => !isLegacy line) = [] := by
    cases e.legacy <;> decide
  unfold Export.hysteriaLines
  simp only [List.filter_append, filter_free (filter_fill hHead _), filter_free (hop_free e.hop),
    filter_free (filter_fill hPassword _), hBandwidth,
    filter_free (filter_fill hTail _)]
  rfl

theorem filter_lines (e : Export) : e.lines.filter (fun line => !isLegacy line) = e.plain.lines := by
  have hReality : REALITY_SPEC.all Entry.free = true := by decide
  have hFront : ∀ line ∈ headLines, isLegacy line = false := by decide
  have hBack : ∀ line ∈ tailLines, isLegacy line = false := by decide
  have hBlank : isLegacy [] = false := by decide
  unfold Export.lines
  rw [Export.proxies_eq, Export.realityLines]
  simp only [List.filter_append, List.filter_cons, hBlank,
    filter_free (filter_fill hReality _), filter_hysteria,
    filter_free hFront, filter_free hBack]
  rfl

-- Printing What Was Read

/- The bounds of a hop range are of ASCII digits. -/
def HopAscii (hop : Option (PyStr × PyStr)) : Prop :=
  ∀ pair, hop = some pair → isDigits pair.1 = true ∧ isDigits pair.2 = true

theorem facts_hopping_iff (e : Export) : e.facts.hopping = true ↔
      ∃ pair, e.hop = some pair ∧ isDigits pair.1 = true ∧ isDigits pair.2 = true := by
  have hTrue : e.facts.ishopping = pyStr "TRUE" ↔ e.hop.isSome = true := by
    have hFalse : pyStr "FALSE" ≠ pyStr "TRUE" := by decide
    unfold Export.facts
    cases e.hop with
    | none => exact ⟨fun h => (hFalse h).elim, (fun h => nomatch h)⟩
    | some pair => exact ⟨fun _ => rfl, fun _ => rfl⟩
  unfold Facts.hopping
  rw [Bool.and_eq_true, Bool.and_eq_true, decide_eq_true_eq, hTrue]
  unfold Export.facts
  cases e.hop with
  | none =>
    constructor
    · rintro ⟨⟨h, -⟩, -⟩
      cases h
    · rintro ⟨pair, h, -⟩
      cases h
  | some pair =>
    constructor
    · rintro ⟨⟨-, hFirst⟩, hLast⟩
      exact ⟨pair, rfl, hFirst, hLast⟩
    · rintro ⟨pair', h, hFirst, hLast⟩
      cases h
      exact ⟨⟨rfl, hFirst⟩, hLast⟩

theorem export_facts (e : Export) : e.facts.export =
      { e.plain with
        hysteriaServer := e.server
        hop := if e.facts.hopping then e.hop else none } := by
  unfold Facts.export
  congr 1
  split
  · rename_i hOn
    rcases (facts_hopping_iff e).mp hOn with ⟨pair, hPair, -⟩
    unfold Export.facts
    dsimp only
    rw [hPair]
    rfl
  · rfl

theorem printed_subset (e : Export) : ∀ line ∈ e.facts.export.lines, line ∈ e.lines := by
  rw [export_facts]
  intro line hLine
  unfold Export.lines Export.proxies at hLine ⊢
  simp only [Export.plain, List.mem_append, List.mem_cons] at hLine ⊢
  rcases hLine with h | ((h | h | h | h | h | h | h) | h)
  · exact .inl h
  · exact .inr (.inl (.inl h))
  · exact .inr (.inl (.inr (.inl h)))
  · unfold Export.headValues at h
    fin_cases h
    · exact .inr (.inl (.inr (.inr (.inl List.mem_cons_self))))
    · exact .inr (.inl (.inr (.inr (.inl (List.mem_cons_of_mem _ List.mem_cons_self)))))
    · refine .inr (.inl (.inl ?_))
      exact List.mem_cons_of_mem _ (List.mem_cons_of_mem _ List.mem_cons_self)
    · exact .inr (.inl (.inr (.inr (.inl (List.mem_cons_of_mem _ (List.mem_cons_of_mem _
          (List.mem_cons_of_mem _ List.mem_cons_self)))))))
  · split at h
    · exact .inr (.inl (.inr (.inr (.inr (.inl h)))))
    · cases h
  · exact .inr (.inl (.inr (.inr (.inr (.inr (.inl h))))))
  · cases h
  · exact .inr (.inl (.inr (.inr (.inr (.inr (.inr (.inr h)))))))
  · exact .inr (.inr h)

theorem starts_password (value : PyStr) : (pyStr "    ports:").isPrefixOf
      (pyStr "    password: " ++ value) = false :=
  rfl

theorem printed_lines_iff (e : Export) : e.plain.lines = e.facts.export.lines ↔
      e.hysteriaServer = e.server ∧ HopAscii e.hop := by
  rw [export_facts]
  constructor
  · intro h
    unfold Export.lines at h
    have h := List.append_cancel_left h
    unfold Export.proxies at h
    simp only [Export.plain, List.append_assoc, List.cons_append] at h
    have h := List.append_cancel_left h
    injection h with _ h
    injection h with _ h
    injection h with _ h
    injection h with hServer h
    injection h with _ h
    refine ⟨List.append_cancel_left hServer, ?_⟩
    intro pair hPair
    by_cases hOn : e.facts.hopping = true
    · rcases (facts_hopping_iff e).mp hOn with ⟨pair', hEq, hBoth⟩
      rw [hPair] at hEq
      cases hEq
      exact hBoth
    · exfalso
      rw [if_neg hOn, hPair] at h
      injection h with hLine _
      have hPorts := starts_ports (hopText pair.1 pair.2)
      rw [hLine, starts_password] at hPorts
      cases hPorts
  · rintro ⟨hServer, hAscii⟩
    have hHop : (if e.facts.hopping then e.hop else none) = e.hop := by
      split
      · rfl
      · rename_i hOff
        cases hPair : e.hop with
        | none => rfl
        | some pair =>
          exact (hOff ((facts_hopping_iff e).mpr ⟨pair, hPair, hAscii pair hPair⟩)).elim
    rw [hHop, ← hServer]
    rfl

-- Every Byte String

/-
  The parser fails by its own failure alone, and what it reads
  is, without the bandwidth lines, what the renderer prints.
-/
structure Agrees (raw : Bytes) : Prop where
  failure : ∀ error, parseExport raw = .error error → error = .fail
  printed : ∀ p, parseExport raw = .ok p → withoutBandwidth p.lines = cm_render_client_mihomo_yaml (factsOf p)

/-
  No port is reached that `int` refuses; and of an export the
  two servers are one, and the bounds of a hop range are of
  ASCII digits.
-/
def Printable (raw : Bytes) : Prop := ∀ lines, readExport raw = .ok lines →
    ¬ RaisesOn lines ∧ ∀ e : Export, lines = e.lines → Accepted e →
        e.hysteriaServer = e.server ∧ HopAscii e.hop

theorem readExport_not_valueError (raw : Bytes) : readExport raw ≠ .error .valueError := by
  intro h
  unfold readExport at h
  rcases except_bind_error h with hNo | ⟨_, -, h⟩
  · exact expect_not_valueError hNo
  split at h
  · cases h
  · rcases except_bind_error h with hNo | ⟨_, -, h⟩
    · exact expect_not_valueError hNo
    · cases h

theorem readExport_ok {raw : Bytes} {lines : List PyStr}
    (h : readExport raw = .ok lines) : ∀ line ∈ lines, 10 ∉ line := by
  unfold readExport at h
  rcases except_bind_ok h with ⟨_, -, h⟩
  split at h
  · cases h
  · rcases except_bind_ok h with ⟨_, -, h⟩
    cases h
    exact fun line hLine => not_mem_of_mem_splitOn hLine

theorem withoutBandwidth_lines (e : Export) : withoutBandwidth e.lines = [10].intercalate e.plain.lines := by
  unfold withoutBandwidth
  exact congrArg _ (filter_lines e)

theorem render_facts (e : Export) : cm_render_client_mihomo_yaml e.facts =
      [10].intercalate e.facts.export.lines := by
  unfold cm_render_client_mihomo_yaml
  rw [lines_export]

theorem lines_ne_nil (e : Export) : e.lines ≠ [] := by
  intro hNil
  have hTail := (List.append_eq_nil_iff.mp (List.append_eq_nil_iff.mp hNil).2).2
  cases hTail

theorem same_text_iff {e : Export} (hLines : ∀ line ∈ e.lines, 10 ∉ line) :
    withoutBandwidth e.lines = cm_render_client_mihomo_yaml e.facts ↔
      e.hysteriaServer = e.server ∧ HopAscii e.hop := by
  rw [withoutBandwidth_lines, render_facts, ← printed_lines_iff]
  constructor
  · intro h
    have hPlain : ([10].intercalate e.plain.lines).splitOn 10 = e.plain.lines := by
      refine List.splitOn_intercalate 10 ?_ (lines_ne_nil _)
      intro line hLine
      rw [← filter_lines] at hLine
      exact hLines line (List.mem_of_mem_filter hLine)
    have hPrinted : ([10].intercalate e.facts.export.lines).splitOn 10 = e.facts.export.lines := by
      refine List.splitOn_intercalate 10 ?_ (lines_ne_nil _)
      intro line hLine
      exact hLines line (printed_subset e line hLine)
    rw [← hPlain, h, hPrinted]
  · exact congrArg _

theorem agrees_iff (raw : Bytes) : Agrees raw ↔ Printable raw := by
  constructor
  · intro h lines hRead
    constructor
    · intro hRaises
      have hError : parseExport raw = .error .valueError :=
        (except_bind_of_ok hRead).trans ((parseLines_raises_iff lines).mpr hRaises)
      cases h.failure _ hError
    · rintro e rfl hAccepted
      rcases parseLines_of hAccepted with ⟨p, hParse, hHolds⟩
      have hPrinted := h.printed p (except_bind_ok_iff.mpr ⟨_, hRead, hParse⟩)
      rw [hHolds.lines, factsOf_holds hHolds hAccepted] at hPrinted
      exact (same_text_iff (readExport_ok hRead)).mp hPrinted
  · intro h
    constructor
    · intro error hError
      cases error with
      | fail => rfl
      | valueError =>
        exfalso
        rcases except_bind_error hError with hNo | ⟨lines, hRead, hLines⟩
        · exact readExport_not_valueError raw hNo
        · exact (h lines hRead).1 ((parseLines_raises_iff lines).mp hLines)
    · intro p hParse
      rcases except_bind_ok hParse with ⟨lines, hRead, hLines⟩
      rcases parseLines_ok hLines with ⟨e, rfl, hAccepted, hHolds⟩
      rw [hHolds.lines, factsOf_holds hHolds hAccepted]
      exact (same_text_iff (readExport_ok hRead)).mpr ((h _ hRead).2 e rfl hAccepted)

/-
  Well-formed facts are read back just where the parser takes
  their hop range, and a byte string agrees with the renderer
  just where it is printable.
-/
theorem renderer_parser_agree (f : Facts) (raw : Bytes) : (WellFormed f →
      (Recovers (utf8Encode (cm_render_client_mihomo_yaml f)) f ↔ HopReadable f)) ∧
      (Agrees raw ↔ Printable raw) :=
  ⟨recovers_iff, agrees_iff raw⟩

-- Exports

/- The facts of a server without a hop range. -/
def plainFacts : Facts where
  server_ip := pyStr "203.0.113.7"
  reality_port := pyStr "443"
  reality_uuid := pyStr "0b8d2f3e-1c4a-4f6b-9a7d-5e2c1f0a9b8c"
  reality_server_name := pyStr "itunes.apple.com"
  public_key := pyStr "Zx8kQ2mT5vB1nR7yL4wC9sH3jF6gD0aEuIpOqXzKtYs"
  short_id := pyStr "0123456789abcdef"
  hy_port := pyStr "8443"
  ishopping := pyStr "FALSE"
  hy_hopping_start := []
  hy_hopping_end := []
  hy_password := pyStr "fedcba9876543210"
  hy_server_name := pyStr "bing.com"

/- The same, where it hops over a range. -/
def hoppingFacts (first last : String) : Facts :=
  { plainFacts with
    ishopping := pyStr "TRUE"
    hy_hopping_start := pyStr first
    hy_hopping_end := pyStr last }

theorem wellFormed_plainFacts : WellFormed plainFacts := by
  constructor
  · decide
  · decide
  · decide
  · exact ⟨by decide, by decide, by decide,
      by decide, by decide⟩
  · decide
  · decide
  · decide
  · decide
  · exact ⟨by decide, by decide, by decide,
      by decide, by decide⟩
  · decide
  · decide

theorem wellFormed_hoppingFacts (first last : String) : WellFormed (hoppingFacts first last) :=
  have h := wellFormed_plainFacts
  ⟨h.server, h.serverGraphic, h.serverLength, h.realityPort, h.uuid,
    h.serverName, h.publicKey, h.shortId, h.hysteriaPort, h.password,
    h.hysteriaName⟩

/- A range of ports is read back. -/
theorem renderer_parser_agree_range : Recovers (utf8Encode (cm_render_client_mihomo_yaml
        (hoppingFacts "50000" "51000")))
      (hoppingFacts "50000" "51000") := by
  refine ((renderer_parser_agree (hoppingFacts "50000" "51000") []).1 (wellFormed_hoppingFacts _ _)).mpr ?_
  intro _
  exact ⟨by decide, by decide, by decide, by decide, by decide⟩

/- The port of `Reality` is a superscript two. -/
def superscriptFacts : Facts := { hoppingFacts "50000" "51000" with reality_port := [0xB2] }

/-
  A range with a leading zero is stored, by its octal value,
  and its export is refused; and an export with a superscript
  port makes the parser raise what `int` raises.
-/
theorem renderer_parser_disagree : (WellFormed (hoppingFacts "0100" "65") ∧
      storesRange (pyStr "0100") (pyStr "65") = true ∧
      ¬ Recovers (utf8Encode (cm_render_client_mihomo_yaml (hoppingFacts "0100" "65")))
        (hoppingFacts "0100" "65")) ∧
      parseExport (utf8Encode (cm_render_client_mihomo_yaml superscriptFacts)) = .error .valueError := by
  have hWell := wellFormed_hoppingFacts "0100" "65"
  refine ⟨⟨hWell, by decide, ?_⟩, ?_⟩
  · rw [recovers_iff hWell]
    intro hHop
    have hOrder := (hHop (by decide)).order
    revert hOrder
    decide
  · have hRead : readExport (utf8Encode (cm_render_client_mihomo_yaml superscriptFacts)) =
          .ok superscriptFacts.lines := by
      refine readExport_render ?_ ?_ <;> decide
    refine (except_bind_of_ok hRead).trans ((parseLines_raises_iff _).mpr ?_)
    rw [lines_export]
    refine ⟨superscriptFacts.export.proxies ++ [] :: tailLines, superscriptFacts.export.sections, rfl,
      checkTopLevel_lines _, .inl ?_⟩
    refine ⟨pyStr "203.0.113.7", [0xB2], _, rfl, ?_, by decide,
      ?_, ?_⟩
    · exact ⟨by decide, by decide⟩
    · exact ⟨by decide, by decide⟩
    · exact ⟨by decide, by decide⟩

end SingboxOps.ClientExport
