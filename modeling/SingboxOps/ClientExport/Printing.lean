import SingboxOps.ClientExport.Reading
import SingboxOps.ClientExport.Renderer

/-
  Reading back what was printed.

  What is printed of well-formed facts is read back just where
  the hop range is one the parser takes.
-/

namespace SingboxOps.ClientExport

-- Printed Lines

/- The values that the facts are printed as. -/
def Facts.export (f : Facts) : Export where
  server := f.server_ip
  port := f.reality_port
  uuid := f.reality_uuid
  servername := f.reality_server_name
  publicKey := f.public_key
  shortId := f.short_id
  hysteriaServer := f.server_ip
  hysteriaPort := f.hy_port
  hop :=
    if f.hopping then some (f.hy_hopping_start, f.hy_hopping_end)
    else none
  password := f.hy_password
  legacy := false
  sni := f.hy_server_name

theorem templateHead_eq : templateHead = headLines := rfl

theorem templateTail_eq : templateTail = [] :: tailLines := rfl

theorem lines_export (f : Facts) : f.lines = f.export.lines := by
  have hHop : f.hy_clash_port_yaml = [pyStr "    port: " ++ f.hy_port] ++ hopLines f.export.hop := by
    unfold Facts.hy_clash_port_yaml Facts.export Facts.formatted_range
    dsimp only
    split
    · simp [hopLines, hopText, pyStr]
    · rfl
  unfold Facts.lines Facts.hysteria Export.lines
  rw [templateHead_eq, templateTail_eq, hHop]
  simp only [Export.proxies, List.append_assoc, List.cons_append]
  rfl

-- Characters

/- A graphic character of ASCII. -/
def Graphic (s : PyStr) : Prop := ∀ c ∈ s, 33 ≤ c ∧ c < 127

theorem graphic_of_all {s : PyStr} {p : ℕ → Bool} (hAll : s.all p = true)
    (hChar : ∀ c, p c = true → 33 ≤ c ∧ c < 127) : Graphic s :=
  fun c hc => hChar c (List.all_eq_true.mp hAll c hc)

theorem graphic_alnum {c : ℕ} (h : isAlnum c = true) : 33 ≤ c ∧ c < 127 := by
  unfold isAlnum isAsciiDigit at h
  simp at h
  omega

theorem graphic_hex {c : ℕ} (h : isHex c = true) : 33 ≤ c ∧ c < 127 := by
  unfold isHex isAsciiDigit at h
  simp at h
  omega

theorem graphic_oneOf {s : String} (hs : Graphic (pyStr s)) {c : ℕ}
    (h : isOneOf s c = true) : 33 ≤ c ∧ c < 127 := by
  unfold isOneOf at h
  exact hs c (List.contains_iff_mem.mp h)

instance (s : PyStr) : Decidable (Graphic s) :=
  inferInstanceAs (Decidable (∀ c ∈ s, 33 ≤ c ∧ c < 127))

theorem graphic_class {extra : String} (hExtra : Graphic (pyStr extra)) {s : PyStr}
    (h : s.all (fun c => isAlnum c || isOneOf extra c) = true) : Graphic s := by
  refine graphic_of_all h ?_
  intro c hc
  rcases Bool.or_eq_true_iff.mp hc with hc | hc
  · exact graphic_alnum hc
  · exact graphic_oneOf hExtra hc

theorem graphic_hostname {s : PyStr} (h : isHostname s = true) : Graphic s ∧ s.length ≤ 254 ∧ s ≠ [] := by
  unfold isHostname at h
  simp only [Bool.and_eq_true, decide_eq_true_eq] at h
  refine ⟨graphic_class (by decide) h.1.1.2, h.1.1.1.2, ?_⟩
  rintro rfl
  exact absurd h.1.1.1.1 (by decide)

theorem graphic_uuid {s : PyStr} (h : isUuid s = true) : Graphic s ∧ s.length ≤ 254 ∧ s ≠ [] := by
  unfold isUuid at h
  simp only [Bool.and_eq_true, decide_eq_true_eq] at h
  refine ⟨graphic_of_all h.1.2 ?_, by omega, ?_⟩
  · intro c hc
    rcases Bool.or_eq_true_iff.mp hc with hc | hc
    · exact graphic_hex hc
    · rw [of_decide_eq_true hc]
      decide
  · rintro rfl
    exact absurd h.1.1 (by decide)

theorem graphic_key {s : PyStr} (h : isPublicKey s = true) : Graphic s ∧ s.length ≤ 254 ∧ s ≠ [] := by
  unfold isPublicKey at h
  simp only [Bool.and_eq_true, decide_eq_true_eq] at h
  refine ⟨graphic_class (by decide) h.2, by omega, ?_⟩
  rintro rfl
  exact absurd h.1.1 (by decide)

theorem graphic_shortId {s : PyStr} (h : isShortId s = true) : Graphic s ∧ s.length ≤ 254 ∧ s ≠ [] := by
  unfold isShortId at h
  simp only [Bool.and_eq_true, decide_eq_true_eq] at h
  refine ⟨graphic_of_all h.2 (fun c hc => graphic_hex hc), by omega, ?_⟩
  rintro rfl
  exact absurd h.1.1.1 (by decide)

theorem graphic_password {s : PyStr} (h : isPassword s = true) : Graphic s ∧ s.length ≤ 254 ∧ s ≠ [] := by
  unfold isPassword at h
  simp only [Bool.and_eq_true, decide_eq_true_eq] at h
  refine ⟨graphic_class (by decide) h.2, by omega, ?_⟩
  rintro rfl
  exact absurd h.1.1 (by decide)

theorem graphic_digits {s : PyStr} (h : isDigits s = true) : Graphic s ∧ s ≠ [] := by
  unfold isDigits at h
  simp only [Bool.and_eq_true, decide_eq_true_eq] at h
  refine ⟨graphic_of_all h.2 ?_, h.1⟩
  intro c hc
  unfold isAsciiDigit at hc
  simp at hc
  omega

theorem Graphic.canonical {s : PyStr} (h : Graphic s) (hNil : s ≠ []) : Canonical s := by
  refine ⟨hNil, (stripText_of_solid ?_).symm⟩
  intro c hc
  exact isSpaceChar_of_graphic (h c hc).1 (h c hc).2

theorem isDecimalChar_of_ascii {c : ℕ} (h : isAsciiDigit c = true) : isDecimalChar c = true := by
  unfold isAsciiDigit at h
  simp only [Bool.and_eq_true, decide_eq_true_eq] at h
  unfold isDecimalChar zeroOf decimalZeros
  rw [List.find?_cons_of_pos]
  · rfl
  · exact decide_eq_true ⟨h.1, by omega⟩

theorem isDigits_decimals {s : PyStr} (h : isDigits s = true) : s.all isDecimalChar = true := by
  unfold isDigits at h
  simp only [Bool.and_eq_true, decide_eq_true_eq] at h
  rw [List.all_eq_true]
  intro c hc
  exact isDecimalChar_of_ascii (List.all_eq_true.mp h.2 c hc)

-- Well-Formed Facts

/- A port as it is written in decimal. -/
structure IsPortText (s : PyStr) : Prop where
  digits : isDigits s = true
  length : s.length ≤ 5
  first : s.head? ≠ some 48
  low : 1 ≤ numberOf s
  high : numberOf s ≤ 65535

theorem isPort_digits {s : PyStr} (hDigits : isDigits s = true) (hLength : s.length ≤ 4300) :
    isPort s = some (decide (1 ≤ numberOf s) && decide (numberOf s ≤ 65535)) := by
  have hDecimals := isDigits_decimals hDigits
  have hNil := (graphic_digits hDigits).2
  unfold isPort
  rw [if_pos (isDigitText_of_decimals hNil hDecimals)]
  unfold intOfDigits
  rw [hDecimals, decide_eq_true hLength]
  rfl

theorem IsPortText.isPort {s : PyStr} (h : IsPortText s) : ClientExport.isPort s = some true := by
  rw [isPort_digits h.digits (by have := h.length; omega),
    decide_eq_true h.low, decide_eq_true h.high]
  rfl

/-
  The facts of a server: an address or a host name without
  white space, ports in decimal, and credentials of their
  kinds.  The hop range is whatever the state holds.
-/
structure WellFormed (f : Facts) : Prop where
  server : isServer f.server_ip = true
  serverGraphic : Graphic f.server_ip
  serverLength : 1 ≤ f.server_ip.length ∧ f.server_ip.length ≤ 254
  realityPort : IsPortText f.reality_port
  uuid : isUuid f.reality_uuid = true
  serverName : isHostname f.reality_server_name = true
  publicKey : isPublicKey f.public_key = true
  shortId : isShortId f.short_id = true
  hysteriaPort : IsPortText f.hy_port
  password : isPassword f.hy_password = true
  hysteriaName : isHostname f.hy_server_name = true

/- The bounds are in order, and of five digits at most. -/
structure Bounds (first last : PyStr) : Prop where
  firstLength : first.length ≤ 5
  lastLength : last.length ≤ 5
  low : 1 ≤ numberOf first
  order : numberOf first ≤ numberOf last
  high : numberOf last ≤ 65535

/- Where hopping is on, the parser takes the range. -/
def HopReadable (f : Facts) : Prop := f.hopping = true → Bounds f.hy_hopping_start f.hy_hopping_end

theorem hopText_split {first last : PyStr} (hFirst : isDigits first = true)
    (hLast : isDigits last = true) : (hopText first last).splitOn 45 = [first, last] := by
  have hNo : ∀ s : PyStr, isDigits s = true → 45 ∉ s := by
    intro s hs hMem
    unfold isDigits at hs
    simp only [Bool.and_eq_true, decide_eq_true_eq] at hs
    exact absurd (List.all_eq_true.mp hs.2 45 hMem) (by decide)
  have hJoin : hopText first last = [45].intercalate [first, last] := by
    simp [hopText, List.intercalate]
  rw [hJoin, List.splitOn_intercalate]
  · intro s hs
    rcases List.mem_cons.mp hs with rfl | hs
    · exact hNo _ hFirst
    · rw [List.mem_singleton.mp hs]
      exact hNo _ hLast
  · exact fun h => by cases h

theorem hopRange_digits {first last : PyStr} (hFirst : isDigits first = true) (hLast : isDigits last = true) :
    hopRange (hopText first last) =
      if first.length ≤ 5 ∧ last.length ≤ 5 then some (first, last)
      else none := by
  have hPositive : ∀ s : PyStr, isDigits s = true → 1 ≤ s.length := by
    intro s hs
    exact List.length_pos_iff.mpr (graphic_digits hs).2
  unfold hopRange
  rw [hopText_split hFirst hLast]
  dsimp only
  rw [isDigits_decimals hFirst, isDigits_decimals hLast, decide_eq_true (hPositive _ hFirst),
    decide_eq_true (hPositive _ hLast)]
  simp only [Bool.true_and, Bool.and_true, Bool.and_eq_true, decide_eq_true_eq]

theorem Bounds.hopOk {first last : PyStr} (h : Bounds first last) (hFirst : isDigits first = true)
    (hLast : isDigits last = true) : HopOk first last := by
  have hShort := h.firstLength
  have hShort' := h.lastLength
  have hGraphic : Graphic (hopText first last) := by
    intro c hc
    rcases List.mem_append.mp hc with hc | hc
    · exact (graphic_digits hFirst).1 c hc
    rcases List.mem_cons.mp hc with rfl | hc
    · decide
    · exact (graphic_digits hLast).1 c hc
  constructor
  · refine hGraphic.canonical ?_
    intro hNil
    exact absurd (List.append_eq_nil_iff.mp hNil).2 (fun h => nomatch h)
  · rw [hopRange_digits hFirst hLast, if_pos ⟨hShort, hShort'⟩]
  · rw [isPort_digits hFirst (by omega), decide_eq_true h.low,
      decide_eq_true (h.order.trans h.high)]
    rfl
  · rw [isPort_digits hLast (by omega),
      decide_eq_true (h.low.trans h.order), decide_eq_true h.high]
    rfl
  · exact h.order

theorem WellFormed.accepted {f : Facts} (h : WellFormed f) (hHop : HopReadable f) : Accepted f.export := by
  have hServer : Canonical f.server_ip := h.serverGraphic.canonical (List.length_pos_iff.mp h.serverLength.1)
  have hCanonical : ∀ s : PyStr, Graphic s ∧ s.length ≤ 254 ∧ s ≠ [] → Canonical s :=
    fun s hs => hs.1.canonical hs.2.2
  have hPort : ∀ s : PyStr, IsPortText s → Canonical s :=
    fun s hs => (graphic_digits hs.digits).1.canonical (graphic_digits hs.digits).2
  constructor
  · exact ⟨hServer, congrArg some h.server, hPort _ h.realityPort,
      h.realityPort.isPort, hCanonical _ (graphic_uuid h.uuid),
      congrArg some h.uuid,
      hCanonical _ (graphic_hostname h.serverName),
      congrArg some h.serverName,
      hCanonical _ (graphic_key h.publicKey),
      congrArg some h.publicKey,
      hCanonical _ (graphic_shortId h.shortId),
      congrArg some h.shortId, rfl⟩
  · exact ⟨hServer, congrArg some h.server, hPort _ h.hysteriaPort, h.hysteriaPort.isPort, rfl⟩
  · unfold Facts.export
    dsimp only
    split
    · rename_i hOn
      have hBoth := hOn
      unfold Facts.hopping at hBoth
      simp only [Bool.and_eq_true] at hBoth
      exact (hHop hOn).hopOk hBoth.1.2 hBoth.2
    · trivial
  · exact ⟨hCanonical _ (graphic_password h.password), congrArg some h.password, rfl⟩
  · exact ⟨hCanonical _ (graphic_hostname h.hysteriaName), congrArg some h.hysteriaName, rfl⟩

-- Reading What Was Printed

/- Text that the parser takes for bytes and lines as it is. -/
def Clean (s : PyStr) : Prop := ∀ c ∈ s, Scalar c ∧ 14 ≤ c

instance (s : PyStr) : Decidable (Clean s) :=
  inferInstanceAs (Decidable (∀ c ∈ s, Scalar c ∧ 14 ≤ c))

theorem Graphic.clean {s : PyStr} (h : Graphic s) : Clean s := by
  intro c hc
  have hBoth := h c hc
  exact ⟨.inl (by omega), by omega⟩

/- What the lines of a text need, with their newlines. -/
def cost (lines : List PyStr) : ℕ := (lines.map (fun line => line.length + 1)).sum

theorem cost_append (xs ys : List PyStr) : cost (xs ++ ys) = cost xs + cost ys := by
  unfold cost
  rw [List.map_append, List.sum_append]

theorem cost_cons (x : PyStr) (xs : List PyStr) : cost (x :: xs) = x.length + 1 + cost xs := by
  unfold cost
  rw [List.map_cons, List.sum_cons]

theorem length_intercalate_le (lines : List PyStr) : ([10].intercalate lines).length ≤ cost lines := by
  induction lines with
  | nil => exact le_rfl
  | cons line rest ih =>
    cases rest with
    | nil => simp [List.intercalate, cost]
    | cons next rest =>
      rw [List.intercalate_cons_cons, cost_cons]
      simp only [List.length_append, List.length_singleton]
      omega

theorem mem_intercalate {lines : List PyStr} {c : ℕ}
    (h : c ∈ [10].intercalate lines) : c = 10 ∨ ∃ line ∈ lines, c ∈ line := by
  induction lines with
  | nil => cases h
  | cons line rest ih =>
    cases rest with
    | nil =>
      right
      refine ⟨line, List.mem_cons_self, ?_⟩
      simpa [List.intercalate] using h
    | cons next rest =>
      rw [List.intercalate_cons_cons] at h
      rcases List.mem_append.mp h with h | h
      · rcases List.mem_append.mp h with h | h
        · exact .inr ⟨line, List.mem_cons_self, h⟩
        · exact .inl (List.mem_singleton.mp h)
      · rcases ih h with h | ⟨l, hl, hc⟩
        · exact .inl h
        · exact .inr ⟨l, List.mem_cons_of_mem _ hl, hc⟩

theorem readExport_lines {lines : List PyStr} (hNil : lines ≠ []) (hClean : ∀ line ∈ lines, Clean line)
    (hCost : 4 * cost lines ≤ MAX_INPUT_BYTES) :
    readExport (utf8Encode ([10].intercalate lines)) = .ok lines := by
  have hChar : ∀ c ∈ [10].intercalate lines, Scalar c ∧ (c = 10 ∨ 14 ≤ c) := by
    intro c hc
    rcases mem_intercalate hc with rfl | ⟨line, hLine, hc⟩
    · exact ⟨by decide, .inl rfl⟩
    · exact ⟨(hClean line hLine c hc).1, .inr (hClean line hLine c hc).2⟩
  have hScalar : ∀ c ∈ [10].intercalate lines, Scalar c := fun c hc => (hChar c hc).1
  have hByte : ∀ b : UInt8, b.toNat < 14 → b.toNat ≠ 10 → b ∉ utf8Encode ([10].intercalate lines) := by
    intro b hLow hTen hMem
    have hc := mem_of_mem_utf8Encode hScalar hMem (by omega)
    have := (hChar _ hc).2
    omega
  have hLength : (utf8Encode ([10].intercalate lines)).length ≤ MAX_INPUT_BYTES := by
    have h1 := length_utf8Encode_le ([10].intercalate lines)
    have h2 := length_intercalate_le lines
    omega
  have hReturn : 13 ∉ [10].intercalate lines := by
    intro hMem
    have := (hChar 13 hMem).2
    omega
  have hLines : ([10].intercalate lines).splitOn 10 = lines := by
    refine List.splitOn_intercalate 10 ?_ hNil
    intro line hLine hMem
    have := (hClean line hLine 10 hMem).2
    omega
  unfold readExport
  refine except_bind_ok_iff.mpr ⟨(), expect_of ⟨hLength, hByte 0 (by decide) (by decide),
    hByte 9 (by decide) (by decide)⟩, ?_⟩
  rw [utf8Decode_utf8Encode hScalar]
  refine except_bind_ok_iff.mpr ⟨(), expect_of hReturn, ?_⟩
  rw [hLines]
  rfl

/- The fields of the facts, as they stand in the lines. -/
def Facts.values (f : Facts) : List PyStr := [f.server_ip, f.reality_port, f.reality_uuid,
    f.reality_server_name, f.public_key, f.short_id, f.hy_port,
    f.hy_password, f.hy_server_name] ++
    (if f.hopping then [f.hy_hopping_start, f.hy_hopping_end] else [])

theorem Clean.append {s t : PyStr} (hs : Clean s) (ht : Clean t) : Clean (s ++ t) := by
  intro c hc
  rcases List.mem_append.mp hc with hc | hc
  · exact hs c hc
  · exact ht c hc

theorem template_lines : ∀ line ∈ templateHead ++ templateTail, Clean line ∧ line.length ≤ 48 := by
  decide

theorem clean_lines {f : Facts} (h : ∀ value ∈ f.values, Clean value) : ∀ line ∈ f.lines, Clean line := by
  have hHead : ∀ line ∈ templateHead, Clean line :=
    fun line hLine => (template_lines line (List.mem_append_left _ hLine)).1
  have hTail : ∀ line ∈ templateTail, Clean line :=
    fun line hLine => (template_lines line (List.mem_append_right _ hLine)).1
  have hField : ∀ (key : String) (value : PyStr), Clean (pyStr key) →
        value ∈ f.values → Clean (pyStr key ++ value) :=
    fun _ _ hKey hValue => hKey.append (h _ hValue)
  unfold Facts.values at hField
  intro line hLine
  unfold Facts.lines Facts.hysteria at hLine
  simp only [List.append_assoc] at hLine
  rcases List.mem_append.mp hLine with hLine | hLine
  · exact hHead line hLine
  rcases List.mem_append.mp hLine with hLine | hLine
  · fin_cases hLine
    · decide
    · decide
    · exact hField _ _ (by decide) (by simp)
    · exact hField _ _ (by decide) (by simp)
    · exact hField _ _ (by decide) (by simp)
    · decide
    · decide
    · decide
    · decide
    · exact hField _ _ (by decide) (by simp)
    · decide
    · decide
    · exact hField _ _ (by decide) (by simp)
    · exact hField _ _ (by decide) (by simp)
  rcases List.mem_append.mp hLine with hLine | hLine
  · fin_cases hLine
    decide
  rcases List.mem_append.mp hLine with hLine | hLine
  · fin_cases hLine
    · decide
    · decide
    · exact hField _ _ (by decide) (by simp)
  rcases List.mem_append.mp hLine with hLine | hLine
  · unfold Facts.hy_clash_port_yaml at hLine
    split at hLine
    · rename_i hOn
      rw [if_pos hOn] at hField
      fin_cases hLine
      · exact hField _ _ (by decide) (by simp)
      · have hFirst := h f.hy_hopping_start (by
          unfold Facts.values
          rw [if_pos hOn]
          simp)
        have hLast := h f.hy_hopping_end (by
          unfold Facts.values
          rw [if_pos hOn]
          simp)
        have hDash : Clean (pyStr "-") := by decide
        have hKey : Clean (pyStr "    ports: ") := by decide
        exact hKey.append ((hFirst.append hDash).append hLast)
      · decide
    · fin_cases hLine
      exact hField _ _ (by decide) (by simp)
  rcases List.mem_append.mp hLine with hLine | hLine
  · fin_cases hLine
    · exact hField _ _ (by decide) (by simp)
    · exact hField _ _ (by decide) (by simp)
    · decide
    · decide
    · decide
  · exact hTail line hLine

theorem cost_le {lines : List PyStr} {n : ℕ}
    (h : ∀ line ∈ lines, line.length ≤ n) : cost lines ≤ lines.length * (n + 1) := by
  induction lines with
  | nil => exact Nat.zero_le _
  | cons line rest ih =>
    have hHere := h line List.mem_cons_self
    have hRest := ih (fun l hl => h l (List.mem_cons_of_mem _ hl))
    rw [cost_cons, List.length_cons, Nat.add_mul]
    omega

/- What the lines of the facts need at most. -/
theorem cost_lines {f : Facts}
    (h : ∀ value ∈ f.values, value.length ≤ 254) : 4 * cost f.lines ≤ MAX_INPUT_BYTES := by
  have hField : ∀ (key : String) (value : PyStr), (pyStr key).length ≤ 20 →
        value ∈ f.values → (pyStr key ++ value).length ≤ 274 := by
    intro key value hKey hValue
    have := h value hValue
    rw [List.length_append]
    omega
  unfold Facts.values at hField
  have hReality : ∀ line ∈ f.reality, line.length ≤ 274 := by
    intro line hLine
    fin_cases hLine
    · decide
    · decide
    · exact hField _ _ (by decide) (by simp)
    · exact hField _ _ (by decide) (by simp)
    · exact hField _ _ (by decide) (by simp)
    · decide
    · decide
    · decide
    · decide
    · exact hField _ _ (by decide) (by simp)
    · decide
    · decide
    · exact hField _ _ (by decide) (by simp)
    · exact hField _ _ (by decide) (by simp)
  have hPort : ∀ line ∈ f.hy_clash_port_yaml, line.length ≤ 520 := by
    intro line hLine
    unfold Facts.hy_clash_port_yaml at hLine
    split at hLine
    · rename_i hOn
      have hFirst := h f.hy_hopping_start (by
        unfold Facts.values
        rw [if_pos hOn]
        simp)
      have hLast := h f.hy_hopping_end (by
        unfold Facts.values
        rw [if_pos hOn]
        simp)
      fin_cases hLine
      · exact (hField _ _ (by decide) (by simp)).trans
          (by decide)
      · have hKey : (pyStr "    ports: ").length = 11 := by
          decide
        have hDash : (pyStr "-").length = 1 := by decide
        unfold Facts.formatted_range
        simp only [List.length_append]
        omega
      · decide
    · fin_cases hLine
      exact (hField _ _ (by decide) (by simp)).trans (by decide)
  have hPortCount : f.hy_clash_port_yaml.length ≤ 3 := by
    unfold Facts.hy_clash_port_yaml
    split <;> simp
  have hFirst : ∀ line ∈ [pyStr "  - name: Hysteria2", pyStr "    type: hysteria2",
          pyStr "    server: " ++ f.server_ip],
        line.length ≤ 274 := by
    intro line hLine
    fin_cases hLine
    · decide
    · decide
    · exact hField _ _ (by decide) (by simp)
  have hLast : ∀ line ∈ [pyStr "    password: " ++ f.hy_password, pyStr "    sni: " ++ f.hy_server_name,
          pyStr "    skip-cert-verify: true",
          pyStr "    alpn:",
          pyStr "      - h3"],
        line.length ≤ 274 := by
    intro line hLine
    fin_cases hLine
    · exact hField _ _ (by decide) (by simp)
    · exact hField _ _ (by decide) (by simp)
    · decide
    · decide
    · decide
  have hTemplateCost := cost_le (fun line hLine => (template_lines line hLine).2)
  have hTemplateCount : (templateHead ++ templateTail).length = 73 := rfl
  rw [cost_append, hTemplateCount] at hTemplateCost
  have h1 := cost_le hReality
  have h2 := cost_le hPort
  have h3 := cost_le hFirst
  have h4 := cost_le hLast
  have hBlank : cost [[]] = 1 := rfl
  have hCount : f.reality.length = 14 := rfl
  have hSize : MAX_INPUT_BYTES = 49152 := rfl
  unfold Facts.lines Facts.hysteria
  simp only [cost_append]
  simp only [List.length_cons, List.length_nil] at h3 h4
  rw [hCount] at h1
  have h5 : f.hy_clash_port_yaml.length * (520 + 1) ≤ 3 * 521 := Nat.mul_le_mul hPortCount le_rfl
  omega

theorem readExport_render {f : Facts} (hClean : ∀ value ∈ f.values, Clean value)
    (hLength : ∀ value ∈ f.values, value.length ≤ 254) :
    readExport (utf8Encode (cm_render_client_mihomo_yaml f)) = .ok f.lines := by
  refine readExport_lines ?_ (clean_lines hClean) (cost_lines hLength)
  unfold Facts.lines
  intro hNil
  have hLast := (List.append_eq_nil_iff.mp hNil).2
  cases hLast

theorem WellFormed.values {f : Facts} (h : WellFormed f)
    (hHop : HopReadable f) : ∀ value ∈ f.values, Clean value ∧ value.length ≤ 254 := by
  have hBoth : ∀ s : PyStr, Graphic s ∧ s.length ≤ 254 ∧ s ≠ [] → Clean s ∧ s.length ≤ 254 :=
    fun s hs => ⟨hs.1.clean, hs.2.1⟩
  have hPort : ∀ s : PyStr, IsPortText s → Clean s ∧ s.length ≤ 254 :=
    fun s hs => ⟨(graphic_digits hs.digits).1.clean, by
      have := hs.length
      omega⟩
  intro value hValue
  unfold Facts.values at hValue
  rcases List.mem_append.mp hValue with hValue | hValue
  · fin_cases hValue
    · exact ⟨h.serverGraphic.clean, h.serverLength.2⟩
    · exact hPort _ h.realityPort
    · exact hBoth _ (graphic_uuid h.uuid)
    · exact hBoth _ (graphic_hostname h.serverName)
    · exact hBoth _ (graphic_key h.publicKey)
    · exact hBoth _ (graphic_shortId h.shortId)
    · exact hPort _ h.hysteriaPort
    · exact hBoth _ (graphic_password h.password)
    · exact hBoth _ (graphic_hostname h.hysteriaName)
  · split at hValue
    · rename_i hOn
      have hDigits := hOn
      unfold Facts.hopping at hDigits
      simp only [Bool.and_eq_true] at hDigits
      have hBounds := hHop hOn
      fin_cases hValue
      · exact ⟨(graphic_digits hDigits.1.2).1.clean, hBounds.firstLength.trans (by decide)⟩
      · exact ⟨(graphic_digits hDigits.2).1.clean, hBounds.lastLength.trans (by decide)⟩
    · cases hValue

/- The bytes are read, and the fields are those of the facts. -/
def Recovers (raw : Bytes) (f : Facts) : Prop := ∃ p, parseExport raw = .ok p ∧ Holds p f.export

theorem get_ports (e : Export) : e.hysteriaFields.get (pyStr "ports") =
      e.hop.map (fun pair => hopText pair.1 pair.2) := by
  have hNames : pyStr "sni" ≠ pyStr "ports" ∧ pyStr "password" ≠ pyStr "ports" ∧
        pyStr "server" ≠ pyStr "ports" ∧
        pyStr "port" ≠ pyStr "ports" := by
    decide
  have hTail : e.hysteriaFields = Dict.set (Dict.set (hopFields e.hop (Dict.set
                (Dict.set [] (pyStr "server") e.hysteriaServer)
                (pyStr "port") e.hysteriaPort))
            (pyStr "password") e.password)
          (pyStr "sni") e.sni :=
    rfl
  rw [hTail, Dict.get_set, if_neg hNames.1, Dict.get_set, if_neg hNames.2.1]
  cases e.hop with
  | none =>
    rw [hopFields, Dict.get_set, if_neg hNames.2.2.2, Dict.get_set, if_neg hNames.2.2.1]
    rfl
  | some pair =>
    rw [hopFields, Dict.get_set, if_pos rfl]
    rfl

theorem recovers_iff {f : Facts} (h : WellFormed f) :
    Recovers (utf8Encode (cm_render_client_mihomo_yaml f)) f ↔ HopReadable f := by
  constructor
  · rintro ⟨p, hParse, hHolds⟩ hOn
    rcases except_bind_ok hParse with ⟨lines, -, hLines⟩
    rcases parseLines_ok hLines with ⟨e, -, hAccepted, hOther⟩
    have hPorts : e.hop.map (fun pair => hopText pair.1 pair.2) =
          some (hopText f.hy_hopping_start f.hy_hopping_end) := by
      rw [← get_ports, ← hOther.hysteria, hHolds.hysteria, get_ports]
      unfold Facts.export
      dsimp only
      rw [if_pos hOn]
      rfl
    have hDigits := hOn
    unfold Facts.hopping at hDigits
    simp only [Bool.and_eq_true] at hDigits
    have hPasses := hAccepted.hop
    cases hPair : e.hop with
    | none =>
      rw [hPair] at hPorts
      cases hPorts
    | some pair =>
      rcases pair with ⟨first, last⟩
      rw [hPair] at hPorts hPasses
      have hText := Option.some.inj hPorts
      have hOk : HopOk first last := hPasses
      have hRange := hOk.range
      dsimp only at hText
      rw [hText, hopRange_digits hDigits.1.2 hDigits.2] at hRange
      split at hRange
      · rename_i hShort
        cases hRange
        have hFirst := hOk.firstPort
        have hLast := hOk.lastPort
        rw [isPort_digits hDigits.1.2 (by omega)] at hFirst
        rw [isPort_digits hDigits.2 (by omega)] at hLast
        simp only [Option.some.injEq, Bool.and_eq_true, decide_eq_true_eq] at hFirst hLast
        exact ⟨hShort.1, hShort.2, hFirst.1, hOk.order, hLast.2⟩
      · cases hRange
  · intro hHop
    have hValues := h.values hHop
    rcases parseLines_of (h.accepted hHop) with ⟨p, hParse, hHolds⟩
    refine ⟨p, except_bind_ok_iff.mpr ⟨f.lines, readExport_render (fun v hv => (hValues v hv).1)
        (fun v hv => (hValues v hv).2), ?_⟩, hHolds⟩
    rw [lines_export]
    exact hParse

end SingboxOps.ClientExport
