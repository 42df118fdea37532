import SingboxOps.RemoteIngest.Plane
import SingboxOps.Lib.Json.Dumpable

/-
  What is signed is what is read.

  The agent signs a request and spells its fields in five
  headers; the ingest plane reads the headers back.  The
  signing string and the spelling are both one to one, so the
  plane verifies the very fields the agent signed.
-/

namespace SingboxOps.RemoteIngest

open RemoteProbe

-- Sending

def headerProbeId : PyStr := pyStr "X-Remote-Probe-Id"
def headerSentEpoch : PyStr := pyStr "X-Remote-Probe-Sent-Epoch"
def headerRun : PyStr := pyStr "X-Remote-Probe-Run"
def headerSeq : PyStr := pyStr "X-Remote-Probe-Seq"
def headerSignature : PyStr := pyStr "X-Remote-Probe-Signature"

/- What signing a record stops with. -/
inductive SendError where
  | uploadConfig
  | python (e : PyError)
deriving DecidableEq

variable {F : Type} [FloatText F]

/-
  The stamp of a request: a number that is not negative,
  truncated.  `math.isfinite` raises `OverflowError` on an
  integer beyond every float.
-/
def canonicalSentEpoch : Json F → Except SendError ℤ
  | .int n =>
    if 2 ^ 1024 - 2 ^ 970 ≤ |n| then .error (.python .overflow)
    else if n < 0 then .error .uploadConfig
    else .ok n
  | .float (.finite x) =>
    if FloatText.toRat x < 0 then .error .uploadConfig
    else .ok ⌊FloatText.toRat x⌋
  | _ => .error .uploadConfig

/- `headers`: the frozen machine headers. -/
def requestHeaders (probeId : PyStr) (sentEpoch : ℤ) (run : PyStr) (seq : ℤ)
    (signature : PyStr) : List (PyStr × PyStr) :=
  [(headerProbeId, probeId), (headerSentEpoch, Json.intText sentEpoch), (headerRun, run),
    (headerSeq, Json.intText seq),
    (headerSignature, signature),
    (pyStr "Content-Type", pyStr "application/json")]

/- `sign_record`: a fresh stamp and a fresh signature. -/
def signRecord (crypto : Crypto) (secret : Bytes) (probeId run : PyStr) (seq : ℤ) (body : Bytes)
    (now : Json F) : Except SendError (List (PyStr × PyStr)) :=
  match canonicalSentEpoch now with
  | .error e => .error e
  | .ok sentEpoch =>
    match sign crypto secret probeId sentEpoch run seq body with
    | .error e => .error (.python e)
    | .ok signature => .ok (requestHeaders probeId sentEpoch run seq signature)

/- The five headers the HTTP layer extracts. -/
def extractHeaders (sent : List (PyStr × PyStr)) : Headers where
  probeId := Json.getItem sent headerProbeId
  sentEpoch := Json.getItem sent headerSentEpoch
  run := Json.getItem sent headerRun
  seq := Json.getItem sent headerSeq
  signature := Json.getItem sent headerSignature

theorem extract_requestHeaders (probeId run signature : PyStr) (sentEpoch seq : ℤ) : extractHeaders
        (requestHeaders probeId sentEpoch run seq signature) =
      ⟨some probeId, some (Json.intText sentEpoch), some run, some (Json.intText seq), some signature⟩ :=
  rfl

-- Texts

theorem line_inj {a b x y : PyStr} (ha : 10 ∉ a) (hb : 10 ∉ b)
    (h : a ++ 10 :: x = b ++ 10 :: y) : a = b ∧ x = y := by
  induction a generalizing b with
  | nil =>
    cases b with
    | nil => exact ⟨rfl, List.tail_eq_of_cons_eq h⟩
    | cons d b =>
      have hd : 10 = d := List.head_eq_of_cons_eq h
      exact absurd (hd ▸ List.mem_cons_self) hb
  | cons c a ih =>
    cases b with
    | nil =>
      have hc : c = 10 := List.head_eq_of_cons_eq h
      exact absurd (hc ▸ List.mem_cons_self) ha
    | cons d b =>
      have hRest := ih (List.not_mem_of_not_mem_cons ha) (List.not_mem_of_not_mem_cons hb)
        (List.tail_eq_of_cons_eq h)
      have hHead : c = d := List.head_eq_of_cons_eq h
      exact ⟨by rw [hHead, hRest.1], hRest.2⟩

theorem intText_of_nonneg {n : ℤ} (hn : 0 ≤ n) : Json.intText n = Json.natText n.natAbs :=
  if_neg (not_lt.mpr hn)

theorem digit_of_mem {n : ℤ} (hn : 0 ≤ n) : ∀ c ∈ Json.intText n, 48 ≤ c ∧ c ≤ 57 := by
  intro c hc
  rw [intText_of_nonneg hn] at hc
  rcases List.mem_map.mp hc with ⟨d, _, rfl⟩
  have hd := d.isLt
  omega

theorem foldl_digitsText (ds : List (Fin 10)) (a : ℕ) : (Json.digitsText ds).foldl
        (fun n c => 10 * n + ((c : ℤ) - 48)) (a : ℤ) =
      ((ds.foldl (fun n d => 10 * n + d.val) a : ℕ) : ℤ) := by
  induction ds generalizing a with
  | nil => rfl
  | cons d ds ih =>
    have hStep : 10 * (a : ℤ) + (((48 + d.val : ℕ) : ℤ) - 48) = ((10 * a + d.val : ℕ) : ℤ) := by
      push_cast
      ring
    calc (Json.digitsText (d :: ds)).foldl
          (fun n c => 10 * n + ((c : ℤ) - 48)) (a : ℤ)
        = (Json.digitsText ds).foldl (fun n c => 10 * n + ((c : ℤ) - 48))
            (10 * (a : ℤ) + (((48 + d.val : ℕ) : ℤ) - 48)) := rfl
      _ = _ := by
          rw [hStep, ih]
          rfl

theorem digitsValue_intText {n : ℤ} (hn : 0 ≤ n) : digitsValue (Json.intText n) = n := by
  have hFold := foldl_digitsText (decimalDigits n.natAbs) 0
  have hValue : SingboxOps.digitsValue (decimalDigits n.natAbs) =
      n.natAbs :=
    digitsValue_decimalDigits _
  rw [intText_of_nonneg hn]
  calc digitsValue (Json.natText n.natAbs)
      = ((SingboxOps.digitsValue (decimalDigits n.natAbs) : ℕ) : ℤ) := hFold
    _ = n := by rw [hValue, Int.natAbs_of_nonneg hn]

theorem intText_inj {n m : ℤ} (hn : 0 ≤ n) (hm : 0 ≤ m) (h : Json.intText n = Json.intText m) : n = m := by
  rw [← digitsValue_intText hn, h, digitsValue_intText hm]

theorem hexDigit_inj {a b : ℕ} (ha : a < 16) (hb : b < 16)
    (h : Json.hexDigit a = Json.hexDigit b) : a = b := by
  unfold Json.hexDigit at h
  split at h <;> split at h <;> omega

theorem hexdigest_injective : Function.Injective hexdigest := by
  intro x y h
  induction x generalizing y with
  | nil =>
    cases y with
    | nil => rfl
    | cons b y => exact nomatch h
  | cons a x ih =>
    cases y with
    | nil => exact nomatch h
    | cons b y =>
      have hCons : Json.hexDigit (a.toNat / 16) = Json.hexDigit (b.toNat / 16) ∧
          Json.hexDigit (a.toNat % 16) = Json.hexDigit (b.toNat % 16) ∧
          hexdigest x = hexdigest y := by
        simpa [hexdigest] using h
      have hLtA : a.toNat < 256 := a.toNat_lt
      have hLtB : b.toNat < 256 := b.toNat_lt
      have hHigh := hexDigit_inj (by omega) (by omega) hCons.1
      have hLow := hexDigit_inj (by omega) (by omega) hCons.2.1
      have hByte : a = b := by
        apply UInt8.toNat_inj.mp
        omega
      rw [hByte, ih hCons.2.2]

-- The Signing String

variable {crypto : Crypto} {probeId run probeId' run' : PyStr}
variable {sentEpoch seq sentEpoch' seq' : ℤ}
variable {rawBody rawBody' message : Bytes}

/- The fields of a signing string are within their grammars. -/
structure Signed (probeId : PyStr) (sentEpoch : ℤ) (run : PyStr) (seq : ℤ) : Prop where
  probeId : probeIdGrammar probeId = true
  run : runGrammar run = true
  seq : seqMin ≤ seq ∧ seq ≤ seqMax
  sentEpoch : 0 ≤ sentEpoch

theorem signatureInput_ok (h : signatureInput crypto probeId sentEpoch run seq rawBody = .ok message) :
    Signed probeId sentEpoch run seq ∧ message = asciiEncode
        (signatureText crypto probeId sentEpoch run seq rawBody) := by
  unfold signatureInput at h
  split_ifs at h with hProbe hRun hSeq hSent
  simp only [Bool.not_eq_true', Bool.not_eq_false] at hProbe hRun
  exact ⟨⟨hProbe, hRun, hSeq, not_lt.mp hSent⟩, (Except.ok.inj h).symm⟩

theorem signatureText_eq : signatureText crypto probeId sentEpoch run seq rawBody =
      pyStr p6Protocol ++ 10 :: (pyStr ingestMethod ++ 10 :: (pyStr ingestPath ++ 10 :: (probeId ++
          10 :: (Json.intText sentEpoch ++ 10 :: (run ++
            10 :: (Json.intText seq ++ 10 :: hexdigest (crypto.sha256 rawBody))))))) := by
  simp only [signatureText, List.append_assoc, List.cons_append]

theorem Signed.seq_nonneg (h : Signed probeId sentEpoch run seq) : 0 ≤ seq := by
  have hMin := h.seq.1
  unfold seqMin at hMin
  omega

theorem ascii_line {a b : PyStr} (ha : ∀ c ∈ a, c < 128) (hb : AsciiText b) : AsciiText (a ++ 10 :: b) := by
  intro c hc
  rcases List.mem_append.mp hc with hc | hc
  · exact ha c hc
  · rcases List.mem_cons.mp hc with rfl | hc
    · decide
    · exact hb c hc

theorem signatureText_ascii (h : Signed probeId sentEpoch run seq) : AsciiText
      (signatureText crypto probeId sentEpoch run seq rawBody) := by
  rw [signatureText_eq]
  refine ascii_line (by decide) (ascii_line (by decide)
    (ascii_line (by decide) (ascii_line ?_ (ascii_line ?_
      (ascii_line ?_ (ascii_line ?_ (hexdigest_ascii _)))))))
  · exact fun c hc => (mem_probeIdGrammar h.probeId c hc).2
  · intro c hc
    have hDigit := digit_of_mem h.sentEpoch c hc
    omega
  · exact fun c hc => (mem_runGrammar h.run c hc).2
  · intro c hc
    have hDigit := digit_of_mem h.seq_nonneg c hc
    omega

theorem not_break_number {n : ℤ} (hn : 0 ≤ n) : 10 ∉ Json.intText n := by
  intro h
  have hDigit := digit_of_mem hn 10 h
  omega

theorem signatureInput_injective (h : signatureInput crypto probeId sentEpoch run seq rawBody = .ok message)
    (h' : signatureInput crypto probeId' sentEpoch' run' seq' rawBody' = .ok message) :
    probeId = probeId' ∧ sentEpoch = sentEpoch' ∧ run = run' ∧ seq = seq' ∧
      crypto.sha256 rawBody = crypto.sha256 rawBody' := by
  obtain ⟨hLeft, hText⟩ := signatureInput_ok h
  obtain ⟨hRight, hText'⟩ := signatureInput_ok h'
  have hSame := congrArg utf8Decode (hText.symm.trans hText')
  rw [utf8Decode_asciiEncode (signatureText_ascii hLeft), utf8Decode_asciiEncode (signatureText_ascii hRight),
    Option.some.injEq, signatureText_eq, signatureText_eq] at hSame
  have hBreak : ∀ {p r : PyStr} {s q : ℤ}, Signed p s r q → 10 ∉ p ∧ 10 ∉ r := by
    intro p r s q hs
    constructor
    · intro hMem
      have hChar := mem_probeIdGrammar hs.probeId 10 hMem
      omega
    · intro hMem
      have hChar := mem_runGrammar hs.run 10 hMem
      omega
  -- the first three lines are the same in every string
  have hFour := (line_inj (by decide) (by decide)
    (line_inj (by decide) (by decide)
      (line_inj (by decide) (by decide) hSame).2).2).2
  obtain ⟨hProbe, hFive⟩ := line_inj (hBreak hLeft).1 (hBreak hRight).1 hFour
  obtain ⟨hSent, hSix⟩ := line_inj (not_break_number hLeft.sentEpoch)
      (not_break_number hRight.sentEpoch) hFive
  obtain ⟨hRun, hSeven⟩ := line_inj (hBreak hLeft).2 (hBreak hRight).2 hSix
  obtain ⟨hSeq, hDigest⟩ := line_inj (not_break_number hLeft.seq_nonneg)
      (not_break_number hRight.seq_nonneg) hSeven
  exact ⟨hProbe, intText_inj hLeft.sentEpoch hRight.sentEpoch hSent,
    hRun, intText_inj hLeft.seq_nonneg hRight.seq_nonneg hSeq,
    hexdigest_injective hDigest⟩

-- Reading

theorem parseCanonicalInt_intText {n minimum : ℤ} (hn : 0 ≤ n) (hMin : minimum ≤ n) :
    parseCanonicalInt (Json.intText n) minimum = if n ≤ seqMax then some n else none := by
  have hDigits : (Json.intText n).all (fun c => 48 ≤ c && c ≤ 57) = true := by
    rw [List.all_eq_true]
    intro c hc
    simpa using digit_of_mem hn c hc
  have hLong : 1 ≤ (Json.intText n).length := by
    rw [intText_of_nonneg hn, Json.natText, Json.digitsText, List.length_map]
    exact List.length_pos_iff.mpr (decimalDigits_ne_nil _)
  have hShort : n ≤ seqMax → (Json.intText n).length ≤ 19 := by
    intro hMax
    rw [intText_of_nonneg hn, Json.natText, Json.digitsText, List.length_map]
    apply length_decimalDigits_le (by decide)
    unfold seqMax at hMax
    omega
  unfold parseCanonicalInt
  simp only [digitsValue_intText hn]
  by_cases hMax : n ≤ seqMax
  · rw [if_pos ⟨hDigits, hLong, hShort hMax⟩, if_pos hMax, if_neg]
    rintro (hText | hLow | hHigh)
    · exact hText rfl
    · exact absurd hMin (not_le.mpr hLow)
    · exact absurd hMax (not_le.mpr hHigh)
  · rw [if_neg hMax]
    split_ifs with hShape hOut
    · rfl
    · exact absurd (Or.inr (Or.inr (not_le.mp hMax))) hOut
    · rfl

theorem eq_intText {text : PyStr} {minimum n : ℤ}
    (h : parseCanonicalInt text minimum = some n) : text = Json.intText n := by
  unfold parseCanonicalInt at h
  simp only at h
  split_ifs at h with hDigits hBad
  cases h
  push Not at hBad
  exact hBad.1.symm

theorem hexdigest_ne_nil {digest : Bytes} (h : digest ≠ []) : hexdigest digest ≠ [] := by
  cases digest with
  | nil => exact absurd rfl h
  | cons b rest => exact List.cons_ne_nil _ _

theorem sign_ok {secret : Bytes} {signature : PyStr}
    (h : sign crypto secret probeId sentEpoch run seq rawBody = .ok signature) :
    Signed probeId sentEpoch run seq ∧ ∃ m, signature = hexdigest (crypto.hmac secret m) := by
  unfold sign at h
  split at h
  · cases h
  · cases hInput : signatureInput crypto probeId sentEpoch run seq rawBody with
    | error e => rw [hInput] at h; cases h
    | ok message =>
      rw [hInput] at h
      cases h
      exact ⟨(signatureInput_ok hInput).1, message, rfl⟩

/- The headers of a signed request, as the plane reads them. -/
theorem parseHeaders_signed {signature : PyStr} (h : Signed probeId sentEpoch run seq)
    (hSignature : signature ≠ []) : parseHeaders (extractHeaders
        (requestHeaders probeId sentEpoch run seq signature)) =
      if sentEpoch ≤ seqMax then
        some ⟨probeId, sentEpoch, run, seq, signature⟩
      else none := by
  have hSeq : parseCanonicalInt (Json.intText seq) 1 = some seq := by
    have hMin : (1 : ℤ) ≤ seq := h.seq.1
    rw [parseCanonicalInt_intText h.seq_nonneg hMin, if_pos h.seq.2]
  have hSent := parseCanonicalInt_intText h.sentEpoch h.sentEpoch
  have hFilled : signature.isEmpty = false := by
    rw [List.isEmpty_eq_false_iff]
    exact hSignature
  rw [extract_requestHeaders, parseHeaders]
  simp only [Option.bind_some, Option.bind_eq_bind, hSent, hSeq,
    h.probeId, h.run, hFilled, Bool.not_false, Bool.and_self, if_true]
  split_ifs with hMax
  · rfl
  · rfl

theorem headers_of_parse {received : Headers} {c : Claim}
    (h : parseHeaders received = some c) : received = extractHeaders
      (requestHeaders c.probeId c.sentEpoch c.run c.seq c.signature) := by
  rcases received with ⟨probeId, sentEpoch, run, seq, signature⟩
  simp only [parseHeaders, Option.bind_eq_bind, Option.bind_eq_some_iff] at h
  rcases h with ⟨p, rfl, r, rfl, n, ⟨sentText, rfl, hSent⟩, q, ⟨seqText, rfl, hSeq⟩, sig, rfl, h⟩
  split at h
  · cases h
    rw [extract_requestHeaders, ← eq_intText hSent, ← eq_intText hSeq]
  · cases h

-- What Is Signed Is What Is Read

/-
  Equal signing strings have equal fields and bodies of one
  digest.  The headers of every record that is sent are read
  back as the fields that were signed, for a stamp the plane
  admits, and no other headers are read as these.
-/
theorem signed_is_read (crypto : Crypto) (hDigest : ∀ secret m, (crypto.hmac secret m).length = 32) :
    (∀ probeId sentEpoch run seq rawBody probeId' sentEpoch' run' seq' rawBody' message,
      signatureInput crypto probeId sentEpoch run seq rawBody = .ok message →
        signatureInput crypto probeId' sentEpoch' run' seq' rawBody' = .ok message →
          probeId = probeId' ∧ sentEpoch = sentEpoch' ∧ run = run' ∧ seq = seq' ∧
            crypto.sha256 rawBody = crypto.sha256 rawBody') ∧
      (∀ secret probeId run seq body sent (now : Json F),
        signRecord crypto secret probeId run seq body now = .ok sent →
          ∃ sentEpoch signature, canonicalSentEpoch now = .ok sentEpoch ∧
              sign crypto secret probeId sentEpoch run seq body = .ok signature ∧
              parseHeaders (extractHeaders sent) = (if sentEpoch ≤ seqMax then
                  some ⟨probeId, sentEpoch, run, seq, signature⟩
                else none) ∧
              ∀ received, parseHeaders received = some ⟨probeId, sentEpoch, run, seq, signature⟩ →
                  received = extractHeaders sent) := by
  refine ⟨?_, ?_⟩
  · intro probeId sentEpoch run seq rawBody probeId' sentEpoch' run' seq' rawBody' message h h'
    exact signatureInput_injective h h'
  · intro secret probeId run seq body sent now h
    unfold signRecord at h
    cases hNow : canonicalSentEpoch now with
    | error e => rw [hNow] at h; cases h
    | ok sentEpoch =>
      rw [hNow] at h
      cases hSign : sign crypto secret probeId sentEpoch run seq body with
      | error e =>
        simp only [hSign] at h
        cases h
      | ok signature =>
        simp only [hSign] at h
        cases h
        obtain ⟨hSigned, m, hHex⟩ := sign_ok hSign
        refine ⟨sentEpoch, signature, rfl, hSign, ?_, ?_⟩
        · apply parseHeaders_signed hSigned
          rw [hHex]
          apply hexdigest_ne_nil
          intro hNil
          have hLength := hDigest secret m
          rw [hNil] at hLength
          exact absurd hLength (by decide)
        · intro received hRead
          exact headers_of_parse hRead

-- One Request

/- The digests of the request below, for one stamp of it. -/
def officeCrypto (signed : Bytes) : Crypto where
  sha256 _ := [68, 19, 111, 163, 85, 179, 103, 138, 17, 70, 173, 22, 247,
      232, 100, 158, 148, 251, 79, 194, 31, 231, 126, 131, 16,
      192, 96, 246, 28, 170, 255, 138]
  hmac _ _ := signed

/- The signature of the stamp 1700000000. -/
def usualDigest : Bytes := [235, 171, 73, 203, 142, 50, 220, 157, 105, 134, 48, 77, 7,
    147, 75, 43, 181, 89, 223, 173, 209, 170, 251, 197, 71, 75,
    45, 65, 79, 32, 55, 219]

/- The signature of the stamp 2^63. -/
def lateDigest : Bytes := [17, 30, 253, 47, 16, 36, 51, 148, 56, 149, 180, 182, 145,
    160, 25, 250, 217, 22, 20, 242, 100, 235, 212, 174, 38, 33,
    208, 241, 86, 37, 112, 186]

def officeRun : PyStr := List.replicate 31 48 ++ [49]

/- The record of the office with the body `{}`. -/
def officeSend (signed : Bytes) (now : ℤ) : Except SendError (List (PyStr × PyStr)) :=
  signRecord (F := Grid 1) (officeCrypto signed) [107] (pyStr "office") officeRun 7 [123, 125] (.int now)

theorem officeSend_usual : officeSend usualDigest 1700000000 =
      .ok (requestHeaders (pyStr "office") 1700000000 officeRun 7 (hexdigest usualDigest)) := by
  decide +kernel

theorem signed_is_read_office : ∃ sent, officeSend usualDigest 1700000000 = .ok sent ∧
        parseHeaders (extractHeaders sent) =
          some ⟨pyStr "office", 1700000000, officeRun, 7, hexdigest usualDigest⟩ := by
  refine ⟨_, officeSend_usual, ?_⟩
  obtain ⟨sentEpoch, signature, hNow, hSign, hRead, _⟩ :=
    (signed_is_read (F := Grid 1) (officeCrypto usualDigest)
      (fun _ _ => rfl)).2 _ _ _ _ _ _ _ officeSend_usual
  have hStamp : sentEpoch = 1700000000 := Except.ok.inj (hNow.symm.trans (by decide +kernel))
  subst hStamp
  have hSignature : signature = hexdigest usualDigest := Except.ok.inj (hSign.symm.trans (by decide))
  rw [hRead, hSignature, if_pos (by decide)]

/- A stamp above the plane's range is signed and not read. -/
theorem late_stamp_unread : ∃ sent, officeSend lateDigest (2 ^ 63) = .ok sent ∧
        parseHeaders (extractHeaders sent) = none := by
  refine ⟨requestHeaders (pyStr "office") (2 ^ 63) officeRun 7 (hexdigest lateDigest), by decide +kernel, ?_⟩
  rw [parseHeaders_signed ⟨by decide, by decide, by decide, by decide⟩ (by decide)]
  rfl

end SingboxOps.RemoteIngest
