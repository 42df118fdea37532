import SingboxOps.GrpcWeb.Segments
import SingboxOps.Lib.PyText
import SingboxOps.Lib.Utf8
import SingboxOps.ProtoWire.Agree
import Mathlib.Data.List.TakeWhile

/-
  What a body should be read as: a grammar of chunks and of
  frames, and when the reader keeps to it.
-/

namespace SingboxOps.GrpcWeb

-- Trailers

/- A line boundary of `str.splitlines`. -/
def isLineBreak (c : ℕ) : Bool := (10 ≤ c && c ≤ 13) || (28 ≤ c && c ≤ 30) || [133, 8232, 8233].contains c

/- `after` says that a carriage return has just been read. -/
def textLinesFrom (after : Bool) (line : PyStr) : PyStr → List PyStr
  | [] => if line = [] then [] else [line]
  | c :: rest =>
    if c = 10 ∧ after then textLinesFrom false [] rest
    else if isLineBreak c then line :: textLinesFrom (c == 13) [] rest
    else textLinesFrom false (line ++ [c]) rest

/- `text.splitlines()` -/
def textLines (text : PyStr) : List PyStr := textLinesFrom false [] text

/-
  `name.lower()`, as far as it can give `grpc-status`: no
  other character than these has a letter of it as its lower
  case.
-/
def lowerChar (c : ℕ) : ℕ := if 65 ≤ c ∧ c ≤ 90 then c + 32 else c

/- `_read_trailers`: the last line of the name counts. -/
def readTrailers (payload : Bytes) : Option PyStr :=
  (textLines (utf8Replace payload)).foldl (fun status line =>
      let name := line.takeWhile (fun c => c != 58)
      let value := (line.dropWhile (fun c => c != 58)).drop 1
      if (stripText name).map lowerChar = pyStr "grpc-status" then
        some (stripText value)
      else status)
    none

/- The readers that `batches` hands its payloads to. -/
def eventCodec : Codec ProtoWire.Batch ProtoWire.Raised := ⟨ProtoWire.decodeConnectionEvents, readTrailers⟩

-- The Grammar of Chunks

/- The size of a chunk header, before its extensions. -/
def sizeText (line : Bytes) : Bytes := line.takeWhile (fun b => b != 59)

/- One or more hexadecimal digits. -/
def HexText (text : Bytes) : Prop := text ≠ [] ∧ ∀ b ∈ text, (hexDigit? b).isSome

instance (text : Bytes) : Decidable (HexText text) := by
  unfold HexText
  exact @instDecidableAnd _ _ inferInstance (List.decidableBAll _ _)

def hexValue (text : Bytes) : ℕ := text.foldl (fun n b => 16 * n + (hexDigit? b).getD 0) 0

def strictSize (line : Bytes) : Option ℕ :=
  if HexText (sizeText line) then some (hexValue (sizeText line))
  else none

/- Whether a body came to its end. -/
inductive BodyEnd where
  | ended
  | broken
deriving DecidableEq

/- The data of the chunks, and whether a last chunk came. -/
def dechunk : ℕ → Bytes → Bytes × BodyEnd
  | 0, _ => ([], .broken)
  | fuel + 1, raw =>
    match splitLine raw with
    | none => ([], .broken)
    | some (line, rest) =>
      match strictSize line with
      | none => ([], .broken)
      | some 0 => ([], .ended)
      | some (n + 1) =>
        if (rest.drop (n + 1)).take 2 = [13, 10] then
          let next := dechunk fuel (rest.drop (n + 3))
          (rest.take (n + 1) ++ next.1, next.2)
        else (rest.take (n + 1), .broken)

def bodyOf (chunked : Bool) (raw : Bytes) : Bytes × BodyEnd :=
  if chunked then dechunk (raw.length + 1) raw else (raw, .ended)

-- The Grammar of Frames

variable {B E : Type}

/- How a stream ends, by the class of what is raised. -/
inductive Verdict (E : Type) where
  | clean
  | streamError
  | undecodable (e : E)
deriving DecidableEq

def verdictOf : Outcome E → Option (Verdict E)
  | .ended => some .clean
  | .failed _ => some .streamError
  | .undecodable e => some (.undecodable e)
  | .stuck => none

/- The first whole frame, and what is behind it. -/
def nextFrame (data : Bytes) : Option (UInt8 × Bytes × Bytes) :=
  let length := bigEndian ((data.drop 1).take 4)
  if data.length < 5 + length then none
  else
    some (data.headD 0, (data.drop 5).take length, data.drop (5 + length))

/- What the whole frames leave. -/
inductive Rest (E : Type) where
  | left (bytes : Bytes)
  | settled (v : Verdict E)
deriving DecidableEq

/- A status that is absent or 0 ends the stream cleanly. -/
def trailerVerdict (status : Option PyStr) : Verdict E :=
  if status = none ∨ status = some (pyStr "0") then .clean
  else .streamError

variable (codec : Codec B E)

/- The whole frames, up to one that settles the stream. -/
def walk : ℕ → Bytes → List B × Rest E
  | 0, data => ([], .left data)
  | fuel + 1, data =>
    match nextFrame data with
    | none => ([], .left data)
    | some (flags, payload, rest) =>
      if flags &&& 0x80 ≠ 0 then
        ([], .settled (trailerVerdict (codec.trailers payload)))
      else if flags ≠ 0 then ([], .settled .streamError)
      else
        match codec.decode payload with
        | .error e => ([], .settled (.undecodable e))
        | .ok batch =>
          let next := walk fuel rest
          (batch :: next.1, next.2)

/- The payloads of the data frames that are decoded. -/
def handed : ℕ → Bytes → List Bytes
  | 0, _ => []
  | fuel + 1, data =>
    match nextFrame data with
    | none => []
    | some (flags, payload, rest) =>
      if flags ≠ 0 then []
      else
        match codec.decode payload with
        | .error _ => [payload]
        | .ok _ => payload :: handed fuel rest

def framesOf (data : Bytes) : List B × Rest E := walk codec (data.length + 1) data

/- The stream waits for more than these data. -/
def Waits (data : Bytes) : Prop := ∃ left, (framesOf codec data).2 = .left left

/- The batches of a body, and how it should end. -/
def judged (chunked : Bool) (raw : Bytes) : List B × Verdict E :=
  let body := bodyOf chunked raw
  let frames := framesOf codec body.1
  (frames.1,
    match frames.2 with
    | .settled v => v
    | .left left =>
      if body.2 = .ended ∧ left = [] then .clean
      else .streamError)

/-
  The chunk headers that are read before the stream settles,
  behind some data.
-/
inductive Meets : Bytes → Bytes → Bytes → Prop where
  | here
      {data raw line rest : Bytes}
      (hLine : splitLine raw = some (line, rest)) :
      Meets data raw line
  | later
      {data raw first rest line : Bytes}
      {n : ℕ}
      (hLine : splitLine raw = some (first, rest))
      (hSize : strictSize first = some (n + 1))
      (hTail : (rest.drop (n + 1)).take 2 = [13, 10])
      (hWaits : Waits codec (data ++ rest.take (n + 1)))
      (hLater : Meets (data ++ rest.take (n + 1)) (rest.drop (n + 3)) line) :
      Meets data raw line

-- Sizes

/- A byte that `int(text, 16)` takes besides the digits. -/
def Stray (b : UInt8) : Prop := isBlank b = true ∨ b ∈ ([43, 45, 95, 88, 120] : Bytes)

instance (b : UInt8) : Decidable (Stray b) := by
  unfold Stray
  infer_instance

/-
  A size that is accepted although a blank, a sign, the
  prefix or an underscore stands in it.
-/
def Loose (line : Bytes) : Prop := (chunkSize line).isSome ∧ ∃ b ∈ sizeText line, Stray b

instance (line : Bytes) : Decidable (Loose line) := by
  unfold Loose
  infer_instance

theorem not_stray_of_digit {b : UInt8} (h : (hexDigit? b).isSome) : ¬ Stray b := by
  have hAll : ∀ n < 256, (hexDigit? (UInt8.ofNat n)).isSome → ¬ Stray (UInt8.ofNat n) := by
    decide +kernel
  have hByte := hAll b.toNat b.toNat_lt
  rw [UInt8.ofNat_toNat] at hByte
  exact hByte h

theorem digits_of_hexDigits {value : ℕ} {after : Bool} {text : Bytes}
    (h : (hexDigits value after text).isSome) :
    (text = [] → after = true) ∧ ∀ b ∈ text, (hexDigit? b).isSome ∨ b = 95 := by
  induction text generalizing value after with
  | nil =>
    refine ⟨fun _ => ?_, nofun⟩
    cases after with
    | false => cases h
    | true => rfl
  | cons b rest ih =>
    refine ⟨nofun, ?_⟩
    by_cases hLow : b = 95
    · subst hLow
      cases after with
      | false => cases h
      | true =>
        intro c hIn
        rcases List.mem_cons.mp hIn with rfl | hIn
        · exact Or.inr rfl
        · exact (ih (show (hexDigits value false rest).isSome from
            h)).2 c hIn
    · rw [hexDigits] at h
      · cases hDigit : hexDigit? b with
        | none =>
          rw [hDigit] at h
          cases h
        | some d =>
          rw [hDigit] at h
          intro c hIn
          rcases List.mem_cons.mp hIn with rfl | hIn
          · exact Or.inl (by rw [hDigit]; rfl)
          · exact (ih h).2 c hIn
      · exact hLow

theorem hexDigits_hexText (value : ℕ) (after : Bool) (text : Bytes) (hNe : text = [] → after = true)
    (hHex : ∀ b ∈ text, (hexDigit? b).isSome) :
    hexDigits value after text = some (text.foldl (fun n b => 16 * n + (hexDigit? b).getD 0) value) := by
  induction text generalizing value after with
  | nil =>
    rw [hNe rfl]
    rfl
  | cons b rest ih =>
    have hLow : b ≠ 95 := by
      rintro rfl
      exact absurd (hHex 95 (by simp)) (by decide)
    obtain ⟨d, hDigit⟩ := Option.isSome_iff_exists.mp (hHex b (by simp))
    rw [hexDigits]
    · rw [hDigit, List.foldl_cons, hDigit]
      exact ih _ true (fun _ => rfl) (fun c hIn => hHex c (List.mem_cons_of_mem _ hIn))
    · exact hLow

theorem hexMagnitude_digits {text : Bytes} (h : (hexMagnitude text).isSome) :
    text ≠ [] ∧ ∀ b ∈ text, (hexDigit? b).isSome ∨ b ∈ ([95, 88, 120] : Bytes) := by
  have hPrefixed : ∀ {x : UInt8} {rest : Bytes}, x = 120 ∨ x = 88 →
        (∀ b ∈ rest, (hexDigit? b).isSome ∨ b ∈ ([95, 88, 120] : Bytes)) →
          ∀ b ∈ 48 :: x :: rest, (hexDigit? b).isSome ∨ b ∈ ([95, 88, 120] : Bytes) := by
    intro x rest hX hRest b hIn
    rcases List.mem_cons.mp hIn with rfl | hIn
    · exact Or.inl (by decide)
    · rcases List.mem_cons.mp hIn with rfl | hIn
      · rcases hX with rfl | rfl <;> exact Or.inr (by decide)
      · exact hRest b hIn
  have hDigits : ∀ {value : ℕ} {after : Bool} {rest : Bytes}, (hexDigits value after rest).isSome →
          ∀ b ∈ rest, (hexDigit? b).isSome ∨ b ∈ ([95, 88, 120] : Bytes) := by
    intro value after rest hRest b hIn
    exact ((digits_of_hexDigits hRest).2 b hIn).imp id (fun hLow => by rw [hLow]; decide)
  have hUnder : ∀ {rest : Bytes}, (hexDigits 0 false rest).isSome →
          ∀ b ∈ 95 :: rest, (hexDigit? b).isSome ∨ b ∈ ([95, 88, 120] : Bytes) := by
    intro rest hRest b hIn
    rcases List.mem_cons.mp hIn with rfl | hIn
    · exact Or.inr (by decide)
    · exact hDigits hRest b hIn
  unfold hexMagnitude at h
  split at h
  · exact ⟨nofun, hPrefixed (Or.inl rfl) (hUnder h)⟩
  · exact ⟨nofun, hPrefixed (Or.inr rfl) (hUnder h)⟩
  · exact ⟨nofun, hPrefixed (Or.inl rfl) (hDigits h)⟩
  · exact ⟨nofun, hPrefixed (Or.inr rfl) (hDigits h)⟩
  · refine ⟨fun hNil => ?_, hDigits h⟩
    exact absurd ((digits_of_hexDigits h).1 hNil) Bool.false_ne_true

/- `text.strip()` -/
def trimmed (text : Bytes) : Bytes := ((text.dropWhile isBlank).reverse.dropWhile isBlank).reverse

theorem mem_dropWhile {p : UInt8 → Bool} {text : Bytes} {b : UInt8}
    (hIn : b ∈ text) : p b = true ∨ b ∈ text.dropWhile p := by
  rw [← List.takeWhile_append_dropWhile (p := p) (l := text)] at hIn
  rcases List.mem_append.mp hIn with hIn | hIn
  · exact Or.inl (List.mem_takeWhile_imp hIn)
  · exact Or.inr hIn

theorem mem_trimmed {text : Bytes} {b : UInt8} (hIn : b ∈ text) : isBlank b = true ∨ b ∈ trimmed text := by
  rcases mem_dropWhile (p := isBlank) hIn with hBlank | hIn
  · exact Or.inl hBlank
  · rcases mem_dropWhile (p := isBlank) (List.mem_reverse.mpr hIn) with hBlank | hIn
    · exact Or.inl hBlank
    · exact Or.inr (List.mem_reverse.mpr hIn)

theorem trimmed_solid {text : Bytes} (h : ∀ b ∈ text, isBlank b = false) : trimmed text = text := by
  have hDrop : ∀ t : Bytes, (∀ b ∈ t, isBlank b = false) → t.dropWhile isBlank = t := by
    intro t hSolid
    cases t with
    | nil => rfl
    | cons b rest =>
      exact List.dropWhile_cons_of_neg (by rw [hSolid b (by simp)]; exact Bool.false_ne_true)
  unfold trimmed
  rw [hDrop text h, hDrop text.reverse (fun b hIn => h b (List.mem_reverse.mp hIn)), List.reverse_reverse]

theorem hexInt_digits {text : Bytes}
    (h : (hexInt text).isSome) : text ≠ [] ∧ ∀ b ∈ text, (hexDigit? b).isSome ∨ Stray b := by
  have hTrim : trimmed text ≠ [] ∧ ∀ b ∈ trimmed text, (hexDigit? b).isSome ∨ Stray b := by
    have hStray : ∀ {rest : Bytes}, (hexMagnitude rest).isSome →
          rest ≠ [] ∧ ∀ b ∈ rest, (hexDigit? b).isSome ∨ Stray b := by
      intro rest hRest
      obtain ⟨hNe, hAll⟩ := hexMagnitude_digits hRest
      exact ⟨hNe, fun b hIn => (hAll b hIn).imp id (fun hOdd => Or.inr
          (List.mem_cons_of_mem _ (List.mem_cons_of_mem _ hOdd)))⟩
    have hSigned : ∀ {sign : UInt8} {rest : Bytes}, Stray sign → (hexMagnitude rest).isSome →
            sign :: rest ≠ [] ∧ ∀ b ∈ sign :: rest, (hexDigit? b).isSome ∨ Stray b := by
      intro sign rest hSign hRest
      refine ⟨nofun, fun b hIn => ?_⟩
      rcases List.mem_cons.mp hIn with rfl | hIn
      · exact Or.inr hSign
      · exact (hStray hRest).2 b hIn
    unfold hexInt at h
    dsimp only at h
    rw [← trimmed] at h
    split at h
    case h_1 rest hText =>
      rw [hText]
      refine hSigned (by decide) ?_
      cases hRest : hexMagnitude rest with
      | none => rw [hRest] at h; cases h
      | some n => rfl
    case h_2 rest hText =>
      rw [hText]
      refine hSigned (by decide) ?_
      cases hRest : hexMagnitude rest with
      | none => rw [hRest] at h; cases h
      | some n => rfl
    case h_3 =>
      refine hStray ?_
      cases hRest : hexMagnitude (trimmed text) with
      | none => rw [hRest] at h; cases h
      | some n => rfl
  refine ⟨?_, fun b hIn => ?_⟩
  · rintro rfl
    exact hTrim.1 rfl
  · rcases mem_trimmed hIn with hBlank | hIn
    · exact Or.inr (Or.inl hBlank)
    · exact hTrim.2 b hIn

theorem hexInt_hexText {text : Bytes} (h : HexText text) : hexInt text = some (hexValue text : ℤ) := by
  obtain ⟨hNe, hHex⟩ := h
  have hTrim : trimmed text = text := by
    refine trimmed_solid (fun b hIn => ?_)
    rw [← Bool.not_eq_true]
    exact fun hBlank => not_stray_of_digit (hHex b hIn) (Or.inl hBlank)
  have hMagnitude : hexMagnitude text = some (hexValue text) := by
    have hPlain := hexDigits_hexText 0 false text (fun hNil => absurd hNil hNe) hHex
    have hSecond : ∀ {a x : UInt8} {rest : Bytes}, text = a :: x :: rest → (hexDigit? x).isSome := by
      rintro a x rest rfl
      exact hHex x (by simp)
    unfold hexMagnitude
    split
    · exact absurd (hSecond rfl) (by decide)
    · exact absurd (hSecond rfl) (by decide)
    · exact absurd (hSecond rfl) (by decide)
    · exact absurd (hSecond rfl) (by decide)
    · exact hPlain
  unfold hexInt
  dsimp only
  rw [← trimmed, hTrim]
  have hFirst : ∀ {a : UInt8} {rest : Bytes}, text = a :: rest → (hexDigit? a).isSome := by
    rintro a rest rfl
    exact hHex a (by simp)
  split
  · exact absurd (hFirst rfl) (by decide)
  · exact absurd (hFirst rfl) (by decide)
  · rw [hMagnitude]
    rfl

theorem accepted_iff {line : Bytes}
    (h : ¬ Loose line) : (chunkSize line).isSome ↔ HexText (sizeText line) := by
  constructor
  · intro hSome
    obtain ⟨hNe, hAll⟩ := hexInt_digits (show (hexInt (sizeText line)).isSome from hSome)
    exact ⟨hNe, fun b hIn => (hAll b hIn).resolve_right (fun hStray => h ⟨hSome, b, hIn, hStray⟩)⟩
  · intro hHex
    rw [show chunkSize line = _ from hexInt_hexText hHex]
    rfl

theorem loose_of_accepted {line : Bytes}
    (hLoose : Loose line) : ¬ ((chunkSize line).isSome ↔ HexText (sizeText line)) := by
  intro hIff
  obtain ⟨hSome, b, hIn, hStray⟩ := hLoose
  exact not_stray_of_digit ((hIff.mp hSome).2 b hIn) hStray

theorem chunkSize_strict {line : Bytes}
    (h : ¬ Loose line) : chunkSize line = (strictSize line).map (fun n : ℕ => (n : ℤ)) := by
  unfold strictSize
  split_ifs with hHex
  · exact hexInt_hexText hHex
  · rw [← accepted_iff h, Bool.not_eq_true, Option.isSome_eq_false_iff, Option.isNone_iff_eq_none] at hHex
    rw [hHex]
    rfl

theorem openChunk_strict {line : Bytes} (h : ¬ Loose line) : openChunk line =
      match strictSize line with
      | none => .bad (.badHeader (line.take 32))
      | some 0 => .last
      | some (n + 1) => .data (n + 1) := by
  unfold openChunk
  rw [chunkSize_strict h]
  cases strictSize line with
  | none => rfl
  | some n =>
    cases n with
    | zero => rfl
    | succ n =>
      dsimp only [Option.map_some]
      rw [if_neg (by omega), if_pos (by omega), Int.toNat_natCast]

-- Whole Frames

section Frames

variable {codec : Codec B E}

theorem nextFrame_some {data : Bytes} {flags : UInt8} {payload rest : Bytes}
    (h : nextFrame data = some (flags, payload, rest)) : rest.length < data.length := by
  unfold nextFrame at h
  dsimp only at h
  split_ifs at h with hShort
  cases h
  rw [List.length_drop]
  omega

theorem feedFrames_nextFrame {data : Bytes} {flags : UInt8} {payload rest : Bytes}
    (h : nextFrame data = some (flags, payload, rest))
    (batches : List B) :
    feedFrames codec ⟨.wait .header [], batches⟩ data =
      feedFrames codec (deliver codec flags payload batches) rest := by
  unfold nextFrame at h
  dsimp only at h
  split_ifs at h with hShort
  cases h
  have hLength : (data.take 5).drop 1 = (data.drop 1).take 4 := by
    rw [List.drop_take]
  have hFlags : (data.take 5).headD 0 = data.headD 0 := by
    cases data <;> rfl
  rw [feedFrames_complete codec .header data batches (by decide)
    (by change 5 ≤ data.length; omega)]
  change feedFrames codec (complete codec .header (data.take 5) batches) (data.drop 5) = _
  unfold complete
  dsimp only
  rw [hLength, hFlags]
  generalize hCount : bigEndian ((data.drop 1).take 4) = count at *
  by_cases hZero : count = 0
  · subst hZero
    rw [if_pos rfl]
    rfl
  · rw [if_neg hZero, feedFrames_complete codec (.payload (data.headD 0) count) _ batches
      (Nat.pos_of_ne_zero hZero)
      (by change count ≤ _; rw [List.length_drop]; omega)]
    change feedFrames codec (deliver codec _ ((data.drop 5).take count)
      batches) ((data.drop 5).drop count) = _
    rw [List.drop_drop]

variable (codec) in
theorem feedFrames_noFrame {data : Bytes} (h : nextFrame data = none)
    (batches : List B) : ∃ want got, feedFrames codec ⟨.wait .header [], batches⟩ data =
          ⟨.wait want got, batches⟩ ∧
        (got = [] ↔ data = [] ∨ data.length = 5) := by
  unfold nextFrame at h
  dsimp only at h
  split_ifs at h with hShort
  by_cases hHeader : data.length < 5
  · refine ⟨_, _, feedFrames_wait codec .header [] data batches (by change 0 + data.length < 5; omega), ?_⟩
    rw [List.nil_append]
    constructor
    · exact Or.inl
    · rintro (hNil | hFive)
      · exact hNil
      · omega
  · have hLength : (data.take 5).drop 1 = (data.drop 1).take 4 := by
      rw [List.drop_take]
    refine ⟨.payload (data.headD 0) (bigEndian ((data.drop 1).take 4)), data.drop 5, ?_, ?_⟩
    · rw [feedFrames_complete codec .header data batches (by decide)
        (by change 5 ≤ data.length; omega)]
      change feedFrames codec (complete codec .header (data.take 5) batches) (data.drop 5) = _
      have hFlags : (data.take 5).headD 0 = data.headD 0 := by
        cases data <;> rfl
      unfold complete
      dsimp only
      rw [hLength, hFlags, if_neg (by omega)]
      refine (feedFrames_wait codec _ [] (data.drop 5) batches ?_).trans (by rw [List.nil_append])
      change 0 + (data.drop 5).length < bigEndian ((data.drop 1).take 4)
      rw [List.length_drop]
      omega
    · rw [List.drop_eq_nil_iff]
      constructor
      · exact fun hLe => Or.inr (by omega)
      · rintro (rfl | hFive)
        · exact absurd (Nat.zero_lt_succ 4) hHeader
        · omega

theorem verdictOf_endOf (status : Option PyStr) :
    verdictOf (endOf status : Outcome E) = some (trailerVerdict status) := by
  unfold endOf trailerVerdict
  cases status with
  | none => rfl
  | some text =>
    dsimp only
    by_cases hZero : text = pyStr "0"
    · rw [if_pos hZero, hZero]
      rfl
    · rw [if_neg hZero, if_neg]
      · rfl
      · rintro (h | h)
        · cases h
        · exact hZero (Option.some.inj h)

/-
  The decoder's frames are those of the grammar: it is over
  with the verdict that settles them, or waits behind what
  they leave.
-/
theorem feedFrames_walk (fuel : ℕ) (data : Bytes) (hFuel : data.length < fuel) (batches : List B) :
    (∀ v, (walk codec fuel data).2 = .settled v → ∃ o, verdictOf o = some v ∧
        feedFrames codec ⟨.wait .header [], batches⟩ data = ⟨.over o, batches ++ (walk codec fuel data).1⟩) ∧
      (∀ left, (walk codec fuel data).2 = .left left → nextFrame left = none ∧
          feedFrames codec ⟨.wait .header [], batches⟩ data = feedFrames codec
              ⟨.wait .header [], batches ++ (walk codec fuel data).1⟩ left) := by
  induction fuel generalizing data batches with
  | zero => omega
  | succ fuel ih =>
    rw [walk]
    cases hNext : nextFrame data with
    | none =>
      dsimp only
      refine ⟨nofun, fun left hLeft => ?_⟩
      cases hLeft
      exact ⟨hNext, by rw [List.append_nil]⟩
    | some frame =>
      rcases frame with ⟨flags, payload, rest⟩
      dsimp only
      rw [feedFrames_nextFrame hNext]
      unfold deliver
      by_cases hTrailer : flags &&& 0x80 ≠ 0
      · rw [if_pos hTrailer, if_pos hTrailer]
        refine ⟨fun v hSettled => ?_, nofun⟩
        cases hSettled
        exact ⟨_, verdictOf_endOf _, by rw [feedFrames_over, List.append_nil]⟩
      · rw [if_neg hTrailer, if_neg hTrailer]
        by_cases hFlags : flags ≠ 0
        · rw [if_pos hFlags, if_pos hFlags]
          refine ⟨fun v hSettled => ?_, nofun⟩
          cases hSettled
          exact ⟨_, rfl, by rw [feedFrames_over, List.append_nil]⟩
        · rw [if_neg hFlags, if_neg hFlags]
          cases hDecode : codec.decode payload with
          | error e =>
            refine ⟨fun v hSettled => ?_, nofun⟩
            cases hSettled
            exact ⟨_, rfl, by rw [feedFrames_over, List.append_nil]⟩
          | ok batch =>
            have hLess := nextFrame_some hNext
            have hRest := ih rest (by omega) (batches ++ [batch])
            simp only [List.append_assoc, List.singleton_append] at hRest
            exact hRest

theorem framesOf_settled {data : Bytes} {v : Verdict E} (h : (framesOf codec data).2 = .settled v) :
    ∃ o, verdictOf o = some v ∧
      feedFrames codec ⟨.wait .header [], []⟩ data = ⟨.over o, (framesOf codec data).1⟩ :=
  (feedFrames_walk _ data (Nat.lt_succ_self _) []).1 v h

theorem framesOf_left {data left : Bytes} (h : (framesOf codec data).2 = .left left) :
    nextFrame left = none ∧ feedFrames codec ⟨.wait .header [], []⟩ data =
        feedFrames codec ⟨.wait .header [], (framesOf codec data).1⟩ left :=
  (feedFrames_walk _ data (Nat.lt_succ_self _) []).2 left h

theorem over_of_not_waits {data : Bytes} (h : ¬ Waits codec data) :
    ∃ o, (feedFrames codec ⟨.wait .header [], []⟩ data).framing = .over o := by
  cases hRest : (framesOf codec data).2 with
  | left left => exact absurd ⟨left, hRest⟩ h
  | settled v =>
    obtain ⟨o, _, hFeed⟩ := framesOf_settled hRest
    exact ⟨o, by rw [hFeed]⟩

variable (codec) in
theorem walk_handed (fuel : ℕ) (data : Bytes) (e : E) : (walk codec fuel data).2 = .settled (.undecodable e) ↔
      ∃ payload ∈ handed codec fuel data, codec.decode payload = .error e := by
  induction fuel generalizing data with
  | zero => exact ⟨nofun, fun ⟨_, hIn, _⟩ => nomatch hIn⟩
  | succ fuel ih =>
    rw [walk, handed]
    cases nextFrame data with
    | none => exact ⟨nofun, fun ⟨_, hIn, _⟩ => nomatch hIn⟩
    | some frame =>
      rcases frame with ⟨flags, payload, rest⟩
      dsimp only
      by_cases hTrailer : flags &&& 0x80 ≠ 0
      · have hFlags : flags ≠ 0 := by
          rintro rfl
          exact hTrailer (by decide)
        rw [if_pos hTrailer, if_pos hFlags]
        refine ⟨fun h => ?_, fun ⟨_, hIn, _⟩ => nomatch hIn⟩
        unfold trailerVerdict at h
        split_ifs at h <;> cases h
      · rw [if_neg hTrailer]
        by_cases hFlags : flags ≠ 0
        · rw [if_pos hFlags, if_pos hFlags]
          exact ⟨nofun, fun ⟨_, hIn, _⟩ => nomatch hIn⟩
        · rw [if_neg hFlags, if_neg hFlags]
          cases hDecode : codec.decode payload with
          | error e' =>
            constructor
            · intro h
              cases h
              exact ⟨payload, by simp, hDecode⟩
            · rintro ⟨p, hIn, hError⟩
              obtain rfl := List.mem_singleton.mp hIn
              rw [hDecode] at hError
              cases hError
              rfl
          | ok batch =>
            refine (ih rest).trans ⟨?_, ?_⟩
            · rintro ⟨p, hIn, hError⟩
              exact ⟨p, List.mem_cons_of_mem _ hIn, hError⟩
            · rintro ⟨p, hIn, hError⟩
              rcases List.mem_cons.mp hIn with rfl | hIn
              · rw [hDecode] at hError
                cases hError
              · exact ⟨p, hIn, hError⟩

end Frames

-- Whole Bodies

section Bodies

variable {codec : Codec B E}

/- A reader at the end of its socket, by how its body ended. -/
def EndsAs (c : Chunk) : BodyEnd → Prop
  | .ended => c.failure = none ∧ c ≠ .negative
  | .broken => ∃ e, c.failure = some e

theorem dechunk_none {fuel : ℕ} {raw : Bytes}
    (h : splitLine raw = none) : dechunk (fuel + 1) raw = ([], .broken) := by
  rw [dechunk, h]

variable (codec) in
theorem feed_tail_broken {f : Framed B E} {rest : Bytes} (h : rest.take 2 ≠ [13, 10]) :
    (feed codec ⟨.tail [], f⟩ rest).framed = f ∧ EndsAs (feed codec ⟨.tail [], f⟩ rest).chunk .broken := by
  match rest with
  | [] => exact ⟨rfl, _, rfl⟩
  | [a] => exact ⟨rfl, _, rfl⟩
  | a :: b :: rest =>
    have hBoth : ¬ (a = 13 ∧ b = 10) := by
      rintro ⟨rfl, rfl⟩
      exact h rfl
    have hBad : feed codec ⟨.tail [], f⟩ (a :: b :: rest) = feed codec ⟨.bad .badTerminator, f⟩ rest := by
      rw [feed_cons, feed_cons]
      unfold feedByte feedChunk
      dsimp only
      rw [if_neg hBoth]
      rfl
    rw [hBad, feed_settled codec rfl]
    exact ⟨rfl, _, rfl⟩

theorem feed_tail_whole {f : Framed B E} {rest : Bytes} (h : rest.take 2 = [13, 10]) :
    feed codec ⟨.tail [], f⟩ rest = feed codec ⟨.header [], f⟩ (rest.drop 2) := by
  match rest with
  | [] => cases h
  | [a] => cases h
  | a :: b :: rest =>
    obtain ⟨rfl, hRest⟩ := List.cons.inj h
    obtain ⟨rfl, _⟩ := List.cons.inj hRest
    rfl

variable (codec) in
/- The data of a chunk, as far as they came. -/
theorem feed_chunk (f : Framed B E) (n : ℕ) (rest : Bytes) : (n + 1 ≤ rest.length ∧
      feed codec ⟨.data (n + 1), f⟩ rest = feed codec ⟨.tail [], feedFrames codec f (rest.take (n + 1))⟩
          (rest.drop (n + 1))) ∨
      (rest.length < n + 1 ∧
        (feed codec ⟨.data (n + 1), f⟩ rest).framed = feedFrames codec f (rest.take (n + 1)) ∧
        EndsAs (feed codec ⟨.data (n + 1), f⟩ rest).chunk .broken) := by
  rcases Nat.lt_or_ge rest.length (n + 1) with hShort | hEnough
  · right
    rw [feed_data codec f rest (Nat.succ_pos n) hShort.le, if_neg hShort.ne, List.take_of_length_le hShort.le]
    exact ⟨hShort, rfl, _, rfl⟩
  · left
    refine ⟨hEnough, ?_⟩
    conv_lhs => rw [← List.take_append_drop (n + 1) rest]
    have hTaken : (rest.take (n + 1)).length = n + 1 := by
      rw [List.length_take, Nat.min_eq_left hEnough]
    rw [feed_append, feed_data codec f _ (Nat.succ_pos n) hTaken.le, if_pos hTaken]

/-
  The decoder finds the data of the grammar's chunks, and the
  end they have, unless the frames are over before.
-/
theorem feed_dechunk (fuel : ℕ) (data raw : Bytes) (hFuel : raw.length < fuel)
    (hStrict : ∀ line, Meets codec data raw line → ¬ Loose line) : (feed codec
        ⟨.header [], feedFrames codec ⟨.wait .header [], []⟩ data⟩ raw).framed =
        feedFrames codec ⟨.wait .header [], []⟩ (data ++ (dechunk fuel raw).1) ∧
      (¬ Waits codec (data ++ (dechunk fuel raw).1) ∨ EndsAs (feed codec
            ⟨.header [], feedFrames codec ⟨.wait .header [], []⟩ data⟩
            raw).chunk
          (dechunk fuel raw).2) := by
  induction fuel generalizing data raw with
  | zero => omega
  | succ fuel ih =>
    cases hLine : splitLine raw with
    | none =>
      rw [dechunk_none hLine, feed_noLine codec _ [] (fun h => nomatch h.1) hLine, List.append_nil]
      exact ⟨rfl, Or.inr ⟨_, rfl⟩⟩
    | some split =>
      rcases split with ⟨line, rest⟩
      have hOpen := openChunk_strict (hStrict line (.here hLine))
      have hLength := length_splitLine hLine
      rw [dechunk, hLine, feed_splitLine codec _ [] (fun h => nomatch h.1) hLine, List.nil_append, hOpen]
      dsimp only
      cases hSize : strictSize line with
      | none =>
        dsimp only
        rw [feed_settled codec rfl, List.append_nil]
        exact ⟨rfl, Or.inr ⟨_, rfl⟩⟩
      | some size =>
        cases size with
        | zero =>
          dsimp only
          rw [feed_settled codec rfl, List.append_nil]
          exact ⟨rfl, Or.inr ⟨rfl, nofun⟩⟩
        | succ n =>
          dsimp only
          rcases feed_chunk codec (feedFrames codec ⟨.wait .header [], []⟩ data) n rest with
            ⟨hEnough, hFeed⟩ | ⟨hShort, hFramed, hEnds⟩
          · rw [hFeed, ← feedFrames_append]
            by_cases hTail : (rest.drop (n + 1)).take 2 = [13, 10]
            · rw [if_pos hTail, feed_tail_whole hTail, List.drop_drop]
              dsimp only
              rw [← List.append_assoc]
              by_cases hWaits : Waits codec (data ++ rest.take (n + 1))
              · exact ih _ _ (by rw [List.length_drop]; omega)
                  (fun later hLater => hStrict later (.later hLine hSize hTail hWaits hLater))
              · obtain ⟨o, hOver⟩ := over_of_not_waits hWaits
                have hFramed := framed_feed_over codec ⟨.header [], feedFrames codec ⟨.wait .header [], []⟩
                    (data ++ rest.take (n + 1))⟩ hOver
                  (rest.drop (n + 1 + 2))
                have hSame : feedFrames codec ⟨.wait .header [], []⟩
                        (data ++ rest.take (n + 1) ++ (dechunk fuel (rest.drop (n + 3))).1) =
                      feedFrames codec ⟨.wait .header [], []⟩ (data ++ rest.take (n + 1)) := by
                  rw [feedFrames_append]
                  generalize feedFrames codec ⟨.wait .header [], []⟩ (data ++ rest.take (n + 1)) = g at *
                  rcases g with ⟨framing, batches⟩
                  dsimp only at hOver
                  subst hOver
                  exact feedFrames_over codec o batches _
                refine ⟨hFramed.trans hSame.symm, Or.inl ?_⟩
                rintro ⟨left, hLeft⟩
                obtain ⟨hNone, hFeed⟩ := framesOf_left hLeft
                obtain ⟨want, got, hWait, _⟩ := feedFrames_noFrame codec hNone
                    (framesOf codec (data ++ rest.take (n + 1) ++ (dechunk fuel (rest.drop (n + 3))).1)).1
                rw [hSame, hWait] at hFeed
                rw [hFeed] at hOver
                cases hOver
            · rw [if_neg hTail]
              obtain ⟨hFramed, hEnds⟩ := feed_tail_broken codec (f := feedFrames codec ⟨.wait .header [], []⟩
                    (data ++ rest.take (n + 1))) hTail
              exact ⟨hFramed, Or.inr hEnds⟩
          · have hTail : (rest.drop (n + 1)).take 2 ≠ [13, 10] := by
              rw [List.drop_of_length_le hShort.le]
              exact nofun
            rw [if_neg hTail, hFramed, feedFrames_append]
            exact ⟨rfl, Or.inr hEnds⟩

theorem received_body (chunked : Bool) (body : Bytes)
    (hStrict : chunked = true → ∀ line, Meets codec [] body line → ¬ Loose line) :
    (received codec chunked body).framed = feedFrames codec ⟨.wait .header [], []⟩ (bodyOf chunked body).1 ∧
      (¬ Waits codec (bodyOf chunked body).1 ∨ EndsAs (received codec chunked body).chunk
          (bodyOf chunked body).2) := by
  cases chunked with
  | false =>
    have hPlain := feed_plain codec ⟨.wait .header [], []⟩ body
    change (feed codec ⟨.plain, _⟩ body).framed = _ ∧ (_ ∨ EndsAs (feed codec ⟨.plain, _⟩ body).chunk .ended)
    rw [hPlain]
    exact ⟨rfl, Or.inr ⟨rfl, nofun⟩⟩
  | true =>
    exact feed_dechunk (body.length + 1) [] body (Nat.lt_succ_self _) (hStrict rfl)

variable (codec)

/-
  The body ends, without being broken, right behind a frame
  header that announces a payload.
-/
def Announced (chunked : Bool) (body : Bytes) : Prop := (bodyOf chunked body).2 = .ended ∧
    ∃ left, (framesOf codec (bodyOf chunked body).1).2 = .left left ∧ left.length = 5

variable {codec}

/- The decoder's end of a body, when its sizes are strict. -/
theorem conclude_received {chunked : Bool} {body : Bytes}
    (hStrict : chunked = true → ∀ line, Meets codec [] body line → ¬ Loose line) :
    (received codec chunked body).framed.batches = (judged codec chunked body).1 ∧
      ∃ o, conclude (received codec chunked body) = some o ∧ (Announced codec chunked body → o = .ended) ∧
        (¬ Announced codec chunked body → verdictOf o = some (judged codec chunked body).2) := by
  obtain ⟨hFramed, hEnds⟩ := received_body chunked body hStrict
  generalize received codec chunked body = d at *
  unfold judged Announced
  dsimp only
  generalize bodyOf chunked body = whole at *
  cases hRest : (framesOf codec whole.1).2 with
  | settled v =>
    obtain ⟨o, hVerdict, hFeed⟩ := framesOf_settled hRest
    rw [hFeed] at hFramed
    refine ⟨by rw [hFramed], o, ?_, ?_, fun _ => hVerdict⟩
    · unfold conclude
      rw [hFramed]
    · rintro ⟨_, left, hLeft, _⟩
      cases hLeft
  | left left =>
    obtain ⟨hNone, hFeed⟩ := framesOf_left hRest
    obtain ⟨want, got, hWait, hGot⟩ := feedFrames_noFrame codec hNone (framesOf codec whole.1).1
    rw [hFeed, hWait] at hFramed
    have hChunk := hEnds.resolve_left (fun h => h ⟨left, hRest⟩)
    refine ⟨by rw [hFramed], ?_⟩
    unfold conclude
    rw [hFramed]
    dsimp only
    cases hEnd : whole.2 with
    | broken =>
      rw [hEnd] at hChunk
      obtain ⟨e, hFailure⟩ := hChunk
      rw [hFailure]
      refine ⟨.failed e, rfl, ?_, fun _ => ?_⟩
      · rintro ⟨hEnded, _⟩
        cases hEnded
      · rw [if_neg (fun h => nomatch h.1)]
        rfl
    | ended =>
      rw [hEnd] at hChunk
      rw [hChunk.1]
      dsimp only
      rw [if_neg hChunk.2]
      by_cases hNil : got = []
      · rw [if_pos hNil]
        refine ⟨_, rfl, fun _ => rfl, fun hWhole => ?_⟩
        have hLeft : left = [] := (hGot.mp hNil).resolve_right (fun hFive => hWhole ⟨rfl, left, rfl, hFive⟩)
        rw [if_pos ⟨rfl, hLeft⟩]
        rfl
      · rw [if_neg hNil]
        refine ⟨_, rfl, ?_, fun _ => ?_⟩
        · rintro ⟨_, left', hLeft, hFive⟩
          cases hLeft
          exact absurd (hGot.mpr (Or.inr hFive)) hNil
        · rw [if_neg (fun h => hNil (hGot.mpr (Or.inl h.2)))]
          rfl

end Bodies

-- Exact Framing

/- A body that comes in pieces, without silences. -/
def pieces (parts : List (UInt8 × Bytes)) : List Recv := parts.map (fun part => .data part.1 part.2)

theorem calm_pieces (codec : Codec B E) (d : Decoder B E)
    (parts : List (UInt8 × Bytes)) : Calm codec d (pieces parts) := by
  induction parts generalizing d with
  | nil => exact True.intro
  | cons part parts ih => exact ih _

/-
  The reader keeps to the grammar: it takes the chunk headers
  it should, yields the batches and ends as it should, and
  lets no other exception out.
-/
structure FramedExactly (chunked : Bool) (raw : Bytes) (parts : List (UInt8 × Bytes)) : Prop where
  sizes :
    chunked = true → ∀ line, Meets eventCodec [] (raw ++ incomingBytes (pieces parts)) line →
          ((chunkSize line).isSome ↔ HexText (sizeText line))
  batches :
    nonHeartbeats (batches eventCodec (Stream.opened chunked raw (pieces parts))).1 =
      (judged eventCodec chunked (raw ++ incomingBytes (pieces parts))).1
  verdict :
    verdictOf (GrpcWeb.batches eventCodec (Stream.opened chunked raw (pieces parts))).2 =
      some (judged eventCodec chunked (raw ++ incomingBytes (pieces parts))).2
  escapes : ∀ e, (GrpcWeb.batches eventCodec (Stream.opened chunked raw (pieces parts))).2 = .undecodable e →
        ∃ message, e = .protoDecode message

/-
  No size is spelt with a blank, a sign, the prefix or an
  underscore; the body does not end behind a frame header that
  announces a payload; no payload trips the decoder.
-/
structure Orderly (chunked : Bool) (body : Bytes) : Prop where
  sizes : chunked = true → ∀ line, Meets eventCodec [] body line → ¬ Loose line
  whole : ¬ Announced eventCodec chunked body
  decoded : ∀ payload ∈ handed eventCodec ((bodyOf chunked body).1.length + 1) (bodyOf chunked body).1,
      ¬ ProtoWire.Trips payload

/- A run of the reader over a body with strict sizes. -/
theorem reports_pieces {chunked : Bool} {raw : Bytes} {parts : List (UInt8 × Bytes)}
    (hStrict : chunked = true → ∀ line,
        Meets eventCodec [] (raw ++ incomingBytes (pieces parts)) line → ¬ Loose line) :
    nonHeartbeats (batches eventCodec (Stream.opened chunked raw (pieces parts))).1 =
        (judged eventCodec chunked (raw ++ incomingBytes (pieces parts))).1 ∧
      (Announced eventCodec chunked (raw ++ incomingBytes (pieces parts)) →
        (batches eventCodec (Stream.opened chunked raw (pieces parts))).2 = .ended) ∧
      (¬ Announced eventCodec chunked (raw ++ incomingBytes (pieces parts)) → verdictOf
            (batches eventCodec (Stream.opened chunked raw (pieces parts))).2 =
          some (judged eventCodec chunked (raw ++ incomingBytes (pieces parts))).2) := by
  obtain ⟨hBatches, o, hConclude, hEnded, hVerdict⟩ := conclude_received hStrict
  obtain ⟨hRun, hYields⟩ := batches_of_calm eventCodec chunked raw (pieces parts)
      (calm_pieces _ _ _) (by rw [hConclude]; exact nofun)
  rw [hConclude] at hRun
  cases hRun
  rw [hBatches] at hYields
  exact ⟨hYields.symm, hEnded, hVerdict⟩

theorem judged_undecodable {chunked : Bool} {body : Bytes} {e : ProtoWire.Raised} :
    (judged eventCodec chunked body).2 = .undecodable e ↔ ∃ payload ∈ handed eventCodec
            ((bodyOf chunked body).1.length + 1)
            (bodyOf chunked body).1,
        ProtoWire.decodeConnectionEvents payload = .error e := by
  refine Iff.trans ?_ (walk_handed eventCodec _ _ e)
  unfold judged
  dsimp only
  change _ ↔ (framesOf eventCodec (bodyOf chunked body).1).2 = _
  cases (framesOf eventCodec (bodyOf chunked body).1).2 with
  | settled v => exact ⟨fun h => congrArg _ h, fun h => Rest.settled.inj h⟩
  | left left =>
    refine ⟨fun h => ?_, nofun⟩
    dsimp only at h
    split_ifs at h

/- The reader keeps to the grammar on orderly bodies only. -/
theorem framing_exact_iff (chunked : Bool) (raw : Bytes) (parts : List (UInt8 × Bytes)) :
    FramedExactly chunked raw parts ↔ Orderly chunked (raw ++ incomingBytes (pieces parts)) := by
  constructor
  · rintro ⟨hSizes, hBatches, hVerdict, hEscapes⟩
    have hStrict : chunked = true → ∀ line,
          Meets eventCodec [] (raw ++ incomingBytes (pieces parts)) line → ¬ Loose line := by
      intro hChunked line hMeets hLoose
      exact loose_of_accepted hLoose (hSizes hChunked line hMeets)
    obtain ⟨_, hEnded, _⟩ := reports_pieces hStrict
    refine ⟨hStrict, ?_, ?_⟩
    · intro hAnnounced
      rw [hEnded hAnnounced] at hVerdict
      obtain ⟨hEnd, left, hLeft, hFive⟩ := hAnnounced
      unfold judged at hVerdict
      dsimp only at hVerdict
      rw [hLeft] at hVerdict
      dsimp only at hVerdict
      rw [if_neg] at hVerdict
      · cases hVerdict
      · rintro ⟨_, rfl⟩
        cases hFive
    · intro payload hIn hTrips
      have hRaises : ∃ message, ProtoWire.decodeConnectionEvents payload = .error (.typeError message) := by
        by_contra hNone
        refine (ProtoWire.settles_iff payload).mp ?_ hTrips
        exact fun message hError => hNone ⟨message, hError⟩
      obtain ⟨message, hError⟩ := hRaises
      rw [judged_undecodable.mpr ⟨payload, hIn, hError⟩] at hVerdict
      generalize GrpcWeb.batches eventCodec (Stream.opened chunked raw (pieces parts)) = run at *
      rcases run with ⟨yields, o⟩
      cases o with
      | ended => cases hVerdict
      | failed e => cases hVerdict
      | stuck => cases hVerdict
      | undecodable e =>
        cases hVerdict
        obtain ⟨text, hText⟩ := hEscapes _ rfl
        cases hText
  · rintro ⟨hStrict, hWhole, hDecoded⟩
    obtain ⟨hBatches, _, hVerdict⟩ := reports_pieces hStrict
    refine ⟨fun hChunked line hMeets =>
      accepted_iff (hStrict hChunked line hMeets), hBatches,
      hVerdict hWhole, ?_⟩
    intro e hRun
    have hJudged := hVerdict hWhole
    rw [hRun] at hJudged
    obtain ⟨payload, hIn, hError⟩ := judged_undecodable.mp (Option.some.inj hJudged).symm
    have hSettles := (ProtoWire.settles_iff payload).mpr (hDecoded payload hIn)
    cases e with
    | protoDecode message => exact ⟨message, rfl⟩
    | typeError message => exact absurd hError (hSettles message)

/- A body cut right behind a frame header ends cleanly. -/
theorem cut_frame_ends : batches eventCodec (Stream.opened false [0, 0, 0, 0, 2] []) = ([], .ended) ∧
      (judged eventCodec false [0, 0, 0, 0, 2]).2 = .streamError ∧
      ¬ FramedExactly false [0, 0, 0, 0, 2] [] := by
  refine ⟨by decide +kernel, by decide +kernel, ?_⟩
  intro h
  exact absurd h.verdict (by decide +kernel)

/- A size with a sign, the prefix and an underscore. -/
example :
    (chunkSize [43, 48, 120, 95, 53] = some 5) ∧ Loose [43, 48, 120, 95, 53] := by
  decide

end SingboxOps.GrpcWeb
