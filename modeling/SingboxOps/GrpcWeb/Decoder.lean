import SingboxOps.GrpcWeb.Reader

/-
  The meaning of a body, one byte at a time.

  The decoder takes every byte as it comes, so that what it
  makes of a body does not depend on how the body is cut.
-/

namespace SingboxOps.GrpcWeb

variable {B E : Type}

-- Chunks

/- Where the bytes of a body have led. -/
inductive Chunk where
  | plain
  | header (line : Bytes)
  | data (left : ℕ)
  | tail (got : Bytes)
  | last
  | bad (e : StreamError)
  | negative
deriving DecidableEq

/- A chunk header that has ended. -/
def openChunk (line : Bytes) : Chunk := match chunkSize line with
  | none => .bad (.badHeader (line.take 32))
  | some n =>
    if n = 0 then .last
    else if 0 < n then .data n.toNat
    else .negative

/- One byte of a body, and the byte of the frames it gives. -/
def feedChunk (c : Chunk) (b : UInt8) : Chunk × Bytes := match c with
  | .plain => (.plain, [b])
  | .header line =>
    if b = 10 ∧ line.getLast? = some 13 then
      (openChunk line.dropLast, [])
    else (.header (line ++ [b]), [])
  | .data left => (if left ≤ 1 then .tail [] else .data (left - 1), [b])
  | .tail got =>
    match got with
    | [] => (.tail [b], [])
    | a :: _ =>
      (if a = 13 ∧ b = 10 then .header []
        else .bad .badTerminator, [])
  | c => (c, [])

/- A body that may go on. -/
def Chunk.live : Chunk → Bool
  | .plain | .header _ | .data _ | .tail _ => true
  | _ => false

/- What a reader that needs more of the body raises. -/
def Chunk.failure : Chunk → Option StreamError
  | .header _ => some .closedInHeader
  | .data _ => some .closedMidChunk
  | .tail _ => some .closedAfterData
  | .bad e => some e
  | _ => none

-- Frames

/- What a reader of frames waits for. -/
inductive Want where
  | header
  | payload (flags : UInt8) (need : ℕ)
deriving DecidableEq

def Want.count : Want → ℕ
  | header => 5
  | payload _ need => need

inductive Framing (E : Type) where
  | wait (want : Want) (got : Bytes)
  | over (o : Outcome E)
deriving DecidableEq

/- The frames so far: where they led and what they carried. -/
structure Framed (B E : Type) where
  framing : Framing E
  batches : List B
deriving DecidableEq

variable (codec : Codec B E)

/- A frame that is complete. -/
def deliver (flags : UInt8) (payload : Bytes) (batches : List B) : Framed B E :=
  if flags &&& 0x80 ≠ 0 then
    ⟨.over (endOf (codec.trailers payload)), batches⟩
  else if flags ≠ 0 then
    ⟨.over (.failed (.unknownFlags flags)), batches⟩
  else
    match codec.decode payload with
    | .error e => ⟨.over (.undecodable e), batches⟩
    | .ok batch => ⟨.wait .header [], batches ++ [batch]⟩

/- What was waited for is there. -/
def complete (want : Want) (got : Bytes) (batches : List B) : Framed B E := match want with
  | .header =>
    let flags := got.headD 0
    let length := bigEndian (got.drop 1)
    if length = 0 then deliver codec flags [] batches
    else ⟨.wait (.payload flags length) [], batches⟩
  | .payload flags _ => deliver codec flags got batches

def feedFrame (f : Framed B E) (b : UInt8) : Framed B E := match f.framing with
  | .over _ => f
  | .wait want got =>
    if (got ++ [b]).length < want.count then
      ⟨.wait want (got ++ [b]), f.batches⟩
    else complete codec want (got ++ [b]) f.batches

def feedFrames (f : Framed B E) (bytes : Bytes) : Framed B E := bytes.foldl (feedFrame codec) f

-- Decoders

structure Decoder (B E : Type) where
  chunk : Chunk
  framed : Framed B E
deriving DecidableEq

def feedByte (d : Decoder B E) (b : UInt8) : Decoder B E :=
  let next := feedChunk d.chunk b
  ⟨next.1, feedFrames codec d.framed next.2⟩

def feed (d : Decoder B E) (bytes : Bytes) : Decoder B E := bytes.foldl (feedByte codec) d

/- A decoder at the beginning of a body. -/
def Decoder.start (chunked : Bool) : Decoder B E :=
  ⟨if chunked then .header [] else .plain, ⟨.wait .header [], []⟩⟩

/-
  How a body ends that closes here; none where a chunk with a
  negative size was waited for.
-/
def conclude (d : Decoder B E) : Option (Outcome E) := match d.framed.framing with
  | .over o => some o
  | .wait want got =>
    match d.chunk.failure with
    | some e => some (.failed e)
    | none =>
      if d.chunk = .negative then none
      else if got = [] then some .ended
      else some (.failed (.midFrame got.length want.count))

/- The body may go on, and a payload is waited for. -/
def Decoder.midPayload (d : Decoder B E) : Bool := match d.framed.framing with
  | .wait (.payload _ _) _ => d.chunk.live
  | _ => false

/- No silence falls between a header and its payload's end. -/
def Calm (d : Decoder B E) : List Recv → Prop
  | [] => True
  | .idle :: rest => d.midPayload = false ∧ Calm d rest
  | .data first bytes :: rest => Calm (feed codec d (first :: bytes)) rest

instance instDecidableCalm :
    (d : Decoder B E) → (incoming : List Recv) → Decidable (Calm codec d incoming)
  | _, [] => inferInstanceAs (Decidable True)
  | d, .idle :: rest =>
    have := instDecidableCalm d rest
    inferInstanceAs (Decidable (_ ∧ _))
  | d, .data first bytes :: rest => instDecidableCalm (feed codec d (first :: bytes)) rest

-- Folds

theorem feed_cons (d : Decoder B E) (b : UInt8)
    (rest : Bytes) : feed codec d (b :: rest) = feed codec (feedByte codec d b) rest :=
  rfl

theorem feed_append (d : Decoder B E) (x y : Bytes) : feed codec d (x ++ y) = feed codec (feed codec d x) y :=
  List.foldl_append

theorem feedFrames_append (f : Framed B E)
    (x y : Bytes) : feedFrames codec f (x ++ y) = feedFrames codec (feedFrames codec f x) y :=
  List.foldl_append

theorem feed_plain (f : Framed B E)
    (bytes : Bytes) : feed codec ⟨.plain, f⟩ bytes = ⟨.plain, feedFrames codec f bytes⟩ := by
  induction bytes generalizing f with
  | nil => rfl
  | cons b rest ih =>
    rw [feed_cons]
    exact ih (feedFrames codec f [b])

theorem feed_settled {c : Chunk} (hSettled : c.live = false) (f : Framed B E)
    (bytes : Bytes) : feed codec ⟨c, f⟩ bytes = ⟨c, f⟩ := by
  induction bytes with
  | nil => rfl
  | cons b rest ih =>
    have hByte : feedByte codec ⟨c, f⟩ b = ⟨c, f⟩ := by
      cases c with
      | plain => exact nomatch hSettled
      | header line => exact nomatch hSettled
      | data left => exact nomatch hSettled
      | tail got => exact nomatch hSettled
      | last => rfl
      | bad e => rfl
      | negative => rfl
    rw [feed_cons, hByte, ih]

theorem feedFrames_over (o : Outcome E) (batches : List B)
    (bytes : Bytes) : feedFrames codec ⟨.over o, batches⟩ bytes = ⟨.over o, batches⟩ := by
  induction bytes with
  | nil => rfl
  | cons b rest ih => exact ih

theorem framed_feed_over (d : Decoder B E) {o : Outcome E} (hOver : d.framed.framing = .over o)
    (bytes : Bytes) : (feed codec d bytes).framed = d.framed := by
  induction bytes generalizing d with
  | nil => rfl
  | cons b rest ih =>
    have hSame : (feedByte codec d b).framed = d.framed := by
      rcases d with ⟨c, framing, batches⟩
      dsimp only at hOver
      subst hOver
      exact feedFrames_over codec o batches _
    rw [feed_cons, ih (feedByte codec d b) (by rw [hSame, hOver]),
      hSame]

-- Chunk Lemmas

theorem feed_data (f : Framed B E) (bytes : Bytes) {left : ℕ} (hPos : 0 < left) (hLe : bytes.length ≤ left) :
    feed codec ⟨.data left, f⟩ bytes = ⟨if bytes.length = left then .tail []
        else .data (left - bytes.length),
        feedFrames codec f bytes⟩ := by
  induction bytes generalizing left f with
  | nil => rw [if_neg (by simpa using hPos.ne)]; rfl
  | cons b rest ih =>
    rw [List.length_cons] at hLe ⊢
    rw [feed_cons]
    by_cases hOne : left ≤ 1
    · have hRest : rest = [] := by
        rw [← List.length_eq_zero_iff]
        omega
      subst hRest
      rw [if_pos (by simp; omega)]
      show Decoder.mk (if left ≤ 1 then Chunk.tail [] else _) _ = _
      rw [if_pos hOne]
      rfl
    · have hByte : feedByte codec ⟨.data left, f⟩ b = ⟨.data (left - 1), feedFrames codec f [b]⟩ := by
        show Decoder.mk (if left ≤ 1 then Chunk.tail [] else _) _ = _
        rw [if_neg hOne]
        rfl
      rw [hByte, ih _ (by omega) (by omega), ← feedFrames_append]
      have hSub : left - 1 - rest.length = left - (rest.length + 1) := by omega
      rw [hSub]
      by_cases hEq : rest.length + 1 = left
      · rw [if_pos hEq, if_pos (by omega)]
        rfl
      · rw [if_neg hEq, if_neg (by omega)]
        rfl

theorem length_splitLine {raw line rest : Bytes}
    (h : splitLine raw = some (line, rest)) : raw.length = line.length + 2 + rest.length := by
  induction raw using splitLine.induct generalizing line with
  | case1 => exact nomatch h
  | case2 tail =>
    rw [splitLine] at h
    cases h
    simp only [List.length_cons, List.length_nil]
    omega
  | case3 b tail hNot ih =>
    rw [splitLine] at h
    · cases hTail : splitLine tail with
      | none =>
        rw [hTail] at h
        exact nomatch h
      | some p =>
        rw [hTail] at h
        cases h
        have hLength := ih hTail
        rw [List.length_cons, List.length_cons]
        omega
    · exact hNot

/- A line break does not fall across two pieces of a header. -/
def Apart (line rest : Bytes) : Prop := ¬ (line.getLast? = some 13 ∧ rest.head? = some 10)

theorem apart_next (line : Bytes) {b : UInt8} {tail : Bytes}
    (hNot : ∀ rest, b = 13 → tail = 10 :: rest → False) : Apart (line ++ [b]) tail := by
  rintro ⟨hLast, hHead⟩
  rw [List.getLast?_concat] at hLast
  cases tail with
  | nil => exact nomatch hHead
  | cons c tail =>
    cases hHead
    exact hNot tail (Option.some.inj hLast) rfl

theorem feedByte_header (f : Framed B E) {line : Bytes} {b : UInt8} {rest : Bytes}
    (hApart : Apart line (b :: rest)) :
    feedByte codec ⟨.header line, f⟩ b = ⟨.header (line ++ [b]), f⟩ := by
  unfold feedByte feedChunk
  dsimp only
  rw [if_neg]
  · rfl
  · rintro ⟨hBreak, hLine⟩
    exact hApart ⟨hLine, by rw [hBreak]; rfl⟩

theorem feed_splitLine (f : Framed B E) {raw line rest : Bytes} (read : Bytes) (hApart : Apart read raw)
    (h : splitLine raw = some (line, rest)) :
    feed codec ⟨.header read, f⟩ raw = feed codec ⟨openChunk (read ++ line), f⟩ rest := by
  induction raw using splitLine.induct generalizing read line with
  | case1 => exact nomatch h
  | case2 tail =>
    rw [splitLine] at h
    cases h
    rw [feed_cons, feedByte_header codec f hApart, feed_cons, List.append_nil]
    unfold feedByte feedChunk
    dsimp only
    rw [if_pos ⟨rfl, by simp⟩, List.dropLast_concat]
    rfl
  | case3 b tail hNot ih =>
    rw [splitLine] at h
    · cases hTail : splitLine tail with
      | none =>
        rw [hTail] at h
        exact nomatch h
      | some p =>
        rw [hTail] at h
        cases h
        rw [feed_cons, feedByte_header codec f hApart, ih _ (apart_next read hNot) hTail, List.append_assoc]
        rfl
    · exact hNot

theorem feed_noLine (f : Framed B E) {raw : Bytes} (read : Bytes) (hApart : Apart read raw)
    (h : splitLine raw = none) :
    feed codec ⟨.header read, f⟩ raw = ⟨.header (read ++ raw), f⟩ := by
  induction raw using splitLine.induct generalizing read with
  | case1 => rw [List.append_nil]; rfl
  | case2 tail => exact nomatch h
  | case3 b tail hNot ih =>
    rw [splitLine] at h
    · have hTail : splitLine tail = none := by
        cases hTail : splitLine tail with
        | none => rfl
        | some p =>
          rw [hTail] at h
          exact nomatch h
      rw [feed_cons, feedByte_header codec f hApart, ih _ (apart_next read hNot) hTail, List.append_assoc]
      rfl
    · exact hNot

-- Frame Lemmas

theorem feedFrames_wait (want : Want) (got bytes : Bytes) (batches : List B)
    (hShort : got.length + bytes.length < want.count) :
    feedFrames codec ⟨.wait want got, batches⟩ bytes = ⟨.wait want (got ++ bytes), batches⟩ := by
  induction bytes generalizing got with
  | nil => rw [List.append_nil]; rfl
  | cons b rest ih =>
    rw [List.length_cons] at hShort
    have hByte : feedFrame codec ⟨.wait want got, batches⟩ b = ⟨.wait want (got ++ [b]), batches⟩ := by
      unfold feedFrame
      dsimp only
      rw [if_pos (by rw [List.length_append, List.length_singleton]
                     omega)]
    show feedFrames codec (feedFrame codec _ b) rest = _
    rw [hByte, ih _ (by rw [List.length_append, List.length_singleton]
                        omega), List.append_assoc]
    rfl

theorem feedFrames_complete (want : Want) (bytes : Bytes) (batches : List B) (hPos : 0 < want.count)
    (hEnough : want.count ≤ bytes.length) :
    feedFrames codec ⟨.wait want [], batches⟩ bytes = feedFrames codec
        (complete codec want (bytes.take want.count) batches)
        (bytes.drop want.count) := by
  obtain ⟨init, b, hTake⟩ : ∃ init b, bytes.take want.count = init ++ [b] := by
    have hNe : bytes.take want.count ≠ [] := by
      intro hNil
      have hLength := congrArg List.length hNil
      rw [List.length_take, List.length_nil] at hLength
      omega
    exact ⟨_, _, (List.dropLast_concat_getLast hNe).symm⟩
  have hLength : init.length + 1 = want.count := by
    have hTaken := congrArg List.length hTake
    rw [List.length_take, List.length_append, List.length_singleton] at hTaken
    omega
  calc feedFrames codec ⟨.wait want [], batches⟩ bytes
      = feedFrames codec ⟨.wait want [], batches⟩ (bytes.take want.count ++ bytes.drop want.count) := by
        rw [List.take_append_drop]
    _ = feedFrames codec (feedFrame codec (feedFrames codec ⟨.wait want [], batches⟩ init) b)
          (bytes.drop want.count) := by
        rw [hTake, feedFrames_append, feedFrames_append]
        rfl
    _ = feedFrames codec (complete codec want (bytes.take want.count) batches) (bytes.drop want.count) := by
        rw [feedFrames_wait codec want [] init batches (by rw [List.length_nil]; omega)]
        unfold feedFrame
        dsimp only
        rw [List.nil_append, if_neg, hTake]
        rw [List.length_append, List.length_singleton]
        omega

end SingboxOps.GrpcWeb
