import SingboxOps.GrpcWeb.Decoder
import Mathlib.Data.List.Basic

/-
  The reader of a stream finds what the decoder of its bytes
  makes of them, however they are cut.
-/

namespace SingboxOps.GrpcWeb

variable {B E : Type} (codec : Codec B E)

-- Readers and Decoders

/- Where the chunks of a reader's body stand. -/
def Stream.chunk (s : Stream) : Chunk :=
  if s.chunked then
    match s.chunkLeft with
    | none => .header []
    | some left =>
      if left = 0 then if s.chunkTail then .tail [] else .last
      else if 0 < left then .data left.toNat
      else .negative
  else .plain

/-
  The decoder of the bytes a reader has taken off the socket,
  when its buffer has led the frames to `f`.
-/
def Stream.decoder (s : Stream) (f : Framed B E) : Decoder B E := feed codec ⟨s.chunk, f⟩ s.raw

/- The decoder at the end of the body. -/
def whole (s : Stream) (f : Framed B E) : Decoder B E :=
  feed codec (s.decoder codec f) (incomingBytes s.incoming)

/- A reader has gone on, by some reads of its socket. -/
def Follows (s : Stream) (f : Framed B E) (s' : Stream) (f' : Framed B E) : Prop :=
  ∃ events, s.incoming = events ++ s'.incoming ∧
    s'.decoder codec f' = feed codec (s.decoder codec f) (incomingBytes events)

variable {codec}

theorem incomingBytes_append (x y : List Recv) :
    incomingBytes (x ++ y) = incomingBytes x ++ incomingBytes y :=
  List.flatMap_append

namespace Follows

variable {s s₁ s' : Stream} {f f₁ f' : Framed B E}

theorem of_eq (hIncoming : s.incoming = s'.incoming)
    (hDecoder : s'.decoder codec f' = s.decoder codec f) : Follows codec s f s' f' :=
  ⟨[], hIncoming, hDecoder⟩

theorem trans (h : Follows codec s f s₁ f₁) (h' : Follows codec s₁ f₁ s' f') : Follows codec s f s' f' := by
  obtain ⟨events, hIncoming, hDecoder⟩ := h
  obtain ⟨events', hIncoming', hDecoder'⟩ := h'
  refine ⟨events ++ events', ?_, ?_⟩
  · rw [hIncoming, hIncoming', List.append_assoc]
  · rw [hDecoder', hDecoder, ← feed_append, incomingBytes_append]

theorem whole_eq (h : Follows codec s f s' f') : whole codec s' f' = whole codec s f := by
  obtain ⟨events, hIncoming, hDecoder⟩ := h
  unfold whole
  rw [hIncoming, hDecoder, incomingBytes_append, feed_append]

end Follows

theorem Calm.rest {d : Decoder B E} {events rest : List Recv} (h : Calm codec d (events ++ rest)) :
    Calm codec (feed codec d (incomingBytes events)) rest := by
  induction events generalizing d with
  | nil => exact h
  | cons event events ih =>
    cases event with
    | idle => exact ih h.2
    | data first bytes =>
      have hTail := ih (d := feed codec d (first :: bytes)) h
      rw [← feed_append] at hTail
      exact hTail

theorem Follows.calm {s s' : Stream} {f f' : Framed B E} (h : Follows codec s f s' f')
    (hCalm : Calm codec (s.decoder codec f) s.incoming) :
    Calm codec (s'.decoder codec f') s'.incoming := by
  obtain ⟨events, hIncoming, hDecoder⟩ := h
  rw [hIncoming] at hCalm
  rw [hDecoder]
  exact hCalm.rest

-- Pumping

/-
  What one call of `pump` has done, whatever the frames `f`
  are that its buffer has led to.
-/
inductive Pumped (codec : Codec B E) (s : Stream) (f : Framed B E) : Result Bool → Prop where
  | moved
      (s' : Stream)
      (out : Bytes)
      (hBuffer : s'.buffer = s.buffer ++ out)
      (hFollows : Follows codec s f s' (feedFrames codec f out))
      (hWork : s'.work < s.work) :
      Pumped codec s f (.ok true, s')
  | stopped
      (s' : Stream)
      (c : Chunk)
      (hBuffer : s'.buffer = s.buffer)
      (hWhole : whole codec s f = ⟨c, f⟩)
      (hQuiet : c = .plain ∨ c = .last) :
      Pumped codec s f (.ok false, s')
  | failed
      (s' : Stream)
      (c : Chunk)
      (e : StreamError)
      (hWhole : whole codec s f = ⟨c, f⟩)
      (hFailure : c.failure = some e) :
      Pumped codec s f (.error (.failed e), s')
  | idle
      (s' : Stream)
      (events : List Recv)
      (c : Chunk)
      (hBuffer : s'.buffer = s.buffer)
      (hWork : s'.work < s.work)
      (hIncoming : s.incoming = events ++ .idle :: s'.incoming)
      (hDecoder : s'.decoder codec f = feed codec (s.decoder codec f) (incomingBytes events))
      (hWaits : s'.decoder codec f = ⟨c, f⟩)
      (hLive : c.live = true) :
      Pumped codec s f (.error .idle, s')
  | negative
      (r : Result Bool)
      (hWhole : whole codec s f = ⟨.negative, f⟩) :
      Pumped codec s f r

theorem whole_of_settled {s : Stream} {f : Framed B E} {c : Chunk} (hDecoder : s.decoder codec f = ⟨c, f⟩)
    (hSettled : c.live = false) : whole codec s f = ⟨c, f⟩ := by
  unfold whole
  rw [hDecoder]
  exact feed_settled codec hSettled f _

theorem Follows.pumped {s s₁ : Stream} {f : Framed B E} {r : Result Bool}
    (hFollows : Follows codec s f s₁ f) (hBuffer : s₁.buffer = s.buffer)
    (hWork : s₁.work ≤ s.work)
    (h : Pumped codec s₁ f r) : Pumped codec s f r := by
  have hSame := hFollows.whole_eq
  cases h with
  | moved s' out hOut hNext hLess =>
    exact .moved s' out (hBuffer ▸ hOut) (hFollows.trans hNext) (hLess.trans_le hWork)
  | stopped s' c hOut hWhole hQuiet =>
    exact .stopped s' c (hOut.trans hBuffer) (hSame.symm.trans hWhole) hQuiet
  | failed s' c e hWhole hFailure => exact .failed s' c e (hSame.symm.trans hWhole) hFailure
  | idle s' events c hOut hLess hIncoming hDecoder hWaits hLive =>
    obtain ⟨before, hBefore, hFirst⟩ := hFollows
    refine .idle s' (before ++ events) c (hOut.trans hBuffer) (hLess.trans_le hWork) ?_ ?_ hWaits hLive
    · rw [hBefore, hIncoming, List.append_assoc]
    · rw [hDecoder, hFirst, ← feed_append, incomingBytes_append]
  | negative r hWhole => exact .negative r (hSame.symm.trans hWhole)

theorem work_fill (s : Stream) (first : UInt8) (bytes : Bytes) (rest : List Recv)
    (hIncoming : s.incoming = .data first bytes :: rest) : Stream.work { s with
      raw := s.raw ++ first :: bytes
      incoming := rest } < s.work := by
  unfold Stream.work
  dsimp only
  rw [hIncoming]
  have hBytes : incomingBytes (.data first bytes :: rest) = (first :: bytes) ++ incomingBytes rest := rfl
  rw [hBytes]
  simp only [List.length_append, List.length_cons]
  omega

theorem work_idle (s : Stream) (rest : List Recv) (hIncoming : s.incoming = .idle :: rest) :
    Stream.work { s with incoming := rest } < s.work := by
  unfold Stream.work
  dsimp only
  rw [hIncoming]
  have hBytes : incomingBytes (.idle :: rest) = incomingBytes rest := rfl
  rw [hBytes]
  simp only [List.length_cons]
  omega

theorem follows_fill (s : Stream) (f : Framed B E) (first : UInt8) (bytes : Bytes) (rest : List Recv)
    (hIncoming : s.incoming = .data first bytes :: rest) : Follows codec s f
      { s with
        raw := s.raw ++ first :: bytes
        incoming := rest } f := by
  refine ⟨[.data first bytes], hIncoming, ?_⟩
  have hBytes : incomingBytes [.data first bytes] = first :: bytes := by
    simp [incomingBytes, Recv.bytes]
  unfold Stream.decoder
  rw [← feed_append, hBytes]
  rfl

/- A reader that needs more of the body. -/
theorem refill_pumped {s : Stream} {f : Framed B E} {e : StreamError}
    {next : Stream → Result Bool} {c : Chunk}
    (hDecoder : s.decoder codec f = ⟨c, f⟩) (hLive : c.live = true)
    (hFailure : c.failure = some e)
    (hNext : ∀ s', s'.chunked = s.chunked → s'.work < s.work → Pumped codec s' f (next s')) :
    Pumped codec s f (refill s e next) := by
  unfold refill fillRaw
  cases hIncoming : s.incoming with
  | nil =>
    refine .failed s c e ?_ hFailure
    unfold whole
    rw [hIncoming, hDecoder]
    rfl
  | cons event rest =>
    cases event with
    | idle =>
      exact .idle _ [] c rfl (work_idle s rest hIncoming) hIncoming rfl hDecoder hLive
    | data first bytes =>
      have hLess := work_fill s first bytes rest hIncoming
      exact (follows_fill s f first bytes rest hIncoming).pumped rfl hLess.le (hNext _ rfl hLess)

section Chunked

variable {s : Stream} (hChunked : s.chunked = true)

include hChunked in
theorem chunk_of_none (hLeft : s.chunkLeft = none) : s.chunk = .header [] := by
  unfold Stream.chunk
  rw [if_pos hChunked, hLeft]

include hChunked in
theorem chunk_of_some {left : ℤ} (hLeft : s.chunkLeft = some left) : s.chunk =
      if left = 0 then if s.chunkTail then .tail [] else .last
      else if 0 < left then .data left.toNat
      else .negative := by
  unfold Stream.chunk
  rw [if_pos hChunked, hLeft]

include hChunked in
theorem chunk_opened {line rest : Bytes} {n : ℤ}
    (hSize : chunkSize line = some n) : Stream.chunk { s with
      raw := rest
      chunkLeft := some n
      chunkTail := false } = openChunk line := by
  rw [chunk_of_some (s := { s with
    raw := rest
    chunkLeft := some n
    chunkTail := false }) hChunked rfl]
  unfold openChunk
  rw [hSize]
  rfl

include hChunked in
theorem takeData_pumped {f : Framed B E} {left : ℤ} (hLeft : s.chunkLeft = some left) (hPos : 0 < left)
    (hRaw : s.raw ≠ []) : Pumped codec s f (.ok true, takeData s left) := by
  have hLength : 0 < s.raw.length := List.length_pos_iff.mpr hRaw
  obtain ⟨n, rfl⟩ : ∃ n : ℕ, left = n := ⟨left.toNat, (Int.toNat_of_nonneg hPos.le).symm⟩
  have hCut : cutAt s.raw (min (s.raw.length : ℤ) n) = min s.raw.length n := by
    unfold cutAt
    rw [if_neg (by omega)]
    omega
  have hChunk : s.chunk = .data n := by
    rw [chunk_of_some hChunked hLeft, if_neg (by omega),
      if_pos hPos, Int.toNat_natCast]
  have hTaken : (s.raw.take (min s.raw.length n)).length = min s.raw.length n := by
    rw [List.length_take]
    omega
  refine .moved _ (s.raw.take (min s.raw.length n)) ?_ ?_ ?_
  · unfold takeData
    dsimp only
    rw [hCut]
  · refine Follows.of_eq rfl ?_
    have hNext : (takeData s n).chunk =
          if min s.raw.length n = n then .tail []
          else .data (n - min s.raw.length n) := by
      have hTail : (takeData s n).chunkTail =
            if (n : ℤ) - min (s.raw.length : ℤ) n = 0 then true
            else s.chunkTail := rfl
      rw [chunk_of_some (s := takeData s n) hChunked (rfl : _ = some ((n : ℤ) - min (s.raw.length : ℤ) n)),
        hTail]
      by_cases hAll : min s.raw.length n = n
      · have hZero : (n : ℤ) - min (s.raw.length : ℤ) n = 0 := by
          omega
        rw [if_pos hAll, if_pos hZero, if_pos hZero, if_pos rfl]
      · rw [if_neg hAll, if_neg (by omega), if_pos (by omega)]
        congr 1
        omega
    have hRest : (takeData s n).raw = s.raw.drop (min s.raw.length n) := by
      unfold takeData
      dsimp only
      rw [hCut]
    unfold Stream.decoder
    rw [hNext, hRest, hChunk]
    conv_rhs =>
      rw [← List.take_append_drop (min s.raw.length n) s.raw,
        feed_append, feed_data codec f _ (by omega) (by omega), hTaken]
  · unfold takeData Stream.work
    dsimp only
    rw [hCut, List.length_append, hTaken, List.length_drop]
    omega

end Chunked

theorem pumpChunk_pumped (f : Framed B E) : ∀ (fuel : ℕ) (s : Stream),
      s.chunked = true → s.work < fuel → Pumped codec s f (pumpChunk fuel s) := by
  intro fuel
  induction fuel with
  | zero => exact fun s _ hWork => absurd hWork (Nat.not_lt_zero _)
  | succ fuel ih =>
    intro s hChunked hWork
    have hAgain : ∀ s', s'.chunked = s.chunked → s'.work < s.work → Pumped codec s' f (pumpChunk fuel s') :=
      fun s' hSame hLess => ih s' (hSame.trans hChunked) (by omega)
    rw [pumpChunk]
    cases hLeft : s.chunkLeft with
    | none =>
      have hChunk := chunk_of_none hChunked hLeft
      have hApart : Apart [] s.raw := fun h => nomatch h.1
      dsimp only
      cases hLine : splitLine s.raw with
      | none =>
        have hDecoder : s.decoder codec f = ⟨.header s.raw, f⟩ := by
          unfold Stream.decoder
          rw [hChunk]
          exact feed_noLine codec f [] hApart hLine
        exact refill_pumped hDecoder rfl rfl hAgain
      | some p =>
        rcases p with ⟨line, rest⟩
        have hDecoder : s.decoder codec f = feed codec ⟨openChunk line, f⟩ rest := by
          unfold Stream.decoder
          rw [hChunk]
          exact feed_splitLine codec f [] hApart hLine
        dsimp only
        cases hSize : chunkSize line with
        | none =>
          have hOpen : openChunk line = .bad (.badHeader (line.take 32)) := by
            unfold openChunk
            rw [hSize]
          refine .failed _ (.bad (.badHeader (line.take 32))) _ ?_ rfl
          refine whole_of_settled ?_ rfl
          rw [hDecoder, hOpen]
          exact feed_settled codec rfl f rest
        | some n =>
          have hLess :
              Stream.work { s with
                raw := rest
                chunkLeft := some n
                chunkTail := false } < s.work := by
            have hShort := length_splitLine hLine
            unfold Stream.work
            dsimp only
            omega
          have hFollows :
              Follows codec s f { s with
                raw := rest
                chunkLeft := some n
                chunkTail := false } f := by
            refine Follows.of_eq rfl ?_
            unfold Stream.decoder at hDecoder ⊢
            rw [hDecoder, chunk_opened hChunked hSize]
          exact hFollows.pumped rfl hLess.le (hAgain _ rfl hLess)
    | some left =>
      have hChunk := chunk_of_some hChunked hLeft
      dsimp only
      by_cases hZero : left = 0
      · rw [if_pos hZero]
        rw [if_pos hZero] at hChunk
        by_cases hTail : s.chunkTail = true
        · rw [if_pos hTail]
          rw [if_pos hTail] at hChunk
          cases hRaw : s.raw with
          | nil =>
            refine refill_pumped (c := .tail []) ?_ rfl rfl hAgain
            unfold Stream.decoder
            rw [hChunk, hRaw]
            rfl
          | cons a rest =>
            cases rest with
            | nil =>
              refine refill_pumped (c := .tail [a]) ?_ rfl rfl hAgain
              unfold Stream.decoder
              rw [hChunk, hRaw]
              rfl
            | cons b rest =>
              have hDecoder : s.decoder codec f = feed codec ⟨if a = 13 ∧ b = 10 then .header []
                        else .bad .badTerminator, f⟩
                      rest := by
                unfold Stream.decoder
                rw [hChunk, hRaw]
                rfl
              dsimp only
              by_cases hBreak : a = 13 ∧ b = 10
              · rw [if_pos hBreak]
                rw [if_pos hBreak] at hDecoder
                have hLess :
                    Stream.work { s with
                      raw := rest
                      chunkLeft := none
                      chunkTail := false } < s.work := by
                  unfold Stream.work
                  dsimp only
                  rw [hRaw, List.length_cons, List.length_cons]
                  omega
                have hFollows :
                    Follows codec s f { s with
                      raw := rest
                      chunkLeft := none
                      chunkTail := false } f := by
                  refine Follows.of_eq rfl ?_
                  unfold Stream.decoder at hDecoder ⊢
                  rw [hDecoder, chunk_of_none (s := { s with
                    raw := rest
                    chunkLeft := none
                    chunkTail := false }) hChunked rfl]
                exact hFollows.pumped rfl hLess.le (hAgain _ rfl hLess)
              · rw [if_neg hBreak]
                rw [if_neg hBreak] at hDecoder
                refine .failed _ (.bad .badTerminator) _ ?_ rfl
                refine whole_of_settled ?_ rfl
                rw [hDecoder]
                exact feed_settled codec rfl f rest
        · rw [if_neg hTail]
          rw [if_neg hTail] at hChunk
          refine .stopped _ .last rfl ?_ (.inr rfl)
          refine whole_of_settled ?_ rfl
          unfold Stream.decoder
          rw [hChunk]
          exact feed_settled codec rfl f s.raw
      · rw [if_neg hZero]
        rw [if_neg hZero] at hChunk
        by_cases hPos : 0 < left
        · rw [if_pos hPos] at hChunk
          by_cases hRaw : s.raw = []
          · rw [if_pos hRaw]
            refine refill_pumped (c := .data left.toNat) ?_ rfl
              rfl hAgain
            unfold Stream.decoder
            rw [hChunk, hRaw]
            rfl
          · rw [if_neg hRaw]
            exact takeData_pumped hChunked hLeft hPos hRaw
        · rw [if_neg hPos] at hChunk
          refine .negative _ ?_
          refine whole_of_settled ?_ rfl
          unfold Stream.decoder
          rw [hChunk]
          exact feed_settled codec rfl f s.raw

theorem pump_pumped (s : Stream) (f : Framed B E) : Pumped codec s f (pump s) := by
  unfold pump
  by_cases hChunked : s.chunked = true
  · rw [if_pos hChunked]
    exact pumpChunk_pumped f _ s hChunked (Nat.lt_succ_self _)
  · rw [if_neg hChunked]
    have hChunk : s.chunk = .plain := if_neg hChunked
    have hMoved : ∀ s', s'.chunked = s.chunked → s'.raw ≠ [] → Pumped codec s' f (.ok true, moveRaw s') := by
      intro s' hSame hRaw
      have hPlain : s'.chunk = .plain := if_neg (by rw [hSame]; exact hChunked)
      have hLength := List.length_pos_iff.mpr hRaw
      refine .moved _ s'.raw rfl (Follows.of_eq rfl ?_) ?_
      · have hNext : (moveRaw s').chunk = .plain := hPlain
        unfold Stream.decoder
        rw [hNext, hPlain, feed_plain, feed_plain]
        rfl
      · unfold moveRaw Stream.work
        dsimp only
        rw [List.length_append, List.length_nil]
        omega
    by_cases hRaw : s.raw = []
    · rw [if_pos hRaw]
      have hDecoder : s.decoder codec f = ⟨.plain, f⟩ := by
        unfold Stream.decoder
        rw [hChunk, hRaw]
        rfl
      unfold fillRaw
      cases hIncoming : s.incoming with
      | nil =>
        refine .stopped s .plain rfl ?_ (.inl rfl)
        unfold whole
        rw [hIncoming, hDecoder]
        rfl
      | cons event rest =>
        cases event with
        | idle =>
          exact .idle _ [] .plain rfl (work_idle s rest hIncoming) hIncoming rfl hDecoder rfl
        | data first bytes =>
          exact (follows_fill s f first bytes rest hIncoming).pumped rfl
              (work_fill s first bytes rest hIncoming).le
              (hMoved _ rfl (by simp))
    · rw [if_neg hRaw]
      exact hMoved s rfl hRaw

-- Exact Reads

/- What the buffer of a reader has led to. -/
def held (codec : Codec B E) (s : Stream) (want : Want) (batches : List B) : Framed B E :=
  feedFrames codec ⟨.wait want [], batches⟩ s.buffer

/-
  What a read of as many bytes as are wanted has done.  A
  silence may fall into it only where a header is wanted.
-/
inductive Exact (codec : Codec B E) (s : Stream) (want : Want)
    (batches : List B) : Result Bytes → Prop where
  | read
      (s' : Stream)
      (got : Bytes)
      (hFollows : Follows codec s (held codec s want batches) s'
          (feedFrames codec (complete codec want got batches) s'.buffer))
      (hWork : s'.work < s.work) :
      Exact codec s want batches (.ok got, s')
  | ended
      (s' : Stream)
      (stop : Stop)
      (o : Outcome E)
      (hStop : (stop = .eof ∧ o = .ended) ∨ ∃ e, stop = .failed e ∧ o = .failed e)
      (hEnd : conclude (whole codec s (held codec s want batches)) = some o)
      (hBatches : (whole codec s (held codec s want batches)).framed.batches = batches) :
      Exact codec s want batches (.error stop, s')
  | idle
      (s' : Stream)
      (hFollows : Follows codec s (held codec s want batches) s' (held codec s' want batches))
      (hWork : s'.work < s.work)
      (hLost : Calm codec (s.decoder codec (held codec s want batches)) s.incoming → want = .header) :
      Exact codec s want batches (.error .idle, s')
  | negative
      (r : Result Bytes)
      (hEnd : conclude (whole codec s (held codec s want batches)) = none) :
      Exact codec s want batches r

theorem Follows.exact {s s₁ : Stream} {want : Want} {batches : List B} {r : Result Bytes}
    (hFollows : Follows codec s (held codec s want batches) s₁ (held codec s₁ want batches))
    (hWork : s₁.work ≤ s.work)
    (h : Exact codec s₁ want batches r) : Exact codec s want batches r := by
  have hSame := hFollows.whole_eq
  cases h with
  | read s' got hNext hLess =>
    exact .read s' got (hFollows.trans hNext) (hLess.trans_le hWork)
  | ended s' stop o hStop hEnd hBatches =>
    exact .ended s' stop o hStop (hSame ▸ hEnd) (hSame ▸ hBatches)
  | idle s' hNext hLess hLost =>
    exact .idle s' (hFollows.trans hNext) (hLess.trans_le hWork) (fun hCalm => hLost (hFollows.calm hCalm))
  | negative r hEnd => exact .negative r (hSame ▸ hEnd)

theorem held_of_short {s : Stream} {want : Want} {batches : List B} (hShort : s.buffer.length < want.count) :
    held codec s want batches = ⟨.wait want s.buffer, batches⟩ :=
  feedFrames_wait codec want [] s.buffer batches (by rw [List.length_nil]; omega)

theorem held_append {s s' : Stream} {want : Want} {batches : List B} {out : Bytes}
    (hBuffer : s'.buffer = s.buffer ++ out) :
    held codec s' want batches = feedFrames codec (held codec s want batches) out := by
  unfold held
  rw [hBuffer, feedFrames_append]

theorem readLoop_exact (want : Want) (batches : List B) (hCount : 0 < want.count) : ∀ (fuel : ℕ) (s : Stream),
      s.work < fuel → Exact codec s want batches (readLoop want.count fuel s) := by
  intro fuel
  induction fuel with
  | zero => exact fun s hWork => absurd hWork (Nat.not_lt_zero _)
  | succ fuel ih =>
    intro s hWork
    rw [readLoop]
    by_cases hEnough : want.count ≤ s.buffer.length
    · rw [if_pos hEnough]
      have hHeld : held codec s want batches = feedFrames codec
              (complete codec want (s.buffer.take want.count) batches)
              (s.buffer.drop want.count) :=
        feedFrames_complete codec want s.buffer batches hCount hEnough
      refine .read _ _ (Follows.of_eq rfl ?_) ?_
      · rw [hHeld]
        rfl
      · unfold Stream.work
        dsimp only
        rw [List.length_drop]
        omega
    · rw [if_neg hEnough]
      have hShort : s.buffer.length < want.count := by omega
      have hHeld : held codec s want batches = ⟨.wait want s.buffer, batches⟩ := held_of_short hShort
      have hPumped : Pumped codec s (held codec s want batches) (pump s) := pump_pumped s _
      cases hResult : pump s with
      | mk result s' =>
        rw [hResult] at hPumped
        cases hPumped with
        | moved _ out hBuffer hFollows hLess =>
          rw [← held_append hBuffer] at hFollows
          exact hFollows.exact hLess.le (ih s' (by omega))
        | stopped _ c hBuffer hWhole hQuiet =>
          have hFailure : c.failure = none := by
            rcases hQuiet with rfl | rfl <;> rfl
          have hPositive : c ≠ .negative := by
            rcases hQuiet with rfl | rfl <;> exact fun h => nomatch h
          have hBatches : (whole codec s (held codec s want batches)).framed.batches = batches := by
            rw [hWhole, hHeld]
          dsimp only
          rw [hBuffer]
          by_cases hEmpty : s.buffer = []
          · rw [if_pos hEmpty]
            refine .ended _ _ .ended (.inl ⟨rfl, rfl⟩) ?_ hBatches
            rw [hWhole, hHeld]
            unfold conclude
            dsimp only
            rw [hFailure]
            dsimp only
            rw [if_neg hPositive, if_pos hEmpty]
          · rw [if_neg hEmpty]
            refine .ended _ _ _ (.inr ⟨_, rfl, rfl⟩) ?_ hBatches
            rw [hWhole, hHeld]
            unfold conclude
            dsimp only
            rw [hFailure]
            dsimp only
            rw [if_neg hPositive, if_neg hEmpty]
        | failed _ c e hWhole hFailure =>
          refine .ended _ _ _ (.inr ⟨e, rfl, rfl⟩) ?_ ?_
          · rw [hWhole, hHeld]
            unfold conclude
            dsimp only
            rw [hFailure]
          · rw [hWhole, hHeld]
        | idle _ events c hBuffer hLess hIncoming hDecoder
            hWaits hLive =>
            have hKept : held codec s' want batches = held codec s want batches := by
              unfold held
              rw [hBuffer]
            refine .idle _ ⟨events ++ [.idle], ?_, ?_⟩ hLess ?_
            · rw [hIncoming, List.append_assoc]
              rfl
            · rw [hKept, hDecoder, incomingBytes_append, feed_append]
              rfl
            · intro hCalm
              rw [hIncoming] at hCalm
              have hQuiet := hCalm.rest.1
              rw [← hDecoder, hWaits, hHeld] at hQuiet
              cases want with
              | header => rfl
              | payload flags need =>
                unfold Decoder.midPayload at hQuiet
                dsimp only at hQuiet
                rw [hLive] at hQuiet
                exact nomatch hQuiet
        | negative _ hWhole =>
          refine .negative _ ?_
          rw [hWhole, hHeld]
          rfl

theorem readExact_exact (s : Stream) (want : Want) (batches : List B)
    (hCount : 0 < want.count) : Exact codec s want batches (readExact want.count s) :=
  readLoop_exact want batches hCount _ s (Nat.lt_succ_self _)

-- Batches

/- The batches that are no heartbeats. -/
def nonHeartbeats (yields : Yields B) : List B := yields.filterMap id

/-
  A run yields, behind the batches there were, those of the
  decoder at the end of the body, and ends as it does.
-/
def Reports (d : Decoder B E) (batches : List B) (run : Yields B × Outcome E) : Prop :=
  conclude d = some run.2 ∧ d.framed.batches = batches ++ nonHeartbeats run.1

theorem whole_of_over {s : Stream} {o : Outcome E} {batches : List B} : (whole codec s
      (feedFrames codec ⟨.over o, batches⟩ s.buffer)).framed = ⟨.over o, batches⟩ := by
  rw [feedFrames_over]
  unfold whole Stream.decoder
  have hRaw : (feed codec ⟨s.chunk, ⟨.over o, batches⟩⟩ s.raw).framed = ⟨.over o, batches⟩ :=
    framed_feed_over codec _ rfl s.raw
  rw [framed_feed_over codec _ (by rw [hRaw]), hRaw]

theorem reports_over {s s' : Stream} {f : Framed B E} {o : Outcome E} {batches : List B}
    (hFollows : Follows codec s f s' (feedFrames codec ⟨.over o, batches⟩ s'.buffer)) :
    Reports (whole codec s f) batches ([], o) := by
  have hFramed : (whole codec s f).framed = ⟨.over o, batches⟩ := by
    rw [← hFollows.whole_eq, whole_of_over]
  unfold Reports conclude
  rw [hFramed]
  exact ⟨rfl, (List.append_nil batches).symm⟩

/-
  What the loop does with a frame, when what it does with the
  rest is known.
-/
theorem reports_frame {s s' : Stream} {f : Framed B E} {batches : List B} {flags : UInt8}
    {payload : Bytes} {rest : Yields B × Outcome E}
    (hFollows : Follows codec s f s' (feedFrames codec (deliver codec flags payload batches) s'.buffer))
    (hRest : ∀ batch, codec.decode payload = .ok batch → Follows codec s f s'
            (held codec s' .header (batches ++ [batch])) →
          Reports (whole codec s f) (batches ++ [batch]) rest) :
    Reports (whole codec s f) batches (if flags &&& 0x80 ≠ 0 then ([], endOf (codec.trailers payload))
      else if flags ≠ 0 then ([], .failed (.unknownFlags flags))
      else
        match codec.decode payload with
        | .error e => ([], .undecodable e)
        | .ok batch => (some batch :: rest.1, rest.2)) := by
  unfold deliver at hFollows
  by_cases hTrailer : flags &&& 0x80 ≠ 0
  · rw [if_pos hTrailer] at hFollows ⊢
    exact reports_over hFollows
  · rw [if_neg hTrailer] at hFollows ⊢
    by_cases hUnknown : flags ≠ 0
    · rw [if_pos hUnknown] at hFollows ⊢
      exact reports_over hFollows
    · rw [if_neg hUnknown] at hFollows ⊢
      cases hDecode : codec.decode payload with
      | error e =>
        rw [hDecode] at hFollows
        exact reports_over hFollows
      | ok batch =>
        rw [hDecode] at hFollows
        obtain ⟨hEnd, hBatches⟩ := hRest batch hDecode hFollows
        refine ⟨hEnd, ?_⟩
        rw [hBatches, List.append_assoc]
        rfl

theorem batchLoop_reports : ∀ (fuel : ℕ) (s : Stream) (batches : List B), s.work < fuel →
      Calm codec (s.decoder codec (held codec s .header batches)) s.incoming →
      conclude (whole codec s (held codec s .header batches)) ≠ none →
        Reports (whole codec s (held codec s .header batches)) batches (batchLoop codec fuel s) := by
  intro fuel
  induction fuel with
  | zero => exact fun s _ hWork => absurd hWork (Nat.not_lt_zero _)
  | succ fuel ih =>
    intro s batches hWork hCalm hEnds
    -- what the loop reports behind a reader that has gone on
    have hAgain : ∀ s' batches', s'.work < s.work →
          Follows codec s (held codec s .header batches) s' (held codec s' .header batches') →
            Reports (whole codec s (held codec s .header batches)) batches' (batchLoop codec fuel s') := by
      intro s' batches' hLess hFollows
      rw [← hFollows.whole_eq]
      refine ih s' batches' (by omega) (hFollows.calm hCalm) ?_
      rw [hFollows.whole_eq]
      exact hEnds
    rw [batchLoop, readFrame]
    have hHeader : Exact codec s .header batches (readExact 5 s) :=
      readExact_exact s .header batches (by decide)
    cases hRead : readExact 5 s with
    | mk result s₁ =>
      rw [hRead] at hHeader
      cases hHeader with
      | negative _ hEnd => exact absurd hEnd hEnds
      | ended _ stop o hStop hEnd hBatches =>
        rcases hStop with ⟨rfl, rfl⟩ | ⟨e, rfl, rfl⟩
        · exact ⟨hEnd, by rw [hBatches]; simp [nonHeartbeats]⟩
        · exact ⟨hEnd, by rw [hBatches]; simp [nonHeartbeats]⟩
      | idle _ hFollows hLess hLost =>
        obtain ⟨hEnd, hBatches⟩ := hAgain s₁ batches hLess hFollows
        exact ⟨hEnd, hBatches⟩
      | read _ header hFollows hLess =>
        dsimp only
        unfold complete at hFollows
        dsimp only at hFollows
        by_cases hEmpty : bigEndian (header.drop 1) = 0
        · rw [if_pos hEmpty] at hFollows ⊢
          exact reports_frame hFollows (fun batch _ hNext => hAgain s₁ _ hLess hNext)
        · rw [if_neg hEmpty] at hFollows ⊢
          have hPayload : Exact codec s₁ (.payload (header.headD 0) (bigEndian (header.drop 1))) batches
                (readExact (bigEndian (header.drop 1)) s₁) :=
            readExact_exact s₁ (.payload _ _) batches (Nat.pos_of_ne_zero hEmpty)
          have hSame := hFollows.whole_eq
          cases hReadPayload : readExact (bigEndian (header.drop 1)) s₁ with
          | mk result s₂ =>
            rw [hReadPayload] at hPayload
            cases hPayload with
            | negative _ hEnd =>
              refine absurd ?_ hEnds
              rw [← hSame]
              exact hEnd
            | ended _ stop o hStop hEnd hBatches =>
              have hReports : Reports (whole codec s (held codec s .header batches)) batches ([], o) := by
                rw [← hSame]
                exact ⟨hEnd, hBatches.trans (List.append_nil batches).symm⟩
              rcases hStop with ⟨rfl, rfl⟩ | ⟨e, rfl, rfl⟩
              · exact hReports
              · exact hReports
            | idle _ hNext hLessNext hLost => exact nomatch hLost (hFollows.calm hCalm)
            | read _ payload hNext hLessNext =>
              exact reports_frame (hFollows.trans hNext)
                (fun batch _ hLater => hAgain s₂ _ (hLessNext.trans hLess) hLater)

-- Segmentation

/- The decoder of what has been received with the headers. -/
def received (codec : Codec B E) (chunked : Bool) (raw : Bytes) : Decoder B E :=
  feed codec (Decoder.start chunked) raw

theorem decoder_opened (codec : Codec B E) (chunked : Bool) (raw : Bytes)
    (incoming : List Recv) : Stream.decoder codec (Stream.opened chunked raw incoming)
        (held codec (Stream.opened chunked raw incoming) .header []) =
      received codec chunked raw := by
  cases chunked <;> rfl

theorem batches_of_calm (codec : Codec B E) (chunked : Bool) (raw : Bytes) (incoming : List Recv)
    (hCalm : Calm codec (received codec chunked raw) incoming)
    (hSizes : conclude (received codec chunked (raw ++ incomingBytes incoming)) ≠ none) :
    Reports (received codec chunked (raw ++ incomingBytes incoming)) []
      (batches codec (Stream.opened chunked raw incoming)) := by
  have hWhole : whole codec (Stream.opened chunked raw incoming)
          (held codec (Stream.opened chunked raw incoming) .header []) =
        received codec chunked (raw ++ incomingBytes incoming) := by
    unfold whole
    rw [decoder_opened]
    unfold received
    rw [feed_append]
    rfl
  rw [← hWhole] at hSizes ⊢
  refine batchLoop_reports _ _ [] (Nat.lt_succ_self _) ?_ hSizes
  rw [decoder_opened]
  exact hCalm

/-
  A body that is cut and interleaved with silences in any way
  gives the batches and the end it gives in one piece, unless
  a silence falls between a frame's header and the end of its
  payload, or a chunk with a negative size is reached.
-/
theorem batches_independent (codec : Codec B E) (chunked : Bool) (raw : Bytes) (incoming : List Recv)
    (hCalm : Calm codec (received codec chunked raw) incoming)
    (hSizes : conclude (received codec chunked (raw ++ incomingBytes incoming)) ≠ none) :
    nonHeartbeats (batches codec (Stream.opened chunked raw incoming)).1 = nonHeartbeats
        (batches codec (Stream.opened chunked (raw ++ incomingBytes incoming) [])).1 ∧
    (batches codec (Stream.opened chunked raw incoming)).2 =
      (batches codec (Stream.opened chunked (raw ++ incomingBytes incoming) [])).2 := by
  obtain ⟨hEnd, hBatches⟩ := batches_of_calm codec chunked raw incoming hCalm hSizes
  have hPiece : incomingBytes [] = [] := rfl
  obtain ⟨hEnd', hBatches'⟩ := batches_of_calm codec chunked (raw ++ incomingBytes incoming) [] True.intro
      (by rw [hPiece, List.append_nil]; exact hSizes)
  rw [hPiece, List.append_nil] at hEnd' hBatches'
  exact ⟨hBatches.symm.trans hBatches', Option.some.inj (hEnd.symm.trans hEnd')⟩

/-
  Payloads taken as they are, as a reader of batches does with
  those that hold one `reset` field.
-/
def plainCodec : Codec Bytes Unit := ⟨.ok, fun _ => none⟩

/- A frame with the field `reset`, cut inside its payload. -/
def resetFrame : List Recv := [.idle, .data 0 [0, 0, 0, 2, 16], .data 1 []]

theorem batches_independent_resetFrame : nonHeartbeats
        (batches plainCodec (Stream.opened false [] resetFrame)).1 =
      nonHeartbeats (batches plainCodec (Stream.opened false ([] ++ incomingBytes resetFrame) [])).1 ∧
    (batches plainCodec (Stream.opened false [] resetFrame)).2 =
      (batches plainCodec (Stream.opened false ([] ++ incomingBytes resetFrame) [])).2 :=
  batches_independent plainCodec false [] resetFrame (by decide) (by decide)

/- The same frame with a silence behind its header. -/
def silentFrame : List Recv := [.data 0 [0, 0, 0, 2], .idle, .data 16 [1]]

/- The header is lost and the payload is taken for another. -/
theorem silentFrame_differs : batches plainCodec (Stream.opened false [] silentFrame) =
        ([none], .failed (.midFrame 2 5)) ∧
      batches plainCodec (Stream.opened false (incomingBytes silentFrame) []) = ([some [16, 1]], .ended) := by
  decide

end SingboxOps.GrpcWeb
