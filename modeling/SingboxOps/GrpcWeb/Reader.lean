import SingboxOps.Lib.Text
import Mathlib.Data.Int.Order.Basic
import Mathlib.Algebra.Order.Group.Int

/-
  The body reader of a gRPC-Web stream.

  A socket gives pieces of the body and silences in between,
  and then closes.  The loops of the source run on fuel that
  is computed from what is left to read; `stuck` stands for an
  end of the fuel, which is never reached.
-/

namespace SingboxOps.GrpcWeb

-- Streams

/- What one read of the socket ends with. -/
inductive Recv where
  | data (first : UInt8) (rest : Bytes)
  | idle
deriving DecidableEq

def Recv.bytes : Recv → Bytes
  | data first rest => first :: rest
  | idle => []

/- The texts of the errors, by their kind. -/
inductive StreamError where
  | closedInHeader
  | badHeader (line : Bytes)
  | closedAfterData
  | badTerminator
  | closedMidChunk
  | midFrame (had count : ℕ)
  | grpcStatus (status : PyStr)
  | unknownFlags (flags : UInt8)
deriving DecidableEq

/- The exceptions that leave the readers. -/
inductive Stop where
  | idle
  | eof
  | failed (e : StreamError)
  | stuck
deriving DecidableEq

/- A reader, and what its socket will give before it closes. -/
structure Stream where
  raw : Bytes
  buffer : Bytes
  chunked : Bool
  chunkLeft : Option ℤ
  chunkTail : Bool
  incoming : List Recv
deriving DecidableEq

/- A stream behind its response header. -/
def Stream.opened (chunked : Bool) (raw : Bytes) (incoming : List Recv) : Stream :=
  ⟨raw, [], chunked, none, false, incoming⟩

/- All bytes the socket will give. -/
def incomingBytes (incoming : List Recv) : Bytes := incoming.flatMap Recv.bytes

/- What is left to do; every step of a loop takes from it. -/
def Stream.work (s : Stream) : ℕ :=
  2 * (s.raw.length + (incomingBytes s.incoming).length) + s.incoming.length + s.buffer.length

abbrev Result (α : Type) := Except Stop α × Stream

-- Chunk Sizes

/- `Py_ISSPACE` -/
def isBlank (b : UInt8) : Bool := (9 ≤ b && b ≤ 13) || b == 32

def hexDigit? (b : UInt8) : Option ℕ :=
  if 48 ≤ b ∧ b ≤ 57 then some (b.toNat - 48)
  else if 97 ≤ b ∧ b ≤ 102 then some (b.toNat - 87)
  else if 65 ≤ b ∧ b ≤ 70 then some (b.toNat - 55)
  else none

/-
  Digits with single underscores between them; `after` says
  that a digit has just been read.
-/
def hexDigits (value : ℕ) (after : Bool) : Bytes → Option ℕ
  | [] => if after then some value else none
  | 95 :: rest => if after then hexDigits value false rest else none
  | b :: rest =>
    match hexDigit? b with
    | some d => hexDigits (16 * value + d) true rest
    | none => none

/- The text behind the sign: a prefix `0x`, then digits. -/
def hexMagnitude : Bytes → Option ℕ
  | 48 :: 120 :: 95 :: rest => hexDigits 0 false rest
  | 48 :: 88 :: 95 :: rest => hexDigits 0 false rest
  | 48 :: 120 :: rest => hexDigits 0 false rest
  | 48 :: 88 :: rest => hexDigits 0 false rest
  | text => hexDigits 0 false text

/- `int(text, 16)` -/
def hexInt (text : Bytes) : Option ℤ :=
  let trimmed := ((text.dropWhile isBlank).reverse.dropWhile isBlank).reverse
  match trimmed with
  | 45 :: rest => (hexMagnitude rest).map (fun n => -(n : ℤ))
  | 43 :: rest => (hexMagnitude rest).map (fun n => (n : ℤ))
  | rest => (hexMagnitude rest).map (fun n => (n : ℤ))

/- `int(line.split(b";", 1)[0], 16)` -/
def chunkSize (line : Bytes) : Option ℤ := hexInt (line.takeWhile (fun b => b != 59))

/- `raw.partition(b"\r\n")`, if it has one -/
def splitLine : Bytes → Option (Bytes × Bytes)
  | [] => none
  | 13 :: 10 :: rest => some ([], rest)
  | b :: rest => (splitLine rest).map (fun p => (b :: p.1, p.2))

/- Where a slice of `raw` is cut. -/
def cutAt (raw : Bytes) (take : ℤ) : ℕ :=
  if take < 0 then (raw.length + take).toNat else take.toNat

-- Body Pumping

/- `_fill_raw`: false where the peer has closed. -/
def fillRaw (s : Stream) : Result Bool := match s.incoming with
  | [] => (.ok false, s)
  | .idle :: rest => (.error .idle, { s with incoming := rest })
  | .data first bytes :: rest =>
    (.ok true, { s with raw := s.raw ++ first :: bytes, incoming := rest })

/- Fill and go on, or fail where the peer has closed. -/
def refill (s : Stream) (e : StreamError) (next : Stream → Result Bool) : Result Bool :=
  match fillRaw s with
  | (.ok true, s') => next s'
  | (.ok false, s') => (.error (.failed e), s')
  | (.error stop, s') => (.error stop, s')

/- The decoded part of a chunk's data moves on. -/
def takeData (s : Stream) (left : ℤ) : Stream :=
  let take := min (s.raw.length : ℤ) left
  let cut := cutAt s.raw take
  { s with
    buffer := s.buffer ++ s.raw.take cut
    raw := s.raw.drop cut
    chunkLeft := some (left - take)
    chunkTail := if left - take = 0 then true else s.chunkTail }

/- The loop of `_pump` on a chunked body. -/
def pumpChunk : ℕ → Stream → Result Bool
  | 0, s => (.error .stuck, s)
  | fuel + 1, s =>
    match s.chunkLeft with
    | none =>
      match splitLine s.raw with
      | none => refill s .closedInHeader (pumpChunk fuel)
      | some (line, rest) =>
        match chunkSize line with
        | none =>
          (.error (.failed (.badHeader (line.take 32))), { s with raw := rest })
        | some n =>
          pumpChunk fuel
            { s with
              raw := rest
              chunkLeft := some n
              chunkTail := false }
    | some left =>
      if left = 0 then
        if s.chunkTail then
          match s.raw with
          | a :: b :: rest =>
            if a = 13 ∧ b = 10 then
              pumpChunk fuel
                { s with
                  raw := rest
                  chunkLeft := none
                  chunkTail := false }
            else (.error (.failed .badTerminator), s)
          | _ => refill s .closedAfterData (pumpChunk fuel)
        else (.ok false, { s with raw := [] })
      else if s.raw = [] then refill s .closedMidChunk (pumpChunk fuel)
      else (.ok true, takeData s left)

/- `self._buffer += self._raw` -/
def moveRaw (s : Stream) : Stream := { s with buffer := s.buffer ++ s.raw, raw := [] }

/- `_pump` -/
def pump (s : Stream) : Result Bool :=
  if s.chunked then pumpChunk (s.work + 1) s
  else if s.raw = [] then
    match fillRaw s with
    | (.ok true, s') => (.ok true, moveRaw s')
    | (.ok false, s') => (.ok false, s')
    | (.error stop, s') => (.error stop, s')
  else (.ok true, moveRaw s)

-- Frames

/- The loop of `_read_exact`. -/
def readLoop (count : ℕ) : ℕ → Stream → Result Bytes
  | 0, s => (.error .stuck, s)
  | fuel + 1, s =>
    if count ≤ s.buffer.length then
      (.ok (s.buffer.take count), { s with buffer := s.buffer.drop count })
    else
      match pump s with
      | (.ok true, s') => readLoop count fuel s'
      | (.ok false, s') =>
        if s'.buffer = [] then (.error .eof, s')
        else (.error (.failed (.midFrame s'.buffer.length count)), s')
      | (.error stop, s') => (.error stop, s')

/- `_read_exact` -/
def readExact (count : ℕ) (s : Stream) : Result Bytes := readLoop count (s.work + 1) s

/- `int.from_bytes(bytes, "big")` -/
def bigEndian (bytes : Bytes) : ℕ := bytes.foldl (fun n b => 256 * n + b.toNat) 0

/- `_read_frame`: a silence behind the header loses it. -/
def readFrame (s : Stream) : Result (UInt8 × Bytes) := match readExact 5 s with
  | (.error stop, s') => (.error stop, s')
  | (.ok header, s') =>
    let flags := header.headD 0
    let length := bigEndian (header.drop 1)
    if length = 0 then (.ok (flags, []), s')
    else
      match readExact length s' with
      | (.error stop, s'') => (.error stop, s'')
      | (.ok payload, s'') => (.ok (flags, payload), s'')

-- Batches

/-
  The readers of payloads: `decode_connection_events` and the
  status that `_read_trailers` finds.
-/
structure Codec (B E : Type) where
  decode : Bytes → Except E B
  trailers : Bytes → Option PyStr

/- How the generator ends. -/
inductive Outcome (E : Type) where
  | ended
  | failed (e : StreamError)
  | undecodable (e : E)
  | stuck
deriving DecidableEq

variable {B E : Type}

/- A batch, or none for a heartbeat. -/
abbrev Yields (B : Type) := List (Option B)

/- What a trailer frame ends the stream with. -/
def endOf (status : Option PyStr) : Outcome E := match status with
  | none => .ended
  | some text => if text = pyStr "0" then .ended else .failed (.grpcStatus text)

/- The loop of `batches`. -/
def batchLoop (codec : Codec B E) : ℕ → Stream → Yields B × Outcome E
  | 0, _ => ([], .stuck)
  | fuel + 1, s =>
    match readFrame s with
    | (.error .idle, s') =>
      let rest := batchLoop codec fuel s'
      (none :: rest.1, rest.2)
    | (.error .eof, _) => ([], .ended)
    | (.error (.failed e), _) => ([], .failed e)
    | (.error .stuck, _) => ([], .stuck)
    | (.ok (flags, payload), s') =>
      if flags &&& 0x80 ≠ 0 then ([], endOf (codec.trailers payload))
      else if flags ≠ 0 then ([], .failed (.unknownFlags flags))
      else
        match codec.decode payload with
        | .error e => ([], .undecodable e)
        | .ok batch =>
          let rest := batchLoop codec fuel s'
          (some batch :: rest.1, rest.2)

/- `batches` -/
def batches (codec : Codec B E) (s : Stream) : Yields B × Outcome E := batchLoop codec (s.work + 1) s

end SingboxOps.GrpcWeb
