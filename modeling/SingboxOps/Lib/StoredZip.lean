import SingboxOps.Lib.Text
import Mathlib.Data.List.Basic
import Mathlib.Tactic.Linarith

/-
  ZIP archives whose members are stored.

  The reader finds the end of the central directory at the end
  of the bytes, reads the directory row by row, and takes each
  member from the local header that its row points at.
-/

namespace SingboxOps

-- Numbers

/- A number in so many bytes, the least one first. -/
def packNat : ℕ → ℕ → Bytes
  | 0, _ => []
  | width + 1, n => UInt8.ofNat n :: packNat width (n / 256)

def leNat : Bytes → ℕ
  | [] => 0
  | b :: rest => b.toNat + 256 * leNat rest

theorem leNat_packNat {width n : ℕ} (h : n < 256 ^ width) : leNat (packNat width n) = n := by
  induction width generalizing n with
  | zero =>
    have hZero : n = 0 := by simpa using h
    rw [hZero]
    rfl
  | succ width ih =>
    have hRest : n / 256 < 256 ^ width := by
      apply Nat.div_lt_of_lt_mul
      rw [pow_succ] at h
      rwa [Nat.mul_comm]
    rw [packNat, leNat, ih hRest, UInt8.toNat_ofNat']
    omega

@[simp] theorem length_packNat (width n : ℕ) : (packNat width n).length = width := by
  induction width generalizing n with
  | zero => rfl
  | succ width ih => rw [packNat, List.length_cons, ih]

-- Records

/- Numbers, each with its width, one after the other. -/
def packAll (fields : List (ℕ × ℕ)) : Bytes := fields.flatMap (fun f => packNat f.1 f.2)

def widths (fields : List (ℕ × ℕ)) : ℕ := (fields.map Prod.fst).sum

/- The number in these bytes of a record. -/
def fieldAt (raw : Bytes) (start width : ℕ) : ℕ := leNat ((raw.drop start).take width)

@[simp] theorem length_packAll (fields : List (ℕ × ℕ)) : (packAll fields).length = widths fields := by
  induction fields with
  | nil => rfl
  | cons f rest ih =>
    simp only [packAll, widths, List.flatMap_cons, List.length_append,
      length_packNat, List.map_cons, List.sum_cons] at ih ⊢
    rw [ih]

theorem drop_packAll {fields : List (ℕ × ℕ)} {start : ℕ} (hStart : widths fields = start)
    (rest : Bytes) : (packAll fields ++ rest).drop start = rest := by
  rw [← hStart, ← length_packAll, List.drop_left]

theorem fieldAt_packAll {fields : List (ℕ × ℕ)} {start width n : ℕ}
    (i : ℕ) (hAt : fields[i]? = some (width, n))
    (hStart : widths (fields.take i) = start) (h : n < 256 ^ width)
    (rest : Bytes) : fieldAt (packAll fields ++ rest) start width = n := by
  obtain ⟨hBound, hGet⟩ := List.getElem?_eq_some_iff.mp hAt
  have hSplit : packAll fields ++ rest = packAll (fields.take i) ++
          (packNat width n ++ (packAll (fields.drop (i + 1)) ++ rest)) := by
    have hFields : fields = fields.take i ++ (width, n) :: fields.drop (i + 1) := by
      rw [← hGet, ← List.drop_eq_getElem_cons hBound, List.take_append_drop]
    conv_lhs => rw [hFields]
    simp [packAll]
  unfold fieldAt
  rw [hSplit, drop_packAll hStart, List.take_left' (length_packNat width n), leNat_packNat h]

-- Writing

/- A member, its name in bytes. -/
structure ZipMember where
  name : Bytes
  crc : ℕ
  data : Bytes

/- `PK\x03\x04` and `<5H3L2H` -/
def localFields (name : Bytes) (crc size : ℕ) : List (ℕ × ℕ) :=
  [(4, 0x04034b50), (2, 20), (2, 0), (2, 0), (2, 0), (2, 33),
    (4, crc), (4, size), (4, size), (2, name.length), (2, 0)]

/- `PK\x01\x02` and `<6H3L5H2L`; the mode of a file is 0100600. -/
def centralFields (name : Bytes) (crc size offset : ℕ) : List (ℕ × ℕ) :=
  [(4, 0x02014b50), (2, 788), (2, 20), (2, 0), (2, 0), (2, 0), (2, 33),
    (4, crc), (4, size), (4, size), (2, name.length), (2, 0), (2, 0),
    (2, 0), (2, 0), (4, 0o100600 * 65536), (4, offset)]

/- `PK\x05\x06` and `<4H2LH` -/
def endFields (count size offset : ℕ) : List (ℕ × ℕ) :=
  [(4, 0x06054b50), (2, 0), (2, 0), (2, count), (2, count), (4, size), (4, offset), (2, 0)]

def localWidths : List ℕ := [4, 2, 2, 2, 2, 2, 4, 4, 4, 2, 2]

def centralWidths : List ℕ := [4, 2, 2, 2, 2, 2, 2, 4, 4, 4, 2, 2, 2, 2, 2, 4, 4]

def ZipMember.bytes (m : ZipMember) : Bytes :=
  packAll (localFields m.name m.crc m.data.length) ++ (m.name ++ m.data)

def locals (members : List ZipMember) : Bytes := members.flatMap ZipMember.bytes

/- The central directory of members that start at this offset. -/
def centrals : ℕ → List ZipMember → Bytes
  | _, [] => []
  | offset, m :: rest =>
    packAll (centralFields m.name m.crc m.data.length offset) ++
      m.name ++ centrals (offset + m.bytes.length) rest

def storedZip (members : List ZipMember) : Bytes := locals members ++ centrals 0 members ++
    packAll (endFields members.length (centrals 0 members).length (locals members).length)

-- Reading

structure ZipRow where
  name : Bytes
  crc : ℕ
  size : ℕ
  offset : ℕ
deriving DecidableEq

/- A row of the central directory, and what follows it. -/
def readRow (raw : Bytes) : Option (ZipRow × Bytes) :=
  let width := fieldAt raw 28 2
  let name := (raw.drop 46).take width
  if fieldAt raw 0 4 = 0x02014b50 ∧ 46 ≤ raw.length ∧
      fieldAt raw 8 2 = 0 ∧ fieldAt raw 10 2 = 0 ∧
      fieldAt raw 20 4 = fieldAt raw 24 4 ∧ name.length = width ∧
      fieldAt raw 30 2 = 0 ∧ fieldAt raw 32 2 = 0 ∧
      fieldAt raw 34 2 = 0 then
    some (⟨name, fieldAt raw 16 4, fieldAt raw 24 4, fieldAt raw 42 4⟩, (raw.drop 46).drop width)
  else none

/- So many rows and nothing after them. -/
def readRows : ℕ → Bytes → Option (List ZipRow)
  | 0, raw => if raw = [] then some [] else none
  | count + 1, raw =>
    (readRow raw).bind (fun (row, rest) => (readRows count rest).map (row :: ·))

/-
  The data at the local header that a row points at: both say
  the same of the member, and the data has the CRC they say.
-/
def readMember (crc32 : Bytes → ℕ) (raw : Bytes) (row : ZipRow) : Option Bytes :=
  let start := raw.drop row.offset
  let body := start.drop 30
  let data := (body.drop row.name.length).take row.size
  if fieldAt start 0 4 = 0x04034b50 ∧
      fieldAt start 6 2 = 0 ∧ fieldAt start 8 2 = 0 ∧
      fieldAt start 14 4 = row.crc ∧ fieldAt start 18 4 = row.size ∧
      fieldAt start 22 4 = row.size ∧
      fieldAt start 26 2 = row.name.length ∧ fieldAt start 28 2 = 0 ∧
      body.take row.name.length = row.name ∧
      data.length = row.size ∧ crc32 data = row.crc then
    some data
  else none

/- The names of an archive in the order of its directory, with their data. -/
def readStored (crc32 : Bytes → ℕ) (raw : Bytes) : Option (List (Bytes × Bytes)) :=
  let tail := raw.drop (raw.length - 22)
  let start := fieldAt tail 16 4
  let size := fieldAt tail 12 4
  if 22 ≤ raw.length ∧ fieldAt tail 0 4 = 0x06054b50 ∧
      fieldAt tail 4 2 = 0 ∧ fieldAt tail 6 2 = 0 ∧
      fieldAt tail 8 2 = fieldAt tail 10 2 ∧
      start + size + 22 = raw.length ∧ fieldAt tail 20 2 = 0 then
    (readRows (fieldAt tail 10 2) ((raw.drop start).take size)).bind (fun rows => rows.mapM (fun row =>
        (readMember crc32 raw row).map (fun data => (row.name, data))))
  else none

-- Round Trip

/- The numbers of a member have room in its headers. -/
structure ZipMember.Fits (m : ZipMember) : Prop where
  name : m.name.length < 256 ^ 2
  crc : m.crc < 256 ^ 4
  size : m.data.length < 256 ^ 4

theorem widths_localFields (name : Bytes) (crc size : ℕ) : widths (localFields name crc size) = 30 := by
  change localWidths.sum = 30
  decide

theorem widths_centralFields (name : Bytes)
    (crc size offset : ℕ) : widths (centralFields name crc size offset) = 46 := by
  change centralWidths.sum = 46
  decide

theorem readRow_centralFields {m : ZipMember} (hFits : m.Fits) {offset : ℕ} (hOffset : offset < 256 ^ 4)
    (rest : Bytes) : readRow (packAll (centralFields m.name m.crc m.data.length offset) ++ (m.name ++ rest)) =
      some (⟨m.name, m.crc, m.data.length, offset⟩, rest) := by
  generalize hRaw : packAll (centralFields m.name m.crc m.data.length offset) ++ (m.name ++ rest) = raw
  have hField : ∀ i start width n, (centralFields m.name m.crc m.data.length offset)[i]? = some (width, n) →
        (centralWidths.take i).sum = start → n < 256 ^ width → fieldAt raw start width = n := by
    intro i start width n hAt hStart h
    rw [← hRaw]
    refine fieldAt_packAll i hAt ?_ h _
    rw [widths, List.map_take]
    exact hStart
  have hSign : fieldAt raw 0 4 = 0x02014b50 := hField 0 _ _ _ rfl (by decide) (by decide)
  have hFlags : fieldAt raw 8 2 = 0 := hField 3 _ _ _ rfl (by decide) (by decide)
  have hMethod : fieldAt raw 10 2 = 0 := hField 4 _ _ _ rfl (by decide) (by decide)
  have hCrc : fieldAt raw 16 4 = m.crc := hField 7 _ _ _ rfl (by decide) hFits.crc
  have hPacked : fieldAt raw 20 4 = m.data.length := hField 8 _ _ _ rfl (by decide) hFits.size
  have hSize : fieldAt raw 24 4 = m.data.length := hField 9 _ _ _ rfl (by decide) hFits.size
  have hWidth : fieldAt raw 28 2 = m.name.length := hField 10 _ _ _ rfl (by decide) hFits.name
  have hExtra : fieldAt raw 30 2 = 0 := hField 11 _ _ _ rfl (by decide) (by decide)
  have hComment : fieldAt raw 32 2 = 0 := hField 12 _ _ _ rfl (by decide) (by decide)
  have hDisk : fieldAt raw 34 2 = 0 := hField 13 _ _ _ rfl (by decide) (by decide)
  have hStart : fieldAt raw 42 4 = offset := hField 16 _ _ _ rfl (by decide) hOffset
  have hBody : raw.drop 46 = m.name ++ rest := by rw [← hRaw]; exact drop_packAll (widths_centralFields ..) _
  have hLong : 46 ≤ raw.length := by
    rw [← hRaw, List.length_append, length_packAll, widths_centralFields]
    omega
  unfold readRow
  simp only [hSign, hFlags, hMethod, hCrc, hPacked, hSize, hWidth,
    hExtra, hComment, hDisk, hStart, hBody, hLong, List.take_left,
    List.drop_left, and_self, if_true]

/- The rows of members that start at this offset. -/
def zipRowsOf : ℕ → List ZipMember → List ZipRow
  | _, [] => []
  | offset, m :: rest =>
    ⟨m.name, m.crc, m.data.length, offset⟩ :: zipRowsOf (offset + m.bytes.length) rest

theorem readRows_centrals {members : List ZipMember} (hFits : ∀ m ∈ members, m.Fits) {offset : ℕ}
    (hOffset : offset + (locals members).length < 256 ^ 4) :
    readRows members.length (centrals offset members) = some (zipRowsOf offset members) := by
  induction members generalizing offset with
  | nil => rfl
  | cons m rest ih =>
    have hLength : (locals (m :: rest)).length = m.bytes.length + (locals rest).length := by
      simp [locals]
    rw [hLength] at hOffset
    rw [List.length_cons, centrals, List.append_assoc, readRows,
      readRow_centralFields (hFits m List.mem_cons_self) (by omega)]
    dsimp only [Option.bind_some]
    rw [ih (fun m' h => hFits m' (List.mem_cons_of_mem m h)) (by omega)]
    rfl

theorem readMember_bytes {crc32 : Bytes → ℕ} {m : ZipMember} (hFits : m.Fits) (hCrc : crc32 m.data = m.crc)
    (before after : Bytes) : readMember crc32 (before ++ (m.bytes ++ after))
        ⟨m.name, m.crc, m.data.length, before.length⟩ =
      some m.data := by
  have hStart : (before ++ (m.bytes ++ after)).drop before.length =
        packAll (localFields m.name m.crc m.data.length) ++ (m.name ++ (m.data ++ after)) := by
    rw [List.drop_left, ZipMember.bytes, List.append_assoc, List.append_assoc]
  generalize hRaw : packAll (localFields m.name m.crc m.data.length) ++
      (m.name ++ (m.data ++ after)) = raw at hStart
  have hField : ∀ i start width n, (localFields m.name m.crc m.data.length)[i]? = some (width, n) →
        (localWidths.take i).sum = start → n < 256 ^ width → fieldAt raw start width = n := by
    intro i start width n hAt hStart h
    rw [← hRaw]
    refine fieldAt_packAll i hAt ?_ h _
    rw [widths, List.map_take]
    exact hStart
  have hSign : fieldAt raw 0 4 = 0x04034b50 := hField 0 _ _ _ rfl (by decide) (by decide)
  have hFlags : fieldAt raw 6 2 = 0 := hField 2 _ _ _ rfl (by decide) (by decide)
  have hMethod : fieldAt raw 8 2 = 0 := hField 3 _ _ _ rfl (by decide) (by decide)
  have hHeaderCrc : fieldAt raw 14 4 = m.crc := hField 6 _ _ _ rfl (by decide) hFits.crc
  have hPacked : fieldAt raw 18 4 = m.data.length := hField 7 _ _ _ rfl (by decide) hFits.size
  have hSize : fieldAt raw 22 4 = m.data.length := hField 8 _ _ _ rfl (by decide) hFits.size
  have hWidth : fieldAt raw 26 2 = m.name.length := hField 9 _ _ _ rfl (by decide) hFits.name
  have hExtra : fieldAt raw 28 2 = 0 := hField 10 _ _ _ rfl (by decide) (by decide)
  have hBody : raw.drop 30 = m.name ++ (m.data ++ after) :=
    by rw [← hRaw]; exact drop_packAll (widths_localFields ..) _
  unfold readMember
  simp only [hStart, hSign, hFlags, hMethod, hHeaderCrc, hPacked, hSize,
    hWidth, hExtra, hBody, hCrc, List.take_left, List.drop_left,
    and_self, if_true]

theorem readMembers_locals {crc32 : Bytes → ℕ} {members : List ZipMember}
    (hFits : ∀ m ∈ members, m.Fits) (hCrc : ∀ m ∈ members, crc32 m.data = m.crc)
    (before after : Bytes) : (zipRowsOf before.length members).mapM (fun row =>
        (readMember crc32 (before ++ (locals members ++ after)) row).map (fun data => (row.name, data))) =
      some (members.map (fun m => (m.name, m.data))) := by
  induction members generalizing before with
  | nil => rfl
  | cons m rest ih =>
    have hSplit : locals (m :: rest) ++ after = m.bytes ++ (locals rest ++ after) := by
      simp [locals]
    have hFirst : readMember crc32 (before ++ (locals (m :: rest) ++ after))
            ⟨m.name, m.crc, m.data.length, before.length⟩ =
          some m.data := by
      rw [hSplit]
      exact readMember_bytes (hFits m List.mem_cons_self) (hCrc m List.mem_cons_self) before _
    have hRest := ih (fun m' h => hFits m' (List.mem_cons_of_mem m h))
        (fun m' h => hCrc m' (List.mem_cons_of_mem m h))
        (before ++ m.bytes)
    rw [List.length_append, List.append_assoc, ← hSplit] at hRest
    rw [zipRowsOf, List.mapM_cons, hFirst, Option.map_some, hRest]
    rfl

/- What was written is read back, wherever its numbers have room. -/
theorem readStored_storedZip {crc32 : Bytes → ℕ} {members : List ZipMember}
    (hFits : ∀ m ∈ members, m.Fits) (hCrc : ∀ m ∈ members, crc32 m.data = m.crc)
    (hCount : members.length < 256 ^ 2) (hCentral : (centrals 0 members).length < 256 ^ 4)
    (hLocals : (locals members).length < 256 ^ 4) :
    readStored crc32 (storedZip members) = some (members.map (fun m => (m.name, m.data))) := by
  generalize hEnd : packAll (endFields members.length (centrals 0 members).length
      (locals members).length) = tail
  have hZip : storedZip members = locals members ++ (centrals 0 members ++ tail) := by
    rw [storedZip, hEnd, List.append_assoc]
  have hWhole : tail = tail ++ [] := (List.append_nil tail).symm
  have hSign : fieldAt tail 0 4 = 0x06054b50 := by
    rw [hWhole, ← hEnd]
    exact fieldAt_packAll 0 rfl rfl (by decide) _
  have hDisk : fieldAt tail 4 2 = 0 := by
    rw [hWhole, ← hEnd]
    exact fieldAt_packAll 1 rfl rfl (by decide) _
  have hFirst : fieldAt tail 6 2 = 0 := by
    rw [hWhole, ← hEnd]
    exact fieldAt_packAll 2 rfl rfl (by decide) _
  have hCounted : fieldAt tail 8 2 = members.length := by
    rw [hWhole, ← hEnd]
    exact fieldAt_packAll 3 rfl rfl hCount _
  have hCounted' : fieldAt tail 10 2 = members.length := by
    rw [hWhole, ← hEnd]
    exact fieldAt_packAll 4 rfl rfl hCount _
  have hSize : fieldAt tail 12 4 = (centrals 0 members).length := by
    rw [hWhole, ← hEnd]
    exact fieldAt_packAll 5 rfl rfl hCentral _
  have hStart : fieldAt tail 16 4 = (locals members).length := by
    rw [hWhole, ← hEnd]
    exact fieldAt_packAll 6 rfl rfl hLocals _
  have hComment : fieldAt tail 20 2 = 0 := by
    rw [hWhole, ← hEnd]
    exact fieldAt_packAll 7 rfl rfl (by decide) _
  have hTailLength : tail.length = 22 := by
    rw [← hEnd, length_packAll]
    rfl
  have hLength : (storedZip members).length = (locals members).length + (centrals 0 members).length + 22 := by
    rw [hZip, List.length_append, List.length_append, hTailLength, Nat.add_assoc]
  have hTail : (storedZip members).drop ((storedZip members).length - 22) = tail := by
    rw [hLength, Nat.add_sub_cancel, hZip, ← List.append_assoc, ← List.length_append, List.drop_left]
  have hDirectory : ((storedZip members).drop (locals members).length).take
          (centrals 0 members).length = centrals 0 members := by
    rw [hZip, List.drop_left, List.take_left]
  have hMembers := readMembers_locals hFits hCrc [] (centrals 0 members ++ tail)
  rw [List.nil_append, ← hZip] at hMembers
  unfold readStored
  simp only [hTail, hSign, hDisk, hFirst, hCounted, hCounted', hSize, hStart, hComment, hDirectory]
  rw [if_pos, readRows_centrals hFits (by omega)]
  · exact hMembers
  · exact ⟨by omega, trivial, trivial, trivial, trivial, hLength.symm,
      trivial⟩

end SingboxOps
