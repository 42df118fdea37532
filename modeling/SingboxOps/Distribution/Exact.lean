import SingboxOps.Distribution.Package

/-
  A package that is emitted to its end is the archive of its
  members.
-/

namespace SingboxOps.Distribution

variable {F : Type}

-- Emitting

theorem andThen_eq_ok {first next : Emitted} {parts : List Part} (h : first.andThen next = (parts, .ok ())) :
    first.2 = .ok () ∧ next.2 = .ok () ∧ parts = first.1 ++ next.1 := by
  rcases first with ⟨before, result⟩
  rcases next with ⟨after, result'⟩
  cases result with
  | error e =>
    have hSecond := congrArg Prod.snd h
    cases hSecond
  | ok =>
    have hFirst := congrArg Prod.fst h
    have hSecond := congrArg Prod.snd h
    exact ⟨rfl, hSecond, hFirst.symm⟩

@[simp] theorem emittedBytes_append (parts others : List Part) :
    emittedBytes (parts ++ others) = emittedBytes parts ++ emittedBytes others :=
  List.flatMap_append

@[simp] theorem emittedBytes_member (raw : Bytes) : emittedBytes [.member raw] = raw := List.append_nil raw

-- Members

/- What a source returns stands in the data at that position. -/
def Reads (source : Source) (data : Bytes) : Prop :=
  ∀ pos n chunk, source pos n = .ok chunk → chunk = (data.drop pos).take n

theorem bytesIo_reads (raw : Bytes) : Reads (bytesIo raw) raw := by
  intro pos n chunk h
  cases h
  rfl

theorem zipExtFile_reads (crc32 : Bytes → ℕ) (row : ZipInfo)
    (body : Body) : Reads (zipExtFile crc32 row body) (body.data.take row.fileSize) := by
  intro pos n chunk h
  unfold zipExtFile at h
  dsimp only at h
  split at h
  · cases h
    rfl
  · split at h
    · split at h
      · cases h
        rfl
      · cases h
    · split at h
      · cases h
        rfl
      · cases h

theorem zipExtFile_past {crc32 : Bytes → ℕ} {row : ZipInfo} {body : Body} {chunk : Bytes}
    (h : zipExtFile crc32 row body row.fileSize 1 = .ok chunk) :
    crc32 (body.data.take row.fileSize) = row.crc := by
  have hShort : (body.data.take row.fileSize).length ≤ row.fileSize := by
    rw [List.length_take]
    exact min_le_left _ _
  unfold zipExtFile at h
  dsimp only at h
  rw [if_neg (by omega)] at h
  split at h
  · rw [if_neg (by omega)] at h
    cases h
  · split at h
    · assumption
    · cases h

theorem copy_ok {source : Source} {data : Bytes} (hReads : Reads source data) {fuel remaining pos : ℕ}
    (hFuel : remaining ≤ fuel) {parts : List Part}
    (h : copy source fuel remaining pos = (parts, .ok ())) :
    emittedBytes parts = (data.drop pos).take remaining ∧ (emittedBytes parts).length = remaining := by
  induction fuel generalizing remaining pos parts with
  | zero =>
    have hNone : remaining = 0 := Nat.le_zero.mp hFuel
    subst hNone
    cases h
    exact ⟨rfl, rfl⟩
  | succ fuel ih =>
    rw [copy] at h
    split at h
    · rename_i hNone
      subst hNone
      cases h
      exact ⟨rfl, rfl⟩
    · split at h
      · cases congrArg Prod.snd h
      · rename_i chunk hChunk
        split at h
        · cases congrArg Prod.snd h
        · rename_i hSome
          obtain ⟨-, hRest, rfl⟩ := andThen_eq_ok h
          have hTaken := hReads _ _ _ hChunk
          have hLength : chunk.length ≤ remaining := by
            rw [hTaken, List.length_take]
            exact (min_le_left _ _).trans (min_le_right _ _)
          have hPositive : 0 < chunk.length := List.length_pos_of_ne_nil hSome
          obtain ⟨hBytes, hCount⟩ := ih (by omega : remaining - chunk.length ≤ fuel)
              (Prod.ext rfl hRest)
          have hPrefix : chunk = (data.drop pos).take chunk.length :=
            List.prefix_iff_eq_take.mp (hTaken ▸ List.take_prefix _ _)
          have hSum : remaining = chunk.length + (remaining - chunk.length) := by
            omega
          dsimp only
          rw [emittedBytes_append, emittedBytes_member]
          constructor
          · calc chunk ++ emittedBytes _
                = (data.drop pos).take chunk.length ++ ((data.drop pos).drop chunk.length).take
                      (remaining - chunk.length) := by
                  rw [← hPrefix, List.drop_drop, hBytes]
              _ = (data.drop pos).take (chunk.length + (remaining - chunk.length)) := List.take_add.symm
              _ = (data.drop pos).take remaining := by rw [← hSum]
          · rw [List.length_append, hCount]
            omega

/- The data that an entry's source holds. -/
def Held (p : Package) (entry : Entry) (data : Bytes) : Prop := match entry.content with
  | .raw raw => data = raw
  | .row row => ∃ body, p.archive.body row = some body ∧ data = body.data.take row.fileSize

/- The size and the CRC of an entry are those of its content. -/
def Entry.Declared (crc32 : Bytes → ℕ) (entry : Entry) : Prop := match entry.content with
  | .raw raw => entry.size = raw.length ∧ entry.crc = crc32 raw
  | .row row => entry.size = row.fileSize ∧ entry.crc = row.crc

/- An entry was emitted as this member. -/
structure Delivered (c : Tools F) (p : Package) (entry : Entry) (m : ZipMember) : Prop where
  name : encodeAscii entry.name = some m.name
  crc : m.crc = entry.crc
  size : m.data.length = entry.size
  sound : c.crc32 m.data = m.crc
  held : Held p entry m.data
  digest : ∀ row, entry.content = .row row →
    (p.manifest.files.get entry.name).map (fun r => r.sha256.val) = some (c.sha256 m.data)

theorem pack_eq_some {fields : List (ℕ × ℕ)} {raw : Bytes}
    (h : pack fields = some raw) : raw = packAll fields ∧ ∀ f ∈ fields, f.2 < 256 ^ f.1 := by
  unfold pack at h
  split at h
  · rename_i hFits
    cases h
    exact ⟨rfl, fun f hf => by simpa using List.all_eq_true.mp hFits f hf⟩
  · cases h

theorem checkMember_ok {c : Tools F} {p : Package} {entry : Entry} {source : Source} {data : Bytes}
    (h : checkMember c p entry source data = .ok ()) :
    source entry.size 1 = .ok [] ∧ ∀ row, entry.content = .row row →
        (p.manifest.files.get entry.name).map (fun r => r.sha256.val) = some (c.sha256 data) := by
  unfold checkMember at h
  split at h
  · cases h
  · rename_i more hMore
    split at h
    · cases h
    · rename_i hNone
      rw [not_not] at hNone
      subst hNone
      refine ⟨hMore, fun row hRow => ?_⟩
      rw [hRow] at h
      dsimp only at h
      split at h
      · assumption
      · cases h

/- A source that was copied to its end holds just the data. -/
theorem copied_whole {source : Source} {data : Bytes} (hReads : Reads source data)
    {size : ℕ} {parts : List Part}
    (hCopied : copy source size size 0 = (parts, .ok ()))
    (hPast : source size 1 = .ok []) : emittedBytes parts = data ∧ data.length = size := by
  obtain ⟨hBytes, hLength⟩ := copy_ok hReads (Nat.le_refl size) hCopied
  have hEnd := congrArg List.length (hReads _ _ _ hPast)
  rw [List.length_take, List.length_drop, List.length_nil] at hEnd
  have hShort : data.length ≤ size := by omega
  rw [List.drop_zero, List.take_of_length_le hShort] at hBytes
  exact ⟨hBytes, hBytes ▸ hLength⟩

/- The parts of a member: its header, its name and what was copied. -/
theorem emitEntry_split {c : Tools F} {p : Package} {entry : Entry} {parts : List Part}
    (h : emitEntry c p entry = (parts, .ok ())) : ∃ encoded source copied,
      encodeAscii entry.name = some encoded ∧
      p.source c.crc32 entry = some source ∧
      copy source entry.size entry.size 0 = (copied, .ok ()) ∧
      checkMember c p entry source (emittedBytes copied) = .ok () ∧
      emittedBytes parts = packAll (localFields encoded entry.crc entry.size) ++
          (encoded ++ emittedBytes copied) := by
  unfold emitEntry at h
  split at h
  · cases congrArg Prod.snd h
  · rename_i header hHeader
    obtain ⟨encoded, hEncoded, hPacked⟩ := Option.bind_eq_some_iff.mp hHeader
    obtain ⟨fields, hFields, rfl⟩ := Option.map_eq_some_iff.mp hPacked
    obtain ⟨rfl, -⟩ := pack_eq_some hFields
    cases hSource : p.source c.crc32 entry with
    | none =>
      rw [hSource] at h
      obtain ⟨-, hRest, -⟩ := andThen_eq_ok h
      cases hRest
    | some source =>
      rw [hSource] at h
      dsimp only at h
      generalize hCopy : copy source entry.size entry.size 0 = emitted at h
      rcases emitted with ⟨copied, result⟩
      obtain ⟨-, hRest, rfl⟩ := andThen_eq_ok h
      obtain ⟨hResult, hChecked, hParts⟩ := andThen_eq_ok (Prod.ext rfl hRest)
      dsimp only at hResult hChecked
      subst hResult
      refine ⟨encoded, source, copied, hEncoded, rfl, hCopy, hChecked, ?_⟩
      rw [emittedBytes_append]
      change _ ++ emittedBytes (copied ++ []) = _
      rw [List.append_nil, emittedBytes_member, List.append_assoc]

theorem emitEntry_ok {c : Tools F} {p : Package} {entry : Entry}
    (hDeclared : entry.Declared c.crc32) {parts : List Part}
    (h : emitEntry c p entry = (parts, .ok ())) :
    ∃ m, Delivered c p entry m ∧ emittedBytes parts = m.bytes := by
  obtain ⟨encoded, source, copied, hEncoded, hSource, hCopied, hChecked, hParts⟩ := emitEntry_split h
  obtain ⟨hPast, hDigest⟩ := checkMember_ok hChecked
  -- Each kind of source holds its data, with the CRC of the entry.
  have hHolds : ∃ data, Reads source data ∧ Held p entry data ∧ c.crc32 data = entry.crc := by
    cases hContent : entry.content with
    | raw raw =>
      simp only [Entry.Declared, hContent] at hDeclared
      simp only [Package.source, hContent, Option.some.injEq] at hSource
      subst hSource
      refine ⟨raw, bytesIo_reads raw, ?_, hDeclared.2.symm⟩
      simp only [Held, hContent]
    | row row =>
      simp only [Entry.Declared, hContent] at hDeclared
      simp only [Package.source, hContent, Option.map_eq_some_iff] at hSource
      obtain ⟨body, hBody, rfl⟩ := hSource
      refine ⟨_, zipExtFile_reads c.crc32 row body, ?_, ?_⟩
      · simp only [Held, hContent]
        exact ⟨body, hBody, rfl⟩
      · rw [hDeclared.1] at hPast
        rw [hDeclared.2]
        exact zipExtFile_past hPast
  obtain ⟨data, hReads, hHeld, hSound⟩ := hHolds
  obtain ⟨hBytes, hLength⟩ := copied_whole hReads hCopied hPast
  refine ⟨⟨encoded, entry.crc, data⟩, ⟨hEncoded, rfl, hLength, hSound, hHeld, ?_⟩, ?_⟩
  · rw [← hBytes]
    exact hDigest
  · rw [hParts, hBytes, ZipMember.bytes, hLength]

theorem emitEntries_ok {c : Tools F} {p : Package} {entries : List Entry}
    (hDeclared : ∀ entry ∈ entries, entry.Declared c.crc32) {parts : List Part}
    (h : emitEntries c p entries = (parts, .ok ())) :
    ∃ members, List.Forall₂ (Delivered c p) entries members ∧ emittedBytes parts = locals members := by
  induction entries generalizing parts with
  | nil =>
    cases h
    exact ⟨[], .nil, rfl⟩
  | cons entry rest ih =>
    obtain ⟨hFirst, hRest, rfl⟩ := andThen_eq_ok h
    obtain ⟨m, hDelivered, hBytes⟩ := emitEntry_ok (hDeclared entry List.mem_cons_self) (Prod.ext rfl hFirst)
    obtain ⟨members, hMembers, hAll⟩ :=
      ih (fun e he => hDeclared e (List.mem_cons_of_mem entry he)) (Prod.ext rfl hRest)
    refine ⟨m :: members, .cons hDelivered hMembers, ?_⟩
    rw [emittedBytes_append, hBytes, hAll]
    rfl

-- The Central Directory

/- The directory computed in advance is the one of the members. -/
theorem centralOf_delivered {c : Tools F} {p : Package} {entries : List Entry}
    {members : List ZipMember} (hMembers : List.Forall₂ (Delivered c p) entries members)
    {offset start : ℕ} {central : Bytes}
    (h : centralOf offset entries = some (central, start)) :
    central = centrals offset members ∧ start = offset + (locals members).length ∧ ∀ m ∈ members, m.Fits := by
  induction hMembers generalizing offset start central with
  | nil =>
    cases h
    exact ⟨rfl, rfl, fun m hm => by cases hm⟩
  | @cons entry m entries members hDelivered _ ih =>
    rw [centralOf, hDelivered.name] at h
    simp only [Option.bind_eq_bind, Option.bind_some, Option.bind_eq_some_iff] at h
    obtain ⟨header, hHeader, ⟨rest, last⟩, hRest, hEq⟩ := h
    obtain ⟨rfl, hFits⟩ := pack_eq_some hHeader
    have hLength : m.bytes.length = 30 + m.name.length + entry.size := by
      rw [ZipMember.bytes, List.length_append, length_packAll,
        widths_localFields, List.length_append, hDelivered.size,
        Nat.add_assoc]
    rw [← hLength] at hRest
    obtain ⟨rfl, rfl, hOthers⟩ := ih hRest
    simp only [Option.some.injEq, Prod.mk.injEq] at hEq
    obtain ⟨rfl, rfl⟩ := hEq
    refine ⟨?_, ?_, ?_⟩
    · rw [centrals, hDelivered.size, hDelivered.crc]
    · have hSplit : locals (m :: members) = m.bytes ++ locals members :=
        rfl
      rw [hSplit, List.length_append, Nat.add_assoc]
    · intro m' hm'
      rcases List.mem_cons.mp hm' with rfl | hm'
      · refine ⟨hFits (2, m'.name.length) ?_, ?_, ?_⟩
        · simp [centralFields]
        · rw [hDelivered.crc]
          exact hFits (4, entry.crc) (by simp [centralFields])
        · rw [hDelivered.size]
          exact hFits (4, entry.size) (by simp [centralFields])
      · exact hOthers m' hm'

-- The Whole Package

theorem packaged_eq_some {m : Manifest} {archive : ZipFile} {entries : List Entry} {p : Package}
    (h : packaged m archive entries = some p) :
    ∃ offset, centralOf 0 entries = some (p.central, offset) ∧
      pack (endFields entries.length p.central.length offset) = some p.last ∧
      p.size = offset + p.central.length + p.last.length ∧
      p.manifest = m ∧ p.archive = archive ∧ p.entries = entries := by
  simp only [packaged, Option.bind_eq_bind, Option.bind_eq_some_iff] at h
  obtain ⟨⟨central, offset⟩, hCentral, last, hLast, hRest⟩ := h
  split at hRest
  · cases hRest
    exact ⟨offset, hCentral, hLast, rfl, rfl, rfl, rfl⟩
  · cases hRest

theorem delivered_sound {c : Tools F} {p : Package} {entries : List Entry} {members : List ZipMember}
    (h : List.Forall₂ (Delivered c p) entries members) :
    ∀ m ∈ members, c.crc32 m.data = m.crc := by
  induction h with
  | nil => exact fun m hm => by cases hm
  | cons hDelivered _ ih => exact List.forall_mem_cons.mpr ⟨hDelivered.sound, ih⟩

theorem chunks_ok {c : Tools F} {m : Manifest} {archive : ZipFile}
    {entries : List Entry} {p : Package} (hMade : packaged m archive entries = some p)
    (hDeclared : ∀ entry ∈ entries, entry.Declared c.crc32) {parts : List Part}
    (h : p.chunks c false = (parts, .ok ())) :
    ∃ members, List.Forall₂ (Delivered c p) entries members ∧ (emittedBytes parts).length = p.size ∧
      readStored c.crc32 (emittedBytes parts) = some (members.map (fun m => (m.name, m.data))) := by
  obtain ⟨offset, hCentralOf, hLast, hSize, -, -, rfl⟩ := packaged_eq_some hMade
  have hEmitted : (emitEntries c p p.entries).andThen
        ([.central p.central, .last p.last], .ok ()) = (parts, .ok ()) :=
    h
  obtain ⟨hEntries, -, rfl⟩ := andThen_eq_ok hEmitted
  obtain ⟨members, hMembers, hLocals⟩ := emitEntries_ok hDeclared (Prod.ext rfl hEntries)
  obtain ⟨hCentral, hOffset, hFits⟩ := centralOf_delivered hMembers hCentralOf
  obtain ⟨hEnd, hRoom⟩ := pack_eq_some hLast
  rw [Nat.zero_add] at hOffset
  have hCount : p.entries.length = members.length := hMembers.length_eq
  have hZip : emittedBytes ((emitEntries c p p.entries).1 ++
        [.central p.central, .last p.last]) = storedZip members := by
    rw [emittedBytes_append, hLocals, storedZip, ← hCentral, ← hOffset, ← hCount, ← hEnd, List.append_assoc]
    simp [emittedBytes, Part.bytes]
  have hCrc := delivered_sound hMembers
  refine ⟨members, hMembers, ?_, ?_⟩
  · rw [hSize, emittedBytes_append, hLocals, hOffset]
    simp [emittedBytes, Part.bytes, Nat.add_assoc]
  · dsimp only
    rw [hZip]
    refine readStored_storedZip hFits hCrc ?_ ?_ ?_
    · rw [← hCount]
      exact hRoom (2, p.entries.length) (by simp [endFields])
    · rw [← hCentral]
      exact hRoom (4, p.central.length) (by simp [endFields])
    · rw [← hOffset]
      exact hRoom (4, offset) (by simp [endFields])

-- Signed Files

/- A row leads to just the bytes that the manifest has a record of. -/
def Signed (c : Tools F) (p : Package) (row : ZipInfo) : Prop :=
  ∃ body r, p.archive.body row = some body ∧ p.manifest.files.get row.filename = some r ∧
    (body.data.take row.fileSize).length = r.size ∧
    c.sha256 (body.data.take row.fileSize) = r.sha256.val

theorem forall₂_of_append {α β : Type} {R : α → β → Prop} {xs ys : List α} {zs : List β}
    (h : List.Forall₂ R (xs ++ ys) zs) :
    ∃ us vs, zs = us ++ vs ∧ List.Forall₂ R xs us ∧ List.Forall₂ R ys vs := by
  induction xs generalizing zs with
  | nil => exact ⟨[], zs, rfl, .nil, h⟩
  | cons x xs ih =>
    cases h with
    | cons hFirst hRest =>
      obtain ⟨us, vs, rfl, hLeft, hRight⟩ := ih hRest
      exact ⟨_ :: us, vs, rfl, .cons hFirst hLeft, hRight⟩

theorem encodeAscii_eq_some {s : PyStr} {raw : Bytes}
    (h : encodeAscii s = some raw) : raw = s.map UInt8.ofNat := by
  unfold encodeAscii at h
  split at h
  · cases h
    rfl
  · cases h

theorem delivered_raw {c : Tools F} {p : Package} {name : PyStr} {raw : Bytes} {m : ZipMember}
    (h : Delivered c p (rawEntry c.crc32 name raw) m) :
    (m.name, m.data) = (name.map UInt8.ofNat, raw) := by
  have hData : m.data = raw := h.held
  rw [encodeAscii_eq_some h.name, hData]
  rfl

/- The members of rows are the signed files they name. -/
theorem delivered_rows {c : Tools F} {p : Package} {rows : List ZipInfo}
    (hFits : ∀ row ∈ rows, rowFits row p.manifest = true) {members : List ZipMember}
    (h : List.Forall₂ (Delivered c p) (rows.map ZipInfo.entry) members) :
    ∃ signed : List (PyStr × Bytes), members.map (fun m => (m.name, m.data)) =
        signed.map (fun e => (e.1.map UInt8.ofNat, e.2)) ∧
      signed.map Prod.fst = rows.map ZipInfo.filename ∧
      (∀ e ∈ signed, ∃ r, p.manifest.files.get e.1 = some r ∧
        e.2.length = r.size ∧ c.sha256 e.2 = r.sha256.val) ∧
      ∀ row ∈ rows, Signed c p row := by
  induction rows generalizing members with
  | nil =>
    cases h
    exact ⟨[], rfl, rfl, List.forall_mem_nil _, List.forall_mem_nil _⟩
  | cons row rows ih =>
    cases h with
    | @cons _ m _ members hFirst hRest =>
      obtain ⟨signed, hMembers, hNames, hSigned, hRows⟩ :=
        ih (fun r hr => hFits r (List.mem_cons_of_mem row hr)) hRest
      have hRow := hFits row List.mem_cons_self
      simp only [rowFits, Bool.and_eq_true, decide_eq_true_eq, Option.map_eq_some_iff] at hRow
      obtain ⟨-, r, hRecord, hSize⟩ := hRow
      have hLength : m.data.length = r.size := hFirst.size.trans hSize.symm
      have hDigest : c.sha256 m.data = r.sha256.val := by
        have hSome := hFirst.digest row rfl
        change (p.manifest.files.get row.filename).map _ = _ at hSome
        rw [hRecord, Option.map_some, Option.some.injEq] at hSome
        exact hSome.symm
      obtain ⟨body, hBody, hData⟩ : ∃ body, p.archive.body row = some body ∧
            m.data = body.data.take row.fileSize := hFirst.held
      refine ⟨(row.filename, m.data) :: signed, ?_, ?_, ?_, ?_⟩
      · rw [List.map_cons, List.map_cons, hMembers, encodeAscii_eq_some hFirst.name]
        rfl
      · rw [List.map_cons, List.map_cons, hNames]
      · exact List.forall_mem_cons.mpr ⟨⟨r, hRecord, hLength, hDigest⟩, hSigned⟩
      · refine List.forall_mem_cons.mpr ⟨⟨body, r, hBody, hRecord, ?_, ?_⟩, hRows⟩
        · rw [← hData]
          exact hLength
        · rw [← hData]
          exact hDigest

-- Raising

def Members (parts : List Part) : Prop := ∀ part ∈ parts, ∃ raw, part = .member raw

theorem members_andThen {first next : Emitted} (hFirst : Members first.1)
    (hNext : Members next.1) : Members (first.andThen next).1 := by
  unfold Emitted.andThen
  split
  · exact hFirst
  · exact List.forall_mem_append.mpr ⟨hFirst, hNext⟩

theorem members_one (raw : Bytes) : Members [.member raw] := List.forall_mem_singleton.mpr ⟨raw, rfl⟩

theorem members_nil : Members [] := fun part h => by cases h

theorem members_copy (source : Source)
    (fuel remaining pos : ℕ) : Members (copy source fuel remaining pos).1 := by
  induction fuel generalizing remaining pos with
  | zero => exact members_nil
  | succ fuel ih =>
    rw [copy]
    split
    · exact members_nil
    · split
      · exact members_nil
      · split
        · exact members_nil
        · exact members_andThen (members_one _) (ih _ _)

theorem members_emitEntries (c : Tools F) (p : Package)
    (entries : List Entry) : Members (emitEntries c p entries).1 := by
  induction entries with
  | nil => exact members_nil
  | cons entry rest ih =>
    refine members_andThen ?_ ih
    unfold emitEntry
    split
    · exact members_nil
    · refine members_andThen (members_one _) ?_
      split
      · exact members_nil
      · exact members_andThen (members_copy _ _ _ _) members_nil

/- A source that never raises `EOFError`. -/
def Clear (source : Source) : Prop := ∀ pos n, source pos n ≠ .error .eof

theorem clear_zipExtFile {crc32 : Bytes → ℕ} {row : ZipInfo} {body : Body}
    (hWhole : body.cut = false) : Clear (zipExtFile crc32 row body) := by
  intro pos n h
  unfold zipExtFile at h
  dsimp only at h
  split at h
  · cases h
  · rw [if_neg (by simp [hWhole])] at h
    split at h
    · cases h
    · cases h

theorem clear_andThen {first next : Emitted} (hFirst : first.2 ≠ .error .eof)
    (hNext : next.2 ≠ .error .eof) : (first.andThen next).2 ≠ .error .eof := by
  rcases first with ⟨parts, result⟩
  cases result with
  | error e => exact hFirst
  | ok => exact hNext

theorem clear_copy {source : Source} (hClear : Clear source)
    (fuel remaining pos : ℕ) : (copy source fuel remaining pos).2 ≠ .error .eof := by
  induction fuel generalizing remaining pos with
  | zero => exact fun h => by cases h
  | succ fuel ih =>
    rw [copy]
    split
    · exact fun h => by cases h
    · split
      · rename_i e hRead
        intro h
        cases h
        exact hClear _ _ hRead
      · split
        · exact fun h => by cases h
        · exact clear_andThen (fun h => by cases h) (ih _ _)

theorem clear_checkMember {source : Source}
    (hClear : Clear source) (c : Tools F) (p : Package) (entry : Entry)
    (data : Bytes) : checkMember c p entry source data ≠ .error .eof := by
  unfold checkMember
  split
  · rename_i e hRead
    intro h
    cases h
    exact hClear _ _ hRead
  · split
    · exact fun h => by cases h
    · split
      · exact fun h => by cases h
      · split
        · exact fun h => by cases h
        · exact fun h => by cases h

/- No stream ends before the bytes of one of its members. -/
def Uncut (p : Package) : Prop := ∀ row body, p.archive.body row = some body → body.cut = false

theorem clear_source {c : Tools F} {p : Package} (hUncut : Uncut p) {entry : Entry} {source : Source}
    (h : p.source c.crc32 entry = some source) : Clear source := by
  unfold Package.source at h
  split at h
  · cases h
    intro pos n h
    cases h
  · obtain ⟨body, hBody, rfl⟩ := Option.map_eq_some_iff.mp h
    exact clear_zipExtFile (hUncut _ body hBody)

theorem clear_emitEntries {c : Tools F} {p : Package} (hUncut : Uncut p)
    (entries : List Entry) : (emitEntries c p entries).2 ≠ .error .eof := by
  induction entries with
  | nil => exact fun h => by cases h
  | cons entry rest ih =>
    refine clear_andThen ?_ ih
    unfold emitEntry
    split
    · exact fun h => by cases h
    · refine clear_andThen (fun h => by cases h) ?_
      split
      · exact fun h => by cases h
      · rename_i source hSource
        have hClear := clear_source hUncut hSource
        exact clear_andThen (clear_copy hClear _ _ _) (clear_checkMember hClear c p entry _)

theorem chunks_error (c : Tools F) (p : Package) (used : Bool) {parts : List Part} {e : Raised}
    (h : p.chunks c used = (parts, .error e)) :
    Members parts ∧ (Uncut p → e = .distribution) := by
  cases used with
  | true =>
    cases h
    exact ⟨members_nil, fun _ => rfl⟩
  | false =>
    have hEmitted : (emitEntries c p p.entries).andThen ([.central p.central, .last p.last], .ok ()) =
          (parts, .error e) := h
    cases hEntries : emitEntries c p p.entries with
    | mk emitted result =>
      have hMembers := members_emitEntries c p p.entries
      rw [hEntries] at hEmitted hMembers
      cases result with
      | ok => cases congrArg Prod.snd hEmitted
      | error e' =>
        cases hEmitted
        refine ⟨hMembers, fun hUncut => ?_⟩
        have hClear := clear_emitEntries (c := c) hUncut p.entries
        rw [hEntries] at hClear
        cases e with
        | distribution => rfl
        | eof => exact absurd rfl hClear

-- Exact Archives

theorem windowsClientPackage_eq_some {c : Tools F} {stream bundle yaml : Bytes} {manifest : Json F}
    {yamlName : PyStr} {p : Package}
    (h : windowsClientPackage c stream manifest bundle yamlName yaml = some p) :
    rowsMatch p.archive.infolist p.manifest = true ∧
      (∀ row ∈ p.archive.infolist, rowFits row p.manifest = true) ∧
      packaged p.manifest p.archive (packageEntries c.crc32 p.manifest p.archive.infolist bundle
          yamlName yaml) = some p := by
  simp only [windowsClientPackage, Option.bind_eq_bind, Option.bind_eq_some_iff] at h
  obtain ⟨m, -, archive, -, hRest⟩ := h
  split at hRest
  · rename_i hChecks
    simp only [Bool.and_eq_true] at hChecks
    obtain ⟨-, -, -, -, rfl, rfl, -⟩ := packaged_eq_some hRest
    exact ⟨hChecks.1.1.2, List.all_eq_true.mp hChecks.1.2, hRest⟩
  · cases hRest

theorem packageEntries_declared (crc32 : Bytes → ℕ)
    (m : Manifest) (rows : List ZipInfo) (bundle : Bytes) (yamlName : PyStr)
    (yaml : Bytes) : ∀ entry ∈ packageEntries crc32 m rows bundle yamlName yaml,
      entry.Declared crc32 := by
  have hRaw : ∀ name raw, (rawEntry crc32 name raw).Declared crc32 := fun _ _ => ⟨rfl, rfl⟩
  refine List.forall_mem_append.mpr ⟨?_, ?_⟩
  · intro entry hEntry
    obtain ⟨row, -, rfl⟩ := List.mem_map.mp hEntry
    exact ⟨rfl, rfl⟩
  · simp [hRaw]

theorem filenames_perm {rows : List ZipInfo} {m : Manifest}
    (h : rowsMatch rows m = true) : (rows.map ZipInfo.filename).Perm m.files.keys := by
  simp only [rowsMatch, Bool.and_eq_true, decide_eq_true_eq] at h
  obtain ⟨⟨⟨⟨-, hLength⟩, hNodup⟩, hKnown⟩, -⟩ := h
  have hSubset : rows.map ZipInfo.filename ⊆ m.files.keys := by
    intro name hName
    obtain ⟨row, hRow, rfl⟩ := List.mem_map.mp hName
    have hSome := List.all_eq_true.mp hKnown row hRow
    obtain ⟨r, hGet⟩ := Option.isSome_iff_exists.mp hSome
    exact List.mem_map.mpr ⟨_, Dict.mem_of_get hGet, rfl⟩
  refine (List.subperm_of_subset hNodup hSubset).perm_of_length_le ?_
  rw [Dict.keys, List.length_map, List.length_map]
  exact hLength.ge

/-
  What is emitted to its end has the size that was announced
  and is the stored archive of the signed files, each with the
  size and the digest of its record, and of the three members
  that were given.  Where a row does not lead to the bytes that
  were signed, the emission raises before the central directory.
-/
theorem client_package_exact {c : Tools F} {stream bundle yaml : Bytes} {manifest : Json F}
    {yamlName : PyStr} {p : Package}
    (hMade : windowsClientPackage c stream manifest bundle yamlName yaml = some p) :
    (∀ parts, p.chunks c false = (parts, .ok ()) → (emittedBytes parts).length = p.size ∧
      ∃ signed : List (PyStr × Bytes), readStored c.crc32 (emittedBytes parts) =
          some ((signed ++ [(pyStr "device-bundle.zip", bundle), (yamlName, yaml),
              (pyStr "README-client.txt", readme p.manifest yamlName)]).map
            (fun e => (e.1.map UInt8.ofNat, e.2))) ∧
        (signed.map Prod.fst).Perm p.manifest.files.keys ∧
        ∀ e ∈ signed, ∃ r, p.manifest.files.get e.1 = some r ∧
          e.2.length = r.size ∧ c.sha256 e.2 = r.sha256.val) ∧
    (∀ used, (∃ row ∈ p.archive.infolist, ¬ Signed c p row) → ∃ parts e, p.chunks c used = (parts, .error e) ∧
        Members parts ∧ (Uncut p → e = .distribution)) := by
  obtain ⟨hRows, hFits, hPackaged⟩ := windowsClientPackage_eq_some hMade
  have hSorted : (sortRows p.archive.infolist).Perm p.archive.infolist := List.perm_insertionSort _ _
  have hSortedFits : ∀ row ∈ sortRows p.archive.infolist, rowFits row p.manifest = true :=
    fun row hRow => hFits row (hSorted.mem_iff.mp hRow)
  have hEmitted : ∀ parts, p.chunks c false = (parts, .ok ()) → (emittedBytes parts).length = p.size ∧
        ∃ signed : List (PyStr × Bytes), readStored c.crc32 (emittedBytes parts) =
            some ((signed ++ [(pyStr "device-bundle.zip", bundle), (yamlName, yaml),
                (pyStr "README-client.txt", readme p.manifest yamlName)]).map
              (fun e => (e.1.map UInt8.ofNat, e.2))) ∧
          signed.map Prod.fst = (sortRows p.archive.infolist).map ZipInfo.filename ∧
          (∀ e ∈ signed, ∃ r, p.manifest.files.get e.1 = some r ∧
            e.2.length = r.size ∧ c.sha256 e.2 = r.sha256.val) ∧
          ∀ row ∈ sortRows p.archive.infolist, Signed c p row := by
    intro parts hParts
    obtain ⟨members, hMembers, hSize, hRead⟩ :=
      chunks_ok hPackaged (packageEntries_declared _ _ _ _ _ _) hParts
    obtain ⟨files, others, rfl, hFiles, hOthers⟩ := forall₂_of_append hMembers
    obtain ⟨signed, hNamed, hNames, hSigned, hAll⟩ := delivered_rows hSortedFits hFiles
    refine ⟨hSize, signed, ?_, hNames, hSigned, hAll⟩
    cases hOthers with
    | cons hBundle hOthers =>
      cases hOthers with
      | cons hYaml hOthers =>
        cases hOthers with
        | cons hReadme hOthers =>
          cases hOthers
          rw [hRead, List.map_append, List.map_append, hNamed]
          simp only [List.map_cons, List.map_nil, delivered_raw hBundle, delivered_raw hYaml,
            delivered_raw hReadme]
  constructor
  · intro parts hParts
    obtain ⟨hSize, signed, hRead, hNames, hSigned, -⟩ := hEmitted parts hParts
    refine ⟨hSize, signed, hRead, ?_, hSigned⟩
    rw [hNames]
    exact (hSorted.map ZipInfo.filename).trans (filenames_perm hRows)
  · rintro used ⟨row, hRow, hNot⟩
    cases hChunks : p.chunks c used with
    | mk parts result =>
      cases result with
      | error e => exact ⟨parts, e, rfl, chunks_error c p used hChunks⟩
      | ok =>
        exfalso
        cases used with
        | true => cases congrArg Prod.snd hChunks
        | false =>
          obtain ⟨-, signed, -, -, -, hAll⟩ := hEmitted parts hChunks
          exact hNot (hAll row (hSorted.mem_iff.mpr hRow))

-- A Small Package

def crcBits : ℕ → ℕ → ℕ
  | 0, crc => crc
  | bits + 1, crc =>
    crcBits bits (if crc % 2 = 1 then (crc / 2) ^^^ 0xedb88320 else crc / 2)

/- The register after each byte; it is matched so that it is computed. -/
def crcBytes : ℕ → Bytes → ℕ
  | crc, [] => crc
  | 0, b :: rest => crcBytes (crcBits 8 b.toNat) rest
  | crc + 1, b :: rest => crcBytes (crcBits 8 ((crc + 1) ^^^ b.toNat)) rest

/- CRC-32 -/
def crcOf (raw : Bytes) : ℕ := crcBytes 0xffffffff raw ^^^ 0xffffffff

/- The rows of a stored archive, and the bytes they lead to. -/
def storedArchive (raw : Bytes) : Option ZipFile := (readStored crcOf raw).map (fun members =>
    { infolist := members.map (fun e =>
        ⟨e.1.map UInt8.toNat, 0, 0, e.2.length, crcOf e.2⟩)
      body := fun row =>
        (members.find? (fun e =>
          decide (e.1.map UInt8.toNat = row.filename))).map
          (fun e => ⟨e.2, false⟩) })

def smallDigest : Digest := ⟨List.replicate 64 49, by decide⟩

def smallRecord (size : ℤ) : Json Unit :=
  .obj [(pyStr "sha256", .str smallDigest.val), (pyStr "size", .int size)]

/- A release whose files have one byte each. -/
def smallManifest : Json Unit := .obj [(pyStr "v", .int 1),
    (pyStr "kind", .str (pyStr "p6-windows-distribution/1")),
    (pyStr "scope", .str (pyStr "production")),
    (pyStr "publisher", .str (List.replicate 40 65)),
    (pyStr "installation", .str (pyStr "P6RemoteProbe")),
    (pyStr "timestamped", .bool true),
    (pyStr "release", .str smallDigest.val),
    (pyStr "artifact", .obj [(pyStr "v", .int 1),
      (pyStr "version", .str (pyStr "p6-agent-source-1-" ++ smallDigest.val.take 16)),
      (pyStr "sha256", .str smallDigest.val),
      (pyStr "size", .int 1)]),
    (pyStr "archive", smallRecord 22),
    (pyStr "files", .obj (requiredFiles.map (fun name => (name, smallRecord 1))))]

/- One byte has the digest of the records, more bytes another. -/
def smallTools : Tools Unit where
  sha256 := fun raw => if raw.length = 1 then smallDigest.val else List.replicate 64 50
  objectJson := fun _ =>
    some (.obj [(pyStr "entry", .str (pyStr "gui-v2")), (pyStr "release", .str smallDigest.val)])
  inventory := fun _ _ => true
  crc32 := crcOf
  zipFile := storedArchive

def smallStream : Bytes := storedZip (requiredFiles.map (fun name => ⟨name.map UInt8.ofNat, crcOf [7], [7]⟩))

def smallPackage : Option Package := windowsClientPackage smallTools smallStream smallManifest
    [1] (pyStr "pc-mihomo.yaml") [2]

/-
  The package is emitted to its end, though the stream is not
  the archive of the manifest.
-/
theorem smallPackage_runs : smallPackage.map (fun p =>
      ((p.chunks smallTools false).2.isOk,
        decide (smallTools.sha256 smallStream = p.manifest.archive.val))) = some (true, false) := by
  decide +kernel

theorem client_package_exact_small : ∃ p parts, smallPackage = some p ∧
      p.chunks smallTools false = (parts, .ok ()) ∧
      (emittedBytes parts).length = p.size := by
  obtain ⟨p, hMade, hRuns⟩ := Option.map_eq_some_iff.mp smallPackage_runs
  have hExact := client_package_exact hMade
  cases hChunks : p.chunks smallTools false with
  | mk parts result =>
    rw [hChunks] at hRuns
    cases result with
    | error e => cases hRuns
    | ok => exact ⟨p, parts, hMade, hChunks, (hExact.1 parts hChunks).1⟩

/- The digest of the whole stream is not computed again. -/
theorem client_package_other_archive : ¬ ∀ (F : Type) (c : Tools F) (stream : Bytes) (manifest : Json F)
        (bundle : Bytes) (yamlName : PyStr) (yaml : Bytes) (p : Package),
      windowsClientPackage c stream manifest bundle yamlName yaml = some p →
        c.sha256 stream ≠ p.manifest.archive.val →
          ∃ parts, p.chunks c false = (parts, .error .distribution) := by
  intro h
  obtain ⟨p, hMade, hRuns⟩ := Option.map_eq_some_iff.mp smallPackage_runs
  have hDecided := (Prod.mk.inj hRuns).2
  have hOther : smallTools.sha256 smallStream ≠ p.manifest.archive.val := by
    rwa [decide_eq_false_iff_not] at hDecided
  obtain ⟨parts, hChunks⟩ := h Unit _ _ _ _ _ _ p hMade hOther
  rw [hChunks] at hRuns
  cases hRuns

end SingboxOps.Distribution
