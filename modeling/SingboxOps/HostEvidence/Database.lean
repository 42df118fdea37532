import SingboxOps.HostEvidence.Summary
import SingboxOps.Lib.ExactRat
import SingboxOps.Lib.Trace

/-
  The host store: its database file, what opens it, and what a
  crash leaves of it.

  SQLite is taken at its word: a transaction is in the file
  whole or not at all, and one that was interrupted may leave
  a hot journal, which a read-only connection refuses.  The
  checks of owner and mode pass on a directory the program
  made and are left out.
-/

namespace SingboxOps.HostEvidence

open PyFloat

-- Rows

/- `FIELDS` -/
inductive Field where
  | epoch
  | run
  | boot
  | serviceState
  | pid
  | restarts
  | startUs
  | resource (key : Resource)
deriving DecidableEq

/- A Python value; `other` is neither a number nor text. -/
inductive Value (F : Type) where
  | none
  | bool (b : Bool)
  | int (n : ℤ)
  | float (x : F)
  | nonfinite
  | str (s : PyStr)
  | other

variable {F : Type} [PyFloat F]

/- `number`: an integer or a finite float in its bounds. -/
def number (value : Value F) (ceiling : ℤ) : Bool := match value with
  | .int n => decide (0 ≤ n ∧ n ≤ ceiling)
  | .float x => decide (0 ≤ toRat x ∧ toRat x ≤ ceiling)
  | _ => false

/- The default ceiling, `2 ** 53 - 1`. -/
def numberCeiling : ℤ := 9007199254740991

def states : List PyStr := [pyStr "active", pyStr "inactive", pyStr "failed",
    pyStr "activating", pyStr "deactivating", pyStr "reloading",
    pyStr "maintenance", pyStr "refreshing"]

/- `re.fullmatch('[a-f0-9]{n}', value)` of a string. -/
def hexText (value : Value F) (n : ℕ) : Bool := match value with
  | .str s =>
    decide (s.length = n) && s.all (fun c => (97 ≤ c && c ≤ 102) || (48 ≤ c && c ≤ 57))
  | _ => false

def Value.isNone : Value F → Bool
  | .none => true
  | _ => false

/- An integer in its bounds, and no float. -/
def integer (value : Value F) (ceiling : ℤ) : Bool := match value with
  | .int n => decide (0 ≤ n ∧ n ≤ ceiling)
  | _ => false

/- The ceiling of a resource. -/
def Resource.ceiling : Resource → ℤ
  | .load1m => 65536
  | _ => 100

def resources : List Resource :=
  [.cpuPercent, .memoryPercent, .load1m, .diskPercent, .fdPercent, .conntrackPercent]

/- A dictionary with exactly the fields of a sample. -/
abbrev Fields (F : Type) := Field → Value F

/- The fields of the service: all missing, or all in bounds. -/
def validService (row : Fields F) : Bool := match row .serviceState with
  | .none => (row .pid).isNone && (row .restarts).isNone && (row .startUs).isNone
  | .str s =>
    states.contains s && integer (row .pid) 2147483647 && integer (row .restarts) 4294967295 &&
      integer (row .startUs) numberCeiling
  | _ => false

/- `valid`; anything but a dictionary of the fields is `none`. -/
def valid : Option (Fields F) → Bool
  | none => false
  | some row =>
    number (row .epoch) numberCeiling && hexText (row .run) 32 &&
      ((row .boot).isNone || hexText (row .boot) 64) &&
      validService row &&
      resources.all (fun key => (row (.resource key)).isNone || number (row (.resource key)) key.ceiling)

/- Columns declared REAL. -/
def Field.isReal : Field → Bool
  | .epoch => true
  | .resource _ => true
  | _ => false

/- The affinity of a REAL column makes an integer a float. -/
def Value.toReal : Value F → Value F
  | .int n => .float (round n)
  | v => v

/- The row that a SELECT reads back. -/
def stored (row : Fields F) : Fields F := fun f => if f.isReal then (row f).toReal else row f

/- Integers up to `2 ** 53` are floats. -/
def IntegersExact (F : Type) [PyFloat F] : Prop := ∀ n : ℤ, 0 ≤ n → n ≤ 2 ^ 53 → toRat (round n : F) = n

theorem number_toReal (hExact : IntegersExact F) {value : Value F} {ceiling : ℤ} (hCeiling : ceiling ≤ 2 ^ 53)
    (h : number value ceiling = true) : number value.toReal ceiling = true := by
  cases value with
  | int n =>
    have hBounds : 0 ≤ n ∧ n ≤ ceiling := of_decide_eq_true h
    have hSame := hExact n hBounds.1 (hBounds.2.trans hCeiling)
    refine decide_eq_true ?_
    rw [hSame]
    exact ⟨by exact_mod_cast hBounds.1, by exact_mod_cast hBounds.2⟩
  | float x => exact h
  | _ => exact h

theorem valid_stored (hExact : IntegersExact F) {row : Fields F}
    (h : valid (some row) = true) : valid (some (stored row)) = true := by
  unfold valid at h ⊢
  simp only [Bool.and_eq_true] at h ⊢
  obtain ⟨⟨⟨⟨hEpoch, hRun⟩, hBoot⟩, hService⟩, hResources⟩ := h
  refine ⟨⟨⟨⟨?_, hRun⟩, hBoot⟩, hService⟩, ?_⟩
  · exact number_toReal hExact (by decide) hEpoch
  · rw [List.all_eq_true] at hResources ⊢
    intro key hKey
    have hOwn := hResources key hKey
    rw [Bool.or_eq_true] at hOwn ⊢
    rcases hOwn with hNone | hNumber
    · refine .inl ?_
      change ((row (.resource key)).toReal).isNone = true
      cases hValue : row (.resource key) with
      | none => rfl
      | int n =>
        rw [hValue] at hNone
        cases hNone
      | _ =>
        rw [hValue] at hNone
        exact hNone
    · refine .inr (number_toReal hExact ?_ hNumber)
      cases key <;> decide

-- The File

/- A column that `window` reads as a float. -/
def Value.toFloat : Value F → F
  | .int n => round n
  | .float x => x
  | _ => round 0

def Value.toFloat? : Value F → Option F
  | .int n => some (round n)
  | .float x => some x
  | _ => Option.none

def Value.toText? : Value F → Option PyStr
  | .str s => some s
  | _ => Option.none

def Value.toCount : Value F → ℕ
  | .int n => n.toNat
  | _ => 0

/- What `summarize` sees of a valid row. -/
def toRow (fields : Fields F) : Row F where
  epoch := (fields .epoch).toFloat
  run := (fields .run).toText?.getD []
  boot := (fields .boot).toText?
  service := (fields .serviceState).toText?.map (fun state =>
    ⟨state, (fields .pid).toCount, (fields .restarts).toCount, (fields .startUs).toCount⟩)
  value key := (fields (.resource key)).toFloat?

/- `DDL` -/
def ddl : String :=
  "CREATE TABLE samples (\n id INTEGER PRIMARY KEY, epoch REAL NOT NULL CHECK(epoch>=0),\n run TEXT NOT NULL, boot TEXT, service_state TEXT,\n pid INTEGER, restarts INTEGER, start_us INTEGER,\n cpu_percent REAL, memory_percent REAL, load_1m REAL,\n disk_percent REAL, fd_percent REAL, conntrack_percent REAL)"

/- A row of `sqlite_master`. -/
structure SchemaObject where
  kind : String
  name : String
  sql : String
deriving DecidableEq

def samplesTable : SchemaObject := ⟨"table", "samples", ddl⟩

def sampleTime : SchemaObject := ⟨"index", "sample_time", "CREATE INDEX sample_time ON samples(epoch)"⟩

def pageSize : ℕ := 4096
def maxPages : ℕ := 4096
def maxBytes : ℕ := 16 * 1024 * 1024

/- A database file; `hot` is a journal that must be rolled back. -/
structure File (F : Type) where
  hot : Bool
  userVersion : ℕ
  objects : List SchemaObject
  pageSize : ℕ
  pageCount : ℕ
  rows : List (ℕ × Fields F)

inductive StoreError where
  | oversized
  | readonlyRollback
  | schemaUnsupported
  | objectsUnsupported
  | pageSizeUnsupported
  | invalidSample
  | invalidWindow
  | invalidRetained
  | unavailable
  | full
deriving DecidableEq

/- `SELECT name,sql FROM sqlite_master WHERE type='table'` -/
def File.tables (f : File F) : List (String × String) :=
  (f.objects.filter (fun o => o.kind = "table")).map (fun o => (o.name, o.sql))

/- `SELECT type,name FROM sqlite_master` -/
def File.names (f : File F) : List (String × String) := f.objects.map (fun o => (o.kind, o.name))

/- Two lists are one set. -/
def sameSet (xs ys : List (String × String)) : Bool :=
  xs.all (fun x => ys.contains x) && ys.all (fun y => xs.contains y)

/- The objects are the table as created and the index's name. -/
def File.Named (f : File F) : Prop := f.tables = [("samples", ddl)] ∧
    sameSet f.names [("table", "samples"), ("index", "sample_time")] = true

instance (f : File F) : Decidable f.Named := by
  unfold File.Named
  infer_instance

/- The gates of `open`, in their order. -/
def inspect (f : File F) : Except StoreError Unit :=
  if maxBytes < f.pageSize * f.pageCount then .error .oversized
  else if f.hot then .error .readonlyRollback
  else if f.userVersion ≠ 1 then .error .schemaUnsupported
  else if f.tables ≠ [("samples", ddl)] then .error .schemaUnsupported
  else if !sameSet f.names
      [("table", "samples"), ("index", "sample_time")] then
    .error .objectsUnsupported
  else if f.pageSize ≠ HostEvidence.pageSize then
    .error .pageSizeUnsupported
  else if maxPages < f.pageCount then .error .oversized
  else .ok ()

/- What the gates let in. -/
structure Accepted (f : File F) : Prop where
  cold : f.hot = false
  version : f.userVersion = 1
  named : f.Named
  size : f.pageSize = HostEvidence.pageSize
  count : f.pageCount ≤ maxPages

theorem inspect_ok {f : File F} : inspect f = .ok () ↔ Accepted f := by
  constructor
  · intro h
    unfold inspect at h
    split_ifs at h with hBytes hHot hVersion hTables hNames hSize hCount
    refine ⟨?_, ?_, ⟨?_, ?_⟩, ?_, ?_⟩
    · exact Bool.eq_false_iff.mpr hHot
    · exact not_not.mp hVersion
    · exact not_not.mp hTables
    · simpa using hNames
    · exact not_not.mp hSize
    · exact not_lt.mp hCount
  · rintro ⟨hCold, hVersion, ⟨hTables, hNames⟩, hSize, hCount⟩
    have hBytes : ¬ maxBytes < f.pageSize * f.pageCount := by
      rw [hSize]
      unfold maxBytes HostEvidence.pageSize
      unfold maxPages at hCount
      omega
    unfold inspect
    rw [if_neg hBytes, hCold, if_neg Bool.false_ne_true,
      if_neg (not_not.mpr hVersion), if_neg (not_not.mpr hTables),
      hNames, if_neg (by decide), if_neg (not_not.mpr hSize),
      if_neg (not_lt.mpr hCount)]

-- The Store

/- The directory and the process: its file, its connection. -/
structure Store (F : Type) where
  file : Option (File F)
  conn : Bool

/- What a call comes back with, or the end of the process. -/
inductive Reply (F : Type) where
  | done
  | summary (s : Summary F)
  | raised (e : StoreError)
  | died

/- The file of `os.open`. -/
def emptyFile : File F := ⟨false, 0, [], pageSize, 0, []⟩

/- The statements of a fresh file; each commits by itself. -/
def creation : List (File F → File F) := [fun f =>
      { f with
        objects := f.objects ++ [samplesTable]
        pageCount := 3 },
    fun f =>
      { f with
        objects := f.objects ++ [sampleTime]
        pageCount := 4 },
    fun f => { f with userVersion := 1 }]

def creationSteps : ℕ := 3

/-
  The file that so many statements leave; the one that was
  stopped may leave a journal.
-/
def created (statements : ℕ) (hot : Bool) : File F :=
  { (creation.take statements).foldl (fun f run => run f) emptyFile with
    hot := hot && decide (statements < creationSteps) }

/- The gates, and a writer for what they let in. -/
def adopt (f : File F) : Reply F × Store F := match inspect f with
  | .ok _ => (.done, ⟨some f, true⟩)
  | .error e => (.raised e, ⟨some f, false⟩)

/- `HostStore.open` -/
def openStore (s : Store F) : Reply F × Store F :=
  if s.conn then (.done, s)
  else
    match s.file with
    | none => adopt (created creationSteps false)
    | some f => adopt f

/- How the transaction of `append` ends. -/
inductive Fate where
  | committed (pages : Fin (maxPages + 1))
  | rolledBack
  | crashed (hot : Bool)
  | crashedAfter (pages : Fin (maxPages + 1)) (hot : Bool)

/- A candidate's transaction, committed. -/
def File.append (clock : F) (row : Fields F) (pages : Fin (maxPages + 1)) (f : File F) : File F :=
  { f with
    rows := HostEvidence.append toRow clock (stored row) f.rows
    pageCount := pages }

/- `HostStore.append` -/
def appendStore (clock : F) (candidate : Option (Fields F)) (fate : Fate) (s : Store F) : Reply F × Store F :=
  match candidate with
  | none => (.raised .invalidSample, s)
  | some row =>
    if valid (some row) = false then (.raised .invalidSample, s)
    else
      match s.conn, s.file with
      | true, some f =>
        match fate with
        | .committed pages => (.done, ⟨some (f.append clock row pages), true⟩)
        | .rolledBack => (.raised .full, s)
        | .crashed hot => (.died, ⟨some { f with hot := hot }, false⟩)
        | .crashedAfter pages hot =>
          (.died, ⟨some { f.append clock row pages with hot := hot }, false⟩)
      | _, _ => (.raised .unavailable, s)

/- `HostStore.window` -/
def windowStore (clock : F) (start stop : Value F) (s : Store F) : Reply F :=
  if number start numberCeiling = false ∨
      number stop numberCeiling = false ∨
      toRat stop.toFloat < toRat start.toFloat then
    .raised .invalidWindow
  else
    match s.conn, s.file with
    | true, some f =>
      if (windowRows toRow clock start.toFloat stop.toFloat
          f.rows).all (fun p => valid (some p.2)) then
        .summary (window toRow clock start.toFloat stop.toFloat f.rows)
      else .raised .invalidRetained
    | _, _ => .raised .unavailable

/-
  A call, or the end of the process; `stopped` is an `open` that
  ends after so many statements of a fresh file, or before the
  file is made.
-/
inductive StoreEvent (F : Type) where
  | opens
  | stopped (statements : Option ℕ) (hot : Bool)
  | append (clock : F) (candidate : Option (Fields F)) (fate : Fate)
  | window (clock : F) (start stop : Value F)
  | close
  | crash

def storeStep (s : Store F) : StoreEvent F → Reply F × Store F
  | .opens => openStore s
  | .stopped statements hot =>
    match s.file, statements with
    | none, some n => (.died, ⟨some (created n hot), false⟩)
    | file, _ => (.died, ⟨file, false⟩)
  | .append clock candidate fate => appendStore clock candidate fate s
  | .window clock start stop => (windowStore clock start stop s, s)
  | .close => (.done, { s with conn := false })
  | .crash => (.died, { s with conn := false })

/- A directory before the first call. -/
def unopened : Store F := ⟨none, false⟩

/-
  A creation that is stopped before its last statement, or an
  append that ends with the process and leaves a journal.
-/
def Strands (s : Store F) : StoreEvent F → Prop
  | .stopped (some n) _ => s.file = none ∧ n < creationSteps
  | .append _ candidate (.crashed hot) => s.conn = true ∧ valid candidate = true ∧ hot = true
  | .append _ candidate (.crashedAfter _ hot) =>
    s.conn = true ∧ valid candidate = true ∧ hot = true
  | _ => False

-- Runs

/- Few enough rows, all of them valid. -/
structure Sound (f : File F) : Prop where
  few : f.rows.length ≤ maxRows
  wellFormed : ∀ p ∈ f.rows, valid (some p.2) = true

/- What every call keeps. -/
structure Kept (s : Store F) : Prop where
  sound : ∀ f, s.file = some f → Sound f
  connected : s.conn = true → ∃ f, s.file = some f ∧ Accepted f

/- The next `open` has nothing to refuse. -/
def Ready (s : Store F) : Prop := ∀ f, s.file = some f → Accepted f

theorem created_named : (created creationSteps false : File F).Named := by
  have hObjects : (created creationSteps false : File F).objects = [samplesTable, sampleTime] :=
    rfl
  unfold File.Named File.tables File.names
  rw [hObjects]
  decide +kernel

theorem created_accepted (n : ℕ) (hot : Bool) : Accepted (created n hot : File F) ↔ creationSteps ≤ n := by
  constructor
  · intro h
    by_contra hFew
    have hVersion : (created n hot : File F).userVersion = 0 := by
      have hBelow : n < 3 := not_le.mp hFew
      interval_cases n <;> rfl
    have hOne := h.version
    rw [hVersion] at hOne
    exact absurd hOne (by decide)
  · intro hAll
    have hWhole : (created n hot : File F) = created creationSteps false := by
      have hTake : (creation : List (File F → File F)).take n = creation := List.take_of_length_le hAll
      unfold created
      rw [hTake, decide_eq_false (not_lt.mpr hAll), Bool.and_false]
      rfl
    rw [hWhole]
    have hCount : (created creationSteps false : File F).pageCount = 4 := rfl
    refine ⟨rfl, rfl, created_named, rfl, ?_⟩
    rw [hCount]
    decide

theorem created_rows (n : ℕ) (hot : Bool) : (created n hot : File F).rows = [] := by
  unfold created creation
  match n with
  | 0 => rfl
  | 1 => rfl
  | 2 => rfl
  | n + 3 => rw [List.take_of_length_le (by simp)]; rfl

theorem sound_created (n : ℕ) (hot : Bool) : Sound (created n hot : File F) := by
  refine ⟨?_, ?_⟩
  · rw [created_rows]
    exact Nat.zero_le _
  · rw [created_rows]
    intro p hp
    cases hp

theorem sound_append (hExact : IntegersExact F) {f : File F} {row : Fields F} (hSound : Sound f)
    (hValid : valid (some row) = true) (clock : F)
    (pages : Fin (maxPages + 1)) : Sound (f.append clock row pages) := by
  have hRows : (f.append clock row pages).rows = HostEvidence.append toRow clock (stored row) f.rows :=
    rfl
  refine ⟨?_, ?_⟩
  · rw [hRows, HostEvidence.append, List.length_append, List.length_singleton, newest, List.length_drop]
    have hSome : 0 < maxRows := by decide
    omega
  · rw [hRows]
    intro p hp
    rcases List.mem_append.mp hp with hOld | hNew
    · exact hSound.wellFormed p (List.mem_of_mem_filter (List.mem_of_mem_drop hOld))
    · rw [List.mem_singleton.mp hNew]
      exact valid_stored hExact hValid

theorem sound_hot {f : File F} (h : Sound f) (hot : Bool) : Sound { f with hot := hot } :=
  ⟨h.few, h.wellFormed⟩

theorem accepted_hot {f : File F} (h : Accepted f)
    (hot : Bool) : Accepted { f with hot := hot } ↔ hot = false :=
  ⟨fun hHot => hHot.cold, fun hCold => ⟨hCold, h.version, h.named, h.size, h.count⟩⟩

theorem accepted_append {f : File F} (h : Accepted f) (clock : F) (row : Fields F)
    (pages : Fin (maxPages + 1)) : Accepted (f.append clock row pages) :=
  ⟨h.cold, h.version, h.named, h.size, Nat.lt_succ_iff.mp pages.isLt⟩

theorem adopt_spec (f : File F) : (Accepted f ∧ adopt f = (.done, ⟨some f, true⟩)) ∨
      (¬ Accepted f ∧ ∃ e, adopt f = (.raised e, ⟨some f, false⟩)) := by
  unfold adopt
  cases hInspect : inspect f with
  | ok u => exact .inl ⟨inspect_ok.mp hInspect, rfl⟩
  | error e =>
    refine .inr ⟨?_, e, rfl⟩
    intro hAccepted
    rw [inspect_ok.mpr hAccepted] at hInspect
    cases hInspect

theorem openStore_done {s : Store F} (hKept : Kept s) : (openStore s).1 = .done ↔ Ready s := by
  obtain ⟨file, conn⟩ := s
  cases conn with
  | true =>
    obtain ⟨f, hFile, hAccepted⟩ := hKept.connected rfl
    refine ⟨fun _ g hg => ?_, fun _ => rfl⟩
    rw [hFile] at hg
    exact Option.some.inj hg ▸ hAccepted
  | false =>
    cases file with
    | none =>
      refine ⟨fun _ g hg => (by cases hg), fun _ => ?_⟩
      rw [openStore, if_neg Bool.false_ne_true]
      rcases adopt_spec (created creationSteps false : File F) with ⟨-, hDone⟩ | ⟨hNot, -⟩
      · rw [hDone]
      · exact absurd ((created_accepted _ _).mpr le_rfl) hNot
    | some f =>
      change (adopt f).1 = .done ↔ _
      rcases adopt_spec f with ⟨hAccepted, hDone⟩ | ⟨hNot, e, hRaised⟩
      · rw [hDone]
        exact ⟨fun _ g hg => Option.some.inj hg ▸ hAccepted, fun _ => rfl⟩
      · rw [hRaised]
        exact ⟨fun h => (by cases h), fun h => absurd (h f rfl) hNot⟩

theorem kept_of_file {s t : Store F} (hKept : Kept s) (hFile : t.file = s.file)
    (hConn : t.conn = true → s.conn = true) : Kept t := by
  refine ⟨?_, ?_⟩
  · intro f hf
    exact hKept.sound f (hFile ▸ hf)
  · intro hOpen
    rw [hFile]
    exact hKept.connected (hConn hOpen)

theorem ready_of_file {s t : Store F} (hFile : t.file = s.file) : Ready t ↔ Ready s := by
  unfold Ready
  rw [hFile]

@[simp] theorem ready_some {f : File F} {conn : Bool} : Ready ⟨some f, conn⟩ ↔ Accepted f :=
  ⟨fun h => h f rfl, fun h _ hg => Option.some.inj hg ▸ h⟩

theorem kept_closed {f : File F} (h : Sound f) : Kept ⟨some f, false⟩ :=
  ⟨fun _ hg => Option.some.inj hg ▸ h, fun hOpen => (by cases hOpen)⟩

theorem kept_adopt {f : File F} (h : Sound f) : Kept (adopt f).2 ∧ (Ready (adopt f).2 ↔ Accepted f) := by
  rcases adopt_spec f with ⟨hAccepted, hDone⟩ | ⟨-, e, hRaised⟩
  · rw [hDone]
    refine ⟨⟨fun _ hg => Option.some.inj hg ▸ h, ?_⟩, ready_some⟩
    exact fun _ => ⟨f, rfl, hAccepted⟩
  · rw [hRaised]
    exact ⟨kept_closed h, ready_some⟩

theorem openStore_spec {s : Store F}
    (hKept : Kept s) : Kept (openStore s).2 ∧ (Ready (openStore s).2 ↔ Ready s) := by
  unfold openStore
  split
  · exact ⟨hKept, Iff.rfl⟩
  · split
    · rename_i hNone
      obtain ⟨hNext, hReady⟩ := kept_adopt (sound_created creationSteps false : Sound (F := F) _)
      refine ⟨hNext, hReady.trans ?_⟩
      refine ⟨fun _ f hf => ?_, fun _ => (created_accepted _ _).mpr le_rfl⟩
      rw [hNone] at hf
      cases hf
    · rename_i f hSome
      obtain ⟨hNext, hReady⟩ := kept_adopt (hKept.sound f hSome)
      refine ⟨hNext, hReady.trans ?_⟩
      unfold Ready
      rw [hSome]
      exact ⟨fun h _ hg => Option.some.inj hg ▸ h, fun h => h f rfl⟩

/- An `append` with its connection, by the fate of it. -/
theorem appendStore_spec (hExact : IntegersExact F)
    {s : Store F} (hKept : Kept s) (clock : F) (candidate : Option (Fields F))
    (fate : Fate) :
    Kept (appendStore clock candidate fate s).2 ∧ (Ready (appendStore clock candidate fate s).2 ↔
        Ready s ∧ ¬ Strands s (.append clock candidate fate)) := by
  have hRefused : (valid candidate = false ∨ s.conn = false) →
        Kept s ∧ (Ready s ↔ Ready s ∧ ¬ Strands s (.append clock candidate fate)) := by
    intro hWhy
    have hNot : ¬ Strands s (.append clock candidate fate) := by
      intro hStrands
      have hBoth : s.conn = true ∧ valid candidate = true := by
        cases fate with
        | crashed hot => exact ⟨hStrands.1, hStrands.2.1⟩
        | crashedAfter pages hot => exact ⟨hStrands.1, hStrands.2.1⟩
        | committed pages => exact hStrands.elim
        | rolledBack => exact hStrands.elim
      rcases hWhy with hInvalid | hClosed
      · rw [hBoth.2] at hInvalid
        cases hInvalid
      · rw [hBoth.1] at hClosed
        cases hClosed
    exact ⟨hKept, (and_iff_left hNot).symm⟩
  cases candidate with
  | none => exact hRefused (.inl rfl)
  | some row =>
    cases hValid : valid (some row) with
    | false =>
      rw [appendStore, if_pos hValid]
      exact hRefused (.inl hValid)
    | true =>
      obtain ⟨file, conn⟩ := s
      rw [appendStore, if_neg (by rw [hValid]; decide)]
      cases conn with
      | false => exact hRefused (.inr rfl)
      | true =>
        obtain ⟨f, hFile, hAccepted⟩ := hKept.connected rfl
        have hSome : file = some f := hFile
        subst hSome
        have hSound := hKept.sound f rfl
        have hReady : Ready (⟨some f, true⟩ : Store F) := ready_some.mpr hAccepted
        cases fate with
        | committed pages =>
          have hNext := accepted_append hAccepted clock row pages
          refine ⟨⟨?_, fun _ => ⟨_, rfl, hNext⟩⟩, ?_⟩
          · intro g hg
            rw [← Option.some.inj hg]
            exact sound_append hExact hSound hValid clock pages
          · exact iff_of_true (ready_some.mpr hNext) ⟨hReady, id⟩
        | rolledBack => exact ⟨hKept, iff_of_true hReady ⟨hReady, id⟩⟩
        | crashed hot =>
          refine ⟨kept_closed (sound_hot hSound hot), ?_⟩
          rw [ready_some, accepted_hot hAccepted]
          cases hot <;> simp [Strands, hReady, hValid]
        | crashedAfter pages hot =>
          refine ⟨kept_closed (sound_hot (sound_append hExact hSound hValid clock pages) hot), ?_⟩
          rw [ready_some, accepted_hot (accepted_append hAccepted clock row pages)]
          cases hot <;> simp [Strands, hReady, hValid]

theorem storeStep_spec (hExact : IntegersExact F) {s : Store F} (hKept : Kept s) (e : StoreEvent F) :
    Kept (storeStep s e).2 ∧ (Ready (storeStep s e).2 ↔ Ready s ∧ ¬ Strands s e) := by
  cases e with
  | opens =>
    obtain ⟨hNext, hReady⟩ := openStore_spec hKept
    exact ⟨hNext, hReady.trans (and_iff_left id).symm⟩
  | append clock candidate fate => exact appendStore_spec hExact hKept clock candidate fate
  | window clock start stop => exact ⟨hKept, (and_iff_left id).symm⟩
  | close =>
    exact ⟨kept_of_file hKept rfl (fun h => (by cases h)),
      (ready_of_file rfl).trans (and_iff_left id).symm⟩
  | crash =>
    exact ⟨kept_of_file hKept rfl (fun h => (by cases h)),
      (ready_of_file rfl).trans (and_iff_left id).symm⟩
  | stopped statements hot =>
    obtain ⟨file, conn⟩ := s
    cases statements with
    | none =>
      cases file <;>
        exact ⟨kept_of_file hKept rfl (fun h => (by cases h)),
          (ready_of_file rfl).trans (and_iff_left id).symm⟩
    | some n =>
      cases file with
      | some f =>
        refine ⟨kept_of_file hKept rfl (fun h => (by cases h)), ?_⟩
        have hNot : ¬ Strands (⟨some f, conn⟩ : Store F) (.stopped (some n) hot) := by
          rintro ⟨hNone, -⟩
          cases hNone
        exact (ready_of_file rfl).trans (and_iff_left hNot).symm
      | none =>
        refine ⟨kept_closed (sound_created n hot), ?_⟩
        have hReady : Ready (⟨none, conn⟩ : Store F) := by
          intro f hf
          cases hf
        change Ready (⟨some (created n hot), false⟩ : Store F) ↔
          _ ∧ ¬ (_ = none ∧ n < creationSteps)
        rw [ready_some, created_accepted]
        simp [hReady]

theorem storeRun_spec (hExact : IntegersExact F) {s : Store F} (hKept : Kept s)
    (events : List (StoreEvent F)) :
    Kept (finalState storeStep s events) ∧ (Ready (finalState storeStep s events) ↔
        Ready s ∧ Guarded storeStep (fun s e => ¬ Strands s e) s events) := by
  induction events generalizing s with
  | nil => exact ⟨hKept, (and_iff_left trivial).symm⟩
  | cons e rest ih =>
    obtain ⟨hNext, hReady⟩ := storeStep_spec hExact hKept e
    obtain ⟨hLast, hRun⟩ := ih hNext
    refine ⟨hLast, hRun.trans ?_⟩
    rw [hReady, Guarded, and_assoc]

/- A window of a sound file is summed up. -/
theorem windowStore_sound {f : File F} (hSound : Sound f)
    {clock : F} {start stop : Value F} (hStart : number start numberCeiling = true)
    (hStop : number stop numberCeiling = true)
    (hOrder : toRat start.toFloat ≤ toRat stop.toFloat) :
    windowStore clock start stop ⟨some f, true⟩ =
      .summary (window toRow clock start.toFloat stop.toFloat f.rows) := by
  have hAll : (windowRows toRow clock start.toFloat stop.toFloat f.rows).all
        (fun p => valid (some p.2)) = true := by
    refine List.all_eq_true.mpr ?_
    intro p hp
    have hSorted := List.mem_of_mem_take (List.mem_of_mem_take hp)
    have hWindow := (List.mem_insertionSort _).mp hSorted
    exact hSound.wellFormed p (List.mem_of_mem_filter hWindow)
  have hPass : ¬ (number start numberCeiling = false ∨
        number stop numberCeiling = false ∨ toRat stop.toFloat < toRat start.toFloat) := by
    rw [hStart, hStop]
    simpa using hOrder
  rw [windowStore, if_neg hPass]
  exact if_pos hAll

/- The promise about one directory at one time. -/
structure Upheld (s : Store F) : Prop where
  few : ∀ f, s.file = some f → f.rows.length ≤ maxRows
  wellFormed : ∀ f, s.file = some f → ∀ p ∈ f.rows, valid (some p.2) = true
  read : ∀ clock start stop, s.conn = true → number start numberCeiling = true →
    number stop numberCeiling = true →
    toRat start.toFloat ≤ toRat stop.toFloat →
    ∃ f, s.file = some f ∧ (storeStep s (.window clock start stop)).1 =
        .summary (window toRow clock start.toFloat stop.toFloat f.rows)

theorem upheld_of_kept {s : Store F} (hKept : Kept s) : Upheld s := by
  refine ⟨fun f hf => (hKept.sound f hf).few, fun f hf => (hKept.sound f hf).wellFormed, ?_⟩
  intro clock start stop hConn hStart hStop hOrder
  obtain ⟨f, hFile, -⟩ := hKept.connected hConn
  obtain ⟨file, conn⟩ := s
  have hSome : file = some f := hFile
  have hOpen : conn = true := hConn
  subst hSome hOpen
  exact ⟨f, rfl, windowStore_sound (hKept.sound f rfl) hStart hStop hOrder⟩

theorem kept_unopened : Kept (unopened : Store F) := by
  refine ⟨fun f hf => (by cases hf), fun h => (by cases h)⟩

/-
  Every run keeps few rows, all of them valid and read back;
  the next `open` comes back exactly where no creation was
  stopped between the file and its last statement and no end of
  the process left a journal.  A database with other tables, or
  other names of objects, is refused as it is.
-/
theorem store_law (hExact : IntegersExact F) : (∀ events : List (StoreEvent F),
      Upheld (finalState storeStep unopened events) ∧
        ((storeStep (finalState storeStep unopened events) .opens).1 = .done ↔
          Guarded storeStep (fun s e => ¬ Strands s e) unopened events)) ∧
      ∀ f : File F, ¬ f.Named → ∃ e, storeStep ⟨some f, false⟩ .opens = (.raised e, ⟨some f, false⟩) := by
  refine ⟨?_, ?_⟩
  · intro events
    obtain ⟨hKept, hReady⟩ := storeRun_spec hExact kept_unopened events
    refine ⟨upheld_of_kept hKept, (openStore_done hKept).trans ?_⟩
    refine hReady.trans (and_iff_right ?_)
    intro f hf
    cases hf
  · intro f hOther
    rcases adopt_spec f with ⟨hAccepted, -⟩ | ⟨-, hRaised⟩
    · exact absurd hAccepted.named hOther
    · exact hRaised

theorem exactRat_integers : IntegersExact ExactRat := by
  intro n _ _
  exact ExactRat.round_exact n

/- A sample that knows its time and its run. -/
def bareSample : Fields ExactRat
  | .epoch => .int 1700000000
  | .run => .str (List.replicate 32 97)
  | _ => .none

theorem store_law_at_killed : (storeStep (finalState storeStep unopened [.opens,
            .append ⟨1700000001⟩ (some bareSample) (.committed 5),
            .append ⟨1700000011⟩ (some bareSample) (.crashed false)])
        .opens).1 = .done := by
  refine ((store_law exactRat_integers).1 _).2.mpr ?_
  refine ⟨id, id, ?_, trivial⟩
  rintro ⟨-, -, hHot⟩
  cases hHot

/- A creation that was stopped is refused ever after. -/
theorem store_law_fails : ¬ ∀ events : List (StoreEvent ExactRat),
      (storeStep (finalState storeStep unopened events) .opens).1 = .done := by
  intro hBack
  have hDone := hBack [.stopped (some 0) false]
  have hRaised : (storeStep (finalState storeStep (unopened : Store ExactRat)
        [.stopped (some 0) false]) .opens).1 =
        .raised .schemaUnsupported :=
    rfl
  rw [hRaised] at hDone
  cases hDone

end SingboxOps.HostEvidence
