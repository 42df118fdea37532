import Mathlib.Tactic.TypeStar

/-
  Transactions on a database.

  The statements of a transaction work on the tables it sees.
  The storage may fail any statement, the commit included: a
  connection carries the answers the storage still has to
  give.  A transaction that ends with an exception is rolled
  back whole, and so leaves the tables as they were.
-/

namespace SingboxOps

/-
  An open connection: the tables as the open transaction sees
  them, and for each statement to come whether the storage
  fails it.
-/
structure Conn (σ : Type) where
  tables : σ
  faults : List Bool

/- A piece of a transaction, ended early by an exception. -/
abbrev Tx (ε σ α : Type) : Type := StateT (Conn σ) (Except ε) α

namespace Tx

variable {ε σ α : Type}

/-
  Execute one statement.  `storage` is the exception of a
  storage failure; the statement itself may raise others.
-/
def execute (storage : ε) (statement : σ → Except ε (α × σ)) : Tx ε σ α := fun conn =>
    if conn.faults.headD false then .error storage
    else
      match statement conn.tables with
      | .error e => .error e
      | .ok (a, tables) => .ok (a, ⟨tables, conn.faults.tail⟩)

/- `commit()` changes no table, and can fail like a statement. -/
def commit (storage : ε) : Tx ε σ Unit := execute storage (fun tables => .ok ((), tables))

/- Read the tables. -/
def query (storage : ε) (read : σ → α) : Tx ε σ α := execute storage (fun tables => .ok (read tables, tables))

/- A value or an exception that was computed elsewhere. -/
def ofExcept (x : Except ε α) : Tx ε σ α := fun conn =>
    match x with
    | .error e => .error e
    | .ok a => .ok (a, conn)

/- Leave the transaction with an exception. -/
def fail (e : ε) : Tx ε σ α := ofExcept (.error e)

end Tx

variable {ε σ α β : Type}

/- Run a transaction: all of it, or none of it. -/
def transact (x : Tx ε σ α) (faults : List Bool) (tables : σ) : Except ε α × σ :=
  match x ⟨tables, faults⟩ with
  | .ok (a, conn) => (.ok a, conn.tables)
  | .error e => (.error e, tables)

theorem transact_error {x : Tx ε σ α} {faults : List Bool} {tables : σ} {e : ε}
    (h : (transact x faults tables).1 = .error e) :
    (transact x faults tables).2 = tables := by
  unfold transact at h ⊢
  cases hRun : x ⟨tables, faults⟩ with
  | ok r =>
    rw [hRun] at h
    cases h
  | error e' => rfl

-- What a Transaction Returns

/-
  Begun on these tables, the transaction satisfies `Q` if it
  comes to its end, whatever the storage answers.
-/
structure Returns (tables : σ) (x : Tx ε σ α) (Q : α → σ → Prop) : Prop where
  post : ∀ faults a conn, x ⟨tables, faults⟩ = .ok (a, conn) → Q a conn.tables

namespace Returns

variable {tables : σ}

theorem pure {a : α} {Q : α → σ → Prop} (h : Q a tables) : Returns tables (Pure.pure a : Tx ε σ α) Q := by
  constructor
  intro faults a' conn hRun
  cases hRun
  exact h

theorem fail {e : ε} {Q : α → σ → Prop} : Returns tables (Tx.fail e) Q := by
  constructor
  intro faults a conn hRun
  cases hRun

theorem ofExcept {x : Except ε α} {Q : α → σ → Prop}
    (h : ∀ a, x = .ok a → Q a tables) : Returns tables (Tx.ofExcept x) Q := by
  constructor
  intro faults a conn hRun
  cases x with
  | error e => cases hRun
  | ok b =>
    cases hRun
    exact h _ rfl

theorem execute {storage : ε} {statement : σ → Except ε (α × σ)} {Q : α → σ → Prop}
    (h : ∀ a tables', statement tables = .ok (a, tables') → Q a tables') :
    Returns tables (Tx.execute storage statement) Q := by
  constructor
  intro faults a conn hRun
  unfold Tx.execute at hRun
  split at hRun
  · cases hRun
  · cases hStatement : statement tables with
    | error e =>
      rw [hStatement] at hRun
      cases hRun
    | ok r =>
      rw [hStatement] at hRun
      cases hRun
      exact h _ _ hStatement

theorem commit {storage : ε} {Q : Unit → σ → Prop}
    (h : Q () tables) : Returns tables (Tx.commit storage) Q := by
  apply execute
  intro a tables' hRun
  cases hRun
  exact h

theorem query {storage : ε} {read : σ → α} {Q : α → σ → Prop}
    (h : Q (read tables) tables) : Returns tables (Tx.query storage read) Q := by
  apply execute
  intro a tables' hRun
  cases hRun
  exact h

theorem bind {x : Tx ε σ α} {f : α → Tx ε σ β} (P : α → σ → Prop) {Q : β → σ → Prop} (hx : Returns tables x P)
    (hf : ∀ a tables', P a tables' → Returns tables' (f a) Q) :
    Returns tables (x >>= f) Q := by
  constructor
  intro faults b conn hRun
  cases hFirst : x ⟨tables, faults⟩ with
  | error e =>
    have hBind : (x >>= f) ⟨tables, faults⟩ = .error e := by
      change (x ⟨tables, faults⟩ >>= fun r => f r.1 r.2) = _
      rw [hFirst]
      rfl
    rw [hBind] at hRun
    cases hRun
  | ok r =>
    have hBind : (x >>= f) ⟨tables, faults⟩ = f r.1 r.2 := by
      change (x ⟨tables, faults⟩ >>= fun r => f r.1 r.2) = _
      rw [hFirst]
      rfl
    rw [hBind] at hRun
    exact (hf r.1 r.2.tables (hx.post faults r.1 r.2 hFirst)).post r.2.faults b conn hRun

theorem bind_ofExcept {x : Except ε α} {f : α → Tx ε σ β} {Q : β → σ → Prop}
    (h : ∀ a, x = .ok a → Returns tables (f a) Q) :
    Returns tables (Tx.ofExcept x >>= f) Q := by
  apply bind (fun a tables' => x = .ok a ∧ tables' = tables)
  · exact ofExcept (fun a hx => ⟨hx, rfl⟩)
  · rintro a tables' ⟨hx, rfl⟩
    exact h a hx

theorem bind_execute {storage : ε} {statement : σ → Except ε (α × σ)} {f : α → Tx ε σ β} {Q : β → σ → Prop}
    (h : ∀ a tables', statement tables = .ok (a, tables') → Returns tables' (f a) Q) :
    Returns tables (Tx.execute storage statement >>= f) Q := by
  apply bind (fun a tables' => statement tables = .ok (a, tables'))
  · exact execute (fun a tables' hx => hx)
  · exact h

theorem mono {x : Tx ε σ α} {P Q : α → σ → Prop} (h : Returns tables x P)
    (hMono : ∀ a tables', P a tables' → Q a tables') : Returns tables x Q :=
  ⟨fun faults a conn hRun => hMono _ _ (h.post faults a conn hRun)⟩

end Returns

theorem transact_ok {x : Tx ε σ α} {faults : List Bool} {tables : σ} {a : α}
    {Q : α → σ → Prop} (hReturns : Returns tables x Q)
    (h : (transact x faults tables).1 = .ok a) : Q a (transact x faults tables).2 := by
  unfold transact at h ⊢
  cases hRun : x ⟨tables, faults⟩ with
  | error e =>
    rw [hRun] at h
    cases h
  | ok r =>
    rw [hRun] at h
    cases h
    exact hReturns.post faults r.1 r.2 hRun

-- Transactions That Land

/- On a storage that fails no statement, the end is this one. -/
structure Lands (tables : σ) (x : Tx ε σ α) (a : α) (tables' : σ) : Prop where
  run : x ⟨tables, []⟩ = .ok (a, ⟨tables', []⟩)

namespace Lands

variable {tables tables' : σ}

theorem ofExcept {x : Except ε α} {a : α} (h : x = .ok a) : Lands tables (Tx.ofExcept x) a tables := by
  constructor
  rw [h]
  rfl

theorem execute {storage : ε} {statement : σ → Except ε (α × σ)} {a : α}
    (h : statement tables = .ok (a, tables')) :
    Lands tables (Tx.execute storage statement) a tables' := by
  constructor
  unfold Tx.execute
  rw [h]
  rfl

theorem bind {x : Tx ε σ α} {f : α → Tx ε σ β} {a : α} {b : β} {tables'' : σ} (hx : Lands tables x a tables')
    (hf : Lands tables' (f a) b tables'') : Lands tables (x >>= f) b tables'' := by
  constructor
  change (x ⟨tables, []⟩ >>= fun r => f r.1 r.2) = _
  rw [hx.run]
  exact hf.run

end Lands

theorem transact_lands {x : Tx ε σ α} {a : α} {tables tables' : σ}
    (h : Lands tables x a tables') : transact x [] tables = (.ok a, tables') := by
  unfold transact
  rw [h.run]

-- Transactions Under Storage Failures

/- One of the next statements is failed by the storage. -/
def failsWithin : Nat → List Bool → Bool
  | 0, _ => false
  | n + 1, faults => faults.headD false || failsWithin n faults.tail

theorem failsWithin_add (n m : Nat) (faults : List Bool) :
    failsWithin (n + m) faults = (failsWithin n faults || failsWithin m (faults.drop n)) := by
  induction n generalizing faults with
  | zero => rw [Nat.zero_add]; rfl
  | succ n ih =>
    rw [Nat.succ_add, failsWithin, failsWithin, ih, Bool.or_assoc]
    cases faults <;> simp

@[simp] theorem failsWithin_nil (n : Nat) : failsWithin n [] = false := by
  induction n with
  | zero => rfl
  | succ n ih => exact ih

/-
  The transaction lands with `n` statements, unless the
  storage fails one of them.
-/
structure Runs (storage : ε) (n : Nat) (tables : σ) (x : Tx ε σ α) (a : α) (tables' : σ) : Prop where
  run : ∀ faults, x ⟨tables, faults⟩ =
        if failsWithin n faults then .error storage
        else .ok (a, ⟨tables', faults.drop n⟩)

namespace Runs

variable {storage : ε} {n m : Nat} {tables tables' tables'' : σ}

theorem execute {statement : σ → Except ε (α × σ)} {a : α} (h : statement tables = .ok (a, tables')) :
    Runs storage 1 tables (Tx.execute storage statement) a tables' := by
  constructor
  intro faults
  unfold Tx.execute
  rw [h, failsWithin, failsWithin, Bool.or_false, List.drop_one]

theorem commit : Runs storage 1 tables (Tx.commit storage) () tables := execute rfl

theorem bind {x : Tx ε σ α} {f : α → Tx ε σ β} {a : α} {b : β} (hx : Runs storage n tables x a tables')
    (hf : Runs storage m tables' (f a) b tables'') :
    Runs storage (n + m) tables (x >>= f) b tables'' := by
  constructor
  intro faults
  change (x ⟨tables, faults⟩ >>= fun r => f r.1 r.2) = _
  rw [hx.run, failsWithin_add, ← List.drop_drop]
  cases failsWithin n faults with
  | true => rfl
  | false =>
    change f a ⟨tables', faults.drop n⟩ = _
    rw [hf.run, Bool.false_or]

theorem lands {x : Tx ε σ α} {a : α} (h : Runs storage n tables x a tables') : Lands tables x a tables' := by
  constructor
  rw [h.run, failsWithin_nil, List.drop_nil]
  rfl

/- A transaction that runs lands whole, or changes nothing. -/
theorem transact_eq {x : Tx ε σ α} {a : α} (h : Runs storage n tables x a tables') (faults : List Bool) :
    transact x faults tables =
      if failsWithin n faults then (.error storage, tables)
      else (.ok a, tables') := by
  unfold transact
  rw [h.run]
  cases failsWithin n faults <;> rfl

end Runs

end SingboxOps
