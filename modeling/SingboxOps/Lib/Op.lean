import Mathlib.Tactic.TypeStar

/-
  Operations on a state that a crash can cut short.

  An operation ends with a value or an exception, and records
  every state it leaves behind on the way: these are the
  states a crash can find.  A crash triple says what holds of
  all of them, and what holds at the end.
-/

namespace SingboxOps

/- An operation on states `σ` with exceptions `ε`. -/
def Op (ε σ α : Type) : Type := σ → Except ε α × σ × List σ

namespace Op

variable {ε σ α β : Type}

instance : Monad (Op ε σ) where
  pure a := fun s => (.ok a, s, [])
  bind x f := fun s =>
    match x s with
    | (.ok a, s', seen) =>
      let rest := f a s'
      (rest.1, rest.2.1, seen ++ rest.2.2)
    | (.error e, s', seen) => (.error e, s', seen)

/- Raise an exception. -/
def fail (e : ε) : Op ε σ α := fun s => (.error e, s, [])

/- Look at the state. -/
def get : Op ε σ σ := fun s => (.ok s, s, [])

/- One change of the state, visible to a crash. -/
def change (f : σ → σ) : Op ε σ Unit := fun s => (.ok (), f s, [f s])

/- A change of the state that answers. -/
def act (f : σ → α × σ) : Op ε σ α := fun s => (.ok (f s).1, (f s).2, [(f s).2])

/- A value or an exception that was computed elsewhere. -/
def ofExcept (x : Except ε α) : Op ε σ α := match x with
  | .ok a => pure a
  | .error e => fail e

/- Raise an exception unless a check holds. -/
def ensure (ok : Bool) (e : ε) : Op ε σ Unit := if ok then pure () else fail e

/- Run an operation and handle its exception. -/
def recover (x : Op ε σ α) (handler : ε → Op ε σ α) : Op ε σ α := fun s =>
    match x s with
    | (.ok a, s', seen) => (.ok a, s', seen)
    | (.error e, s', seen) =>
      let rest := handler e s'
      (rest.1, rest.2.1, seen ++ rest.2.2)

/- The answer of an operation. -/
def answer (x : Op ε σ α) (s : σ) : Except ε α := (x s).1

/- The state an operation ends in. -/
def final (x : Op ε σ α) (s : σ) : σ := (x s).2.1

/- The states a crash during an operation can find. -/
def seen (x : Op ε σ α) (s : σ) : List σ := (x s).2.2

end Op

-- Crash Triples

variable {ε σ α β : Type}

/-
  Started at `s`, the operation leaves behind only states
  that satisfy `J`, and ends as `Q` says.
-/
structure Triple (J : σ → Prop) (s : σ) (x : Op ε σ α) (Q : Except ε α → σ → Prop) : Prop where
  seen : ∀ c ∈ x.seen s, J c
  post : Q (x.answer s) (x.final s)

namespace Triple

variable {J : σ → Prop} {s : σ}

theorem pure {a : α} {Q : Except ε α → σ → Prop} (h : Q (.ok a) s) : Triple J s (Pure.pure a : Op ε σ α) Q :=
  ⟨fun _ hc => (List.not_mem_nil hc).elim, h⟩

theorem fail {e : ε} {Q : Except ε α → σ → Prop} (h : Q (.error e) s) : Triple J s (Op.fail e) Q :=
  ⟨fun _ hc => (List.not_mem_nil hc).elim, h⟩

theorem change {f : σ → σ} {Q : Except ε Unit → σ → Prop} (hSeen : J (f s))
    (h : Q (.ok ()) (f s)) : Triple J s (Op.change f) Q := by
  refine ⟨?_, h⟩
  intro c hc
  rw [List.mem_singleton.mp hc]
  exact hSeen

theorem act {f : σ → α × σ} {Q : Except ε α → σ → Prop} (hSeen : J (f s).2)
    (h : Q (.ok (f s).1) (f s).2) : Triple J s (Op.act f) Q := by
  refine ⟨?_, h⟩
  intro c hc
  rw [List.mem_singleton.mp hc]
  exact hSeen

theorem ofExcept {x : Except ε α} {Q : Except ε α → σ → Prop} (h : Q x s) : Triple J s (Op.ofExcept x) Q := by
  cases x with
  | ok a => exact Triple.pure h
  | error e => exact Triple.fail h

theorem mono {J' : σ → Prop} {x : Op ε σ α} {Q Q' : Except ε α → σ → Prop}
    (hTriple : Triple J s x Q) (hSeen : ∀ c, J c → J' c)
    (hPost : ∀ r s', Q r s' → Q' r s') : Triple J' s x Q' :=
  ⟨fun c hc => hSeen c (hTriple.seen c hc), hPost _ _ hTriple.post⟩

theorem and {J' : σ → Prop} {x : Op ε σ α} {Q Q' : Except ε α → σ → Prop} (hLeft : Triple J s x Q)
    (hRight : Triple J' s x Q') :
    Triple (fun c => J c ∧ J' c) s x (fun r s' => Q r s' ∧ Q' r s') :=
  ⟨fun c hc => ⟨hLeft.seen c hc, hRight.seen c hc⟩, ⟨hLeft.post, hRight.post⟩⟩

theorem bind {x : Op ε σ α} {f : α → Op ε σ β} {Q : Except ε α → σ → Prop}
    {Q' : Except ε β → σ → Prop} (hFirst : Triple J s x Q)
    (hRest : ∀ a s', Q (.ok a) s' → Triple J s' (f a) Q')
    (hError : ∀ e s', Q (.error e) s' → Q' (.error e) s') : Triple J s (x >>= f) Q' := by
  rcases hFirst with ⟨hSeen, hPost⟩
  unfold Op.seen at hSeen
  unfold Op.answer Op.final at hPost
  rcases hRun : x s with ⟨result, s', seen⟩
  rw [hRun] at hSeen hPost
  cases result with
  | error e =>
    have hBind : (x >>= f) s = (.error e, s', seen) := by simp only [Bind.bind, hRun]
    constructor
    · unfold Op.seen
      rw [hBind]
      exact hSeen
    · unfold Op.answer Op.final
      rw [hBind]
      exact hError e s' hPost
  | ok a =>
    have hBind : (x >>= f) s = ((f a s').1, (f a s').2.1, seen ++ (f a s').2.2) := by
      simp only [Bind.bind, hRun]
    rcases hRest a s' hPost with ⟨hSeen', hPost'⟩
    constructor
    · unfold Op.seen
      rw [hBind]
      intro c hc
      rcases List.mem_append.mp hc with hOld | hNew
      · exact hSeen c hOld
      · exact hSeen' c hNew
    · unfold Op.answer Op.final
      rw [hBind]
      exact hPost'

theorem get {f : σ → Op ε σ α} {Q : Except ε α → σ → Prop}
    (h : Triple J s (f s) Q) : Triple J s (Op.get >>= f) Q := by
  have hBind : (Op.get >>= f) s = f s s := by
    simp only [Bind.bind, Op.get]
    rfl
  rcases h with ⟨hSeen, hPost⟩
  exact ⟨by unfold Op.seen; rw [hBind]; exact hSeen,
    by unfold Op.answer Op.final; rw [hBind]; exact hPost⟩

theorem change_bind {f : σ → σ} {x : Unit → Op ε σ α} {Q : Except ε α → σ → Prop} (hSeen : J (f s))
    (h : Triple J (f s) (x ()) Q) : Triple J s (Op.change f >>= x) Q := by
  refine Triple.bind (Q := fun r s' => r = .ok () ∧ s' = f s) (Triple.change hSeen ⟨rfl, rfl⟩) ?_
    (fun _ _ h => nomatch h.1)
  rintro _ _ ⟨-, rfl⟩
  exact h

theorem ofExcept_bind {x : Except ε α} {f : α → Op ε σ β} {Q : Except ε β → σ → Prop}
    (hOk : ∀ a, x = .ok a → Triple J s (f a) Q)
    (hError : ∀ e, x = .error e → Q (.error e) s) : Triple J s (Op.ofExcept x >>= f) Q := by
  refine Triple.bind (Q := fun r s' => r = x ∧ s' = s) (Triple.ofExcept ⟨rfl, rfl⟩) ?_ ?_
  · rintro a _ ⟨hx, rfl⟩
    exact hOk a hx.symm
  · rintro e _ ⟨hx, rfl⟩
    exact hError e hx.symm

theorem ensure_bind {ok : Bool} {e : ε} {x : Unit → Op ε σ α} {Q : Except ε α → σ → Prop}
    (hOk : ok = true → Triple J s (x ()) Q)
    (hError : ok = false → Q (.error e) s) : Triple J s (Op.ensure ok e >>= x) Q := by
  cases ok with
  | true =>
    refine Triple.bind (Q := fun r s' => r = .ok () ∧ s' = s)
      (Triple.pure ⟨rfl, rfl⟩) ?_ (fun _ _ h => nomatch h.1)
    rintro _ _ ⟨-, rfl⟩
    exact hOk rfl
  | false =>
    refine Triple.bind (Q := fun r s' => r = .error e ∧ s' = s)
      (Triple.fail ⟨rfl, rfl⟩) (fun _ _ h => nomatch h.1) ?_
    rintro _ _ ⟨h, rfl⟩
    rw [Except.error.inj h]
    exact hError rfl

/- A handled exception: the handler starts where it was raised. -/
theorem recover {x : Op ε σ α} {handler : ε → Op ε σ α}
    {Q Q' : Except ε α → σ → Prop} (hFirst : Triple J s x Q)
    (hOk : ∀ a s', Q (.ok a) s' → Q' (.ok a) s')
    (hHandler : ∀ e s', Q (.error e) s' → Triple J s' (handler e) Q') :
    Triple J s (Op.recover x handler) Q' := by
  rcases hFirst with ⟨hSeen, hPost⟩
  unfold Op.seen at hSeen
  unfold Op.answer Op.final at hPost
  rcases hRun : x s with ⟨result, s', seen⟩
  rw [hRun] at hSeen hPost
  cases result with
  | ok a =>
    have hSame : Op.recover x handler s = (.ok a, s', seen) := by
      simp only [Op.recover, hRun]
    constructor
    · unfold Op.seen
      rw [hSame]
      exact hSeen
    · unfold Op.answer Op.final
      rw [hSame]
      exact hOk a s' hPost
  | error e =>
    have hSame : Op.recover x handler s = ((handler e s').1, (handler e s').2.1,
            seen ++ (handler e s').2.2) := by
      simp only [Op.recover, hRun]
    rcases hHandler e s' hPost with ⟨hSeen', hPost'⟩
    constructor
    · unfold Op.seen
      rw [hSame]
      intro c hc
      rcases List.mem_append.mp hc with hOld | hNew
      · exact hSeen c hOld
      · exact hSeen' c hNew
    · unfold Op.answer Op.final
      rw [hSame]
      exact hPost'

end Triple

end SingboxOps
