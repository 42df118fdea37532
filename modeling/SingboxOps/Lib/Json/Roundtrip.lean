import SingboxOps.Lib.Json.Parse

/-
  Reading a rendered value back.

  The reader gives back the value with its strings joined
  into whole code points and its members assigned one by one;
  both do nothing to the values a program writes out.
-/

namespace SingboxOps.Json

variable {F : Type}

-- The Value Read Back

/- The 16-bit units a code point is escaped as. -/
def units (c : ℕ) : List ℕ :=
  if c < 65536 then [c]
  else
    [(55296 + (c - 65536) / 1024) % 65536, (56320 + (c - 65536) % 1024) % 65536]

/- Add a code point to the text read so far, latest first. -/
def pushChar (read : PyStr) (c : ℕ) : PyStr := (units c).foldl (fun read u => pushUnit u read) read

/- A string after its literal has been read. -/
def rereadStr (s : PyStr) : PyStr := (s.foldl pushChar []).reverse

mutual

/- A value after its text has been read. -/
def reread : Json F → Json F
  | .str s => .str (rereadStr s)
  | .arr items => .arr (rereadItems items)
  | .obj members => .obj (rereadMembers members [])
  | v => v

def rereadItems : List (Json F) → List (Json F)
  | [] => []
  | v :: rest => reread v :: rereadItems rest

def rereadMembers : List (PyStr × Json F) → List (PyStr × Json F) → List (PyStr × Json F)
  | [], read => read
  | (k, v) :: rest, read => rereadMembers rest (setItem read (rereadStr k) (reread v))

end

mutual

/- How many containers are open at once in a value. -/
def depth : Json F → ℕ
  | .arr items => 1 + depthItems items
  | .obj members => 1 + depthMembers members
  | _ => 0

def depthItems : List (Json F) → ℕ
  | [] => 0
  | v :: rest => max (depth v) (depthItems rest)

def depthMembers : List (PyStr × Json F) → ℕ
  | [] => 0
  | (_, v) :: rest => max (depth v) (depthMembers rest)

end

theorem pushChar_of_lt {c : ℕ} (hc : c < 55296) (read : PyStr) : pushChar read c = c :: read := by
  have hUnits : units c = [c] := by rw [units, if_pos (by omega)]
  rw [pushChar, hUnits]
  cases read with
  | nil => rfl
  | cons h rest =>
    simp only [List.foldl_cons, List.foldl_nil, pushUnit]
    rw [if_neg (by omega)]

theorem rereadStr_of_lt {s : PyStr} (hs : ∀ c ∈ s, c < 55296) : rereadStr s = s := by
  have hFold : ∀ read, s.foldl pushChar read = s.reverse ++ read := by
    induction s with
    | nil => simp
    | cons c rest ih =>
      intro read
      rw [List.foldl_cons, pushChar_of_lt (hs c (by simp)),
        ih (fun d hd => hs d (by simp [hd]))]
      simp
  rw [rereadStr, hFold []]
  simp

-- The Start of a Value

/- The modes a value that is no container starts in. -/
inductive ValueStart : Mode F → Prop where
  | text : ValueStart (.text false [])
  | null : ValueStart (.name (pyStr "ull") .null)
  | bool (rest : PyStr) (b : Bool) : ValueStart (.name rest (.bool b))
  | float (rest : PyStr) (x : ExtFloat F) : ValueStart (.name rest (.float x))
  | number (phase : NumberPhase) (read : Numeral) : ValueStart (.number phase read)

theorem stepValue_cases {room : ℕ} {stack : List (Frame F)} {c : ℕ} {r : Reader F}
    (h : stepValue room stack c = .ok r) :
    (∃ mode, ValueStart mode ∧ r = ⟨stack, mode⟩) ∨ enter room (.arr []) .firstItem stack = .ok r ∨
      enter room (.obj [] none) .firstKey stack = .ok r := by
  unfold stepValue at h
  by_cases hText : c = 34
  · rw [if_pos hText] at h
    cases h
    exact Or.inl ⟨_, .text, rfl⟩
  rw [if_neg hText] at h
  by_cases hArr : c = 91
  · rw [if_pos hArr] at h
    exact Or.inr (Or.inl h)
  rw [if_neg hArr] at h
  by_cases hObj : c = 123
  · rw [if_pos hObj] at h
    exact Or.inr (Or.inr h)
  rw [if_neg hObj] at h
  by_cases hNull : c = 110
  · rw [if_pos hNull] at h
    cases h
    exact Or.inl ⟨_, .null, rfl⟩
  rw [if_neg hNull] at h
  by_cases hTrue : c = 116
  · rw [if_pos hTrue] at h
    cases h
    exact Or.inl ⟨_, .bool _ _, rfl⟩
  rw [if_neg hTrue] at h
  by_cases hFalse : c = 102
  · rw [if_pos hFalse] at h
    cases h
    exact Or.inl ⟨_, .bool _ _, rfl⟩
  rw [if_neg hFalse] at h
  by_cases hNan : c = 78
  · rw [if_pos hNan] at h
    cases h
    exact Or.inl ⟨_, .float _ _, rfl⟩
  rw [if_neg hNan] at h
  by_cases hInfinity : c = 73
  · rw [if_pos hInfinity] at h
    cases h
    exact Or.inl ⟨_, .float _ _, rfl⟩
  rw [if_neg hInfinity] at h
  by_cases hMinus : c = 45
  · rw [if_pos hMinus] at h
    cases h
    exact Or.inl ⟨_, .number _ _, rfl⟩
  rw [if_neg hMinus] at h
  cases hDigit : digit? c with
  | none =>
    rw [hDigit] at h
    cases h
  | some d =>
    rw [hDigit] at h
    cases h
    exact Or.inl ⟨_, .number _ _, rfl⟩

-- Runs

variable [FloatText F] {room : ℕ}

theorem run_cons (r : Reader F) (c : ℕ) (rest : PyStr) :
    run room r (c :: rest) = (step room r c).bind (fun r => run room r rest) :=
  rfl

theorem run_of_step {r r' : Reader F} {c : ℕ} (hStep : step room r c = .ok r')
    (rest : PyStr) : run room r (c :: rest) = run room r' rest := by
  rw [run_cons, hStep]
  rfl

theorem run_append (r : Reader F) (xs ys : PyStr) :
    run room r (xs ++ ys) = (run room r xs).bind (fun r => run room r ys) := by
  induction xs generalizing r with
  | nil => rfl
  | cons c xs ih =>
    rw [List.cons_append, run_cons, run_cons]
    cases step room r c with
    | error e => rfl
    | ok r' => exact ih r'

theorem run_append_of_ok {r r' : Reader F} {xs : PyStr} (hRun : run room r xs = .ok r')
    (ys : PyStr) : run room r (xs ++ ys) = run room r' ys := by
  rw [run_append, hRun]
  rfl

-- Strings

theorem hexValue?_hexDigit {d : ℕ} (hd : d < 16) : hexValue? (hexDigit d) = some d := by
  have hAll : ∀ e : Fin 16, hexValue? (hexDigit e) = some e.val := by
    decide
  exact hAll ⟨d, hd⟩

theorem step_unit_more (stack : List (Frame F))
    (isKey : Bool) (read : PyStr) {digits : ℕ} (hMore : digits < 3)
    (value : ℕ) {d : ℕ}
    (hd : d < 16) : step room ⟨stack, .unit isKey read digits value⟩ (hexDigit d) =
      .ok ⟨stack, .unit isKey read (digits + 1) (16 * value + d)⟩ := by
  simp only [step, hexValue?_hexDigit hd]
  rw [if_neg (by omega)]

theorem step_unit_last (stack : List (Frame F)) (isKey : Bool) (read : PyStr) (value : ℕ) {d : ℕ}
    (hd : d < 16) :
    step room ⟨stack, .unit isKey read 3 value⟩ (hexDigit d) =
      .ok ⟨stack, .text isKey (pushUnit (16 * value + d) read)⟩ := by
  simp only [step, hexValue?_hexDigit hd, if_true]

theorem run_escapeUnit (stack : List (Frame F)) (isKey : Bool) (read : PyStr) (u : ℕ) :
    run room ⟨stack, .text isKey read⟩ (escapeUnit u) =
      .ok ⟨stack, .text isKey (pushUnit (u % 65536) read)⟩ := by
  have hDigit : ∀ n, n % 16 < 16 := fun n => Nat.mod_lt n (by norm_num)
  have hSlash : step room ⟨stack, .text isKey read⟩ 92 = .ok ⟨stack, .escape isKey read⟩ := rfl
  have hU : step room ⟨stack, .escape isKey read⟩ 117 = .ok ⟨stack, .unit isKey read 0 0⟩ := rfl
  have hValue : 16 * (16 * (16 * (16 * 0 + u / 4096 % 16) +
        u / 256 % 16) + u / 16 % 16) + u % 16 = u % 65536 := by
    omega
  rw [escapeUnit, run_of_step hSlash, run_of_step hU,
    run_of_step (step_unit_more _ _ _ (by omega) _ (hDigit _)),
    run_of_step (step_unit_more _ _ _ (by omega) _ (hDigit _)),
    run_of_step (step_unit_more _ _ _ (by omega) _ (hDigit _)),
    run_of_step (step_unit_last _ _ _ _ (hDigit _)), hValue]
  rfl

theorem run_shortEscape (stack : List (Frame F)) (isKey : Bool) (read : PyStr) {letter c : ℕ}
    (hEscape : escapeValue? letter = some c) (hLetter : letter ≠ 117)
    (hc : c < 55296) :
    run room ⟨stack, .text isKey read⟩ [92, letter] = .ok ⟨stack, .text isKey (pushChar read c)⟩ := by
  have hStep : step room ⟨stack, .escape isKey read⟩ letter = .ok ⟨stack, .text isKey (pushChar read c)⟩ := by
    simp only [step, if_neg hLetter, hEscape, pushChar_of_lt hc]
  have hSlash : step room ⟨stack, .text isKey read⟩ 92 = .ok ⟨stack, .escape isKey read⟩ := rfl
  rw [run_of_step hSlash, run_of_step hStep]
  rfl

theorem run_escapeChar (stack : List (Frame F)) (isKey : Bool) (read : PyStr) (c : ℕ) :
    run room ⟨stack, .text isKey read⟩ (escapeChar c) = .ok ⟨stack, .text isKey (pushChar read c)⟩ := by
  unfold escapeChar
  split_ifs with h34 h92 h10 h13 h9 h12 h8 hPrint hUnit
  · subst h34
    exact run_shortEscape stack isKey read rfl (by decide)
      (by decide)
  · subst h92
    exact run_shortEscape stack isKey read rfl (by decide)
      (by decide)
  · subst h10
    exact run_shortEscape stack isKey read rfl (by decide)
      (by decide)
  · subst h13
    exact run_shortEscape stack isKey read rfl (by decide)
      (by decide)
  · subst h9
    exact run_shortEscape stack isKey read rfl (by decide)
      (by decide)
  · subst h12
    exact run_shortEscape stack isKey read rfl (by decide)
      (by decide)
  · subst h8
    exact run_shortEscape stack isKey read rfl (by decide)
      (by decide)
  · have hStep : step room ⟨stack, .text isKey read⟩ c = .ok ⟨stack, .text isKey (c :: read)⟩ := by
      simp only [step, if_neg h34, if_neg h92]
      rw [if_neg (by omega)]
    rw [run_of_step hStep, pushChar_of_lt (by omega)]
    rfl
  · rw [run_escapeUnit, pushChar, units, if_pos hUnit, Nat.mod_eq_of_lt hUnit]
    rfl
  · rw [run_append_of_ok (run_escapeUnit _ _ _ _), run_escapeUnit, pushChar, units, if_neg hUnit]
    rfl

theorem run_flatMap_escapeChar (stack : List (Frame F)) (isKey : Bool) (read : PyStr) (s : PyStr) :
    run room ⟨stack, .text isKey read⟩ (s.flatMap escapeChar) =
      .ok ⟨stack, .text isKey (s.foldl pushChar read)⟩ := by
  induction s generalizing read with
  | nil => rfl
  | cons c rest ih =>
    rw [List.flatMap_cons, run_append_of_ok (run_escapeChar _ _ _ _), ih]
    rfl

theorem run_renderStr (stack : List (Frame F)) (isKey : Bool)
    (s : PyStr) : run room ⟨stack, .text isKey []⟩ (s.flatMap escapeChar ++ [34]) =
      endText isKey (rereadStr s).reverse stack := by
  rw [run_append_of_ok (run_flatMap_escapeChar _ _ _ _), run_cons, rereadStr, List.reverse_reverse]
  simp only [step, if_true]
  cases endText isKey (s.foldl pushChar []) stack with
  | error e => rfl
  | ok r => rfl

-- Settled Readers

/- `,`, `]` or `}`. -/
def IsDelimiter (c : ℕ) : Prop := c = 44 ∨ c = 93 ∨ c = 125

/-
  A reader that has read a whole value behaves like the one
  the value was delivered to.  A number is only delivered by
  the character after it.
-/
structure Settled (room : ℕ) (r d : Reader F) : Prop where
  step : ∀ c, IsDelimiter c → step room r c = step room d c
  finish : finish r = finish d

theorem Settled.refl (r : Reader F) : Settled room r r := ⟨fun _ _ => rfl, rfl⟩

theorem Settled.run_eq {r d : Reader F} (hSettled : Settled room r d) {c : ℕ} (hc : IsDelimiter c)
    (rest : PyStr) : run room r (c :: rest) = run room d (c :: rest) := by
  rw [run_cons, run_cons, hSettled.step c hc]

-- Numbers

@[simp] theorem digit?_text (d : Fin 10) : digit? (48 + d.val) = some d := by
  have hd := d.isLt
  rw [digit?, dif_pos ⟨by omega, by omega⟩]
  congr 1
  ext
  simp

theorem digit?_delimiter {c : ℕ} (hc : IsDelimiter c) : digit? c = none := by
  rcases hc with rfl | rfl | rfl <;> rfl

theorem step_digit (room : ℕ) (stack : List (Frame F))
    {phase phase' : NumberPhase} {x x' : Numeral} {d : Fin 10}
    (hStep : numberStep phase x (48 + d.val) = some (phase', x')) :
    step room ⟨stack, .number phase x⟩ (48 + d.val) = .ok ⟨stack, .number phase' x'⟩ := by
  have hd := d.isLt
  simp only [step, hStep]
  rw [if_neg (by omega)]

theorem run_digits (stack : List (Frame F)) {phase : NumberPhase} (part : List (Fin 10) → Numeral)
    (hPart : ∀ ds d, numberStep phase (part ds) (48 + d.val) = some (phase, part (ds ++ [d])))
    (ds more : List (Fin 10)) : run room ⟨stack, .number phase (part ds)⟩ (digitsText more) =
      .ok ⟨stack, .number phase (part (ds ++ more))⟩ := by
  induction more generalizing ds with
  | nil => simp [digitsText, run]
  | cons d more ih =>
    have hStep := step_digit room stack (hPart ds d)
    rw [digitsText, List.map_cons, run_of_step hStep]
    have hRest := ih (ds ++ [d])
    rw [digitsText] at hRest
    rw [hRest]
    simp

/- The phases in which a number may end. -/
def NumberPhase.CanEnd (phase : NumberPhase) : Prop :=
  phase = .zero ∨ phase = .whole ∨ phase = .fraction ∨ phase = .exponent

theorem settled_number {stack : List (Frame F)} {phase : NumberPhase} {x : Numeral}
    {v : Json F} {d : Reader F} (hEnd : phase.CanEnd) (hValue : numberValue phase x = .ok v)
    (hDeliver : deliver v stack = .ok d) : Settled room ⟨stack, .number phase x⟩ d := by
  have hMode : (∃ w, d = ⟨[], .done w⟩) ∨ ∃ s, d = ⟨s, .next⟩ := by
    unfold deliver at hDeliver
    split at hDeliver
    · exact Or.inl ⟨_, (Except.ok.inj hDeliver).symm⟩
    · exact Or.inr ⟨_, (Except.ok.inj hDeliver).symm⟩
    · exact Or.inr ⟨_, (Except.ok.inj hDeliver).symm⟩
    · cases hDeliver
  constructor
  · intro c hc
    have hNone : numberStep phase x c = none := by
      rcases hEnd with rfl | rfl | rfl | rfl <;>
        simp only [numberStep, digit?_delimiter hc] <;>
        rcases hc with rfl | rfl | rfl <;> rfl
    have hSpace : isSpace c = false := by
      rcases hc with rfl | rfl | rfl <;> rfl
    have hMinus : ¬ (phase = .minus ∧ c = 73) := by
      rintro ⟨rfl, _⟩
      rcases hEnd with h | h | h | h <;> cases h
    simp only [step, if_neg hMinus, hNone, hValue, bind, Except.bind, hDeliver]
    rcases hMode with ⟨w, rfl⟩ | ⟨s, rfl⟩
    · simp [hSpace]
    · rfl
  · unfold finish
    cases stack with
    | nil =>
      have hDone : d = ⟨[], .done v⟩ := (Except.ok.inj hDeliver).symm
      rw [hDone]
      exact hValue
    | cons frame rest =>
      rcases hMode with ⟨w, rfl⟩ | ⟨s, rfl⟩
      · unfold deliver at hDeliver
        split at hDeliver
        · rename_i hNil
          cases hNil
        · cases hDeliver
        · cases hDeliver
        · cases hDeliver
      · cases s <;> rfl

/- A first digit that is not a superfluous zero. -/
def WholeDigits (ds : List (Fin 10)) : Prop := ds = [0] ∨ ∃ d rest, ds = d :: rest ∧ d ≠ 0

theorem run_whole (room : ℕ) (stack : List (Frame F)) (negative : Bool) {ds : List (Fin 10)}
    (hWhole : WholeDigits ds) : ∃ phase : NumberPhase, (phase = .zero ∨ phase = .whole) ∧
      run room ⟨stack, .value⟩ ((if negative then [45] else []) ++ digitsText ds) =
        .ok ⟨stack, .number phase ⟨negative, ds, none, none⟩⟩ := by
  -- the first digit decides the phase
  have hFirst : ∀ (d : Fin 10) (rest : List (Fin 10)), run room ⟨stack, .value⟩
            ((if negative then [45] else []) ++ digitsText (d :: rest)) =
          run room ⟨stack, .number (if d = 0 then .zero else .whole) ⟨negative, [d], none, none⟩⟩
            (digitsText rest) := by
    intro d rest
    have hd := d.isLt
    cases negative with
    | true =>
      have hMinus : step room ⟨stack, .value⟩ 45 = .ok ⟨stack, .number .minus ⟨true, [], none, none⟩⟩ := rfl
      have hStep : numberStep .minus ⟨true, [], none, none⟩ (48 + d.val) =
            some (if d = 0 then .zero else .whole, ⟨true, [d], none, none⟩) := by
        simp [numberStep]
      rw [if_pos rfl, digitsText, List.map_cons, List.singleton_append,
        run_of_step hMinus, run_of_step (step_digit room stack hStep)]
      rfl
    | false =>
      have hStep : step room ⟨stack, .value⟩ (48 + d.val) = .ok ⟨stack,
              .number (if d = 0 then .zero else .whole) ⟨false, [d], none, none⟩⟩ := by
        have hSpace : isSpace (48 + d.val) = false := by
          simp [isSpace]
          omega
        simp only [step, hSpace, stepValue, digit?_text]
        rw [if_neg (by simp), if_neg (by omega), if_neg (by omega),
          if_neg (by omega), if_neg (by omega), if_neg (by omega),
          if_neg (by omega), if_neg (by omega), if_neg (by omega),
          if_neg (by omega)]
      rw [if_neg (by simp), digitsText, List.map_cons,
        List.nil_append, run_of_step hStep]
      rfl
  rcases hWhole with rfl | ⟨d, rest, rfl, hNe⟩
  · refine ⟨.zero, Or.inl rfl, ?_⟩
    rw [hFirst]
    rfl
  · refine ⟨.whole, Or.inr rfl, ?_⟩
    rw [hFirst, if_neg hNe, run_digits stack (fun ds => ⟨negative, ds, none, none⟩) (by simp [numberStep])]
    rfl

theorem run_fraction (room : ℕ) (stack : List (Frame F)) {phase : NumberPhase}
    (hPhase : phase = .zero ∨ phase = .whole) (negative : Bool)
    (whole : List (Fin 10)) {ds : List (Fin 10)}
    (hNil : ds ≠ []) : run room ⟨stack, .number phase ⟨negative, whole, none, none⟩⟩ (46 :: digitsText ds) =
      .ok ⟨stack, .number .fraction ⟨negative, whole, some ds, none⟩⟩ := by
  have hPoint : step room ⟨stack, .number phase ⟨negative, whole, none, none⟩⟩ 46 =
        .ok ⟨stack, .number .point ⟨negative, whole, none, none⟩⟩ := by
    rcases hPhase with rfl | rfl <;> rfl
  cases ds with
  | nil => exact absurd rfl hNil
  | cons d rest =>
    have hStep : numberStep .point ⟨negative, whole, none, none⟩ (48 + d.val) =
          some (.fraction, ⟨negative, whole, some [d], none⟩) := by
      simp [numberStep]
    rw [run_of_step hPoint, digitsText, List.map_cons, run_of_step (step_digit room stack hStep)]
    exact run_digits stack (fun ds => ⟨negative, whole, some ds, none⟩) (by simp [numberStep]) [d] rest

/- The sign and the digits of an exponent. -/
theorem run_exponent (room : ℕ) (stack : List (Frame F)) {phase : NumberPhase}
    (hPhase : phase = .zero ∨ phase = .whole ∨ phase = .fraction)
    (negative : Bool) (whole : List (Fin 10))
    (fraction : Option (List (Fin 10)))
    (s : ExpSign) {ds : List (Fin 10)}
    (hNil : ds ≠ []) : run room ⟨stack, .number phase ⟨negative, whole, fraction, none⟩⟩
        (101 :: ((match s with
          | .none => []
          | .plus => [43]
          | .minus => [45]) ++ digitsText ds)) =
      .ok ⟨stack, .number .exponent ⟨negative, whole, fraction, some (s, ds)⟩⟩ := by
  have hMark : step room ⟨stack, .number phase ⟨negative, whole, fraction, none⟩⟩ 101 =
        .ok ⟨stack, .number .mark ⟨negative, whole, fraction, none⟩⟩ := by
    rcases hPhase with rfl | rfl | rfl <;> rfl
  cases ds with
  | nil => exact absurd rfl hNil
  | cons d rest =>
    have hRest : run room ⟨stack, .number .exponent ⟨negative, whole, fraction, some (s, [d])⟩⟩
            (digitsText rest) =
          .ok ⟨stack, .number .exponent ⟨negative, whole, fraction, some (s, d :: rest)⟩⟩ :=
      run_digits stack (fun ds => ⟨negative, whole, fraction, some (s, ds)⟩) (by simp [numberStep]) [d] rest
    rw [run_of_step hMark]
    cases s with
    | none =>
      have hStep : numberStep .mark ⟨negative, whole, fraction, none⟩ (48 + d.val) =
            some (.exponent, ⟨negative, whole, fraction, some (.none, [d])⟩) := by
        simp [numberStep]
      rw [List.nil_append, digitsText, List.map_cons, run_of_step (step_digit room stack hStep)]
      exact hRest
    | plus =>
      have hSign : step room ⟨stack, .number .mark ⟨negative, whole, fraction, none⟩⟩ 43 =
            .ok ⟨stack, .number .sign ⟨negative, whole, fraction, some (.plus, [])⟩⟩ := rfl
      have hStep : numberStep .sign ⟨negative, whole, fraction, some (.plus, [])⟩ (48 + d.val) =
            some (.exponent, ⟨negative, whole, fraction, some (.plus, [d])⟩) := by
        simp [numberStep]
      rw [List.singleton_append, run_of_step hSign, digitsText,
        List.map_cons, run_of_step (step_digit room stack hStep)]
      exact hRest
    | minus =>
      have hSign : step room ⟨stack, .number .mark ⟨negative, whole, fraction, none⟩⟩ 45 =
            .ok ⟨stack, .number .sign ⟨negative, whole, fraction, some (.minus, [])⟩⟩ := rfl
      have hStep : numberStep .sign ⟨negative, whole, fraction, some (.minus, [])⟩ (48 + d.val) =
            some (.exponent, ⟨negative, whole, fraction, some (.minus, [d])⟩) := by
        simp [numberStep]
      rw [List.singleton_append, run_of_step hSign, digitsText,
        List.map_cons, run_of_step (step_digit room stack hStep)]
      exact hRest

theorem wholeDigits_decimalDigits (n : ℕ) : WholeDigits (decimalDigits n) := by
  by_cases hn : n = 0
  · left
    rw [hn]
    rfl
  · exact Or.inr (decimalDigits_head_ne_zero hn)

theorem run_intText {stack : List (Frame F)} {n : ℤ} {d : Reader F}
    (hLength : (decimalDigits n.natAbs).length ≤ maxStrDigits)
    (hDeliver : deliver (.int n) stack = .ok d) :
    ∃ r, run room ⟨stack, .value⟩ (intText n) = .ok r ∧ Settled room r d := by
  have hText : intText n = (if (decide (n < 0)) = true then [45] else []) ++
          digitsText (decimalDigits n.natAbs) := by
    by_cases hn : n < 0 <;> simp [intText, natText, hn]
  rcases run_whole room stack (decide (n < 0)) (wholeDigits_decimalDigits n.natAbs) with
    ⟨phase, hPhase, hRun⟩
  rw [hText, hRun]
  refine ⟨_, rfl, settled_number ?_ ?_ hDeliver⟩
  · rcases hPhase with rfl | rfl
    · exact Or.inl rfl
    · exact Or.inr (Or.inl rfl)
  · have hValue : (if decide (n < 0) = true then
            -((digitsValue (decimalDigits n.natAbs) : ℕ) : ℤ)
          else (digitsValue (decimalDigits n.natAbs) : ℕ)) =
          n := by
      rw [digitsValue_decimalDigits]
      by_cases hn : n < 0
      · simp only [hn, decide_true, if_true]
        omega
      · simp only [hn, decide_false]
        rw [if_neg (by simp)]
        omega
    rcases hPhase with rfl | rfl <;>
      simp only [numberValue, if_pos hLength, hValue]

theorem run_numeralText {stack : List (Frame F)} {x : Numeral} {d : Reader F} (hForm : x.WellFormed)
    (hDeliver : deliver (.float (FloatText.ofNumeral x)) stack = .ok d) :
    ∃ r, run room ⟨stack, .value⟩ (numeralText x) = .ok r ∧ Settled room r d := by
  rcases x with ⟨negative, whole, fraction, exponent⟩
  rcases run_whole room stack negative hForm.whole with ⟨phase, hPhase, hWhole⟩
  cases fraction with
  | none =>
    cases exponent with
    | none => rcases hForm.isFloat with h | h <;> exact absurd rfl h
    | some e =>
      rcases e with ⟨s, es⟩
      have hExponent := run_exponent room stack (hPhase.imp_right Or.inl) negative whole none s
          (hForm.exponent s es rfl)
      refine ⟨_, ?_, settled_number (Or.inr (Or.inr (Or.inr rfl))) rfl hDeliver⟩
      rw [← hExponent, ← run_append_of_ok hWhole]
      cases s <;> simp [numeralText]
  | some ds =>
    have hFraction := run_fraction room stack hPhase negative whole (hForm.fraction ds rfl)
    cases exponent with
    | none =>
      refine ⟨_, ?_, settled_number (Or.inr (Or.inr (Or.inl rfl))) rfl hDeliver⟩
      rw [← hFraction, ← run_append_of_ok hWhole]
      simp [numeralText]
    | some e =>
      rcases e with ⟨s, es⟩
      have hExponent := run_exponent room stack (Or.inr (Or.inr rfl)) negative whole (some ds) s
          (hForm.exponent s es rfl)
      refine ⟨_, ?_, settled_number (Or.inr (Or.inr (Or.inr rfl))) rfl hDeliver⟩
      rw [← hExponent, ← run_append_of_ok hFraction, ← run_append_of_ok hWhole]
      cases s <;> simp [numeralText]

-- Names

theorem run_name {stack : List (Frame F)} {v : Json F} {d : Reader F}
    (hDeliver : deliver v stack = .ok d) {rest : PyStr}
    (hNil : rest ≠ []) : run room ⟨stack, .name rest v⟩ rest = .ok d := by
  induction rest with
  | nil => exact absurd rfl hNil
  | cons c rest ih =>
    cases rest with
    | nil =>
      have hStep : step room ⟨stack, .name [c] v⟩ c = .ok d := by
        simp [step, hDeliver]
      rw [run_of_step hStep]
      rfl
    | cons c' rest =>
      have hStep : step room ⟨stack, .name (c :: c' :: rest) v⟩ c = .ok ⟨stack, .name (c' :: rest) v⟩ := by
        simp [step]
      rw [run_of_step hStep]
      exact ih (by simp)

-- Values

theorem intText_head (n : ℤ) : ∃ c rest, intText n = c :: rest ∧ (c = 45 ∨ 48 ≤ c ∧ c ≤ 57) := by
  cases hDigits : decimalDigits n.natAbs with
  | nil => exact absurd hDigits (decimalDigits_ne_nil _)
  | cons e es =>
    have he := e.isLt
    by_cases hn : n < 0
    · exact ⟨45, natText n.natAbs, by rw [intText, if_pos hn], Or.inl rfl⟩
    · refine ⟨48 + e.val, digitsText es, ?_, Or.inr ?_⟩
      · rw [intText, if_neg hn, natText, hDigits]
        rfl
      · omega

theorem numeralText_head {x : Numeral} (hForm : x.WellFormed) :
    ∃ c rest, numeralText x = c :: rest ∧ (c = 45 ∨ 48 ≤ c ∧ c ≤ 57) := by
  have hWhole : ∃ e es, x.whole = e :: es := by
    rcases hForm.whole with h | ⟨e, es, h, _⟩
    · exact ⟨_, _, h⟩
    · exact ⟨_, _, h⟩
  rcases hWhole with ⟨e, es, hWhole⟩
  have he := e.isLt
  by_cases hNegative : x.negative = true
  · rw [numeralText, if_pos hNegative]
    exact ⟨45, _, rfl, Or.inl rfl⟩
  · rw [numeralText, if_neg hNegative, hWhole]
    exact ⟨48 + e.val, _, rfl, Or.inr (by omega)⟩

theorem render_head {v : Json F} (hDump : dumpable v = true) :
    ∃ c rest, render v = c :: rest ∧ isSpace c = false ∧ c ≠ 93 := by
  have hNumber : ∀ c, (c = 45 ∨ 48 ≤ c ∧ c ≤ 57) → isSpace c = false ∧ c ≠ 93 := by
    intro c hc
    constructor
    · simp [isSpace]
      omega
    · omega
  cases v with
  | null => exact ⟨_, _, rfl, rfl, by decide⟩
  | bool b => cases b <;> exact ⟨_, _, rfl, rfl, by decide⟩
  | int n =>
    rcases intText_head n with ⟨c, rest, hText, hc⟩
    exact ⟨c, rest, hText, hNumber c hc⟩
  | float x =>
    cases x with
    | finite x =>
      rcases numeralText_head (FloatText.numeral_wellFormed x) with ⟨c, rest, hText, hc⟩
      exact ⟨c, rest, hText, hNumber c hc⟩
    | nan => cases hDump
    | infinite b => cases hDump
  | str s => exact ⟨_, _, rfl, rfl, by decide⟩
  | arr items => exact ⟨_, _, rfl, rfl, by decide⟩
  | obj members => exact ⟨_, _, rfl, rfl, by decide⟩

theorem run_firstItem (stack : List (Frame F)) {v : Json F} (hDump : dumpable v = true) :
    run room ⟨stack, .firstItem⟩ (render v) = run room ⟨stack, .value⟩ (render v) := by
  rcases render_head hDump with ⟨c, rest, hText, hSpace, hNe⟩
  rw [hText, run_cons, run_cons]
  simp [step, hSpace, hNe]

theorem renderMoreItems_head (items : List (Json F)) :
    ∃ c rest, renderMoreItems items = c :: rest ∧ IsDelimiter c := by
  cases items with
  | nil => exact ⟨_, _, rfl, Or.inr (Or.inl rfl)⟩
  | cons v rest => exact ⟨_, _, rfl, Or.inl rfl⟩

theorem renderMoreMembers_head (members : List (PyStr × Json F)) :
    ∃ c rest, renderMoreMembers members = c :: rest ∧ IsDelimiter c := by
  cases members with
  | nil => exact ⟨_, _, rfl, Or.inr (Or.inr rfl)⟩
  | cons m rest => exact ⟨_, _, rfl, Or.inl rfl⟩

/- A key and its colon, after a brace or a comma. -/
theorem run_key {stack : List (Frame F)} {members : List (PyStr × Json F)} {mode : Mode F}
    (hQuote : step room ⟨.obj members none :: stack, mode⟩ 34 =
        .ok ⟨.obj members none :: stack, .text true []⟩)
    (k : PyStr)
    (text : PyStr) : run room ⟨.obj members none :: stack, mode⟩ (renderStr k ++ 58 :: text) =
      run room ⟨.obj members (some (rereadStr k)) :: stack, .value⟩
        text := by
  have hKey : run room ⟨.obj members none :: stack, .text true []⟩ (k.flatMap escapeChar ++ [34]) =
        .ok ⟨.obj members none :: stack, .colon (rereadStr k)⟩ := by
    rw [run_renderStr, endText, if_pos rfl, List.reverse_reverse]
  have hColon : step room ⟨.obj members none :: stack, .colon (rereadStr k)⟩ 58 =
        .ok ⟨.obj members (some (rereadStr k)) :: stack, .value⟩ := rfl
  rw [renderStr, List.cons_append, List.cons_append,
    run_of_step hQuote, run_append_of_ok hKey, run_of_step hColon]

mutual

theorem run_render (v : Json F) (stack : List (Frame F)) {d : Reader F} (hDump : dumpable v = true)
    (hRoom : stack.length + depth v ≤ room)
    (hDeliver : deliver (reread v) stack = .ok d) :
    ∃ r, run room ⟨stack, .value⟩ (render v) = .ok r ∧ Settled room r d := by
  match v with
  | .null =>
    have hStep : step room ⟨stack, .value⟩ 110 = .ok ⟨stack, .name (pyStr "ull") .null⟩ := rfl
    refine ⟨d, ?_, Settled.refl d⟩
    exact (run_of_step hStep _).trans (run_name hDeliver (by decide))
  | .bool true =>
    have hStep : step room ⟨stack, .value⟩ 116 = .ok ⟨stack, .name (pyStr "rue") (.bool true)⟩ :=
      rfl
    refine ⟨d, ?_, Settled.refl d⟩
    exact (run_of_step hStep _).trans (run_name hDeliver (by decide))
  | .bool false =>
    have hStep : step room ⟨stack, .value⟩ 102 = .ok ⟨stack, .name (pyStr "alse") (.bool false)⟩ :=
      rfl
    refine ⟨d, ?_, Settled.refl d⟩
    exact (run_of_step hStep _).trans (run_name hDeliver (by decide))
  | .int n =>
    rw [dumpable, decide_eq_true_iff] at hDump
    rw [render]
    exact run_intText hDump hDeliver
  | .float (.finite x) =>
    rw [render, floatText]
    apply run_numeralText (FloatText.numeral_wellFormed x)
    rw [FloatText.ofNumeral_numeral]
    exact hDeliver
  | .float .nan => cases hDump
  | .float (.infinite _) => cases hDump
  | .str s =>
    have hStep : step room ⟨stack, .value⟩ 34 = .ok ⟨stack, .text false []⟩ := rfl
    refine ⟨d, ?_, Settled.refl d⟩
    rw [render, renderStr, List.cons_append, run_of_step hStep, run_renderStr, endText, List.reverse_reverse]
    exact hDeliver
  | .arr items =>
    rw [depth] at hRoom
    have hStep : step room ⟨stack, .value⟩ 91 = .ok ⟨.arr [] :: stack, .firstItem⟩ := by
      change enter room _ _ stack = _
      rw [enter, if_pos (by omega)]
    refine ⟨d, ?_, Settled.refl d⟩
    rw [render, run_of_step hStep]
    exact run_renderItems items hDump (by omega) hDeliver
  | .obj members =>
    rw [depth] at hRoom
    have hStep : step room ⟨stack, .value⟩ 123 = .ok ⟨.obj [] none :: stack, .firstKey⟩ := by
      change enter room _ _ stack = _
      rw [enter, if_pos (by omega)]
    refine ⟨d, ?_, Settled.refl d⟩
    rw [render, run_of_step hStep]
    exact run_renderMembers members hDump (by omega) hDeliver

theorem run_renderItems (items : List (Json F))
    {stack : List (Frame F)} {d : Reader F} (hDump : dumpableItems items = true)
    (hRoom : stack.length + 1 + depthItems items ≤ room)
    (hDeliver : deliver (.arr (rereadItems items)) stack = .ok d) :
    run room ⟨.arr [] :: stack, .firstItem⟩ (renderItems items) = .ok d := by
  match items with
  | [] =>
    have hStep : step room ⟨.arr [] :: stack, .firstItem⟩ 93 = .ok d := hDeliver
    rw [renderItems, run_of_step hStep]
    rfl
  | v :: rest =>
    rw [dumpableItems, Bool.and_eq_true] at hDump
    rw [depthItems] at hRoom
    rcases run_render v (.arr [] :: stack) hDump.1 (by rw [List.length_cons]; omega) rfl with
      ⟨r, hRun, hSettled⟩
    rcases renderMoreItems_head rest with ⟨c, text, hText, hc⟩
    rw [← run_firstItem _ hDump.1] at hRun
    rw [renderItems, run_append_of_ok hRun, hText, hSettled.run_eq hc, ← hText]
    exact run_renderMoreItems rest hDump.2 (by omega) hDeliver

theorem run_renderMoreItems (items : List (Json F))
    {stack : List (Frame F)} {read : List (Json F)} {d : Reader F}
    (hDump : dumpableItems items = true) (hRoom : stack.length + 1 + depthItems items ≤ room)
    (hDeliver : deliver (.arr (read.reverse ++ rereadItems items)) stack = .ok d) :
    run room ⟨.arr read :: stack, .next⟩ (renderMoreItems items) = .ok d := by
  match items with
  | [] =>
    have hStep : step room ⟨.arr read :: stack, .next⟩ 93 = .ok d := by
      rw [rereadItems, List.append_nil] at hDeliver
      exact hDeliver
    rw [renderMoreItems, run_of_step hStep]
    rfl
  | v :: rest =>
    rw [dumpableItems, Bool.and_eq_true] at hDump
    rw [depthItems] at hRoom
    have hComma : step room ⟨.arr read :: stack, .next⟩ 44 = .ok ⟨.arr read :: stack, .value⟩ := rfl
    rcases run_render v (.arr read :: stack) hDump.1 (by rw [List.length_cons]; omega) rfl with
      ⟨r, hRun, hSettled⟩
    rcases renderMoreItems_head rest with ⟨c, text, hText, hc⟩
    rw [renderMoreItems, List.cons_append, run_of_step hComma,
      run_append_of_ok hRun, hText, hSettled.run_eq hc, ← hText]
    apply run_renderMoreItems rest hDump.2 (by omega)
    rw [rereadItems] at hDeliver
    rw [List.reverse_cons, List.append_assoc]
    exact hDeliver

theorem run_renderMembers (members : List (PyStr × Json F))
    {stack : List (Frame F)} {d : Reader F} (hDump : dumpableMembers members = true)
    (hRoom : stack.length + 1 + depthMembers members ≤ room)
    (hDeliver : deliver (.obj (rereadMembers members [])) stack = .ok d) :
    run room ⟨.obj [] none :: stack, .firstKey⟩ (renderMembers members) = .ok d := by
  match members with
  | [] =>
    have hStep : step room ⟨.obj [] none :: stack, .firstKey⟩ 125 = .ok d := hDeliver
    rw [renderMembers, run_of_step hStep]
    rfl
  | (k, v) :: rest =>
    rw [dumpableMembers, Bool.and_eq_true] at hDump
    rw [depthMembers] at hRoom
    have hQuote : step room ⟨.obj [] none :: stack, .firstKey⟩ 34 =
          .ok ⟨.obj [] none :: stack, .text true []⟩ := rfl
    rcases run_render v (.obj [] (some (rereadStr k)) :: stack)
        hDump.1 (by rw [List.length_cons]; omega) rfl with
      ⟨r, hRun, hSettled⟩
    rcases renderMoreMembers_head rest with ⟨c, text, hText, hc⟩
    rw [renderMembers, List.append_assoc, List.cons_append, run_key hQuote, run_append_of_ok hRun, hText,
      hSettled.run_eq hc, ← hText]
    exact run_renderMoreMembers rest hDump.2 (by omega) hDeliver

theorem run_renderMoreMembers (members : List (PyStr × Json F))
    {stack : List (Frame F)} {read : List (PyStr × Json F)}
    {d : Reader F} (hDump : dumpableMembers members = true)
    (hRoom : stack.length + 1 + depthMembers members ≤ room)
    (hDeliver : deliver (.obj (rereadMembers members read)) stack = .ok d) :
    run room ⟨.obj read none :: stack, .next⟩ (renderMoreMembers members) = .ok d := by
  match members with
  | [] =>
    have hStep : step room ⟨.obj read none :: stack, .next⟩ 125 = .ok d := hDeliver
    rw [renderMoreMembers, run_of_step hStep]
    rfl
  | (k, v) :: rest =>
    rw [dumpableMembers, Bool.and_eq_true] at hDump
    rw [depthMembers] at hRoom
    have hComma : step room ⟨.obj read none :: stack, .next⟩ 44 = .ok ⟨.obj read none :: stack, .key⟩ := rfl
    have hQuote : step room ⟨.obj read none :: stack, .key⟩ 34 =
          .ok ⟨.obj read none :: stack, .text true []⟩ :=
      rfl
    rcases run_render v (.obj read (some (rereadStr k)) :: stack)
        hDump.1 (by rw [List.length_cons]; omega) rfl with
      ⟨r, hRun, hSettled⟩
    rcases renderMoreMembers_head rest with ⟨c, text, hText, hc⟩
    rw [renderMoreMembers, List.cons_append, List.cons_append,
      run_of_step hComma, List.append_assoc, List.cons_append,
      run_key hQuote, run_append_of_ok hRun, hText,
      hSettled.run_eq hc, ← hText]
    exact run_renderMoreMembers rest hDump.2 (by omega) hDeliver

end

theorem loads_render {v : Json F} (hDump : dumpable v = true)
    (hRoom : depth v ≤ room) : loads room (render v) = .ok (reread v) := by
  have hValue : ∃ r, run room ⟨[], .value⟩ (render v) = .ok r ∧ Settled room r ⟨[], .done (reread v)⟩ :=
    run_render v [] hDump (by simpa using hRoom) rfl
  rcases hValue with ⟨r, hRun, hSettled⟩
  rw [loads, Reader.start, hRun]
  change finish r = _
  rw [hSettled.finish]
  rfl

end SingboxOps.Json
