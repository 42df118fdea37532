import SingboxOps.Lib.Json.Value

/-
  The JSON reader, as a pushdown machine over code points.

  The stack holds the containers that are open; the machine
  stops with `ParseError.recursion` when one more would be
  opened than the interpreter has room for.
-/

namespace SingboxOps.Json

/- The exceptions of a reader. -/
inductive ParseError where
  | value
  | recursion
deriving DecidableEq

-- Reader States

/-
  A container that is open: the items read so far, latest
  first, or the members and the key a value is read for.
-/
inductive Frame (F : Type) where
  | arr (items : List (Json F))
  | obj (members : List (PyStr × Json F)) (key : Option PyStr)

/- How far the text of a number has been read. -/
inductive NumberPhase where
  | minus
  | zero
  | whole
  | point
  | fraction
  | mark
  | sign
  | exponent
deriving DecidableEq

/- What a reader expects next. -/
inductive Mode (F : Type) where
  | value
  | firstItem
  | firstKey
  | key
  | colon (key : PyStr)
  | next
  | text (isKey : Bool) (read : PyStr)
  | escape (isKey : Bool) (read : PyStr)
  | unit (isKey : Bool) (read : PyStr) (digits : ℕ) (value : ℕ)
  | name (rest : PyStr) (value : Json F)
  | number (phase : NumberPhase) (read : Numeral)
  | done (value : Json F)

/- The open containers and what is expected inside. -/
structure Reader (F : Type) where
  stack : List (Frame F)
  mode : Mode F

variable {F : Type}

/- A reader at the beginning of a text. -/
def Reader.start : Reader F := ⟨[], .value⟩

/- `[ \t\n\r]` -/
def isSpace (c : ℕ) : Bool := c == 32 || c == 9 || c == 10 || c == 13

/- The digit a code point is. -/
def digit? (c : ℕ) : Option (Fin 10) :=
  if h : 48 ≤ c ∧ c ≤ 57 then some ⟨c - 48, by omega⟩
  else none

/- The value of a hexadecimal digit. -/
def hexValue? (c : ℕ) : Option ℕ :=
  if 48 ≤ c ∧ c ≤ 57 then some (c - 48)
  else if 97 ≤ c ∧ c ≤ 102 then some (c - 87)
  else if 65 ≤ c ∧ c ≤ 70 then some (c - 55)
  else none

/- The code point a one-letter escape stands for. -/
def escapeValue? (c : ℕ) : Option ℕ :=
  if c = 34 ∨ c = 92 ∨ c = 47 then some c
  else if c = 98 then some 8
  else if c = 102 then some 12
  else if c = 110 then some 10
  else if c = 114 then some 13
  else if c = 116 then some 9
  else none

/-
  Add an escaped unit to the text read so far, latest first:
  a low surrogate completes a high one before it.
-/
def pushUnit (u : ℕ) : PyStr → PyStr
  | h :: rest =>
    if 55296 ≤ h ∧ h < 56320 ∧ 56320 ≤ u ∧ u < 57344 then
      (65536 + (h - 55296) * 1024 + (u - 56320)) :: rest
    else u :: h :: rest
  | [] => [u]

-- Transitions

/- Hand a finished value to the innermost container. -/
def deliver (v : Json F) : List (Frame F) → Except ParseError (Reader F)
  | [] => .ok ⟨[], .done v⟩
  | .arr items :: rest => .ok ⟨.arr (v :: items) :: rest, .next⟩
  | .obj members (some key) :: rest => .ok ⟨.obj (setItem members key v) none :: rest, .next⟩
  | .obj _ none :: _ => .error .value

/- Open a container, if there is room for one more. -/
def enter (room : ℕ) (frame : Frame F) (mode : Mode F)
    (stack : List (Frame F)) : Except ParseError (Reader F) :=
  if stack.length < room then .ok ⟨frame :: stack, mode⟩
  else .error .recursion

/- The first character of a value. -/
def stepValue (room : ℕ) (stack : List (Frame F)) (c : ℕ) : Except ParseError (Reader F) :=
  if c = 34 then .ok ⟨stack, .text false []⟩
  else if c = 91 then enter room (.arr []) .firstItem stack
  else if c = 123 then enter room (.obj [] none) .firstKey stack
  else if c = 110 then .ok ⟨stack, .name (pyStr "ull") .null⟩
  else if c = 116 then .ok ⟨stack, .name (pyStr "rue") (.bool true)⟩
  else if c = 102 then .ok ⟨stack, .name (pyStr "alse") (.bool false)⟩
  else if c = 78 then .ok ⟨stack, .name (pyStr "aN") (.float .nan)⟩
  else if c = 73 then
    .ok ⟨stack, .name (pyStr "nfinity") (.float (.infinite false))⟩
  else if c = 45 then .ok ⟨stack, .number .minus ⟨true, [], none, none⟩⟩
  else
    match digit? c with
    | some d =>
      .ok ⟨stack, .number (if d = 0 then .zero else .whole) ⟨false, [d], none, none⟩⟩
    | none => .error .value

/- After a value: a comma or the container's end. -/
def stepNext (stack : List (Frame F)) (c : ℕ) : Except ParseError (Reader F) :=
  if isSpace c then .ok ⟨stack, .next⟩
  else
    match stack with
    | .arr items :: rest =>
      if c = 44 then .ok ⟨stack, .value⟩
      else if c = 93 then deliver (.arr items.reverse) rest
      else .error .value
    | .obj members _ :: rest =>
      if c = 44 then .ok ⟨stack, .key⟩
      else if c = 125 then deliver (.obj members) rest
      else .error .value
    | [] => .error .value

/- Where the characters of a number lead. -/
def numberStep (phase : NumberPhase) (x : Numeral) (c : ℕ) : Option (NumberPhase × Numeral) :=
  match phase, digit? c with
  | .minus, some d => some (if d = 0 then .zero else .whole, { x with whole := [d] })
  | .whole, some d => some (.whole, { x with whole := x.whole ++ [d] })
  | .point, some d => some (.fraction, { x with fraction := some [d] })
  | .fraction, some d =>
    some (.fraction, { x with fraction := x.fraction.map (fun ds => ds ++ [d]) })
  | .mark, some d => some (.exponent, { x with exponent := some (.none, [d]) })
  | .sign, some d =>
    some (.exponent, { x with exponent := x.exponent.map (fun e => (e.1, [d])) })
  | .exponent, some d =>
    some (.exponent,
      { x with
        exponent := x.exponent.map (fun e => (e.1, e.2 ++ [d])) })
  | .zero, none | .whole, none =>
    if c = 46 then some (.point, x)
    else if c = 101 ∨ c = 69 then some (.mark, x)
    else none
  | .fraction, none => if c = 101 ∨ c = 69 then some (.mark, x) else none
  | .mark, none =>
    if c = 43 then some (.sign, { x with exponent := some (.plus, []) })
    else if c = 45 then
      some (.sign, { x with exponent := some (.minus, []) })
    else none
  | _, _ => none

/-
  The value of a number that has been read; an integer too
  long to convert is a `ValueError`.
-/
def numberValue [FloatText F] (phase : NumberPhase) (x : Numeral) : Except ParseError (Json F) :=
  match phase with
  | .zero | .whole =>
    if x.whole.length ≤ maxStrDigits then
      let n : ℤ := digitsValue x.whole
      .ok (.int (if x.negative then -n else n))
    else .error .value
  | .fraction | .exponent => .ok (.float (FloatText.ofNumeral x))
  | _ => .error .value

/- A string that has ended is a key or a value. -/
def endText (isKey : Bool) (read : PyStr) (stack : List (Frame F)) : Except ParseError (Reader F) :=
  if isKey then .ok ⟨stack, .colon read.reverse⟩
  else deliver (.str read.reverse) stack

/- Read one code point. -/
def step [FloatText F] (room : ℕ) (r : Reader F) (c : ℕ) : Except ParseError (Reader F) :=
  match r.mode with
  | .value => if isSpace c then .ok r else stepValue room r.stack c
  | .firstItem =>
    if isSpace c then .ok r
    else if c = 93 then stepNext r.stack c
    else stepValue room r.stack c
  | .firstKey =>
    if isSpace c then .ok r
    else if c = 125 then stepNext r.stack c
    else if c = 34 then .ok ⟨r.stack, .text true []⟩
    else .error .value
  | .key =>
    if isSpace c then .ok r
    else if c = 34 then .ok ⟨r.stack, .text true []⟩
    else .error .value
  | .colon key =>
    if isSpace c then .ok r
    else if c = 58 then
      match r.stack with
      | .obj members _ :: rest => .ok ⟨.obj members (some key) :: rest, .value⟩
      | _ => .error .value
    else .error .value
  | .next => stepNext r.stack c
  | .text isKey read =>
    if c = 34 then endText isKey read r.stack
    else if c = 92 then .ok ⟨r.stack, .escape isKey read⟩
    else if c < 32 then .error .value
    else .ok ⟨r.stack, .text isKey (c :: read)⟩
  | .escape isKey read =>
    if c = 117 then .ok ⟨r.stack, .unit isKey read 0 0⟩
    else
      match escapeValue? c with
      | some e => .ok ⟨r.stack, .text isKey (e :: read)⟩
      | none => .error .value
  | .unit isKey read digits value =>
    match hexValue? c with
    | some h =>
      let value := 16 * value + h
      if digits = 3 then
        .ok ⟨r.stack, .text isKey (pushUnit value read)⟩
      else .ok ⟨r.stack, .unit isKey read (digits + 1) value⟩
    | none => .error .value
  | .name rest value =>
    match rest with
    | [] => .error .value
    | [d] =>
      if c = d then deliver value r.stack
      else .error .value
    | d :: rest =>
      if c = d then .ok ⟨r.stack, .name rest value⟩
      else .error .value
  | .number phase x =>
    if phase = .minus ∧ c = 73 then
      .ok ⟨r.stack, .name (pyStr "nfinity") (.float (.infinite true))⟩
    else
      match numberStep phase x c with
      | some (phase, x) => .ok ⟨r.stack, .number phase x⟩
      | none => do
          let v ← numberValue phase x
          let ended ← deliver v r.stack
          match ended.mode with
          | .done v =>
            if isSpace c then .ok ⟨[], .done v⟩
            else .error .value
          | _ => stepNext ended.stack c
  | .done _ => if isSpace c then .ok r else .error .value

/- Read a text from a state. -/
def run [FloatText F] (room : ℕ) : Reader F → PyStr → Except ParseError (Reader F)
  | r, [] => .ok r
  | r, c :: rest => do
      let r ← step room r c
      run room r rest

/- The value of a text that has ended. -/
def finish [FloatText F] (r : Reader F) : Except ParseError (Json F) := match r.stack, r.mode with
  | [], .done v => .ok v
  | [], .number phase x => numberValue phase x
  | _, _ => .error .value

/- `json.loads` of a text. -/
def loads [FloatText F] (room : ℕ) (text : PyStr) : Except ParseError (Json F) := do
  let r ← run room Reader.start text
  finish r

end SingboxOps.Json
