import SingboxOps.Lib.Float
import SingboxOps.Lib.Text
import Mathlib.Data.List.Sort
import Mathlib.Data.List.Lex

/-
  JSON values and their compact rendering.

  An object is a dictionary: its members stand in insertion
  order and assigning to a key it has keeps the position.
  Rendering escapes everything outside printable ASCII.
-/

namespace SingboxOps

/- A JSON value. -/
inductive Json (F : Type) where
  | null
  | bool (b : Bool)
  | int (n : ℤ)
  | float (x : ExtFloat F)
  | str (s : PyStr)
  | arr (items : List (Json F))
  | obj (members : List (PyStr × Json F))

namespace Json

variable {F : Type}

-- Dictionaries

/- `members[key] = value`. -/
def setItem {V : Type} (members : List (PyStr × V)) (key : PyStr) (value : V) : List (PyStr × V) :=
  match members with
  | [] => [(key, value)]
  | (k, v) :: rest =>
    if k = key then (k, value) :: rest
    else (k, v) :: setItem rest key value

/- `members.get(key)`. -/
def getItem {V : Type} (members : List (PyStr × V)) (key : PyStr) : Option V := match members with
  | [] => none
  | (k, v) :: rest => if k = key then some v else getItem rest key

/- The order of members by their keys' code points. -/
def keyOrder {V : Type} (a b : PyStr × V) : Prop := a.1 ≤ b.1

instance {V : Type} (a b : PyStr × V) :
    Decidable (keyOrder a b) := by
  unfold keyOrder
  infer_instance

mutual

/- Every object of a value with its keys in order. -/
def sortKeys : Json F → Json F
  | .arr items => .arr (sortItems items)
  | .obj members => .obj ((sortMembers members).insertionSort keyOrder)
  | v => v

def sortItems : List (Json F) → List (Json F)
  | [] => []
  | v :: rest => sortKeys v :: sortItems rest

def sortMembers : List (PyStr × Json F) → List (PyStr × Json F)
  | [] => []
  | (k, v) :: rest => (k, sortKeys v) :: sortMembers rest

end

-- Scalars

/- The lower-case hexadecimal digit of a number below 16. -/
def hexDigit (d : ℕ) : ℕ := if d < 10 then 48 + d else 87 + d

/- `\uXXXX` for one 16-bit unit. -/
def escapeUnit (u : ℕ) : PyStr := [92, 117, hexDigit (u / 4096 % 16), hexDigit (u / 256 % 16),
    hexDigit (u / 16 % 16), hexDigit (u % 16)]

/- One code point inside a string literal. -/
def escapeChar (c : ℕ) : PyStr :=
  if c = 34 then [92, 34]
  else if c = 92 then [92, 92]
  else if c = 10 then [92, 110]
  else if c = 13 then [92, 114]
  else if c = 9 then [92, 116]
  else if c = 12 then [92, 102]
  else if c = 8 then [92, 98]
  else if 32 ≤ c ∧ c ≤ 126 then [c]
  else if c < 65536 then escapeUnit c
  else
    -- a surrogate pair
    escapeUnit (55296 + (c - 65536) / 1024) ++ escapeUnit (56320 + (c - 65536) % 1024)

/- A string literal. -/
def renderStr (s : PyStr) : PyStr := 34 :: s.flatMap escapeChar ++ [34]

/- Decimal digits as text. -/
def digitsText (ds : List (Fin 10)) : PyStr := ds.map (fun d => 48 + d.val)

/- `str(n)` of a natural number. -/
def natText (n : ℕ) : PyStr := digitsText (decimalDigits n)

/- `str(n)`. -/
def intText (n : ℤ) : PyStr := if n < 0 then 45 :: natText n.natAbs else natText n.natAbs

/- The text of a numeral. -/
def numeralText (x : Numeral) : PyStr :=
  (if x.negative then [45] else []) ++ digitsText x.whole ++ (match x.fraction with
      | none => []
      | some ds => 46 :: digitsText ds) ++
    (match x.exponent with
      | none => []
      | some (.none, ds) => 101 :: digitsText ds
      | some (.plus, ds) => 101 :: 43 :: digitsText ds
      | some (.minus, ds) => 101 :: 45 :: digitsText ds)

/- A float, with the names of the three non-finite ones. -/
def floatText [FloatText F] : ExtFloat F → PyStr
  | .finite x => numeralText (FloatText.numeral x)
  | .nan => pyStr "NaN"
  | .infinite false => pyStr "Infinity"
  | .infinite true => pyStr "-Infinity"

-- Rendering

variable [FloatText F]

mutual

/- The compact text of a value. -/
def render : Json F → PyStr
  | .null => pyStr "null"
  | .bool true => pyStr "true"
  | .bool false => pyStr "false"
  | .int n => intText n
  | .float x => floatText x
  | .str s => renderStr s
  | .arr items => 91 :: renderItems items
  | .obj members => 123 :: renderMembers members

/- The items of an array and its closing bracket. -/
def renderItems : List (Json F) → PyStr
  | [] => [93]
  | v :: rest => render v ++ renderMoreItems rest

def renderMoreItems : List (Json F) → PyStr
  | [] => [93]
  | v :: rest => 44 :: render v ++ renderMoreItems rest

/- The members of an object and its closing brace. -/
def renderMembers : List (PyStr × Json F) → PyStr
  | [] => [125]
  | (k, v) :: rest => renderStr k ++ 58 :: render v ++ renderMoreMembers rest

def renderMoreMembers : List (PyStr × Json F) → PyStr
  | [] => [125]
  | (k, v) :: rest => 44 :: renderStr k ++ 58 :: render v ++ renderMoreMembers rest

end

/- The longest integer text the interpreter converts. -/
def maxStrDigits : ℕ := 4300

mutual

/-
  The encoder accepts the value: no float that is not finite
  and no integer too long to print.
-/
def dumpable : Json F → Bool
  | .int n => decide ((decimalDigits n.natAbs).length ≤ maxStrDigits)
  | .float (.finite _) => true
  | .float _ => false
  | .arr items => dumpableItems items
  | .obj members => dumpableMembers members
  | _ => true

def dumpableItems : List (Json F) → Bool
  | [] => true
  | v :: rest => dumpable v && dumpableItems rest

def dumpableMembers : List (PyStr × Json F) → Bool
  | [] => true
  | (_, v) :: rest => dumpable v && dumpableMembers rest

end

-- Printable Text

/- Text of printable ASCII characters. -/
def Printable (s : PyStr) : Prop := ∀ c ∈ s, 32 ≤ c ∧ c < 127

instance (s : PyStr) : Decidable (Printable s) := by
  unfold Printable
  infer_instance

theorem printable_nil : Printable [] := fun _ hc => by cases hc

theorem printable_cons {c : ℕ} {s : PyStr} (hc : 32 ≤ c ∧ c < 127)
    (hs : Printable s) : Printable (c :: s) := by
  intro d hd
  rcases List.mem_cons.mp hd with rfl | hRest
  · exact hc
  · exact hs d hRest

theorem printable_append {s t : PyStr} (hs : Printable s) (ht : Printable t) : Printable (s ++ t) := by
  intro c hc
  rcases List.mem_append.mp hc with h | h
  · exact hs c h
  · exact ht c h

theorem printable_digitsText (ds : List (Fin 10)) : Printable (digitsText ds) := by
  intro c hc
  rcases List.mem_map.mp hc with ⟨d, _, rfl⟩
  have hd := d.isLt
  omega

theorem printable_escapeUnit (u : ℕ) : Printable (escapeUnit u) := by
  have hDigit : ∀ n, 32 ≤ hexDigit (n % 16) ∧ hexDigit (n % 16) < 127 := by
    intro n
    have hn : n % 16 < 16 := Nat.mod_lt n (by norm_num)
    unfold hexDigit
    split_ifs <;> omega
  exact printable_cons (by decide)
    (printable_cons (by decide)
      (printable_cons (hDigit _) (printable_cons (hDigit _) (printable_cons (hDigit _)
            (printable_cons (hDigit _) printable_nil)))))

theorem printable_renderStr (s : PyStr) : Printable (renderStr s) := by
  have hChar : ∀ c, Printable (escapeChar c) := by
    intro c
    unfold escapeChar
    split_ifs with _ _ _ _ _ _ _ hPrint
    any_goals decide
    · exact printable_cons (by omega) printable_nil
    · exact printable_escapeUnit c
    · exact printable_append (printable_escapeUnit _) (printable_escapeUnit _)
  refine printable_append (printable_cons (by decide) ?_) (by decide)
  intro c hc
  rcases List.mem_flatMap.mp hc with ⟨d, _, hd⟩
  exact hChar d c hd

theorem printable_intText (n : ℤ) : Printable (intText n) := by
  unfold intText natText
  split_ifs
  · exact printable_cons (by decide) (printable_digitsText _)
  · exact printable_digitsText _

theorem printable_numeralText (x : Numeral) : Printable (numeralText x) := by
  unfold numeralText
  refine printable_append (printable_append (printable_append ?_ (printable_digitsText _)) ?_) ?_
  · split_ifs <;> decide
  · split
    · exact printable_nil
    · exact printable_cons (by decide) (printable_digitsText _)
  · split
    · exact printable_nil
    · exact printable_cons (by decide) (printable_digitsText _)
    · exact printable_cons (by decide)
        (printable_cons (by decide) (printable_digitsText _))
    · exact printable_cons (by decide)
        (printable_cons (by decide) (printable_digitsText _))

mutual

theorem printable_render (v : Json F) : Printable (render v) := by
  match v with
  | .null => exact (by decide : Printable (pyStr "null"))
  | .bool true => exact (by decide : Printable (pyStr "true"))
  | .bool false => exact (by decide : Printable (pyStr "false"))
  | .int n => exact printable_intText n
  | .float (.finite x) => exact printable_numeralText _
  | .float .nan => exact (by decide : Printable (pyStr "NaN"))
  | .float (.infinite false) => exact (by decide : Printable (pyStr "Infinity"))
  | .float (.infinite true) => exact (by decide : Printable (pyStr "-Infinity"))
  | .str s => exact printable_renderStr s
  | .arr items => exact printable_cons (by decide) (printable_renderItems items)
  | .obj members => exact printable_cons (by decide) (printable_renderMembers members)

theorem printable_renderItems (items : List (Json F)) : Printable (renderItems items) := by
  match items with
  | [] => exact (by decide : Printable [93])
  | v :: rest =>
    exact printable_append (printable_render v) (printable_renderMoreItems rest)

theorem printable_renderMoreItems (items : List (Json F)) : Printable (renderMoreItems items) := by
  match items with
  | [] => exact (by decide : Printable [93])
  | v :: rest =>
    exact printable_append (printable_cons (by decide) (printable_render v))
      (printable_renderMoreItems rest)

theorem printable_renderMembers (members : List (PyStr × Json F)) : Printable (renderMembers members) := by
  match members with
  | [] => exact (by decide : Printable [125])
  | (k, v) :: rest =>
    exact printable_append (printable_append (printable_renderStr k)
        (printable_cons (by decide) (printable_render v)))
      (printable_renderMoreMembers rest)

theorem printable_renderMoreMembers (members : List (PyStr × Json F)) :
    Printable (renderMoreMembers members) := by
  match members with
  | [] => exact (by decide : Printable [125])
  | (k, v) :: rest =>
    exact printable_append (printable_cons (by decide)
        (printable_append (printable_renderStr k) (printable_cons (by decide) (printable_render v))))
      (printable_renderMoreMembers rest)

end

end Json

end SingboxOps
