import SingboxOps.Lib.PyText

/-
  The grammar of the values in an export.

  A value stands alone at the end of its line, with nothing
  around it.  All values but an address are of ASCII; a port
  is read by the digits of any script.
-/

namespace SingboxOps.ClientExport

-- Characters

def isAsciiDigit (c : ℕ) : Bool := decide (48 ≤ c) && decide (c ≤ 57)

def isAlnum (c : ℕ) : Bool := isAsciiDigit c || (decide (65 ≤ c) && decide (c ≤ 90)) ||
    (decide (97 ≤ c) && decide (c ≤ 122))

def isHex (c : ℕ) : Bool := isAsciiDigit c || (decide (65 ≤ c) && decide (c ≤ 70)) ||
    (decide (97 ≤ c) && decide (c ≤ 102))

def isOneOf (s : String) (c : ℕ) : Bool := (pyStr s).contains c

-- Addresses

/- `HOSTNAME_RE` -/
def isHostname (s : PyStr) : Bool :=
  decide (1 ≤ s.length) && decide (s.length ≤ 254) && s.all (fun c => isAlnum c || isOneOf "._-" c) &&
    (s.head?.any isAlnum) && (s.getLast?.any isAlnum)

/- `IPv4Address._parse_octet`, where it raises nothing -/
def isOctet (s : PyStr) : Bool :=
  decide (s ≠ []) && s.all isAsciiDigit && decide (s.length ≤ 3) &&
    (decide (s = [48]) || !decide (s.head? = some 48)) &&
    decide (numberOf s ≤ 255)

/- `IPv4Address(text)` raises nothing. -/
def isIpv4 (s : PyStr) : Bool :=
  let octets := s.splitOn 46
  decide (octets.length = 4) && octets.all isOctet

/- `IPv6Address._parse_hextet`, where it raises nothing -/
def isHextet (s : PyStr) : Bool := decide (s ≠ []) && s.all isHex && decide (s.length ≤ 4)

/- The address without its scope; `none` is a refused one. -/
def withoutScope (s : PyStr) : Option PyStr := match s.splitOn 37 with
  | [address] => some address
  | [address, scope] => if scope = [] then none else some address
  | _ => none

/- An embedded IPv4 address stands for two parts. -/
def hexParts (parts : List PyStr) : Option (List PyStr) := match parts.getLast? with
  | none => some parts
  | some last =>
    if last.contains 46 then
      if isIpv4 last then some (parts.dropLast ++ [[48], [48]])
      else none
    else some parts

/- The places of the empty parts between the first and the last. -/
def skips (parts : List PyStr) : List ℕ := (List.range parts.length).filter (fun i =>
    decide (1 ≤ i) && decide (i + 1 < parts.length) &&
      decide (parts[i]? = some []))

/- `IPv6Address._ip_int_from_string`, where it raises nothing -/
def isIpv6Parts (parts : List PyStr) : Bool :=
  decide (parts.length ≤ 9) &&
    match skips parts with
    | [] => decide (parts.length = 8) && parts.all isHextet
    | [skip] =>
      let before := parts.take skip
      let after := parts.drop (skip + 1)
      let high := if before.head? = some [] then before.tail else before
      let low := if after.getLast? = some [] then after.dropLast else after
      (decide (before.head? ≠ some []) || decide (high = [])) &&
        (decide (after.getLast? ≠ some []) || decide (low = [])) &&
        decide (high.length + low.length ≤ 7) &&
        high.all isHextet && low.all isHextet
    | _ => false

def isIpv6 (s : PyStr) : Bool := match withoutScope s with
  | none => false
  | some address =>
    let parts := address.splitOn 58
    decide (3 ≤ parts.length) &&
      match hexParts parts with
      | none => false
      | some parts => isIpv6Parts parts

/- `ipaddress.ip_address(text)` raises nothing. -/
def isIpAddress (s : PyStr) : Bool := !s.contains 47 && (isIpv4 s || isIpv6 s)

def isServer (s : PyStr) : Bool := isIpAddress s || isHostname s

-- Credentials

/- `UUID_RE` -/
def isUuid (s : PyStr) : Bool :=
  decide (s.length = 36) && s.all (fun c => isHex c || decide (c = 45)) &&
    decide ((s.splitOn 45).map List.length = [8, 4, 4, 4, 12])

/- `PUBKEY_RE` -/
def isPublicKey (s : PyStr) : Bool :=
  decide (43 ≤ s.length) && decide (s.length ≤ 44) && s.all (fun c => isAlnum c || isOneOf "_-" c)

/- `SHORT_ID_RE` -/
def isShortId (s : PyStr) : Bool :=
  decide (2 ≤ s.length) && decide (s.length ≤ 32) &&
    decide (s.length % 2 = 0) && s.all isHex

/- `PASSWORD_RE` -/
def isPassword (s : PyStr) : Bool :=
  decide (8 ≤ s.length) && decide (s.length ≤ 128) && s.all (fun c => isAlnum c || isOneOf "._~+/=-" c)

-- Ports

/- `is_port`; `none` is the `ValueError` of `int`. -/
def isPort (s : PyStr) : Option Bool :=
  if isDigitText s then
    match intOfDigits s with
    | none => none
    | some n => some (decide (1 ≤ n) && decide (n ≤ 65535))
  else some false

/- The digits `int` refuses. -/
def Unreadable (s : PyStr) : Prop := isDigitText s = true ∧ intOfDigits s = none

theorem isPort_eq_none_iff (s : PyStr) : isPort s = none ↔ Unreadable s := by
  unfold isPort Unreadable
  split
  · rename_i hDigits
    rw [hDigits]
    cases intOfDigits s with
    | none => exact ⟨fun _ => ⟨rfl, rfl⟩, fun _ => rfl⟩
    | some n => exact ⟨(fun h => nomatch h), (fun h => nomatch h.2)⟩
  · rename_i hDigits
    exact ⟨(fun h => nomatch h), (fun h => (hDigits h.1).elim)⟩

/- `(\d{1,5})-(\d{1,5})`, with the texts of the groups -/
def hopRange (s : PyStr) : Option (PyStr × PyStr) := match s.splitOn 45 with
  | [first, last] =>
    if first.all isDecimalChar && last.all isDecimalChar &&
        decide (1 ≤ first.length) && decide (first.length ≤ 5) &&
        decide (1 ≤ last.length) && decide (last.length ≤ 5) then
      some (first, last)
    else none
  | _ => none

-- Lines

/- `field_value`; an empty or padded value is none. -/
def fieldValue (line key : PyStr) : Option PyStr :=
  if key.isPrefixOf line then
    let value := line.drop key.length
    if value = [] ∨ value ≠ stripText value then none
    else some value
  else none

theorem fieldValue_eq_some_iff {line key value : PyStr} : fieldValue line key = some value ↔
      line = key ++ value ∧ value ≠ [] ∧ value = stripText value := by
  unfold fieldValue
  split
  · rename_i hKey
    rcases List.isPrefixOf_iff_prefix.mp hKey with ⟨rest, rfl⟩
    dsimp only
    rw [List.drop_left]
    split
    · rename_i hNot
      constructor
      · intro h
        cases h
      · rintro ⟨hLine, hNil, hStrip⟩
        cases List.append_cancel_left hLine
        rcases hNot with h | h
        · exact (hNil h).elim
        · exact (h hStrip).elim
    · rename_i hNot
      rw [not_or, not_not] at hNot
      constructor
      · intro h
        cases h
        exact ⟨rfl, hNot⟩
      · rintro ⟨hLine, -⟩
        rw [List.append_cancel_left hLine]
  · rename_i hKey
    constructor
    · intro h
      cases h
    · rintro ⟨rfl, -⟩
      exact (hKey (List.isPrefixOf_iff_prefix.mpr (List.prefix_append _ _))).elim

end SingboxOps.ClientExport
