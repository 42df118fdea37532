import SingboxOps.Lib.Dict
import SingboxOps.Lib.Utf8Encode
import SingboxOps.ClientExport.Grammar

/-
  Reading an export back.

  A block of the export is read by a specification that has an
  entry for each line: a literal, or a key with a checker for
  the value behind it.  A checker may raise what `int` raises,
  and then the parser raises it too.
-/

namespace SingboxOps.ClientExport

/- `fail()`, or a `ValueError` on its way through. -/
inductive Failure where
  | fail
  | valueError
deriving DecidableEq

def expect (c : Prop) [Decidable c] : Except Failure Unit :=
  if c then .ok () else .error .fail

-- Canonical Lines

def MAX_INPUT_BYTES : ℕ := 48 * 1024

def TOP_LEVEL_KEYS : List PyStr := ["mixed-port", "allow-lan", "bind-address", "mode", "log-level",
    "unified-delay", "ipv6", "profile", "dns", "tun",
    "proxies", "proxy-groups", "rules"].map pyStr

def CANONICAL_PREFIX_LINES : List PyStr := ["mixed-port: 7897", "allow-lan: true", "bind-address: \"*\"",
    "mode: rule",
    "log-level: info",
    "unified-delay: true",
    "ipv6: true",
    "profile:",
    "  store-selected: true",
    "  store-fake-ip: true",
    "dns:",
    "  enable: true",
    "  listen: \"0.0.0.0:53\"",
    "  ipv6: true",
    "  enhanced-mode: fake-ip",
    "  fake-ip-range: 198.18.0.1/16",
    "  default-nameserver:",
    "    - 223.5.5.5",
    "    - 8.8.8.8",
    "  nameserver:",
    "    - https://dns.alidns.com/dns-query",
    "    - https://doh.pub/dns-query",
    "  fallback:",
    "    - https://1.0.0.1/dns-query",
    "    - tls://dns.google",
    "  fallback-filter:",
    "    geoip: true",
    "    geoip-code: CN",
    "    ipcidr:",
    "      - 240.0.0.0/4",
    "",
    "tun:",
    "  enable: true",
    "  stack: mixed",
    "  device: Mihomo",
    "  mtu: 1420",
    "  auto-route: true",
    "  auto-redirect: true",
    "  auto-detect-interface: true",
    "  dns-hijack:",
    "    - any:53",
    "    - tcp://any:53",
    ""].map pyStr

def PROXIES_KEY : PyStr := pyStr "proxies:"

def GROUPS_KEY : PyStr := pyStr "proxy-groups:"

def RULES_KEY : PyStr := pyStr "rules:"

def GROUPS_SINGLE_OUTER : List PyStr := ["  - name: 节点选择", "    type: select", "    default-selected: 自动选择",
    "    proxies:",
    "      - Reality",
    "      - Hysteria2",
    "      - 自动选择",
    "      - DIRECT"].map pyStr

def GROUPS_SINGLE_AUTO : List PyStr := ["  - name: 自动选择", "    type: fallback", "    proxies:",
    "      - Reality",
    "      - Hysteria2",
    "    url: \"https://www.gstatic.com/generate_204\"",
    "    interval: 60",
    "    timeout: 5000",
    "    lazy: false",
    "    expected-status: \"204\""].map pyStr

def RULES_LINES : List PyStr := ["  - GEOIP,LAN,DIRECT", "  - GEOIP,CN,DIRECT", "  - MATCH,节点选择"].map pyStr

def TRAILING_BLANKS : List PyStr := [[], []]

def PROXY_GROUP_BLANKS : List PyStr := [[]]

def LEGACY_BANDWIDTH_LINES : List PyStr := ["    up: \"300 Mbps\"", "    down: \"300 Mbps\""].map pyStr

-- Specifications

/- `none` of a checker is a `ValueError`. -/
abbrev Checker := PyStr → Option Bool

/- `_literal` and `_field` -/
inductive Entry where
  | literal (expected : PyStr)
  | value (key : PyStr) (checker : Checker) (name : PyStr)

def literal (s : String) : Entry := .literal (pyStr s)

def field (key : String) (checker : Checker) (name : String) : Entry :=
  .value (pyStr key) checker (pyStr name)

/- A checker that raises nothing. -/
def total (f : PyStr → Bool) : Checker := fun s => some (f s)

def REALITY_SPEC : List Entry := [literal "  - name: Reality", literal "    type: vless",
    field "    server: " (total isServer) "server",
    field "    port: " isPort "port",
    field "    uuid: " (total isUuid) "uuid",
    literal "    network: tcp",
    literal "    udp: true",
    literal "    tls: true",
    literal "    flow: xtls-rprx-vision",
    field "    servername: " (total isHostname) "servername",
    literal "    client-fingerprint: chrome",
    literal "    reality-opts:",
    field "      public-key: " (total isPublicKey) "public-key",
    field "      short-id: " (total isShortId) "short-id"]

def HISTERIA2_HEAD : List Entry := [literal "  - name: Hysteria2", literal "    type: hysteria2",
    field "    server: " (total isServer) "server",
    field "    port: " isPort "port"]

def PASSWORD_SPEC : List Entry := [field "    password: " (total isPassword) "password"]

def HISTERIA2_TAIL : List Entry := [field "    sni: " (total isHostname) "sni",
    literal "    skip-cert-verify: true",
    literal "    alpn:",
    literal "      - h3"]

abbrev Fields := Dict PyStr PyStr

/- The value of a line of a specification. -/
def checked (line key : PyStr) (checker : Checker) : Except Failure PyStr :=
  match fieldValue line key with
  | none => .error .fail
  | some value =>
    match checker value with
    | none => .error .valueError
    | some false => .error .fail
    | some true => .ok value

/- `run_spec`: the index behind the block, and its fields. -/
def runSpec (lines : List PyStr) : ℕ → List Entry → Fields → Except Failure (ℕ × Fields)
  | index, [], fields => .ok (index, fields)
  | index, entry :: spec, fields =>
    match lines[index]? with
    | none => .error .fail
    | some line =>
      match entry with
      | .literal expected =>
        if line = expected then runSpec lines (index + 1) spec fields
        else .error .fail
      | .value key checker name =>
        match checked line key checker with
        | .error e => .error e
        | .ok value => runSpec lines (index + 1) spec (fields.set name value)

-- The Top Level

def isKeyChar (c : ℕ) : Bool := isAlnum c || isOneOf "_-" c

/-
  The key of a line at column zero: `([A-Za-z0-9_-]+:)`, and
  no white space but blanks behind it.
-/
def topKey (line : PyStr) : Option PyStr :=
  let key := line.takeWhile isKeyChar
  match line.dropWhile isKeyChar with
  | 58 :: rest =>
    if key ≠ [] ∧
        rest.all (fun c => decide (c = 32) || !isSpaceChar c) then
      some (key ++ [58])
    else none
  | _ => none

/- A line the scan passes over. -/
def isInner (line : PyStr) : Bool := match line with
  | [] => true
  | c :: _ => decide (c = 32)

def isComment (line : PyStr) : Bool := decide ((lstripText line).head? = some 35)

def scanKeys : List PyStr → Option (List PyStr)
  | [] => some []
  | line :: rest =>
    if isInner line then scanKeys rest
    else if isComment line then none
    else
      match topKey line with
      | none => none
      | some key => (scanKeys rest).map (key :: ·)

def findKey (lines : List PyStr) (key : PyStr) : Except Failure ℕ :=
  if key ∈ lines then .ok (lines.idxOf key) else .error .fail

/- Where the sections are. -/
structure Sections where
  proxies_at : ℕ
  groups_at : ℕ
  rules_at : ℕ
deriving DecidableEq

def checkTopLevel (lines : List PyStr) : Except Failure Sections := do
  expect (scanKeys lines = some (TOP_LEVEL_KEYS.map (· ++ [58])))
  let proxies_at ← findKey lines PROXIES_KEY
  let groups_at ← findKey lines GROUPS_KEY
  let rules_at ← findKey lines RULES_KEY
  expect (proxies_at < groups_at ∧ groups_at < rules_at)
  expect (proxies_at = CANONICAL_PREFIX_LINES.length)
  expect (lines.take proxies_at = CANONICAL_PREFIX_LINES)
  return ⟨proxies_at, groups_at, rules_at⟩

-- The Sections

/- `lines[low:high]` -/
def slice (lines : List PyStr) (low high : ℕ) : List PyStr := (lines.take high).drop low

structure Blocks where
  reality : Fields
  reality_at : ℕ
  reality_len : ℕ
  hysteria : Fields
  hysteria_at : ℕ
  hysteria_len : ℕ
deriving DecidableEq

/- The pair of hop lines, where there is one. -/
def parseHop (lines : List PyStr) (index : ℕ) (fields : Fields) : Except Failure (ℕ × Fields) :=
  match lines[index]? with
  | none => .ok (index, fields)
  | some line =>
    if (pyStr "    ports:").isPrefixOf line then
      match fieldValue line (pyStr "    ports: ") with
      | none => .error .fail
      | some value =>
        match hopRange value with
        | none => .error .fail
        | some (first, last) =>
          match isPort first, isPort last with
          | none, _ => .error .valueError
          | some false, _ => .error .fail
          | some true, none => .error .valueError
          | some true, some false => .error .fail
          | some true, some true =>
            if numberOf last < numberOf first then .error .fail
            else if lines[index + 1]? =
                some (pyStr "    hop-interval: 30") then
              .ok (index + 2, fields.set (pyStr "ports") value)
            else .error .fail
    else .ok (index, fields)

/- The historical bandwidth lines, both or none. -/
def parseBandwidth (lines : List PyStr) (index : ℕ) : Except Failure ℕ := match lines[index]? with
  | none => .error .fail
  | some line =>
    if (pyStr "    up:").isPrefixOf line then
      if slice lines index (index + 2) = LEGACY_BANDWIDTH_LINES then
        .ok (index + 2)
      else .error .fail
    else .ok index

def parseProxies (lines : List PyStr) (sections : Sections) : Except Failure Blocks := do
  let reality_at := sections.proxies_at + 1
  let (index, reality) ← runSpec lines reality_at REALITY_SPEC []
  expect (lines[index]? = some [])
  let hysteria_at := index + 1
  let (index, fields) ← runSpec lines hysteria_at HISTERIA2_HEAD []
  let (index, fields) ← parseHop lines index fields
  let (index, fields) ← runSpec lines index PASSWORD_SPEC fields
  let index ← parseBandwidth lines index
  let (index, fields) ← runSpec lines index HISTERIA2_TAIL fields
  expect (slice lines index sections.groups_at = PROXY_GROUP_BLANKS)
  return {
    reality := reality
    reality_at := reality_at
    reality_len := hysteria_at - 1 - reality_at
    hysteria := fields
    hysteria_at := hysteria_at
    hysteria_len := index - hysteria_at }

def GROUPS_REGION : List PyStr := GROUPS_SINGLE_OUTER ++ [[]] ++ GROUPS_SINGLE_AUTO ++ TRAILING_BLANKS

def parseGroups (lines : List PyStr) (sections : Sections) : Except Failure Unit :=
  expect (slice lines (sections.groups_at + 1) sections.rules_at = GROUPS_REGION)

def parseRules (lines : List PyStr) (sections : Sections) : Except Failure Unit := do
  expect (slice lines (sections.rules_at + 1) (sections.rules_at + 4) = RULES_LINES)
  expect (lines.drop (sections.rules_at + 4) = TRAILING_BLANKS)

-- The Export

structure Profile where
  lines : List PyStr
  sections : Sections
  blocks : Blocks
deriving DecidableEq

/- `read_export` of a regular file with these bytes -/
def readExport (raw : Bytes) : Except Failure (List PyStr) := do
  expect (raw.length ≤ MAX_INPUT_BYTES ∧ 0 ∉ raw ∧ 9 ∉ raw)
  match utf8Decode raw with
  | none => throw .fail
  | some text =>
    expect (13 ∉ text)
    return text.splitOn 10

def parseLines (lines : List PyStr) : Except Failure Profile := do
  let sections ← checkTopLevel lines
  let blocks ← parseProxies lines sections
  parseGroups lines sections
  parseRules lines sections
  return ⟨lines, sections, blocks⟩

def parseExport (raw : Bytes) : Except Failure Profile := do
  let lines ← readExport raw
  parseLines lines

/- `build_output` of one profile, before it is encoded -/
def withoutBandwidth (lines : List PyStr) : PyStr := [10].intercalate
    (lines.filter (fun line => !LEGACY_BANDWIDTH_LINES.contains line))

end SingboxOps.ClientExport
