import SingboxOps.Lib.Dict
import SingboxOps.RemoteProbe.Payload
import SingboxOps.RemoteProbe.Signature

/-
  The files of the profile vault, and what reads them.

  The vault is the directory of its root: each profile and each
  staging directory with the objects in it, the spool's own
  under `spool/`.  The names of the root's two lock files are
  left out.  What the manifest must satisfy beyond its keys,
  its identity and its size is a parameter, as SHA-256 is.
-/

namespace SingboxOps.ProfileVault

open Json (getItem)
open RemoteProbe (PyError canonicalBytes loadsBytes keysAre hexdigest
  probeIdGrammar runGrammar)

variable {F : Type} [FloatText F]

-- The Vault

inductive Node where
  | file (data : Bytes)
  | dir
deriving DecidableEq

/- The objects of a profile directory. -/
abbrev Dir := Dict PyStr Node

abbrev Vault := Dict PyStr Dir

inductive VaultError where
  | config
  | storage
  | os
  | spool
  | upload
  | python (e : PyError)
deriving DecidableEq

def maxProfiles : ℕ := 8
def manifestLimit : ℕ := 16384
def certLimit : ℕ := 16384
def secretLimit : ℕ := 128

/- `[0-9a-f]{64}` -/
def isKey (name : PyStr) : Bool :=
  name.all (fun c => (48 ≤ c && c ≤ 57) || (97 ≤ c && c ≤ 102)) && name.length == 64

def stagePrefix : PyStr := pyStr ".enroll-"

def isSlot (name : PyStr) : Bool := isKey name || stagePrefix.isPrefixOf name

def keys (v : Vault) : List PyStr := (Dict.keys v).filter isKey

def slots (v : Vault) : ℕ := ((Dict.keys v).filter isSlot).length

-- Manifests

/-
  The room of the JSON reader, SHA-256, and the checks of
  `_validate` on the transport, the agent's settings and the
  controller, apart from the length of the certificate.
-/
structure Checks (F : Type) where
  room : ℕ
  room_pos : 1 ≤ room
  sha256 : Bytes → Bytes
  sha256_length : ∀ data, (sha256 data).length = 32
  refuses : Json F → PyStr → Option VaultError

def manifestKeys : List String := ["v", "server_id", "probe_id", "ingest_url", "certificate_sha256", "agent"]

def allowedAgent : List String := ["mihomo_url", "reality_node", "hy2_node", "dns_host",
    "https_host", "egress_host", "vps_host", "vps_port",
    "watched_group", "cadence", "cycle_deadline",
    "diagnostic_timeout"]

def profileId (c : Checks F) (members : List (PyStr × Json F)) : Except VaultError PyStr :=
  match getItem members (pyStr "server_id"),
      getItem members (pyStr "probe_id") with
  | some (.str server), some (.str probe) =>
    if runGrammar server && probeIdGrammar probe then
      .ok (hexdigest (c.sha256 (asciiEncode (server ++ 10 :: probe))))
    else .error .config
  | _, _ => .error .config

/- `canonical` -/
def canonical (value : Json F) : Except VaultError Bytes := match canonicalBytes value with
  | .ok raw => .ok raw
  | .error e => .error (.python e)

/- `type(agent) is not dict or set(agent) - ALLOWED_AGENT` -/
def agentOk (members : List (PyStr × Json F)) : Bool := match getItem members (pyStr "agent") with
  | some (.obj agent) => agent.all (fun m => allowedAgent.any (fun k => m.1 == pyStr k))
  | _ => false

def isOne (value : Option (Json F)) : Bool := match value with
  | some (.int n) => decide (n = 1)
  | _ => false

/- `_validate` -/
def Checks.validate (c : Checks F) (manifest : Json F) (certificate : PyStr) : Except VaultError PyStr :=
  match manifest with
  | .obj members =>
    if keysAre members manifestKeys &&
        isOne (getItem members (pyStr "v")) then do
      let key ← profileId c members
      let raw ← canonical manifest
      if manifestLimit < raw.length then .error .config
      else if agentOk members then
        match c.refuses manifest certificate with
        | some error => .error error
        | none =>
          if certificate.length ≤ certLimit then .ok key
          else .error .upload
      else .error .config
    else .error .config
  | _ => .error .config

-- Reads

/- `security.read`: a regular file of so many bytes at most -/
def readFile (d : Dir) (name : String) (limit : ℕ) : Except VaultError Bytes :=
  match d.get (pyStr name) with
  | some (.file data) => if data.length ≤ limit then .ok data else .error .storage
  | some .dir => .error .storage
  | none => .error .os

/- `data.decode("ascii")` -/
def decodeAscii (data : Bytes) : Except VaultError PyStr :=
  if data.all (fun b => b.toNat < 128) then .ok (data.map UInt8.toNat)
  else .error (.python .value)

/- `certificate.encode("ascii")` -/
def encodeAscii (text : PyStr) : Except VaultError Bytes :=
  if text.all (fun c => decide (c < 128)) then .ok (asciiEncode text)
  else .error (.python .value)

def readCertificate (d : Dir) : Except VaultError PyStr := do
  let data ← readFile d "server.pem" certLimit
  decodeAscii data

def isSpace (b : UInt8) : Bool := decide (b.toNat = 32 ∨ (9 ≤ b.toNat ∧ b.toNat ≤ 13))

/- `data.strip()` -/
def strip (data : Bytes) : Bytes := ((data.dropWhile isSpace).reverse.dropWhile isSpace).reverse

/- The secret in hexadecimal; `fromhex` is one to one on it. -/
def readSecret (d : Dir) : Except VaultError PyStr := do
  let data ← readFile d "ingest.key" secretLimit
  let value := (strip data).map UInt8.toNat
  if isKey value then .ok value else .error .config

/- `json.loads(data)`; a vault's own files are ASCII. -/
def readJson (c : Checks F) (data : Bytes) : Except VaultError (Json F) :=
  match loadsBytes c.room data with
  | .ok value => .ok value
  | .error e => .error (.python e)

/- The exceptions that `load` and `enabled` turn into their own. -/
def configured {α : Type} (x : Except VaultError α) : Except VaultError α := match x with
  | .error (.python .value) => .error .config
  | .error (.python .type) => .error .config
  | .error (.python .key) => .error .config
  | x => x

/- `load` of the directory named `key` -/
def load (c : Checks F) (key : PyStr) (d : Dir) : Except VaultError (Json F) := configured (do
    let data ← readFile d "profile.json" manifestLimit
    let manifest ← readJson c data
    let certificate ← readCertificate d
    let identity ← c.validate manifest certificate
    if identity = key then .ok manifest else .error .config)

def controlOf (value : Json F) : Except VaultError Bool := match value with
  | .obj members =>
    if keysAre members ["enabled"] then
      match getItem members (pyStr "enabled") with
      | some (.bool b) => .ok b
      | _ => .error .config
    else .error .config
  | _ => .error .config

def enabled (c : Checks F) (d : Dir) : Except VaultError Bool := configured (do
    let data ← readFile d "control.json" 128
    let control ← (readJson c data : Except VaultError (Json F))
    controlOf control)

/- The directory of a key, or why there is none. -/
def profileDir (v : Vault) (key : PyStr) : Except VaultError Dir :=
  if isKey key then
    match v.get key with
    | some d => .ok d
    | none => .error .os
  else .error .config

-- What Is Written

def controlBytes (b : Bool) : Bytes := asciiEncode (Json.render (.obj [(pyStr "enabled", .bool b)] : Json F))

/- `secret.hex().encode("ascii") + b"\n"` -/
def secretBytes (secret : Bytes) : Bytes := asciiEncode (hexdigest secret) ++ [10]

/- The objects that each profile must have. -/
def required : List PyStr := [pyStr "profile.json", pyStr "ingest.key", pyStr "server.pem",
    pyStr "control.json", pyStr "spool"]

/-
  A profile that `load`, `enabled`, `read_secret` and
  `read_certificate` accept under its name, with its spool.
-/
structure Complete (c : Checks F) (key : PyStr) (d : Dir) : Prop where
  loads : ∃ manifest, load c key d = .ok manifest
  control : ∃ b, enabled c d = .ok b
  secret : ∃ value, readSecret d = .ok value
  certificate : ∃ text, readCertificate d = .ok text
  spool : d.get (pyStr "spool") = some .dir

end SingboxOps.ProfileVault
