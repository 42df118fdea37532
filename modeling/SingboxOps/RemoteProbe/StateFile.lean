import SingboxOps.RemoteProbe.Spool
import SingboxOps.Lib.Json.Dumpable

/-
  A canonical text is read back as it was written.
-/

namespace SingboxOps.RemoteProbe

variable {F : Type} [PyFloat F]

-- Canonical Text

theorem loadsBytes_canonicalBytes {room : ℕ} {v : Json F} {payload : Bytes}
    (hPayload : canonicalBytes v = .ok payload)
    (hDepth : Json.depth v ≤ room) :
    loadsBytes room payload = .ok (Json.reread (Json.sortKeys v)) := by
  unfold canonicalBytes at hPayload
  split_ifs at hPayload with hDump
  rw [← Except.ok.inj hPayload]
  have hAscii : ∀ c ∈ Json.render (Json.sortKeys v), c < 128 := by
    intro c hc
    have h := (Json.printable_render _ c hc).2
    omega
  have hSorted := Json.depth_sortKeys v
  rw [loadsBytes, utf8Decode_asciiEncode hAscii]
  simp only
  rw [Json.loads_render hDump (by omega)]

end SingboxOps.RemoteProbe
