import Depot.Server.Config

/-!
# What a valid configuration promises

`Config.validate` looks at one rule after another and reports the first that is broken. `Sensible` is all
of them at once, which is what everybody relies on who is given a configuration that was not refused.

## Key results

- `Config.validate_eq_ok_iff`: a configuration is valid if it is sensible, and only then
-/

namespace Depot.Config

/-- The rules that a configuration has to meet. -/
structure Sensible (c : Config) : Prop where
  clients : 0 < c.maxClients
  payload : 0 < c.maxPayload
  chunk : 0 < c.downloadChunk
  slice : 0 < c.sendChunk
  buffer : 0 < c.readBuffer
  keepalive : 0 < c.liveness.keepalive.nanos
  /-- A block of a download fits the largest payload. -/
  block : c.downloadChunk ≤ c.maxPayload
  /-- The peer is probed before it is found silent. -/
  window : c.liveness.keepalive.nanos < c.liveness.window.nanos

/-- None of the numbers that must be positive is zero. -/
private theorem positives_iff (c : Config) :
    c.positives.find? (·.2 == 0) = none ↔
      0 < c.maxClients ∧ 0 < c.maxPayload ∧ 0 < c.downloadChunk ∧ 0 < c.sendChunk ∧
        0 < c.readBuffer ∧ 0 < c.liveness.keepalive.nanos := by
  simp [List.find?_eq_none, positives, Nat.pos_iff_ne_zero]

/-- A configuration passes the checks just if it is sensible. -/
theorem validate_eq_ok_iff {c : Config} : c.validate = .ok () ↔ c.Sensible := by
  have hpositives := c.positives_iff
  unfold validate
  -- The first zero is what a broken configuration is refused for. Without one the two comparisons are left.
  cases hfind : c.positives.find? (·.2 == 0) with
  | some broken =>
    obtain ⟨field, value⟩ := broken
    constructor
    · intro h
      cases h
    · intro h
      have hnone := hpositives.mpr ⟨h.clients, h.payload, h.chunk, h.slice, h.buffer, h.keepalive⟩
      rw [hfind] at hnone
      cases hnone
  | none =>
    obtain ⟨hclients, hpayload, hchunk, hslice, hbuffer, hkeepalive⟩ := hpositives.mp hfind
    constructor
    · intro h
      dsimp only at h
      split at h
      · cases h
      · split at h
        · cases h
        · exact ⟨hclients, hpayload, hchunk, hslice, hbuffer, hkeepalive, by omega, by omega⟩
    · intro h
      dsimp only
      rw [if_neg (Nat.not_lt.mpr h.block), if_neg (Nat.not_le.mpr h.window)]

end Depot.Config
