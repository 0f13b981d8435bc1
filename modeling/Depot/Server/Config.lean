import Depot.Liveness.Basic

/-!
# Server configuration

The limits and times of a server, their defaults, and the rules that a configuration has to meet. Of
several broken rules the first in the order of `Config.validate` is reported.
-/

namespace Depot

/-- A quantity that must not be zero. -/
inductive Config.Field
  | maxClients
  | maxPayload
  | downloadChunk
  | sendChunk
  | readBuffer
  | keepalive
  deriving DecidableEq, Repr

/-- The name of a quantity in messages. -/
def Config.Field.label : Config.Field → String
  | maxClients => "max_clients"
  | maxPayload => "max_payload"
  | downloadChunk => "download_chunk"
  | sendChunk => "send_chunk"
  | readBuffer => "read_buffer"
  | keepalive => "liveness.keepalive"

/-- The ways in which a configuration makes no sense. -/
inductive ConfigError
  | zero (field : Config.Field)
  /-- A block of a download would not fit the largest payload. -/
  | chunkTooLarge (chunk maxPayload : Nat)
  /-- A peer that answers every probe would be found silent. -/
  | windowTooShort (window keepalive : Duration)
  deriving DecidableEq, Repr

/-- The name of a kind of configuration error. -/
def ConfigError.label : ConfigError → String
  | zero _ => "Zero"
  | chunkTooLarge _ _ => "ChunkTooLarge"
  | windowTooShort _ _ => "WindowTooShort"

/-- The text of a configuration error. -/
def ConfigError.message : ConfigError → String
  | zero field => field.label ++ " must be greater than zero"
  | chunkTooLarge chunk maxPayload =>
      s!"download chunk of {chunk} bytes exceeds the maximum payload of {maxPayload}"
  | windowTooShort window keepalive =>
      "liveness window " ++ window.text ++ " must be longer than the keepalive interval " ++
        keepalive.text

/-- The limits and times of a server. -/
structure Config where
  /-- Connections served at a time. -/
  maxClients : Nat := 64
  /-- Longest payload taken from a peer. -/
  maxPayload : Nat := 524288
  /-- File bytes in one packet of a download. -/
  downloadChunk : Nat := 524288
  /-- Bytes of one write. -/
  sendChunk : Nat := 131072
  /-- Bytes of one read. -/
  readBuffer : Nat := 131072
  /-- Longest upload. -/
  maxUpload : Nat := 268435456
  liveness : Liveness.Times := .ofKeepalive (.seconds 1)
  /-- Time to finish writing after the end of a session. -/
  linger : Duration := .seconds 1
  deriving DecidableEq, Repr

namespace Config

/-- The quantities that must not be zero, in the order in which they are looked at. -/
def positives (c : Config) : List (Field × Nat) :=
  [(.maxClients, c.maxClients), (.maxPayload, c.maxPayload), (.downloadChunk, c.downloadChunk),
    (.sendChunk, c.sendChunk), (.readBuffer, c.readBuffer),
    (.keepalive, c.liveness.keepalive.nanos)]

/-- The first rule that a configuration breaks. -/
def validate (c : Config) : Except ConfigError Unit :=
  match c.positives.find? (·.2 == 0) with
  | some (field, _) => .error (.zero field)
  | none =>
      if c.downloadChunk > c.maxPayload then
        .error (.chunkTooLarge c.downloadChunk c.maxPayload)
      else if c.liveness.window.nanos ≤ c.liveness.keepalive.nanos then
        .error (.windowTooShort c.liveness.window c.liveness.keepalive)
      else .ok ()

end Config

end Depot
