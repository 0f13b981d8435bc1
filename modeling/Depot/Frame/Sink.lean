import Depot.Frame.Fault

/-!
# Where bytes are written to

A `Sink` takes the bytes of a connection. It may take fewer than it is offered, or fail; its `plan`
says so for the writes to come, and a sink without a plan takes everything. It keeps what it has
taken and the record of every write.
-/

namespace Depot.Frame

/-- What a sink does with one write. -/
inductive Reply
  /-- Takes at most so many bytes. -/
  | accept (count : Nat)
  | fail
  deriving DecidableEq, Repr

/-- One write: the number of bytes offered and the number taken, none when it failed. -/
structure Call where
  offered : Nat
  accepted : Option Nat
  deriving DecidableEq, Repr

/-- The receiving end of a byte stream. -/
structure Sink where
  /-- The replies to the next writes. -/
  plan : List Reply := []
  /-- Whether flushing fails. -/
  flushFails : Bool := false
  /-- All bytes taken so far. -/
  written : List UInt8 := []
  /-- All writes so far. -/
  calls : List Call := []
  deriving DecidableEq, Repr

namespace Sink

/-- The reply to the next write of `offered` bytes. -/
def reply (s : Sink) (offered : Nat) : Reply := s.plan.headD (.accept offered)

/-- One write, with the number of bytes taken. -/
def write (s : Sink) (slice : List UInt8) : Except StreamError Nat × Sink :=
  match s.reply slice.length with
  | .fail =>
      (.error .brokenPipe,
        { s with plan := s.plan.tail, calls := s.calls ++ [⟨slice.length, none⟩] })
  | .accept count =>
      let taken := min count slice.length
      (.ok taken,
        { s with
          plan := s.plan.tail
          written := s.written ++ slice.take taken
          calls := s.calls ++ [⟨slice.length, some taken⟩] })

/-- Flushes what was written. -/
def flush (s : Sink) : Except StreamError Unit :=
  if s.flushFails then .error .connectionReset else .ok ()

end Sink

end Depot.Frame
