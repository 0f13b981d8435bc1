import Depot.Amounts
import Depot.Operation.Scene

/-!
# Liveness

A peer may be silent for so long and no longer. A watch ends the session of one that is: until the first
packet the handshake time applies, and after that the window, which every packet starts anew. A probe asks
the peer for a sign of life. It ticks at the multiples of its interval for as long as the session lives,
and at a tick a connection check is sent if nothing else is waiting to be sent, so probes never wait behind
other packets. A tick that was missed is made up for late, and delays those after it.

Instants are nanoseconds since the session began, and a step is told the instant at which it is taken. How
much later than its alarm that is, is not said here: a clock may tell the time in coarser grains than
nanoseconds.
-/

namespace Depot

namespace Liveness

/-! ### Times -/

/-- The times by which a connection is found dead. -/
structure Times where
  /-- From one probe to the next. -/
  keepalive : Duration
  /-- The longest silence after a packet. -/
  window : Duration
  /-- The longest silence before the first packet. -/
  handshake : Duration
  deriving DecidableEq, Repr

namespace Times

/-- The window in keepalive intervals, where nothing else is said. -/
def windowFactor : Nat := 400

/-- The times for a keepalive interval. -/
def ofKeepalive (keepalive : Duration) : Times :=
  { keepalive, window := keepalive.scale windowFactor, handshake := .seconds 60 }

end Times

/-! ### Watching for silence -/

/-- An instant, in nanoseconds since the beginning. -/
abbrev Instant := Nat

/-- The watch over a session. -/
structure Watch where
  /-- The instant at which the peer has been silent for too long. -/
  deadline : Instant
  /-- Whether a packet has come that the watch has not seen yet. Several count as one. -/
  noticed : Bool := false
  ended : Bool := false
  deriving DecidableEq, Repr

namespace Watch

/-- A watch that begins at an instant. -/
def start (times : Times) (now : Instant) : Watch := { deadline := now + times.handshake.nanos }

/-- A packet has come. -/
def notice (w : Watch) : Watch := { w with noticed := true }

/-- One step at an instant, and whether the peer is found silent by it. The death of the session ends
the watch without a finding, and a packet that has come is seen before the time is looked at. -/
def step? (times : Times) (now : Instant) (live : Bool) (w : Watch) : Option (Watch × Bool) :=
  if w.ended then none
  else if !live then some ({ w with ended := true }, false)
  else if w.noticed then
    some ({ w with deadline := now + times.window.nanos, noticed := false }, false)
  else if w.deadline ≤ now then some ({ w with ended := true }, true)
  else none

/-- The next instant at which a watch does something by itself. -/
def alarm? (w : Watch) : Option Instant := if w.ended then none else some w.deadline

end Watch

/-! ### Probing the peer -/

/-- The probe of a session. -/
structure Probe where
  interval : Duration
  /-- The instant of the next tick. -/
  next : Instant
  ended : Bool := false
  deriving DecidableEq, Repr

namespace Probe

/-- The instant that no clock reaches. -/
def horizon : Instant := 9223372036854775807 * Duration.perSecond

/-- A probe that begins at an instant. There are no ticks without an interval, nor if not even the
first one can come. -/
def start? (interval : Duration) (now : Instant) : Option Probe :=
  let next := now + interval.nanos
  if interval.nanos = 0 || horizon ≤ next then none else some { interval, next }

/-- How late a tick may be and still count as being on time, in nanoseconds. -/
def slack : Nat := 5000000

/-- The instant of the tick after one that takes place now. It is told by the instants at which ticks are
due, unless the one that takes place was missed: then the interval begins anew. -/
def after (p : Probe) (now : Instant) : Instant :=
  if p.next + slack < now then now + p.interval.nanos else p.next + p.interval.nanos

/-- One step at an instant, and whether it is a tick. The death of the session ends the probe. -/
def step? (now : Instant) (live : Bool) (p : Probe) : Option (Probe × Bool) :=
  if p.ended then none
  else if !live then some ({ p with ended := true }, false)
  else if p.next ≤ now then some ({ p with next := p.after now }, true)
  else none

/-- The next instant at which a probe does something by itself. -/
def alarm? (p : Probe) : Option Instant := if p.ended then none else some p.next

/-- A tick that is taken in time, or late within the slack, is followed by the next multiple of the interval.
-/
theorem after_of_le {p : Probe} {now : Instant} (h : now ≤ p.next + slack) :
    p.after now = p.next + p.interval.nanos := if_neg (Nat.not_lt.mpr h)

/-- There is at least an interval between two ticks. -/
theorem le_after (p : Probe) (now : Instant) : p.next + p.interval.nanos ≤ p.after now := by
  unfold after
  split
  · next hmissed =>
    have hpassed : p.next ≤ now := Nat.le_trans (Nat.le_add_right _ _) (Nat.le_of_lt hmissed)
    exact Nat.add_le_add_right hpassed _
  · exact Nat.le_refl _

end Probe

end Liveness

/-! ### What becomes of the session

A peer that is found silent is counted, its session is suspended by a packet in the inbound queue, and a
farewell is asked for. -/

namespace Scene

/-- Ends a session whose peer is silent. -/
def expire (s : Scene) : Scene :=
  let s := s.count (.errors .connectionCheckFailed)
  let session := s.session.requestFarewell .connectionCheckFailed
  { s with session := session.deliver (.suspend .connectionCheckFailed) }

/-- Sends a connection check, if nothing is waiting to be sent. -/
def probe (s : Scene) : Scene :=
  if s.session.outbound.isEmpty then
    { s with session := s.session.post .connectionCheck }
  else s

/-- One step of the watch over the session. -/
def watch? (times : Liveness.Times) (now : Liveness.Instant) (w : Liveness.Watch) (s : Scene) :
    Option (Liveness.Watch × Scene) :=
  (w.step? times now s.session.live).map fun (w, silent) => (w, if silent then s.expire else s)

/-- One step of the probe of the session. -/
def probe? (now : Liveness.Instant) (p : Liveness.Probe) (s : Scene) :
    Option (Liveness.Probe × Scene) :=
  (p.step? now s.session.live).map fun (p, tick) => (p, if tick then s.probe else s)

end Scene

end Depot
