import Depot.Session.Lineage

/-!
# Holding on to a session

Somebody who holds a handle of a session and the receiving ends that were taken from it. They go on to
mean the session that they came from after it is reset. Of each direction one receiving end is kept:
taking another one, which only a session that was reset in between hands out, drops it.
-/

namespace Depot

/-- A session with what is held of it. -/
structure Holder where
  lineage : Lineage := {}
  /-- The session that the handle means. -/
  handle : Handle := 0
  /-- The sessions that the receiving ends were taken from. -/
  inbound : Option Handle := none
  outbound : Option Handle := none
  deriving DecidableEq, Repr

namespace Holder

/-- The session as it is now. -/
def session (h : Holder) : Session := h.lineage.current

/-- The session that the handle means. -/
def handled (h : Holder) : Session := h.lineage.session h.handle

/-- Changes the session. -/
def update (h : Holder) (f : Session → Session) : Holder := { h with lineage := h.lineage.update f }

/-- Changes the session that the handle means. -/
def modify (h : Holder) (f : Session → Session) : Holder :=
  { h with lineage := h.lineage.modify h.handle f }

/-- Takes a new handle. -/
def renew (h : Holder) : Holder := { h with handle := h.lineage.handle }

/-- Resets the session. -/
def reset (h : Holder) : Holder := { h with lineage := h.lineage.reset }

/-- The session that a receiving end was taken from. -/
def kept (h : Holder) : Side → Option Handle
  | .inbound => h.inbound
  | .outbound => h.outbound

/-- Keeps a receiving end, or none. -/
def keep (h : Holder) (side : Side) (origin : Option Handle) : Holder :=
  match side with
  | .inbound => { h with inbound := origin }
  | .outbound => { h with outbound := origin }

/-- Drops the receiving end of one direction, if there is one. -/
def drop? (h : Holder) (side : Side) : Option Holder :=
  (h.kept side).map fun origin =>
    { h.keep side none with
      lineage := h.lineage.modify origin fun s => s.setQueue side (s.queue side).dropReceiver }

/-- Takes the receiving end of one direction, if the session hands it out. -/
def take? (h : Holder) (side : Side) : Option Holder :=
  (h.session.take? side).map fun session =>
    let h := ((h.drop? side).getD h).update fun _ => session
    h.keep side (some h.lineage.handle)

/-- Takes the first packet from the receiving end of one direction, if there is one. -/
def receive? (h : Holder) (side : Side) : Option (Option Packet × Holder) :=
  (h.kept side).map fun origin =>
    match ((h.lineage.session origin).queue side).tryReceive with
    | none => (none, h)
    | some (p, q) =>
        (some p, { h with lineage := h.lineage.modify origin fun s => s.setQueue side q })

/-- Sends a packet through the session. -/
def send? (h : Holder) (side : Side) (p : Packet) : Option Holder :=
  match (h.session.queue side).send p with
  | .error _ => none
  | .ok q => some (h.update fun s => s.setQueue side q)

/-- Sends a packet to the peer through the handle. -/
def post? (h : Holder) (p : Packet) : Option Holder :=
  match h.handled.outbound.send p with
  | .error _ => none
  | .ok outbound => some (h.modify fun s => { s with outbound })

end Holder

end Depot
