import Depot.Liveness.Basic

/-!
# Liveness over time

A session under its watch, or with its probe, while things happen to it at given instants. Alarms that
come before such an instant go off first. At the end whatever still has an alarm is left to itself
until it is over; a probe that nothing ends is left alone.

The clock is exact: every alarm goes off at its very instant, to the nanosecond. A clock that stands at whole
milliseconds only, as that of a `Connection.Link` does, is this one if all times and instants are whole
milliseconds; with others its alarms are late, by less than a millisecond.
-/

namespace Depot.Liveness

/-- What can happen to a session from outside. -/
inductive Happening
  /-- A packet comes in. -/
  | active
  | kill
  /-- A packet is queued for the peer. -/
  | enqueue (p : Packet)
  /-- The next packet for the peer is taken. -/
  | take
  /-- The packets for the peer are counted. -/
  | length
  deriving DecidableEq, Repr

/-- What was asked for and found. -/
inductive Sighting
  | taken (p : Option Packet)
  | length (count : Nat)
  deriving DecidableEq, Repr

/-- The guardian of a session. -/
inductive Guardian
  | watch (times : Times) (watch : Watch)
  | probe (probe : Probe)
  deriving DecidableEq, Repr

namespace Guardian

/-- Whether the guardian is over. -/
def isOver : Guardian → Bool
  | watch _ w => w.ended
  | probe p => p.ended

/-- The next instant at which the guardian does something by itself. -/
def alarm? : Guardian → Option Instant
  | watch _ w => w.alarm?
  | probe p => p.alarm?

/-- One step of the guardian. -/
def step? (now : Instant) (scene : Scene) : Guardian → Option (Guardian × Scene)
  | watch times w => (scene.watch? times now w).map fun (w, scene) => (watch times w, scene)
  | probe p => (scene.probe? now p).map fun (p, scene) => (probe p, scene)

/-- A packet has come. -/
def notice : Guardian → Guardian
  | watch times w => watch times w.notice
  | probe p => probe p

/-- The number of steps that a guardian can take up to an instant. -/
def stepsUntil (horizon : Instant) : Guardian → Nat
  | watch _ _ => 3
  | probe p => (horizon - p.next) / p.interval.nanos + 3

end Guardian

/-- A guarded session at an instant, by an exact clock. -/
structure Timeline where
  guardian : Guardian
  scene : Scene := {}
  /-- When the guardian was over, if it is. -/
  ended : Option Instant := none
  sightings : List Sighting := []
  deriving DecidableEq, Repr

namespace Timeline

/-- Lets the guardian step at an instant, as long as it does anything, but at most `fuel` times. -/
def runAt (now : Instant) : Nat → Timeline → Timeline
  | 0, t => t
  | fuel + 1, t =>
      match t.guardian.step? now t.scene with
      | none => t
      | some (guardian, scene) =>
          let ended := if guardian.isOver && t.ended.isNone then some now else t.ended
          runAt now fuel { t with guardian, scene, ended }

/-- Lets the guardian step at an instant. -/
def poll (now : Instant) (t : Timeline) : Timeline := t.runAt now (t.guardian.stepsUntil now)

/-- Lets the alarms up to an instant go off, each at its own. -/
def advance (horizon : Instant) : Nat → Timeline → Timeline
  | 0, t => t
  | fuel + 1, t =>
      match t.guardian.alarm? with
      | none => t
      | some alarm => if alarm ≤ horizon then advance horizon fuel (t.poll alarm) else t

/-- One thing happens. -/
def happen (t : Timeline) : Happening → Timeline
  | .active => { t with guardian := t.guardian.notice }
  | .kill => { t with scene := t.scene.kill }
  | .enqueue p => { t with scene := { t.scene with session := t.scene.session.post p } }
  | .take =>
      match t.scene.session.outbound.tryReceive with
      | none => { t with sightings := t.sightings ++ [.taken none] }
      | some (p, outbound) =>
          { t with
            scene := { t.scene with session := { t.scene.session with outbound } }
            sightings := t.sightings ++ [.taken (some p)] }
  | .length =>
      { t with sightings := t.sightings ++ [.length t.scene.session.outbound.count] }

/-- Things happen one after another, each at its instant. -/
def play (t : Timeline) : List (Instant × Happening) → Timeline
  | [] => t
  | (now, happening) :: rest =>
      let t := t.advance now (t.guardian.stepsUntil now)
      ((t.happen happening).poll now).play rest

/-- Leaves a watch to itself until it is over. -/
def finish (t : Timeline) : Timeline :=
  match t.guardian with
  | .watch _ w => if w.ended then t else t.poll w.deadline
  | .probe _ => t

/-- The whole course of a session with its guardian, from the beginning. -/
def run (guardian : Guardian) (happenings : List (Instant × Happening)) : Timeline :=
  ((({ guardian } : Timeline).poll 0).play happenings).finish

end Timeline

end Depot.Liveness
