import Depot.Server.Admission
import Depot.Server.Basic

/-!
# From start to stop

A server that runs on a host without a route to itself: it starts, and it can be stopped, but no client
ever gets through to it. `play?` follows a list of demands on such a server. One that needs a client
cannot be met.
-/

namespace Depot.Server

/-- What can be demanded of a server and its clients. -/
inductive Demand
  /-- Another client connects. -/
  | connect
  /-- A client that is connected does something. -/
  | client
  /-- The server stops, and everything it began is over. -/
  | stop
  deriving DecidableEq, Repr

/-- The steps by which a server without connections stops. -/
def stopping : List Admission.Event := [.shutdown, .stop, .close]

/-- A server after the demands, if all of them can be met. -/
def play? (a : Admission) : List Demand → Option Admission
  | [] => some a
  | .stop :: rest =>
      if a.hasReturned then play? a rest
      else (a.run? stopping).bind fun a => if a.hasReturned then play? a rest else none
  | .connect :: _ => none
  | .client :: _ => none

/-- Runs a server through the demands and stops it. A configuration that breaks a rule does not run,
nor one that asks for more slots than there can be room for. -/
def live? (s : Server) (demands : List Demand) : Option Admission :=
  match s.config.validate with
  | .error _ => none
  | .ok () =>
      let a := Admission.start s.config s.backoff
      if Memory.holds a.pool.capacity PooledSlot.size then
        (a.run? [.borrow]).bind fun a => play? a (demands ++ [.stop])
      else none

end Depot.Server
