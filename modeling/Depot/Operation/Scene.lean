import Depot.Diagnostics.Metrics
import Depot.Session.Basic
import Depot.Storage.Store

/-!
# The scene of an operation

What operations find and change: the session they serve, the storage tree and the metrics. What stays
the same for all of them, the roots of the store and the limits, is their `Service`.
-/

namespace Depot

/-- The limits of single operations. -/
structure Limits where
  /-- File bytes in one packet of a download. -/
  downloadChunk : Nat
  /-- Longest upload. -/
  maxUpload : Nat
  deriving DecidableEq, Repr

/-- What is the same for all operations of a server. -/
structure Service where
  store : Storage.Store
  limits : Limits
  deriving DecidableEq, Repr

/-- What operations find and change. -/
structure Scene where
  session : Session := {}
  tree : Storage.Tree := {}
  metrics : Metrics := {}
  deriving DecidableEq, Repr

namespace Scene

/-- Whether a packet that an operation sends goes anywhere. -/
def reachesPeer (s : Scene) : Bool := s.session.live && !s.session.outbound.isClosed

/-- Queues a packet of an operation for the peer, unless the session is over. To look at the session and
to queue the packet is one step here, as if nobody could end the session in between. They are two parts of
an `Operation.Script`. -/
def send? (s : Scene) (operation : UInt8) (p : Packet) : Option Scene :=
  if s.reachesPeer then
    some { s with session := s.session.post (p.withOperation operation) }
  else none

/-- Counts one more of a series. -/
def count (s : Scene) (series : Series) : Scene := { s with metrics := s.metrics.count series }

/-- Ends the session. -/
def kill (s : Scene) : Scene := { s with session := s.session.kill }

end Scene

end Depot
