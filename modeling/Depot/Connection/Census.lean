import Depot.Diagnostics.Metrics

/-!
# Counting active connections

Every connection is counted for as long as somebody holds its place. A place that is given up is
counted out once.
-/

namespace Depot.Connection

/-- The places that were ever taken, each with whether it is still held. -/
structure Census where
  places : List Bool := []
  metrics : Metrics := {}
  deriving DecidableEq, Repr

namespace Census

/-- The number of active connections. -/
def active (c : Census) : Nat := c.places.count true

/-- Takes another place. -/
def enter (c : Census) : Census :=
  { places := c.places ++ [true], metrics := c.metrics.add .connectionsActive 1 }

/-- Gives up a place, if it is held. -/
def leave (c : Census) (place : Nat) : Census :=
  if c.places[place]? = some true then
    { places := c.places.set place false, metrics := c.metrics.add .connectionsActive (-1) }
  else c

/-- Gives up all places. -/
def leaveAll (c : Census) : Census := (List.range c.places.length).foldl leave c

end Census

end Depot.Connection
