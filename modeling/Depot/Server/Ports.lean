import Depot.Net.Address

/-!
# Ports

The addresses on which somebody listens on this host. A port is given out at most once at a time; port
zero stands for any port that is free.
-/

namespace Depot.Net

/-- The ways in which listening fails. -/
inductive BindError
  | addressInUse
  deriving DecidableEq, Repr

/-- The class of a failure to listen. -/
def BindError.kind : BindError → String
  | addressInUse => "AddrInUse"

/-- The text of a failure to listen. -/
def BindError.message : BindError → String
  | addressInUse => "address in use"

/-- The addresses on which somebody listens. -/
structure Ports where
  taken : List Endpoint := []
  deriving DecidableEq, Repr

namespace Ports

/-- The first port that is given out where any will do. -/
def firstFree : Nat := 32768

/-- The first free one of `count` ports of an address, from `port` on. -/
def search (p : Ports) (e : Endpoint) (port : Nat) : Nat → Option Endpoint
  | 0 => none
  | count + 1 =>
      let candidate := { e with port := UInt16.ofNat port }
      if candidate ∈ p.taken then p.search e (port + 1) count else some candidate

/-- The address that listening on an address comes to. -/
def resolve (p : Ports) (e : Endpoint) : Except BindError Endpoint :=
  if e.port = 0 then
    match p.search e firstFree (65536 - firstFree) with
    | some candidate => .ok candidate
    | none => .error .addressInUse
  else if e ∈ p.taken then .error .addressInUse
  else .ok e

/-- Listens on an address. -/
def listen (p : Ports) (e : Endpoint) : Except BindError (Endpoint × Ports) :=
  (p.resolve e).map fun e => (e, { taken := e :: p.taken })

/-- Stops listening on an address. -/
def release (p : Ports) (e : Endpoint) : Ports := { taken := p.taken.filter (· != e) }

end Ports

end Depot.Net
