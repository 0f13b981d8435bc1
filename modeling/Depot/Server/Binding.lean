import Depot.Server.Basic

/-!
# Where servers listen

A server can be made to listen several times over: on an address of its own choice, or where somebody
else has begun to listen for it. An address on which somebody else listens is refused.
-/

namespace Depot.Server

/-- A way to make a server listen on the loopback address. -/
inductive Binding
  /-- Any free port. -/
  | fresh
  /-- Somebody has begun to listen for the server. -/
  | adopted
  /-- A port on which somebody else listens. -/
  | taken
  deriving DecidableEq, Repr

/-- Any port of the loopback address. -/
def loopback : Net.Endpoint := { ip := .v4 127 0 0 1, port := 0 }

/-- Makes a server listen. -/
def listen (s : Server) (ports : Net.Ports) (how : Binding) : Except ServerError (Server × Net.Ports) :=
  let other := (ports.listen loopback).mapError ServerError.bind
  match how with
  | .fresh => s.bind ports loopback
  | .adopted => other.map fun (address, ports) => s.adopt ports address
  | .taken => other.bind fun (address, ports) => s.bind ports address

/-- Makes a server listen time after time, up to the first failure. Every time is given with whether
the server listens somewhere else than before. -/
def listenAll (s : Server) (ports : Net.Ports) :
    List Binding → List (Except ServerError (Server × Bool))
  | [] => []
  | how :: rest =>
      match s.listen ports how with
      | .error e => [.error e]
      | .ok (s', ports) => .ok (s', s'.movedFrom s) :: listenAll s' ports rest

end Depot.Server
