import Depot.Server.Backoff
import Depot.Server.Config
import Depot.Server.Ports
import Depot.Storage.Store

/-!
# Servers

A server before it runs: its store, its configuration, its back-off and the address on which it
listens, once it does. A configuration that breaks a rule is refused, and a back-off is put in order.
-/

namespace Depot

/-- The ways in which setting up a server fails. -/
inductive ServerError
  | bind (cause : Net.BindError)
  | config (cause : ConfigError)
  deriving DecidableEq, Repr

/-- The name of a kind of failure to set up a server. -/
def ServerError.label : ServerError → String
  | bind _ => "Bind"
  | config _ => "Config"

/-- The text of a failure to set up a server. -/
def ServerError.message : ServerError → String
  | bind cause => "bind error: " ++ cause.message
  | config cause => "invalid configuration: " ++ cause.message

/-- A server that does not run yet. -/
structure Server where
  store : Storage.Store
  config : Config := {}
  backoff : Backoff := {}
  /-- Where it listens. -/
  address : Option Net.Endpoint := none
  deriving DecidableEq, Repr

namespace Server

/-- A server with another configuration. -/
def withConfig (s : Server) (config : Config) : Except ServerError Server :=
  match config.validate with
  | .error cause => .error (.config cause)
  | .ok () => .ok { s with config }

/-- A server with another back-off. -/
def withBackoff (s : Server) (backoff : Backoff) : Server := { s with backoff := backoff.normalized }

/-- Listens where somebody has begun to listen for it. It stops listening where it did before. -/
def adopt (s : Server) (ports : Net.Ports) (address : Net.Endpoint) : Server × Net.Ports :=
  let ports := match s.address with
    | some old => ports.release old
    | none => ports
  ({ s with address := some address }, ports)

/-- Listens on an address. -/
def bind (s : Server) (ports : Net.Ports) (address : Net.Endpoint) :
    Except ServerError (Server × Net.Ports) :=
  match ports.listen address with
  | .error cause => .error (.bind cause)
  | .ok (address, ports) => .ok (s.adopt ports address)

/-- Whether a server that listened somewhere listens somewhere else now. -/
def movedFrom (s before : Server) : Bool :=
  before.address.isSome && s.address != before.address

end Server

end Depot
