import Depot.Packet.Kind

/-!
# Metrics

What the server counts about itself. A series is named by what it counts; it exists from the first
time that it is touched. All series grow, but for the number of active connections, which goes up and
down.
-/

namespace Depot

/-- The way of a frame. -/
inductive Direction
  | inbound
  | outbound
  deriving DecidableEq, Repr

/-- A failure of a connection that is counted. -/
inductive Incident
  /-- The peer sent no frame. -/
  | frame
  /-- Writing to the peer failed. -/
  | socket
  /-- A request named an operation that is still running. -/
  | operationInUse
  /-- The peer was silent for too long. -/
  | connectionCheckFailed
  deriving DecidableEq, Repr

/-- What a client can ask for. -/
inductive OperationKind
  /-- Sends a file to the client. -/
  | download
  /-- Takes a file from the client. -/
  | upload
  /-- Makes a new user id. -/
  | allocate
  deriving DecidableEq, Repr

/-- How an operation ends. -/
inductive Outcome
  | ok
  /-- The failure was reported to the peer, if the session let it. -/
  | error
  /-- The session, or the peer, ended it. -/
  | aborted
  deriving DecidableEq, Repr

/-- What a series counts. -/
inductive Series
  | connectionsActive
  | frames (direction : Direction)
  | errors (incident : Incident)
  | handlers (kind : OperationKind) (outcome : Outcome)
  | panics
  deriving DecidableEq, Repr

namespace OperationKind

/-- The name of a kind of operation. -/
def label : OperationKind → String
  | download => "download"
  | upload => "upload"
  | allocate => "allocate"

/-- The kind of operation that a packet opens. -/
def ofRequest? : RequestType → Option OperationKind
  | .fileRequest => some download
  | .fileInfo => some upload
  | .idRequest => some allocate
  | _ => none

/-- The purpose of the packet that opens a kind of operation. -/
def request : OperationKind → RequestType
  | download => .fileRequest
  | upload => .fileInfo
  | allocate => .idRequest

end OperationKind

/-- The name of an outcome. -/
def Outcome.label : Outcome → String
  | ok => "ok"
  | error => "error"
  | aborted => "aborted"

/-- The name of a direction. -/
def Direction.label : Direction → String
  | inbound => "inbound"
  | outbound => "outbound"

/-- The name of an incident. -/
def Incident.label : Incident → String
  | frame => "frame"
  | socket => "socket"
  | operationInUse => "operation_in_use"
  | connectionCheckFailed => "connection_check_failed"

namespace Series

/-- The name of a series. -/
def name : Series → String
  | connectionsActive => "filewire_connections_active"
  | frames _ => "filewire_frames_processed_total"
  | errors _ => "filewire_errors_total"
  | handlers _ _ => "filewire_handlers_finished_total"
  | panics => "filewire_panics_total"

/-- The labels of a series, each with its value, sorted. -/
def labels : Series → List (String × String)
  | frames direction => [("direction", direction.label)]
  | errors incident => [("code", incident.label)]
  | handlers kind outcome => [("kind", kind.label), ("outcome", outcome.label)]
  | _ => []

/-- The name of a series with its labels. -/
def text (s : Series) : String :=
  s.name ++ "\x7b" ++ ",".intercalate (s.labels.map fun (key, value) => key ++ "=" ++ value) ++
    "\x7d"

end Series

/-- The series that were touched, with their values. -/
structure Metrics where
  counts : List (Series × Int) := []
  deriving DecidableEq, Repr

namespace Metrics

/-- The value of a series, if it was touched. -/
def get? (m : Metrics) (s : Series) : Option Int := m.counts.lookup s

/-- The value of a series; 0 if it was never touched. -/
def value (m : Metrics) (s : Series) : Int := (m.get? s).getD 0

/-- Adds to a series. -/
def add (m : Metrics) (s : Series) (amount : Int) : Metrics :=
  let rec go : List (Series × Int) → List (Series × Int)
    | [] => [(s, amount)]
    | (t, n) :: rest => if t = s then (t, n + amount) :: rest else (t, n) :: go rest
  { counts := go m.counts }

/-- Counts one more. -/
def count (m : Metrics) (s : Series) : Metrics := m.add s 1

/-- The texts of all series with their values, sorted by text. -/
def listing (m : Metrics) : List (String × Int) :=
  (m.counts.map fun (s, n) => (s.text, n)).mergeSort fun a b => a.1 ≤ b.1

end Metrics

end Depot
