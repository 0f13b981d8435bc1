import Depot.Connection.Census
import Depot.Connection.Script
import Depot.Diagnostics.Panic
import Depot.Main
import Depot.Proofs.Connection.Farewell
import Depot.Proofs.Connection.Keepalive
import Depot.Proofs.Connection.Lengths
import Depot.Proofs.Connection.Recycling
import Depot.Proofs.Connection.Served
import Depot.Proofs.Connection.Tally
import Depot.Proofs.Frame.Decoding
import Depot.Proofs.Frame.Retrying
import Depot.Proofs.Frame.Rounds
import Depot.Proofs.Liveness.Silence
import Depot.Proofs.Operation.Grammar
import Depot.Proofs.Operation.Shrinking
import Depot.Proofs.Packet.Layouts
import Depot.Proofs.Pool.Custody
import Depot.Proofs.Queue.Account
import Depot.Proofs.Server.Admission
import Depot.Proofs.Server.Backoff
import Depot.Proofs.Storage.Names
import Depot.Proofs.Switchboard.Aftermath
import Depot.Proofs.Switchboard.Files
import Depot.Proofs.Switchboard.Interleaving
import Depot.Proofs.Switchboard.Lines
import Depot.Proofs.Switchboard.Routing
import Depot.Proofs.Switchboard.Suspending
import Depot.Server.Binding
import Depot.Server.Lifecycle
import Depot.Session.Holder
