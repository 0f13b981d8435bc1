import Depot.CommandLine
import Depot.Server.Basic

/-!
# The program

Reads the command line and says what the server would be: where it listens, what it serves and under
which limits. A command line without settings, or a configuration that breaks a rule, ends the program
with the reason.
-/

namespace Depot

/-- What a server with some settings would be. -/
def CommandLine.describe (s : CommandLine.Settings) : List String :=
  ["listen " ++ s.listen.text,
    "root " ++ s.root,
    s!"max clients {s.config.maxClients}",
    "keepalive " ++ s.config.liveness.keepalive.text,
    "window " ++ s.config.liveness.window.text,
    s!"max upload {s.config.maxUpload}"]

end Depot

open Depot in
/-- Describes the server that the arguments ask for. -/
def main (args : List String) : IO UInt32 := do
  match CommandLine.parse args with
  | .error refusal =>
      IO.eprintln refusal.label
      return 2
  | .ok settings =>
      match settings.config.validate with
      | .error e =>
          IO.eprintln (ServerError.config e).message
          return 1
      | .ok () =>
          for line in CommandLine.describe settings do
            IO.println line
          return 0
