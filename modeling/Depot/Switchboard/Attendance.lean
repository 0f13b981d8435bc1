import Depot.Switchboard.Basic

/-!
# Attending the switchboard

For as long as the session is not suspended, its inbound queue is emptied into the switchboard. A
shutdown is looked at before every packet, so it overtakes what is waiting; it suspends the session and
asks for a farewell. The end of the queue suspends the session too, as the closing of the socket does.
-/

namespace Depot.Switchboard

/-- Takes up a shutdown. -/
def shutDown (b : Switchboard) (scene : Scene) : Flow × Switchboard × Scene :=
  let scene := { scene with session := scene.session.requestFarewell .manualShutdown }
  b.dispatch (.suspend .manualShutdown) scene

/-- One round of attending: a shutdown, the next packet or the end of the queue. Without any of them
there is nothing to do yet. -/
def attend? (shutdown : Bool) (b : Switchboard) (scene : Scene) :
    Option (Flow × Switchboard × Scene) :=
  if shutdown then some (b.shutDown scene)
  else match scene.session.inbound.receive with
    | (.item p, rest) =>
        some (b.dispatch p { scene with session := { scene.session with inbound := rest } })
    | (.ended, _) => some (b.dispatch (.suspend .socketClosed) scene)
    | (.pending, _) => none

/-- At most `rounds` rounds, up to a suspend. -/
def attendFor (shutdown : Bool) : Nat → Switchboard → Scene → Option ErrorCode × Switchboard × Scene
  | 0, b, scene => (none, b, scene)
  | rounds + 1, b, scene =>
      match b.attend? shutdown scene with
      | none => (none, b, scene)
      | some (.stop code, b, scene) => (some code, b, scene)
      | some (.go, b, scene) => attendFor shutdown rounds b scene

/-- Attends to all that is waiting, up to a suspend, whose code is given. Every round but the last takes
one packet. -/
def attend (shutdown : Bool) (b : Switchboard) (scene : Scene) :
    Option ErrorCode × Switchboard × Scene :=
  attendFor shutdown (scene.session.inbound.waiting.length + 1) b scene

/-- Attends to a session to its end, and lets the operations finish. A shutdown may come when all that
waited is done. Without a suspend there is no code, and the operations go as far as they can. -/
def serve (service : Service) (b : Switchboard) (shutdownFirst shutdownLater : Bool) (scene : Scene) :
    Option ErrorCode × Switchboard × Scene :=
  let finish (result : Option ErrorCode × Switchboard × Scene) :=
    let (code, b, scene) := result
    let (_, b, scene) := b.drain service scene
    (code, b, scene)
  match b.attend shutdownFirst scene with
  | (some code, b, scene) => finish (some code, b, scene)
  | (none, b, scene) =>
      let (b, scene) := b.settle service scene
      if shutdownLater then finish (b.attend true scene) else (none, b, scene)

end Depot.Switchboard
