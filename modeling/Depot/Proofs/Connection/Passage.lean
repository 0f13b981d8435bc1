import Depot.Connection.Basic
import Depot.Proofs.Connection.Sending
import Depot.Proofs.Frame.Chunks
import Depot.Proofs.Switchboard.Dispatch

/-!
# Passages of a connection

The loops of a connection go on in any order, but what is dispatched depends on the peer alone, unless
something else interferes: a timer, a socket that fails, a shutdown. A `Passage` is a run without such
interference, with the bytes of the peer that are still to be read and the packets that are dispatched.

## Key results

- `dispatch?_eq`: what dispatching takes, and what it does with it
- `takeIn_eq`: what reading does
-/

namespace Depot.Connection

/-! ### Dispatching -/

/-- The packet that the next round of dispatching takes. -/
def upcoming? (c : Connection) : Option Packet :=
  if c.verdict.isSome then none
  else if c.shutdown then some (.suspend .manualShutdown)
  else match c.scene.session.inbound.receive.1 with
    | .item p => some p
    | .ended => some (.suspend .socketClosed)
    | .pending => none

/-- The scene in which the next round of dispatching takes it. -/
def attended (c : Connection) : Scene :=
  if c.shutdown then
    { c.scene with session := c.scene.session.requestFarewell .manualShutdown }
  else
    { c.scene with
      session := { c.scene.session with inbound := c.scene.session.inbound.receive.2 } }

/-- The connection after a round of dispatching. -/
def follow (c : Connection) : Switchboard.Flow × Switchboard × Scene → Connection
  | (.go, board, scene) => { c with board, scene }
  | (.stop code, board, scene) => { c with board, scene, verdict := some code }

/-- To attend to a packet is to dispatch the upcoming one. -/
private theorem attend?_eq {c : Connection} (h : c.verdict = none) :
    c.board.attend? c.shutdown c.scene = c.upcoming?.map (c.board.dispatch · c.attended) := by
  simp only [Switchboard.attend?, upcoming?, attended, h, Option.isSome_none, Bool.false_eq_true,
    ↓reduceIte]
  split
  · rfl
  · cases hreceive : c.scene.session.inbound.receive with
    | mk received rest =>
      cases received with
      | item p => rfl
      | pending => rfl
      | ended =>
        -- At the end of the queue nothing is taken from it.
        rw [(Queue.receive_ended hreceive).2.1]
        rfl

/-- Dispatching hands the upcoming packet to the switchboard. -/
theorem dispatch?_eq (c : Connection) :
    c.dispatch? = c.upcoming?.map fun p => c.follow (c.board.dispatch p c.attended) := by
  unfold dispatch?
  split
  · next hover => rw [upcoming?, if_pos hover]; rfl
  · next hopen =>
    rw [attend?_eq (by simpa using hopen), Option.map_map]
    congr 1
    funext p
    simp only [Function.comp_apply]
    rcases c.board.dispatch p c.attended with ⟨flow, board, scene⟩
    cases flow <;> rfl

/-- Unless it is a shutdown, what is dispatched was the first to wait in the inbound queue, as long as that
is open at both ends. -/
theorem taken_of_upcoming? {c : Connection} {p : Packet} (hshutdown : c.shutdown = false)
    (hlistening : c.scene.session.inbound.receiver = .listening)
    (hsenders : c.scene.session.inbound.senders ≠ 0) (hp : c.upcoming? = some p) :
    c.verdict = none ∧ ∃ rest, c.scene.session.inbound.waiting = p :: rest.waiting ∧
      rest.receiver = .listening ∧ rest.senders ≠ 0 ∧
      c.attended = { c.scene with session := { c.scene.session with inbound := rest } } := by
  have hbusy : ¬c.shutdown = true := by rw [hshutdown]; exact Bool.false_ne_true
  simp only [upcoming?, if_neg hbusy] at hp
  split at hp
  · cases hp
  · next hopen =>
    refine ⟨by simpa using hopen, ?_⟩
    -- What comes up is what the queue hands out; the suspend for want of senders is excluded.
    cases hreceive : c.scene.session.inbound.receive with
    | mk received rest =>
      rw [hreceive] at hp
      cases received with
      | item q =>
        cases hp
        obtain ⟨hwaiting, hreceiver, hkept⟩ := Queue.receive_item hreceive
        refine ⟨rest, hwaiting, hreceiver.trans hlistening, hkept ▸ hsenders, ?_⟩
        rw [attended, if_neg hbusy, hreceive]
      | ended => exact absurd ((Queue.receive_ended hreceive).2.2 hlistening) hsenders
      | pending => cases hp

/-- The packets that a step dispatches. -/
def dispatched (c : Connection) : Event → List Packet
  | .dispatch => c.upcoming?.toList
  | _ => []

/-! ### Passages -/

/-- Whether a step goes without interference, if `left` is what the peer still sends before it closes
its end: no timer finds the peer silent, the socket does not fail and the server does not shut down. -/
def Undisturbed (left : List UInt8) (c : Connection) : Event → Prop
  | .read chunk => chunk <+: left
  | .readEnd => left = []
  | .readFailure => False
  | .send answer => answer.Works
  | .watch => ∀ w, c.watch.step? c.times c.now c.scene.session.live ≠ some (w, true)
  | .shutdown => False
  | _ => True

/-- What the peer still sends after a step. -/
def unread (left : List UInt8) : Event → List UInt8
  | .read chunk => left.drop chunk.length
  | _ => left

/-- A run without interference, from what the peer still sends to what it sends after it, with the
packets that are dispatched. -/
inductive Passage : List UInt8 → Connection → List Packet → List UInt8 → Connection → Prop
  | nil {left : List UInt8} {c : Connection} : Passage left c [] left c
  | cons {left left' : List UInt8} {c c' c'' : Connection} {e : Event} {packets : List Packet}
      (hundisturbed : Undisturbed left c e) (hstep : c.step? e = some c')
      (h : Passage (unread left e) c' packets left' c'') :
      Passage left c (c.dispatched e ++ packets) left' c''

namespace Passage

variable {left left' left'' : List UInt8} {c c' c'' : Connection} {packets packets' : List Packet}

/-- A step is a passage. -/
theorem single {e : Event} (hundisturbed : Undisturbed left c e) (hstep : c.step? e = some c') :
    Passage left c (c.dispatched e) (unread left e) c' := by
  have h : Passage left c (c.dispatched e ++ []) (unread left e) c' := .cons hundisturbed hstep .nil
  rwa [List.append_nil] at h

theorem trans (h : Passage left c packets left' c') (h' : Passage left' c' packets' left'' c'') :
    Passage left c (packets ++ packets') left'' c'' := by
  induction h with
  | nil => exact h'
  | cons hundisturbed hstep _ ih =>
    rw [List.append_assoc]
    exact .cons hundisturbed hstep (ih h')

end Passage

/-! ### Reading -/

/-- The packets that an intake puts into the inbound queue: those that it completes, and after a fault
the suspend that ends reading. -/
def arrivals (intake : Frame.Intake) : List Packet :=
  intake.packets ++ (intake.fault.map fun fault => .suspend fault.suspendCode).toList

/-- To accept packets is to queue them, to touch the watch and to count. -/
private theorem foldl_accept (c : Connection) (packets : List Packet) :
    ∃ watch metrics, packets.foldl accept c =
      { c with
        watch
        scene := { c.scene with
          metrics
          session := { c.scene.session with
            inbound := packets.foldl Queue.push c.scene.session.inbound } } } := by
  induction packets generalizing c with
  | nil => exact ⟨c.watch, c.scene.metrics, rfl⟩
  | cons p packets ih =>
    obtain ⟨watch, metrics, hfold⟩ := ih (c.accept p)
    exact ⟨watch, metrics, hfold⟩

/-- Taking in bytes changes the reader, the inbound queue and what goes with them, and nothing else. -/
theorem takeIn_eq (c : Connection) (chunk : List UInt8) :
    ∃ watch metrics, c.takeIn chunk =
      { c with
        reader := (c.reader.feed chunk).reader
        buffer := chunk
        reading := c.reading && (c.reader.feed chunk).fault.isNone
        watch
        scene := { c.scene with
          metrics
          session := { c.scene.session with
            inbound := (arrivals (c.reader.feed chunk)).foldl Queue.push c.scene.session.inbound
            farewell := c.scene.session.farewell <|>
              (c.reader.feed chunk).fault.map Frame.Fault.suspendCode } } } := by
  obtain ⟨watch, metrics, hfold⟩ := foldl_accept
    { c with reader := (c.reader.feed chunk).reader, buffer := chunk } (c.reader.feed chunk).packets
  simp only [takeIn, hfold, arrivals]
  cases (c.reader.feed chunk).fault with
  | none =>
    have hfarewell : (c.scene.session.farewell <|> none) = c.scene.session.farewell := by
      cases c.scene.session.farewell <;> rfl
    refine ⟨watch, metrics, ?_⟩
    simp only [Option.map_none, Option.toList_none, List.append_nil, Option.isNone_none, Bool.and_true,
      hfarewell]
  | some fault =>
    refine ⟨watch, metrics.count (.errors .frame), ?_⟩
    simp only [endReading, Option.map_some, Option.toList_some, List.foldl_append, List.foldl_cons,
      List.foldl_nil, Option.isNone_some, Bool.and_false]
    rfl

end Depot.Connection
