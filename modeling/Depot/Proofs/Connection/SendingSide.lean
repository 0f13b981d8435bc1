import Depot.Proofs.Connection.Orderly
import Depot.Proofs.Connection.Outlet

/-!
# The sending side of a connection

Whatever the loops of a connection do, its sending loop goes through a run of an `Outlet`: to it the
others are somebody who queues packets, asks for farewells and kills the session. So what holds of every
run of an outlet holds of every connection. In particular nobody asks for a farewell after the end of the
session: reading and watching have ended then, and dispatching, which ends the session, has as well.

## Key results

- `Underway.step`: what a step of a connection is to its sending side
- `Underway.live_of_step`: no step brings a session back to life
-/

namespace Depot.Connection

namespace Outlet

/-- Whether there is a run from one outlet to another. -/
def Reaches (o o' : Outlet) : Prop := ∃ events, o.run? events = some o'

namespace Reaches

variable {o o' o'' : Outlet}

theorem refl (o : Outlet) : o.Reaches o := ⟨[], rfl⟩

theorem head {e : Event} (hstep : o.step? e = some o') (h : o'.Reaches o'') : o.Reaches o'' := by
  obtain ⟨events, hrun⟩ := h
  exact ⟨e :: events, by rw [run?, hstep, Option.bind_some, hrun]⟩

theorem single {e : Event} (hstep : o.step? e = some o') : o.Reaches o' := head hstep (refl o')

theorem trans (h : o.Reaches o') (h' : o'.Reaches o'') : o.Reaches o'' := by
  obtain ⟨events, hrun⟩ := h
  induction events generalizing o with
  | nil =>
    cases hrun
    exact h'
  | cons e rest ih =>
    obtain ⟨o₁, hstep, hrest⟩ := Option.bind_eq_some_iff.mp hrun
    exact head hstep (ih hrest)

/-- What has nothing to do with what is sent. -/
theorem aside {scene : Scene} (houtbound : scene.session.outbound = o.scene.session.outbound)
    (hlive : scene.session.live = o.scene.session.live)
    (hfarewell : scene.session.farewell = o.scene.session.farewell) : o.Reaches { o with scene } :=
  single (e := .aside scene) (if_pos ⟨houtbound, hlive, hfarewell⟩)

/-- While the session lives a farewell can be asked for. -/
theorem requestFarewell (hlive : o.scene.session.live = true) (code : ErrorCode) :
    o.Reaches (o.withSession (o.scene.session.requestFarewell code)) :=
  single (e := .requestFarewell code) (if_pos hlive)

theorem kill (o : Outlet) : o.Reaches (o.withSession o.scene.session.kill) := single (e := .kill) rfl

/-- Anything can be queued for the peer. -/
theorem postAll (o : Outlet) (packets : List Packet) :
    o.Reaches (o.withSession (o.scene.session.postAll packets)) := by
  induction packets generalizing o with
  | nil => exact refl o
  | cons p packets ih => exact head (e := .post p) rfl (ih (o.withSession (o.scene.session.post p)))

/-- What an operation does. -/
theorem replied {operation : UInt8} {scene : Scene} (h : o.scene.Replied operation scene) :
    o.Reaches { o with scene } := by
  obtain ⟨user, packets, -, hsession⟩ := h
  refine (postAll o packets).trans (aside ?_ ?_ ?_)
  all_goals
    rw [hsession]
    rfl

end Reaches

end Outlet

/-- The sending side of a connection. -/
def outlet (c : Connection) : Outlet where
  linger := c.linger
  now := c.now
  sender := c.sender
  scene := c.scene
  outgoing := c.outgoing

/-- What sending relies on: the session lives as long as dispatching goes on. -/
structure Underway (c : Connection) : Prop where
  live : c.verdict = none → c.scene.session.live = true
  board : c.board.Sound

namespace Underway

variable {c c' : Connection}

/-- A step of another loop than dispatching that leaves the end of the session alone. -/
private theorem beside (h : c.Underway) (hverdict : c'.verdict = c.verdict)
    (hlive : c'.scene.session.live = c.scene.session.live) (hboard : c'.board.Sound) : c'.Underway :=
  ⟨fun hopen => hlive.trans (h.live (hverdict ▸ hopen)), hboard⟩

/-- Before dispatching hands a shutdown to the switchboard it asks for a farewell. -/
private theorem attends {p : Packet} (h : c.Underway) (hp : c.upcoming? = some p) :
    c.outlet.Reaches { c.outlet with scene := c.attended } := by
  unfold attended
  split
  · refine Outlet.Reaches.requestFarewell (o := c.outlet) (h.live ?_) .manualShutdown
    cases hverdict : c.verdict with
    | none => rfl
    | some code =>
      rw [upcoming?, hverdict] at hp
      cases hp
  · exact .aside rfl rfl rfl

/-- What a dispatch does to the session is one of these, or a reply. -/
private theorem dispatch {p : Packet} (h : c.Underway) (hp : c.upcoming? = some p) :
    (c.follow (c.board.dispatch p c.attended)).Underway ∧
      c.outlet.Reaches (c.follow (c.board.dispatch p c.attended)).outlet := by
  have hattends := h.attends hp
  -- A suspend kills the session behind whatever was asked for; all else lets dispatching go on.
  by_cases hsuspend : p.request = .suspend
  · rw [Switchboard.dispatch_suspend hsuspend]
    refine ⟨⟨fun hopen => ?_, Switchboard.sound_suspend p h.board⟩, hattends.trans (.kill _)⟩
    cases hopen
  · obtain ⟨board, scene, hdispatch, hreplied, -, hboard⟩ :=
      Switchboard.dispatch_other hsuspend c.board c.attended
    have hlive : c.attended.session.live = c.scene.session.live := by
      unfold attended
      split <;> rfl
    rw [hdispatch]
    exact ⟨h.beside rfl ((Session.Replied.worked hreplied).live.trans hlive) (hboard h.board),
      hattends.trans (.replied hreplied)⟩

/-- A tick queues a packet, or nothing. -/
private theorem reaches_probe (c : Connection) : c.outlet.Reaches { c.outlet with scene := c.scene.probe } := by
  unfold Scene.probe
  split
  · exact .postAll c.outlet [.connectionCheck]
  · exact .refl _

/-- To the sending side a step of a connection is a short run. -/
theorem step {e : Event} (h : c.Underway) (hstep : c.step? e = some c') :
    c'.Underway ∧ c.outlet.Reaches c'.outlet := by
  cases steps_of_step? hstep with
  | @read chunk _ _ _ hlive =>
    refine ⟨h.beside rfl rfl h.board, ?_⟩
    cases hfault : (c.reader.feed chunk).fault with
    | none =>
      -- Without a fault nothing is asked for.
      have hsame : (c.scene.session.farewell <|> none) = c.scene.session.farewell := by
        cases c.scene.session.farewell <;> rfl
      exact .aside rfl rfl hsame
    | some fault =>
      exact (Outlet.Reaches.requestFarewell (o := c.outlet) hlive fault.suspendCode).trans
        (.aside rfl rfl rfl)
  | readEnd => exact ⟨h.beside rfl rfl h.board, .aside rfl rfl rfl⟩
  | readFailure => exact ⟨h.beside rfl rfl h.board, .aside rfl rfl rfl⟩
  | readStop => exact ⟨h.beside rfl rfl h.board, .refl _⟩
  | dispatch hp => exact h.dispatch hp
  | operate hadvance =>
    have honward := Switchboard.advance?_onward h.board hadvance
    obtain ⟨operation, hreplied⟩ := honward.replied
    exact ⟨h.beside rfl honward.worked.live honward.sound, .replied hreplied⟩
  | close => exact ⟨h.beside rfl rfl ⟨h.board.ascending, h.board.listening⟩, .refl _⟩
  | @send answer sent hsent =>
    refine ⟨h.beside rfl (Sender.moves_of_step? hsent).ends.1 h.board,
      .single (e := .send answer) ?_⟩
    exact Option.map_eq_some_iff.mpr ⟨sent, hsent, rfl⟩
  | @watch _ silent hwatch =>
    cases silent with
    | false => exact ⟨h.beside rfl rfl h.board, .refl _⟩
    | true =>
      refine ⟨h.beside rfl rfl h.board, ?_⟩
      have hasks := Outlet.Reaches.requestFarewell (o := c.outlet) (live_of_silent hwatch)
        .connectionCheckFailed
      exact hasks.trans (.aside rfl rfl rfl)
  | @probe _ tick =>
    cases tick with
    | false => exact ⟨h.beside rfl rfl h.board, .refl _⟩
    | true => exact ⟨h.beside rfl (worked_probe c.scene).live h.board, reaches_probe c⟩
  | wait duration => exact ⟨h.beside rfl rfl h.board, .single (e := .wait duration) rfl⟩
  | shutdown => exact ⟨h.beside rfl rfl h.board, .refl _⟩

/-- No step brings a session back to life. -/
theorem live_of_step {e : Event} (h : c.Underway) (hstep : c.step? e = some c')
    (hlive : c'.scene.session.live = true) : c.scene.session.live = true := by
  obtain ⟨-, events, hrun⟩ := h.step hstep
  cases hbefore : c.scene.session.live with
  | true => rfl
  | false =>
    have hdead : c'.scene.session.live = false := (Outlet.over_run hbefore hrun).1
    rw [hdead] at hlive
    cases hlive

end Underway

end Depot.Connection
