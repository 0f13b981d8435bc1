import Depot.Proofs.Connection.Moves
import Depot.Proofs.Queue.Receive

/-!
# The outlet of a session

The loop that writes the packets of a session, on its own. Anybody may queue packets at any time, the
session may be killed between any two writes, and the socket takes what it likes when it likes. Whatever
happens, the frames on the wire are those of the packets that were taken from the queue, in this order
and each as a whole, and behind them is the farewell that had been asked for when the session was killed.
Only a socket that fails or is late cuts that short.

What a run keeps is an equation, `Told`: what was written and is unsent is what the packets that were
`taken` put on the wire. No frame is torn then, none is mixed with another, and it does not matter where a
write ends. The end of the session changes what is done about the frame in progress, not the equation.

## Key results

- `ordered_step`, `ordered_run`: what was written and is unsent, in terms of packets
- `wire_of_killed`: what is on the wire after the end of a session
-/

namespace Depot

/-- The bytes that a packet puts on the wire: its frame, if it has one. -/
def Packet.onWire (p : Packet) : List UInt8 :=
  match p.encode with
  | .ok frame => frame
  | .error _ => []

/-- The bytes that packets put on the wire, one after another. -/
def Packet.allOnWire (packets : List Packet) : List UInt8 := packets.flatMap onWire

/-- Packets are written one after another. -/
theorem Packet.allOnWire_append (packets packets' : List Packet) :
    allOnWire (packets ++ packets') = allOnWire packets ++ allOnWire packets' :=
  List.flatMap_append

/-- A single packet is written as its frame. -/
theorem Packet.allOnWire_singleton (p : Packet) : allOnWire [p] = p.onWire := List.append_nil _

/-- Packets that have frames put these on the wire, and nothing else. -/
theorem Packet.encodeAll_eq_allOnWire {packets : List Packet}
    (h : ∀ p ∈ packets, ∃ frame, p.encode = .ok frame) :
    encodeAll packets = .ok (allOnWire packets) := by
  induction packets with
  | nil => rfl
  | cons p packets ih =>
    obtain ⟨frame, hframe⟩ := h p List.mem_cons_self
    have hwire : p.onWire = frame := by rw [onWire, hframe]
    rw [encodeAll_cons hframe (ih fun q hq => h q (List.mem_cons_of_mem p hq)), ← hwire]
    rfl

/-- What is staged for a packet is what it puts on the wire. -/
theorem Packet.onWire_of_stage {p : Packet} {w w' : Frame.Writer} (h : w.stage p = .ok w') :
    p.onWire = w'.unsent := by
  rw [onWire, (Frame.Writer.unsent_of_stage h).1]

/-- A packet that cannot be staged puts nothing on the wire. -/
theorem Packet.onWire_of_stage_error {p : Packet} {w : Frame.Writer} {fault : Frame.Fault}
    (h : w.stage p = .error fault) : p.onWire = [] := by
  rw [onWire]
  split
  · next frame hframe =>
    obtain ⟨w', hstage⟩ := Frame.Writer.exists_stage (w := w) hframe
    rw [h] at hstage
    cases hstage
  · rfl

namespace Connection

/-! ### The outlet -/

/-- The sending loop of a session with the scene that it shares with others. -/
structure Outlet where
  linger : Duration
  now : Liveness.Instant := 0
  sender : Sender
  scene : Scene
  /-- The bytes that the socket took. -/
  outgoing : List UInt8 := []

namespace Outlet

/-- What happens around the sending loop. -/
inductive Event
  /-- Somebody queues a packet. -/
  | post (p : Packet)
  /-- Somebody asks for a farewell. -/
  | requestFarewell (code : ErrorCode)
  /-- The session is killed. -/
  | kill
  /-- Something happens to the scene that has nothing to do with what is sent. -/
  | aside (scene : Scene)
  | wait (duration : Duration)
  /-- Sending takes a step; if it writes, this is what the socket does. -/
  | send (answer : WriteAnswer)

/-- The outlet before the first step, with slices of so many bytes. -/
def start (linger : Duration) (chunk : Nat) (scene : Scene) : Outlet :=
  { linger, sender := { writer := .new chunk }, scene }

/-- The outlet with another session. -/
def withSession (o : Outlet) (session : Session) : Outlet :=
  { o with scene := { o.scene with session } }

/-- The outlet after a step of sending. -/
def advance (o : Outlet) (sent : Sent) : Outlet :=
  { o with sender := sent.sender, scene := sent.scene, outgoing := o.outgoing ++ sent.bytes }

/-- The outlet after an event, if it can happen. A farewell is asked for only as long as the session
lives. -/
def step? (o : Outlet) : Event → Option Outlet
  | .post p => some (o.withSession (o.scene.session.post p))
  | .requestFarewell code =>
      if o.scene.session.live then some (o.withSession (o.scene.session.requestFarewell code)) else none
  | .kill => some (o.withSession o.scene.session.kill)
  | .aside scene =>
      if scene.session.outbound = o.scene.session.outbound ∧
          scene.session.live = o.scene.session.live ∧
          scene.session.farewell = o.scene.session.farewell then
        some { o with scene }
      else none
  | .wait duration => some { o with now := o.now + duration.nanos }
  | .send answer =>
      (o.sender.step? o.linger o.now answer o.scene).map o.advance

/-- The outlet after a course of events, if they can happen one after another. -/
def run? (o : Outlet) : List Event → Option Outlet
  | [] => some o
  | e :: rest => (o.step? e).bind fun o => o.run? rest

/-- The packets that are queued in an event. -/
def Event.posted : Event → List Packet
  | .post p => [p]
  | _ => []

/-- Whether the socket takes a byte at once, if there is one to take. -/
def Event.isPrompt : Event → Bool
  | .send (.accept count) => count != 0
  | .send _ => false
  | _ => true

/-- Whether the next step of sending writes. -/
def Writes (o : Outlet) : Prop :=
  match o.sender.sending with
  | .packet => o.scene.session.live = true
  | .finishing _ _ => o.sender.writer.isIdle = false
  | .parting _ => True
  | _ => False

/-- Whether the socket fails in an event, or is not ready any more in time. -/
def Hinders (o : Outlet) : Event → Prop
  | .send answer => o.Writes ∧
      (¬answer.Works ∨ answer = .full ∧ ∃ deadline, o.sender.alarm? = some deadline ∧ deadline ≤ o.now)
  | _ => False

/-- Whether the socket fails or is late in a course of events. -/
def Hindered (o : Outlet) : List Event → Prop
  | [] => False
  | e :: rest => o.Hinders e ∨ ∃ next, o.step? e = some next ∧ next.Hindered rest

/-- What is said behind the packets of the queue. -/
def last (session : Session) : List Packet :=
  if session.live then [] else (session.farewell.map .suspend).toList

/-- What was written and what is unsent, in terms of the packets that were taken from the queue. -/
def Told (s : Sender) (session : Session) (outgoing : List UInt8) (taken : List Packet)
    (hindered : Prop) : Prop :=
  match s.sending with
  | .idle => s.writer.unsent = [] ∧ outgoing = Packet.allOnWire taken
  | .packet => outgoing ++ s.writer.unsent = Packet.allOnWire taken
  | .finishing _ farewell => session.live = false ∧ farewell = session.farewell ∧
      outgoing ++ s.writer.unsent = Packet.allOnWire taken
  | .parting _ => session.live = false ∧
      outgoing ++ s.writer.unsent = Packet.allOnWire (taken ++ last session)
  | .stopped => outgoing <+: Packet.allOnWire (taken ++ last session) ∧
      (hindered ∨ session.live = false ∧ outgoing = Packet.allOnWire (taken ++ last session))

/-- How an outlet fits together with the packets that were queued and those that were taken. -/
structure Ordered (queued taken : List Packet) (hindered : Prop) (o : Outlet) : Prop where
  sound : o.sender.writer.Sound
  listening : o.scene.session.outbound.receiver = .listening
  queue : taken ++ o.scene.session.outbound.waiting = queued
  told : Told o.sender o.scene.session o.outgoing taken hindered

/-- At the beginning everything waits and nothing is taken. -/
theorem ordered_start (linger : Duration) (chunk : Nat) {scene : Scene}
    (h : scene.session.outbound.receiver = .listening) :
    Ordered scene.session.outbound.waiting [] False (start linger chunk scene) :=
  ⟨Frame.Writer.sound_new chunk, h, rfl, rfl, rfl⟩

section

variable {queued taken : List Packet} {hindered hindered' : Prop} {o o' : Outlet} {e : Event}

/-- What was written is the beginning of the frames of what was taken, and of the farewell. -/
theorem Ordered.written (h : Ordered queued taken hindered o) :
    o.outgoing <+: Packet.allOnWire (taken ++ last o.scene.session) := by
  have htold := h.told
  have hfirst {written : List UInt8} (h : written <+: Packet.allOnWire taken) :
      written <+: Packet.allOnWire (taken ++ last o.scene.session) := by
    rw [Packet.allOnWire_append]
    exact h.trans (List.prefix_append _ _)
  -- Wherever sending is, what it told of the wire ends before the farewell or with it.
  unfold Told at htold
  split at htold
  · exact hfirst (htold.2 ▸ List.prefix_refl _)
  · exact hfirst (htold ▸ List.prefix_append _ _)
  · exact hfirst (htold.2.2 ▸ List.prefix_append _ _)
  · exact htold.2 ▸ List.prefix_append _ _
  · exact htold.1

/-- What others do to a session does not touch what was told, as long as its end and the farewell of a
session that is over stand. -/
theorem Told.congr {s : Sender} {session session' : Session} {outgoing : List UInt8}
    (h : Told s session outgoing taken hindered)
    (hsession : session.live = false → session'.live = false ∧ session'.farewell = session.farewell) :
    Told s session' outgoing taken hindered := by
  have hlast (hdead : session.live = false) : last session' = last session := by
    obtain ⟨hdead', hfarewell⟩ := hsession hdead
    rw [last, last, hdead, hdead', hfarewell]
  unfold Told at h ⊢
  split at h
  · exact h
  · exact h
  · obtain ⟨hdead, hfarewell, hbytes⟩ := h
    exact ⟨(hsession hdead).1, hfarewell.trans (hsession hdead).2.symm, hbytes⟩
  · obtain ⟨hdead, hbytes⟩ := h
    exact ⟨(hsession hdead).1, by rw [hlast hdead]; exact hbytes⟩
  · obtain ⟨hwritten, hcause⟩ := h
    cases hlive : session.live with
    | false =>
      rw [hlast hlive]
      exact ⟨hwritten, hcause.imp id fun hdone => ⟨(hsession hlive).1, hdone.2⟩⟩
    | true =>
      -- Sending that stopped while the session lived was hindered, and has no farewell to add.
      rw [last, hlive, if_pos rfl, List.append_nil] at hwritten
      refine ⟨?_, hcause.imp id fun hdone => ?_⟩
      · rw [Packet.allOnWire_append]
        exact hwritten.trans (List.prefix_append _ _)
      · rw [hlive] at hdone
        cases hdone.1

/-- What holds after one hindrance holds after more. -/
theorem Told.mono {s : Sender} {session : Session} {outgoing : List UInt8}
    (h : Told s session outgoing taken hindered) (himp : hindered → hindered') :
    Told s session outgoing taken hindered' := by
  unfold Told at h ⊢
  split at h
  · exact h
  · exact h
  · exact h
  · exact h
  · exact ⟨h.1, h.2.imp himp id⟩

/-- The order allows for hindrances that were not met. -/
theorem Ordered.mono (h : Ordered queued taken hindered o) (himp : hindered → hindered') :
    Ordered queued taken hindered' o :=
  { h with told := h.told.mono himp }

/-- Something that happens beside sending, with packets that are queued. -/
private theorem ordered_beside {packets : List Packet} (h : Ordered queued taken hindered o)
    (hsender : o'.sender = o.sender) (houtgoing : o'.outgoing = o.outgoing)
    (houtbound : o'.scene.session.outbound = packets.foldl Queue.push o.scene.session.outbound)
    (hsession : o.scene.session.live = false →
      o'.scene.session.live = false ∧ o'.scene.session.farewell = o.scene.session.farewell) :
    Ordered (queued ++ packets) taken hindered o' where
  sound := hsender ▸ h.sound
  listening := by rw [houtbound, (Queue.ends_foldl_push _ packets).1, h.listening]
  queue := by
    rw [houtbound, Queue.waiting_foldl_push packets h.listening, ← List.append_assoc, h.queue]
  told := by
    rw [hsender, houtgoing]
    exact h.told.congr hsession

/-! ### Sending -/

/-- When the packet in progress is complete the farewell follows, if there is one. -/
private theorem told_part {s : Sender} {scene : Scene} {outgoing : List UInt8}
    {deadline : Liveness.Instant} {farewell : Option ErrorCode} (hdead : scene.session.live = false)
    (hfarewell : farewell = scene.session.farewell)
    (hwritten : outgoing = Packet.allOnWire taken) :
    Told (s.part deadline farewell scene).sender scene.session outgoing taken hindered := by
  have hlast : last scene.session = (farewell.map Packet.suspend).toList := by
    rw [last, hdead, hfarewell]
    rfl
  -- Without a farewell sending stops here; with one its frame is what comes last.
  cases hcode : farewell with
  | none =>
    rw [hcode] at hlast
    show _ ∧ (_ ∨ _)
    rw [hlast, Option.map_none, Option.toList_none, List.append_nil]
    exact ⟨hwritten ▸ List.prefix_refl _, .inr ⟨hdead, hwritten⟩⟩
  | some code =>
    obtain ⟨writer, hstage, hpart⟩ := Sender.exists_part s deadline code scene
    rw [hpart]
    rw [hcode] at hlast
    refine ⟨hdead, ?_⟩
    show outgoing ++ writer.unsent = _
    rw [hlast, Option.map_some, Option.toList_some, Packet.allOnWire_append, hwritten,
      Packet.allOnWire_singleton, Packet.onWire_of_stage hstage]

/-- A socket that lets a write fail hinders the step that writes. -/
private theorem hinders_of_write {answer : WriteAnswer} {w : Frame.Writer} (hwrites : o.Writes)
    (h : Sender.write w answer = none) : o.Hinders (.send answer) := by
  refine ⟨hwrites, .inl fun hworks => ?_⟩
  obtain ⟨writer, bytes, hwrite⟩ := Sender.exists_write w hworks
  rw [h] at hwrite
  cases hwrite

/-- Sending gives up on a live session only if the socket fails, and that is a hindrance. -/
theorem hinders_of_givesUp {answer : WriteAnswer} (hsending : o.sender.sending = .packet)
    (hlive : o.scene.session.live = true) (h : Sender.write o.sender.writer answer = none) :
    o.Hinders (.send answer) := by
  refine hinders_of_write ?_ h
  rw [Writes, hsending]
  exact hlive

/-- So is a socket that fails or takes nothing up to the deadline, once the session is over. -/
theorem hinders_of_stops {answer : WriteAnswer} {deadline : Liveness.Instant}
    (halarm : o.sender.alarm? = some deadline)
    (hbusy : ∀ farewell, o.sender.sending = .finishing deadline farewell →
      o.sender.writer.isIdle = false)
    (hcause : Sender.write o.sender.writer answer = none ∨ answer = .full ∧ deadline ≤ o.now) :
    o.Hinders (.send answer) := by
  -- There is a deadline only after the end of the session, and then there is something to write.
  have hwrites : o.Writes := by
    unfold Writes
    cases hsending : o.sender.sending with
    | finishing deadline' farewell =>
      rw [Sender.alarm?, hsending] at halarm
      cases halarm
      exact hbusy farewell hsending
    | parting deadline' => trivial
    | idle => rw [Sender.alarm?, hsending] at halarm; cases halarm
    | packet => rw [Sender.alarm?, hsending] at halarm; cases halarm
    | stopped => rw [Sender.alarm?, hsending] at halarm; cases halarm
  rcases hcause with hwrite | ⟨hfull, hlate⟩
  · exact hinders_of_write hwrites hwrite
  · exact ⟨hwrites, .inr ⟨hfull, deadline, halarm, hlate⟩⟩

variable {answer : WriteAnswer} {sent : Sent}

/-- A packet that is taken from the queue stands behind those that were taken before. -/
private theorem Ordered.take {p : Packet} (h : Ordered queued taken hindered o)
    (hmoves : Sender.Moves o.linger o.now answer o.sender o.scene sent)
    (htake : o.scene.session.outbound.tryReceive = some (p, sent.scene.session.outbound))
    (htold : Told sent.sender sent.scene.session (o.outgoing ++ sent.bytes) (taken ++ [p]) hindered') :
    Ordered queued (taken ++ [p]) hindered' (o.advance sent) where
  sound := hmoves.sound h.sound
  listening := (Queue.ends_tryReceive htake).1.trans h.listening
  queue := by
    have hwaiting := h.queue
    rw [Queue.waiting_tryReceive htake] at hwaiting
    rw [List.append_assoc]
    exact hwaiting
  told := htold

/-- Any other step of sending leaves the queue alone. -/
private theorem Ordered.leave (h : Ordered queued taken hindered o)
    (hmoves : Sender.Moves o.linger o.now answer o.sender o.scene sent)
    (houtbound : sent.scene.session.outbound = o.scene.session.outbound)
    (htold : Told sent.sender sent.scene.session (o.outgoing ++ sent.bytes) taken hindered') :
    Ordered queued taken hindered' (o.advance sent) where
  sound := hmoves.sound h.sound
  listening := houtbound ▸ h.listening
  queue := houtbound ▸ h.queue
  told := htold

/-- A step of sending keeps the order, and takes a packet only as long as the session lives. -/
private theorem ordered_send (h : Ordered queued taken hindered o)
    (hmoves : Sender.Moves o.linger o.now answer o.sender o.scene sent) :
    ∃ more, Ordered queued (taken ++ more) (hindered ∨ o.Hinders (.send answer)) (o.advance sent) ∧
      (o.scene.session.live = false → more = []) := by
  have htold := h.told
  -- Only `takes` and `drops` touch the queue; for the other moves the equation is all there is to show.
  have hquiet (houtbound : sent.scene.session.outbound = o.scene.session.outbound)
      (htold : Told sent.sender sent.scene.session (o.outgoing ++ sent.bytes) taken
        (hindered ∨ o.Hinders (.send answer))) :
      ∃ more, Ordered queued (taken ++ more) (hindered ∨ o.Hinders (.send answer)) (o.advance sent) ∧
        (o.scene.session.live = false → more = []) :=
    ⟨[], by rw [List.append_nil]; exact h.leave hmoves houtbound htold, fun _ => rfl⟩
  -- A write moves bytes from what is unsent to what was written, wherever it ends.
  have hmoved {writer : Frame.Writer} {bytes : List UInt8}
      (hwrite : Sender.write o.sender.writer answer = some (writer, bytes)) :
      o.outgoing ++ bytes ++ writer.unsent = o.outgoing ++ o.sender.writer.unsent := by
    rw [List.append_assoc, (Sender.write_spec h.sound hwrite).2]
  have hcomplete {writer : Frame.Writer} {bytes : List UInt8}
      (hwrite : Sender.write o.sender.writer answer = some (writer, bytes)) (hidle : writer.isIdle) :
      o.outgoing ++ bytes = o.outgoing ++ o.sender.writer.unsent := by
    rw [← hmoved hwrite, Frame.Writer.unsent_eq_nil_of_isIdle hidle, List.append_nil]
  cases hmove : hmoves with
  | takes hsending hlive htake hstage =>
    rw [Told, hsending] at htold
    refine ⟨_, h.take hmoves htake ?_, fun hdead => by rw [hlive] at hdead; cases hdead⟩
    show o.outgoing ++ [] ++ _ = _
    rw [List.append_nil, Packet.allOnWire_append, Packet.allOnWire_singleton,
      Packet.onWire_of_stage hstage, ← htold.2]
  | drops hsending hlive htake hstage =>
    refine ⟨_, h.take hmoves htake ?_, fun hdead => by rw [hlive] at hdead; cases hdead⟩
    rw [Told, hsending] at htold ⊢
    rw [List.append_nil, Packet.allOnWire_append, Packet.allOnWire_singleton,
      Packet.onWire_of_stage_error hstage, List.append_nil]
    exact htold
  | closes hsending hdead =>
    refine hquiet rfl ⟨hdead, rfl, ?_⟩
    show o.outgoing ++ [] ++ o.sender.writer.unsent = _
    rw [List.append_nil]
    rcases hsending with hsending | hsending
    · rw [Told, hsending] at htold
      rw [htold.1, List.append_nil, htold.2]
    · rw [Told, hsending] at htold
      exact htold
  | writes hbusy hgoing _ hwrite =>
    refine hquiet rfl ?_
    unfold Told at htold ⊢
    split at htold
    · next hidle => exact absurd hidle hbusy
    · next hpacket => simp only [hpacket, hmoved hwrite, htold]
    · next hfinishing => simp only [hfinishing, hmoved hwrite, htold, and_self]
    · next hparting => simp only [hparting, hmoved hwrite, htold, and_self]
    · next hstopped => exact absurd hstopped hgoing
  | completes hsending _ hwrite hidle =>
    rw [Told, hsending] at htold
    exact hquiet rfl
      ⟨Frame.Writer.unsent_eq_nil_of_isIdle hidle, (hcomplete hwrite hidle).trans htold⟩
  | givesUp hsending hlive hwrite =>
    refine hquiet rfl ⟨?_, .inl (.inr (hinders_of_givesUp hsending hlive hwrite))⟩
    show o.outgoing ++ [] <+: _
    rw [List.append_nil]
    exact h.written
  | parts hsending hidle =>
    rw [Told, hsending] at htold
    obtain ⟨hdead, hfarewell, hbytes⟩ := htold
    rw [Frame.Writer.unsent_eq_nil_of_isIdle hidle, List.append_nil] at hbytes
    refine hquiet (by rw [Sender.scene_part]) ?_
    rw [Sender.scene_part, Sender.bytes_part, List.append_nil]
    exact told_part hdead hfarewell hbytes
  | finishes hsending hwrite hidle =>
    rw [Told, hsending] at htold
    obtain ⟨hdead, hfarewell, hbytes⟩ := htold
    refine hquiet (by simp only [Sender.scene_part]) ?_
    simp only [Sender.scene_part]
    exact told_part hdead hfarewell ((hcomplete hwrite hidle).trans hbytes)
  | parted hsending hwrite hidle =>
    rw [Told, hsending] at htold
    obtain ⟨hdead, hbytes⟩ := htold
    have hwritten := (hcomplete hwrite hidle).trans hbytes
    exact hquiet rfl ⟨hwritten ▸ List.prefix_refl _, .inr ⟨hdead, hwritten⟩⟩
  | stops halarm hbusy hcause =>
    refine hquiet rfl ⟨?_, .inl (.inr (hinders_of_stops halarm hbusy hcause))⟩
    show o.outgoing ++ [] <+: _
    rw [List.append_nil]
    exact h.written

/-! ### Steps and runs -/

/-- A session that is over stays so, with its farewell. -/
theorem over_step (hover : o.scene.session.live = false) (hstep : o.step? e = some o') :
    o'.scene.session.live = false ∧ o'.scene.session.farewell = o.scene.session.farewell := by
  -- A farewell is asked for only while the session lives, and nothing brings a session back to life.
  cases e with
  | post p =>
    cases hstep
    exact ⟨hover, rfl⟩
  | requestFarewell code =>
    rw [step?, hover] at hstep
    cases hstep
  | kill =>
    cases hstep
    exact ⟨rfl, rfl⟩
  | aside scene =>
    rw [step?] at hstep
    split at hstep
    · next hsame =>
      cases hstep
      exact ⟨hsame.2.1.trans hover, hsame.2.2⟩
    · cases hstep
  | wait duration =>
    cases hstep
    exact ⟨hover, rfl⟩
  | send answer =>
    obtain ⟨sent, hsent, rfl⟩ := Option.map_eq_some_iff.mp hstep
    have hends := (Sender.moves_of_step? hsent).ends
    exact ⟨hends.1.trans hover, hends.2⟩

/-- A session that is over stays so in a run, with its farewell. -/
theorem over_run {events : List Event} (hover : o.scene.session.live = false)
    (hrun : o.run? events = some o') :
    o'.scene.session.live = false ∧ o'.scene.session.farewell = o.scene.session.farewell := by
  induction events generalizing o with
  | nil =>
    cases hrun
    exact ⟨hover, rfl⟩
  | cons e rest ih =>
    obtain ⟨o₁, hstep, hrest⟩ := Option.bind_eq_some_iff.mp hrun
    obtain ⟨hover₁, hfarewell₁⟩ := over_step hover hstep
    obtain ⟨hover', hfarewell'⟩ := ih hover₁ hrest
    exact ⟨hover', hfarewell'.trans hfarewell₁⟩

/-- Every step keeps the order, and takes packets only as long as the session lives. -/
theorem ordered_step (h : Ordered queued taken hindered o) (hstep : o.step? e = some o') :
    ∃ more, Ordered (queued ++ e.posted) (taken ++ more) (hindered ∨ o.Hinders e) o' ∧
      (o.scene.session.live = false → more = []) := by
  -- What only adds to the queue takes no packet from it.
  have hbeside (hsender : o'.sender = o.sender) (houtgoing : o'.outgoing = o.outgoing)
      (houtbound : o'.scene.session.outbound =
        e.posted.foldl Queue.push o.scene.session.outbound) :
      ∃ more, Ordered (queued ++ e.posted) (taken ++ more) (hindered ∨ o.Hinders e) o' ∧
        (o.scene.session.live = false → more = []) := by
    refine ⟨[], ?_, fun _ => rfl⟩
    rw [List.append_nil]
    exact (ordered_beside h hsender houtgoing houtbound (over_step · hstep)).mono .inl
  cases e with
  | post p =>
    cases hstep
    exact hbeside rfl rfl rfl
  | requestFarewell code =>
    rw [step?] at hstep
    split at hstep
    · cases hstep
      exact hbeside rfl rfl rfl
    · cases hstep
  | kill =>
    cases hstep
    exact hbeside rfl rfl rfl
  | aside scene =>
    rw [step?] at hstep
    split at hstep
    · next hsame =>
      cases hstep
      exact hbeside rfl rfl hsame.1
    · cases hstep
  | wait duration =>
    cases hstep
    exact hbeside rfl rfl rfl
  | send answer =>
    obtain ⟨sent, hsent, rfl⟩ := Option.map_eq_some_iff.mp hstep
    show ∃ more, Ordered (queued ++ []) _ _ _ ∧ _
    rw [List.append_nil]
    exact ordered_send h (Sender.moves_of_step? hsent)

/-- And so does every run. -/
theorem ordered_run {events : List Event} (h : Ordered queued taken hindered o)
    (hrun : o.run? events = some o') :
    ∃ more, Ordered (queued ++ events.flatMap Event.posted) (taken ++ more)
        (hindered ∨ o.Hindered events) o' ∧
      (o.scene.session.live = false → more = [] ∧ o'.scene.session.live = false ∧
        o'.scene.session.farewell = o.scene.session.farewell) := by
  -- By induction on the events. What the first step takes comes before what the others take, and is nothing
  -- once the session is over.
  induction events generalizing o queued taken hindered with
  | nil =>
    cases hrun
    refine ⟨[], ?_, fun hover => ⟨rfl, hover, rfl⟩⟩
    rw [List.flatMap_nil, List.append_nil, List.append_nil]
    exact h.mono .inl
  | cons e rest ih =>
    obtain ⟨o₁, hstep, hrest⟩ := Option.bind_eq_some_iff.mp hrun
    obtain ⟨first, hordered, hnone⟩ := ordered_step h hstep
    obtain ⟨more, hordered, hover⟩ := ih hordered hrest
    refine ⟨first ++ more, ?_, fun hdead => ?_⟩
    · rw [List.flatMap_cons, ← List.append_assoc, ← List.append_assoc]
      refine hordered.mono fun hhindered => ?_
      rcases hhindered with (hearlier | hnow) | hlater
      · exact .inl hearlier
      · exact .inr (.inl hnow)
      · exact .inr (.inr ⟨o₁, hstep, hlater⟩)
    · obtain ⟨hdead₁, hfarewell⟩ := over_step hdead hstep
      obtain ⟨rfl, hdead', hfarewell'⟩ := hover hdead₁
      exact ⟨by rw [hnone hdead, List.append_nil], hdead', hfarewell'.trans hfarewell⟩

/-- Killing the session takes nothing from the queue. -/
private theorem ordered_kill (h : Ordered queued taken hindered o) :
    Ordered queued taken hindered (o.withSession o.scene.session.kill) where
  sound := h.sound
  listening := h.listening
  queue := h.queue
  told := h.told.congr fun _ => ⟨rfl, rfl⟩

/-- Sending that has stopped in time has put everything on the wire. -/
private theorem Ordered.complete (h : Ordered queued taken hindered o) (hunhindered : ¬hindered)
    (hstopped : o.sender.isStopped = true) :
    o.outgoing = Packet.allOnWire (taken ++ last o.scene.session) := by
  have htold := h.told
  rw [Sender.isStopped, beq_iff_eq] at hstopped
  rw [Told, hstopped] at htold
  rcases htold.2 with hhindered | ⟨-, hwritten⟩
  · exact absurd hhindered hunhindered
  · exact hwritten

/-- More than the frames of the first packets is the beginning of the frames of more packets. -/
private theorem lt_length_of_allOnWire {packets : List Packet} {written : List UInt8} {k : Nat}
    (hpackets : packets <+: queued) (hwritten : written <+: Packet.allOnWire packets)
    (h : (Packet.allOnWire (queued.take k)).length < written.length) : k < packets.length := by
  refine Nat.lt_of_not_le fun hle => ?_
  obtain ⟨rest, hrest⟩ : packets <+: queued.take k := by
    rw [List.prefix_iff_eq_take.mp hpackets]
    exact List.take_prefix_take_left hle
  rw [← hrest, Packet.allOnWire_append, List.length_append] at h
  have := hwritten.length_le
  omega

/-- A socket that takes a byte whenever there is one is no hindrance. -/
theorem not_hindered_of_isPrompt {events : List Event} (h : events.all Event.isPrompt = true)
    (o : Outlet) : ¬o.Hindered events := by
  -- By induction on the events: the first of them is no hindrance, and the others are none wherever it leads.
  induction events generalizing o with
  | nil => exact id
  | cons e rest ih =>
    rw [List.all_cons, Bool.and_eq_true] at h
    rintro (hnow | ⟨next, -, hlater⟩)
    · cases e with
      | send answer =>
        obtain ⟨-, hfail | ⟨rfl, -⟩⟩ := hnow
        · cases answer with
          | accept count =>
            cases count with
            | zero => cases h.1
            | succ count => exact hfail (WriteAnswer.works_accept count)
          | full => cases h.1
          | fail => cases h.1
        · cases h.1
      | _ => exact hnow
    · exact ih h.2 next hlater

/-- What is on the wire after the session was killed is made of whole frames: those of the packets that
were queued first, with the one that was in progress, and that of the farewell that had been asked for, if
any. All of it is there when sending has stopped, unless the socket failed or was late; then there is the
beginning of it. -/
theorem wire_of_killed {linger : Duration} {chunk : Nat} {scene : Scene} {before after : List Event}
    {o₁ o₂ : Outlet} (hlistening : scene.session.outbound.receiver = .listening)
    (hbefore : (start linger chunk scene).run? before = some o₁)
    (hlive : o₁.scene.session.live = true) (hafter : o₁.run? (.kill :: after) = some o₂) :
    let queued := scene.session.outbound.waiting ++ before.flatMap Event.posted
    ∃ packets, packets <+: queued ∧ o₁.outgoing <+: Packet.allOnWire packets ∧
      (∀ k, (Packet.allOnWire (queued.take k)).length < o₁.outgoing.length → k < packets.length) ∧
      let said := packets ++ (o₁.scene.session.farewell.map .suspend).toList
      ((∀ p ∈ queued, ∃ frame, p.encode = .ok frame) →
        Packet.encodeAll said = .ok (Packet.allOnWire said)) ∧
      o₂.outgoing <+: Packet.allOnWire said ∧
      (¬(start linger chunk scene).Hindered before → ¬o₁.Hindered (.kill :: after) →
        o₂.sender.isStopped = true → o₂.outgoing = Packet.allOnWire said) := by
  intro queued
  obtain ⟨packets, hordered₁, -⟩ := ordered_run (ordered_start linger chunk hlistening) hbefore
  obtain ⟨killed, hkill, hrest⟩ := Option.bind_eq_some_iff.mp hafter
  cases hkill
  -- The session is over, so no packet is taken any more.
  obtain ⟨more, hordered₂, hover⟩ := ordered_run (ordered_kill hordered₁) hrest
  obtain ⟨rfl, hdead, hfarewell⟩ := hover rfl
  have hlast : last o₂.scene.session = (o₁.scene.session.farewell.map Packet.suspend).toList := by
    rw [last, hdead, hfarewell]
    rfl
  rw [List.append_nil, List.nil_append] at hordered₂
  have hpackets : packets <+: queued := ⟨_, hordered₁.queue⟩
  have hwritten : o₁.outgoing <+: Packet.allOnWire packets := by
    have := hordered₁.written
    rw [last, hlive, if_pos rfl, List.append_nil] at this
    exact this
  refine ⟨packets, hpackets, hwritten, fun k => lt_length_of_allOnWire hpackets hwritten,
    fun hframes => Packet.encodeAll_eq_allOnWire fun p hp => ?_, hlast ▸ hordered₂.written,
    fun hunhindered₁ hunhindered₂ hstopped => ?_⟩
  · rcases List.mem_append.mp hp with hp | hp
    · exact hframes p (hpackets.subset hp)
    · obtain ⟨code, -, rfl⟩ := Option.map_eq_some_iff.mp (Option.mem_toList.mp hp)
      exact exists_encode_suspend code
  rw [← hlast]
  refine hordered₂.complete (fun hhindered => ?_) hstopped
  rcases hhindered with (hnever | hhindered) | hhindered
  · exact hnever
  · exact hunhindered₁ hhindered
  · exact hunhindered₂ (.inr ⟨_, rfl, hhindered⟩)

/-- Killed when three bytes of the first of two packets are written, sending goes on with the rest of it
and the farewell. -/
theorem wire_of_killed_within_a_frame :
    ∃ o₁ o₂ : Outlet, (start ⟨1000⟩ 5 {}).run? [.post .connectionCheck, .send (.accept 9),
        .send (.accept 3), .post .connectionCheck, .requestFarewell .manualShutdown] = some o₁ ∧
      o₁.run? [.kill, .send (.accept 9), .send (.accept 9), .send (.accept 9), .send (.accept 9),
        .send (.accept 9), .send (.accept 9)] = some o₂ ∧
      ∃ packets, packets <+: [.connectionCheck, .connectionCheck] ∧ 0 < packets.length ∧
        Packet.encodeAll (packets ++ [.suspend .manualShutdown]) = .ok o₂.outgoing := by
  obtain ⟨packets, hpackets, -, hfirst, hframes, -, hwhole⟩ := @wire_of_killed ⟨1000⟩ 5 {}
    [.post .connectionCheck, .send (.accept 9), .send (.accept 3), .post .connectionCheck,
      .requestFarewell .manualShutdown]
    [.send (.accept 9), .send (.accept 9), .send (.accept 9), .send (.accept 9), .send (.accept 9),
      .send (.accept 9)] _ _ rfl rfl rfl rfl
  have hwritten := hwhole (not_hindered_of_isPrompt rfl _) (not_hindered_of_isPrompt rfl _) rfl
  refine ⟨_, _, rfl, rfl, packets, hpackets, hfirst 0 (by decide), ?_⟩
  rw [hwritten]
  refine hframes fun p hp => ?_
  have hcheck : p ∈ [Packet.connectionCheck, .connectionCheck] := hp
  have heq : p = .connectionCheck := by simpa using hcheck
  exact heq ▸ ⟨_, rfl⟩

end

end Outlet

end Connection

end Depot
