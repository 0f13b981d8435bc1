import Mathlib.Data.List.Forall2
import Depot.Proofs.Connection.Outcome
import Depot.Proofs.Connection.Written

/-!
# Farewells

Some suspends do not come from the peer: a fault in its frames, its silence and a shutdown of the server
each suspend the session from this side, and ask for a farewell. The first request stands. What ends
dispatching is a different matter: it is the first suspend of the inbound queue, or a shutdown, which
overtakes what is queued. A `Chronicle` is kept beside a run to compare the two. It knows where each packet
of the inbound queue comes from, which local teardowns there were, and which suspend ended dispatching.

Requests are made in the order in which the suspends are queued. So if a fault or a silence ends
dispatching, it was the first to ask, and the farewell carries its code. A shutdown that overtakes a
fault leaves the farewell to it.

## Key results

- `accounted_step`: what every step of a connection keeps
- `farewell_of_first_cause`: what is written to the peer last
- `shutdown_overtakes_fault`: a farewell with another code than the one that ended the session
-/

namespace Depot

/-- A reply is never a suspend, so what waits for the peer stays free of suspends. -/
theorem Session.Replied.spoken {operation : UInt8} {s s' : Session} (h : s.Replied operation s')
    (hs : ∀ p ∈ s.outbound.waiting, p.Spoken) : ∀ p ∈ s'.outbound.waiting, p.Spoken := by
  obtain ⟨user, packets, hreply, rfl⟩ := h
  intro p hp
  simp only [postAll_eq] at hp
  rcases Queue.mem_waiting_foldl_push hp with hp | hp
  · exact hs p hp
  · exact (hreply p hp).spoken

namespace Connection

/-! ### The chronicle of a connection -/

/-- Where a packet of the inbound queue comes from, or what else ends a session. -/
inductive Origin
  | peer
  /-- The peer closed its end, or could not be read any more. -/
  | ending
  | fault (cause : Frame.Fault)
  | silence
  | shutdown
  deriving DecidableEq, Repr

namespace Origin

/-- The code of a teardown that is initiated on this side. -/
def code? : Origin → Option ErrorCode
  | fault cause => some cause.suspendCode
  | silence => some .connectionCheckFailed
  | shutdown => some .manualShutdown
  | peer | ending => none

/-- Whether it is a teardown that is initiated on this side. -/
def isLocal (o : Origin) : Bool := o.code?.isSome

/-- Whether it may have put a packet into the inbound queue. -/
def Sends (o : Origin) (p : Packet) : Prop := ∀ code, o.code? = some code → p = .suspend code

end Origin

/-- What is remembered of a run. -/
structure Chronicle where
  /-- Where the packets of the inbound queue come from. -/
  queued : List Origin := []
  /-- The local teardowns, the first one first. -/
  causes : List Origin := []
  /-- Where the suspend came from that ended dispatching. -/
  ended : Option Origin := none
  deriving DecidableEq, Repr

namespace Chronicle

/-- Packets come into the inbound queue. -/
def arrive (h : Chronicle) (origins : List Origin) : Chronicle :=
  { h with queued := h.queued ++ origins, causes := h.causes ++ origins.filter Origin.isLocal }

/-- Where the packets of an intake come from. -/
def origins (intake : Frame.Intake) : List Origin :=
  intake.packets.map (fun _ => .peer) ++ (intake.fault.map .fault).toList

/-- The next packet is dispatched, or a shutdown is. -/
def dispatch (c : Connection) (h : Chronicle) : Chronicle :=
  if c.shutdown then { h with causes := h.causes ++ [.shutdown], ended := some .shutdown }
  else
    let suspended := c.upcoming?.any (·.request == .suspend)
    { h with queued := h.queued.tail, ended := if suspended then h.queued.head? else none }

/-- What is remembered after a step. -/
def record (c : Connection) (h : Chronicle) : Event → Chronicle
  | .read chunk => h.arrive (origins (c.reader.feed chunk))
  | .readEnd | .readFailure => h.arrive [.ending]
  | .watch =>
      let found := c.watch.step? c.times c.now c.scene.session.live
      if found.any (·.2) then h.arrive [.silence] else h
  | .dispatch => h.dispatch c
  | _ => h

end Chronicle

/-- Whether a step goes without a failure of the socket, and sending is not too late with a farewell. -/
def Unhindered (c : Connection) : Event → Prop
  | .send answer => answer.Works ∧
      (answer = .full → ∀ deadline, c.sender.alarm? = some deadline → c.now < deadline)
  | _ => True

/-- A run without such hindrances, with its chronicle. -/
inductive Traced (c₀ : Connection) : Chronicle → Connection → Prop
  | start : Traced c₀ {} c₀
  | step {history : Chronicle} {c c' : Connection} {e : Event} (h : Traced c₀ history c)
      (hunhindered : Unhindered c e) (hstep : c.step? e = some c') :
      Traced c₀ (history.record c e) c'

/-- A run with its chronicle, if the steps can be taken one after another. -/
def Chronicle.trace? (h : Chronicle) (c : Connection) : List Event → Option (Chronicle × Connection)
  | [] => some (h, c)
  | e :: rest => (c.step? e).bind fun c' => (h.record c e).trace? c' rest

/-- Whether the socket takes a byte at once, if there is one to take. -/
def Event.isPrompt : Event → Bool
  | .send (.accept count) => count != 0
  | .send _ => false
  | _ => true

/-- A prompt socket is no hindrance. -/
theorem Event.unhindered_of_isPrompt {e : Event} (h : e.isPrompt = true) (c : Connection) :
    Unhindered c e := by
  -- Only a write can be hindered.
  cases e with
  | send answer =>
    cases answer with
    | accept count =>
      cases count with
      | zero => cases h
      | succ count => exact ⟨WriteAnswer.works_accept count, fun hfull => by cases hfull⟩
    | full => cases h
    | fail => cases h
  | _ => trivial

/-- A course of steps with prompt writes has a chronicle. -/
theorem traced_of_trace? {c₀ c c' : Connection} {history history' : Chronicle} {events : List Event}
    (h : Traced c₀ history c) (hprompt : events.all Event.isPrompt = true)
    (htrace : history.trace? c events = some (history', c')) : Traced c₀ history' c' := by
  induction events generalizing history c with
  | nil =>
    cases htrace
    exact h
  | cons e rest ih =>
    obtain ⟨c₁, hstep, hrest⟩ := Option.bind_eq_some_iff.mp htrace
    rw [List.all_cons, Bool.and_eq_true] at hprompt
    exact ih (h.step (e.unhindered_of_isPrompt hprompt.1 c) hstep) hprompt.2 hrest

/-! ### What is kept -/

/-- What the end of dispatching has to do with the teardowns. -/
def Chronicle.Decides (h : Chronicle) : Option ErrorCode → Prop
  | none => h.ended = none
  | some code => ∃ origin, h.ended = some origin ∧ (origin.isLocal → origin.code? = some code) ∧
      (origin.isLocal → origin ∈ h.causes) ∧
      (origin.isLocal → origin ≠ .shutdown → h.causes.head? = some origin)

/-- How a connection and its chronicle fit together. -/
structure Accounted (history : Chronicle) (c : Connection) : Prop where
  listening : c.scene.session.inbound.receiver = .listening
  senders : c.scene.session.inbound.senders ≠ 0
  live : c.scene.session.live = c.verdict.isNone
  board : c.board.Sound
  halt : c.verdict = none → c.board.halt = none
  queued : List.Forall₂ Origin.Sends history.queued c.scene.session.inbound.waiting
  locals : ∀ o ∈ history.causes, o.isLocal = true
  farewell : c.scene.session.farewell = history.causes.head?.bind Origin.code?
  first : c.verdict = none → history.queued.find? Origin.isLocal = history.causes.head?
  decides : history.Decides c.verdict
  wrote : c.sender.Wrote c.scene.session c.outgoing
  spoken : ∀ p ∈ c.scene.session.outbound.waiting, p.Spoken

-- `first` carries the argument: suspends are queued in the order in which farewells are asked for, so the
-- one that reaches the switchboard first was the first to ask. Only a shutdown goes past the queue.

variable {history : Chronicle} {c c' : Connection}

/-- The first request for a farewell stands, whoever asks for one later. -/
private theorem Accounted.farewell_stands (h : Accounted history c) (later : Option Origin) :
    (c.scene.session.farewell <|> later.bind Origin.code?) =
      (history.causes.head?.or later).bind Origin.code? := by
  rw [h.farewell]
  cases hfirst : history.causes.head? with
  | none => rfl
  | some o =>
    -- A local teardown has a code, so there is nothing to add.
    obtain ⟨code, hcode⟩ := Option.isSome_iff_exists.mp (h.locals o (List.mem_of_head? hfirst))
    simp only [Option.bind_some, Option.some_or, hcode]
    rfl

/-- As long as the session lives nothing has ended dispatching. -/
private theorem Accounted.open_of_live (h : Accounted history c)
    (hlive : c.scene.session.live = true) : c.verdict = none := by
  rw [h.live] at hlive
  exact Option.isNone_iff_eq_none.mp hlive

/-- Sending takes up a farewell after the end of dispatching only, so the session may change before. -/
private theorem Accounted.wrote_of_open (h : Accounted history c) (hopen : c.verdict = none)
    (session : Session) : c.sender.Wrote session c.outgoing := by
  apply h.wrote.congr
  intro hdead
  rw [h.live, hopen] at hdead
  cases hdead

/-- A step that has nothing to do with the inbound queue. -/
private theorem accounted_beside (h : Accounted history c) (hverdict : c'.verdict = c.verdict)
    (hworked : c.scene.Worked c'.scene) (hboard : c'.board.Sound)
    (hhalt : c.verdict = none → c'.board.halt = c.board.halt)
    (hwrote : c'.sender.Wrote c'.scene.session c'.outgoing)
    (hspoken : ∀ p ∈ c'.scene.session.outbound.waiting, p.Spoken) : Accounted history c' := by
  -- With the inbound queue, what is told of it stays as it is too.
  have hinbound := Session.Worked.inbound hworked
  exact {
    listening := hinbound ▸ h.listening
    senders := hinbound ▸ h.senders
    live := by rw [Session.Worked.live hworked, hverdict, h.live]
    board := hboard
    halt := fun hopen => (hhalt (hverdict ▸ hopen)).trans (h.halt (hverdict ▸ hopen))
    queued := hinbound ▸ h.queued
    locals := h.locals
    farewell := (Session.Worked.farewell hworked).trans h.farewell
    first := fun hopen => h.first (hverdict ▸ hopen)
    decides := hverdict ▸ h.decides
    wrote := hwrote
    spoken := hspoken }

/-- Packets come into the inbound queue while dispatching goes on, and the first local teardown among
them asks for a farewell. -/
private theorem accounted_arrive {origins : List Origin} {packets : List Packet}
    (h : Accounted history c) (hopen : c.verdict = none)
    (hsends : List.Forall₂ Origin.Sends origins packets) (hverdict : c'.verdict = c.verdict)
    (hinbound : c'.scene.session.inbound = packets.foldl Queue.push c.scene.session.inbound)
    (houtbound : c'.scene.session.outbound = c.scene.session.outbound)
    (hlive : c'.scene.session.live = c.scene.session.live)
    (hfarewell : c'.scene.session.farewell =
      (c.scene.session.farewell <|> (origins.find? Origin.isLocal).bind Origin.code?))
    (hboard : c'.board = c.board) (hsender : c'.sender = c.sender)
    (houtgoing : c'.outgoing = c.outgoing) : Accounted (history.arrive origins) c' := by
  obtain ⟨hreceiver, hsenders⟩ := Queue.ends_foldl_push c.scene.session.inbound packets
  -- The local teardowns among them come after those that are there, so the first one stays first.
  have hcauses : (history.arrive origins).causes.head? =
      history.causes.head?.or (origins.find? Origin.isLocal) := by
    rw [Chronicle.arrive, List.head?_append, List.head?_filter]
  exact {
    listening := by rw [hinbound, hreceiver, h.listening]
    senders := by rw [hinbound, hsenders]; exact h.senders
    live := by rw [hlive, hverdict, h.live]
    board := hboard ▸ h.board
    halt := fun hopen => by rw [hboard]; exact h.halt (hverdict ▸ hopen)
    queued := by
      rw [hinbound, Queue.waiting_foldl_push packets h.listening]
      exact List.rel_append h.queued hsends
    locals := fun o ho => by
      rcases List.mem_append.mp ho with ho | ho
      · exact h.locals o ho
      · exact (List.mem_filter.mp ho).2
    farewell := by rw [hfarewell, hcauses, h.farewell_stands]
    first := fun hopen => by
      rw [hcauses, ← h.first (hverdict ▸ hopen)]
      exact List.find?_append
    decides := by
      have hdecides := h.decides
      rw [hopen] at hdecides
      rw [hverdict, hopen]
      exact hdecides
    wrote := by
      rw [hsender, houtgoing]
      exact h.wrote_of_open hopen _
    spoken := houtbound ▸ h.spoken }

/-! ### Reading -/

/-- What bytes lead to is sent by what they come from: the packets by the peer, the suspend by the fault. -/
private theorem sends_origins (intake : Frame.Intake) :
    List.Forall₂ Origin.Sends (Chronicle.origins intake) (arrivals intake) := by
  have hpeer (packets : List Packet) :
      List.Forall₂ Origin.Sends (packets.map fun _ => Origin.peer) packets := by
    induction packets with
    | nil => exact .nil
    | cons p packets ih => exact .cons (fun code hcode => by cases hcode) ih
  refine List.rel_append (hpeer intake.packets) ?_
  cases intake.fault with
  | none => exact .nil
  | some fault => exact .cons (fun code hcode => by cases hcode; rfl) .nil

/-- The only local teardown that bytes can bring is their fault, with its code. -/
private theorem find?_origins (intake : Frame.Intake) :
    ((Chronicle.origins intake).find? Origin.isLocal).bind Origin.code? =
      intake.fault.map Frame.Fault.suspendCode := by
  have hpeer : (intake.packets.map fun _ => Origin.peer).find? Origin.isLocal = none := by
    rw [List.find?_eq_none]
    intro o ho
    obtain ⟨p, -, rfl⟩ := List.mem_map.mp ho
    exact Bool.false_ne_true
  rw [Chronicle.origins, List.find?_append, hpeer]
  cases intake.fault <;> rfl

/-- Bytes that are read bring packets of the peer, and the teardown of a fault at the end of them. -/
private theorem accounted_read {chunk : List UInt8} (h : Accounted history c)
    (hstep : c.step? (.read chunk) = some c') :
    Accounted (history.arrive (Chronicle.origins (c.reader.feed chunk))) c' := by
  cases steps_of_step? hstep with
  | read _ hlive =>
    refine accounted_arrive h (h.open_of_live hlive) (sends_origins _) rfl rfl rfl rfl ?_ rfl rfl rfl
    rw [find?_origins]

/-- The end of the stream is a teardown that asks for no farewell. -/
private theorem accounted_readEnd (h : Accounted history c) (hstep : c.step? .readEnd = some c') :
    Accounted (history.arrive [.ending]) c' := by
  cases steps_of_step? hstep with
  | readEnd _ hlive =>
    have hsends : List.Forall₂ Origin.Sends [.ending] [.suspend .socketClosed] :=
      .cons (fun code hcode => by cases hcode) .nil
    refine accounted_arrive h (h.open_of_live hlive) hsends rfl rfl rfl rfl ?_ rfl rfl rfl
    -- The end of the stream asks for nothing.
    show c.scene.session.farewell = (c.scene.session.farewell <|> none)
    cases c.scene.session.farewell <;> rfl

/-! ### Dispatching -/

/-- Every local teardown names its code in the suspend that it queues. -/
private theorem suspendCode?_of_isLocal {o : Origin} {code : ErrorCode} (h : o.code? = some code) :
    (Packet.suspend code).suspendCode? = some code := by
  cases o with
  | peer => cases h
  | ending => cases h
  | fault cause => cases h; cases cause <;> rfl
  | silence => cases h; rfl
  | shutdown => cases h; rfl

/-- A shutdown ends dispatching at once, before anything that waits. -/
private theorem accounted_shutdown (h : Accounted history c) (hshutdown : c.shutdown = true)
    (hstep : c.step? .dispatch = some c') : Accounted (history.dispatch c) c' := by
  -- After a verdict there is no dispatching any more, so it is the first end.
  have hopen : c.verdict = none := by
    cases hverdict : c.verdict with
    | none => rfl
    | some code =>
      simp only [step?, dispatch?, hverdict, Option.isSome_some, ↓reduceIte] at hstep
      cases hstep
  have hupcoming : c.upcoming? = some (.suspend .manualShutdown) := by
    simp only [upcoming?, hopen, hshutdown, Option.isSome_none, Bool.false_eq_true, ↓reduceIte]
  have hattended : c.attended =
      { c.scene with session := c.scene.session.requestFarewell .manualShutdown } := by
    rw [attended, if_pos hshutdown]
  simp only [step?, dispatch?_eq, hupcoming, Option.map_some,
    Switchboard.dispatch_suspend (show (Packet.suspend .manualShutdown).request = .suspend from rfl)]
    at hstep
  cases hstep
  rw [hattended, Chronicle.dispatch, if_pos hshutdown]
  refine { h with
    live := rfl
    board := Switchboard.sound_suspend _ h.board
    halt := fun hopen => by cases hopen
    locals := fun o ho => ?_
    farewell := ?_
    first := fun hopen => by cases hopen
    decides := ?_
    wrote := h.wrote_of_open hopen _
    spoken := h.spoken }
  · rcases List.mem_append.mp ho with ho | ho
    · exact h.locals o ho
    · rw [List.mem_singleton.mp ho]
      rfl
  · -- The shutdown asks for its farewell behind whoever was first.
    show (c.scene.session.farewell <|> some .manualShutdown) = _
    rw [List.head?_append]
    exact h.farewell_stands (some .shutdown)
  · have hmem : Origin.shutdown ∈ history.causes ++ [.shutdown] :=
      List.mem_append_right _ (List.mem_singleton_self _)
    exact ⟨.shutdown, rfl, fun _ => rfl, fun _ => hmem, fun _ hne => absurd rfl hne⟩

/-- Unless it is a shutdown, what is dispatched is the first packet of the inbound queue, and the chronicle
knows where it comes from. -/
private theorem Accounted.exists_taken {p : Packet} (h : Accounted history c)
    (hshutdown : ¬c.shutdown = true) (hp : c.upcoming? = some p) :
    ∃ o origins rest, history.queued = o :: origins ∧ o.Sends p ∧
      List.Forall₂ Origin.Sends origins rest.waiting ∧ rest.receiver = .listening ∧
      rest.senders ≠ 0 ∧ c.verdict = none ∧
      c.attended = { c.scene with session := { c.scene.session with inbound := rest } } := by
  obtain ⟨hopen, rest, hwaiting, hlistening, hsenders, hattended⟩ :=
    taken_of_upcoming? (by simpa using hshutdown) h.listening h.senders hp
  have hqueued := h.queued
  rw [hwaiting] at hqueued
  obtain ⟨o, origins, hsends, hrest, horigins⟩ := List.forall₂_cons_right_iff.mp hqueued
  exact ⟨o, origins, rest, horigins, hsends, hrest, hlistening, hsenders, hopen, hattended⟩

/-- If a suspend ends dispatching and is that of a local teardown, it was the first one. -/
private theorem accounted_suspend {p : Packet} (h : Accounted history c)
    (hshutdown : ¬c.shutdown = true) (hp : c.upcoming? = some p) (hsuspend : p.request = .suspend) :
    Accounted (history.dispatch c) (c.follow (c.board.dispatch p c.attended)) := by
  obtain ⟨o, origins, rest, horigins, hsends, hrest, hlistening, hsenders, hopen, hattended⟩ :=
    h.exists_taken hshutdown hp
  -- What waits first was sent first, and with it the first of the local teardowns.
  have hlocal (hlocal : o.isLocal = true) :
      history.causes.head? = some o ∧ o.code? = some (p.suspendCode?.getD .unknown) := by
    obtain ⟨code, hcode⟩ := Option.isSome_iff_exists.mp hlocal
    constructor
    · rw [← h.first hopen, horigins, List.find?_cons_of_pos hlocal]
    · rw [hsends code hcode, suspendCode?_of_isLocal hcode, hcode]
      rfl
  rw [Switchboard.dispatch_suspend hsuspend, hattended, Chronicle.dispatch, if_neg hshutdown, hp,
    horigins]
  simp only [Option.any_some, hsuspend, beq_self_eq_true, ↓reduceIte, List.head?_cons,
    List.tail_cons]
  exact { h with
    listening := hlistening
    senders := hsenders
    live := rfl
    board := Switchboard.sound_suspend p h.board
    halt := fun hopen => by cases hopen
    queued := hrest
    first := fun hopen => by cases hopen
    decides := ⟨o, rfl, fun ho => (hlocal ho).2, fun ho => List.mem_of_head? (hlocal ho).1,
      fun ho _ => (hlocal ho).1⟩
    wrote := h.wrote_of_open hopen _
    spoken := h.spoken }

/-- A packet that is no suspend comes from none of the teardowns, so the first of them is still to come. -/
private theorem accounted_other {p : Packet} (h : Accounted history c)
    (hshutdown : ¬c.shutdown = true) (hp : c.upcoming? = some p) (hother : p.request ≠ .suspend) :
    Accounted (history.dispatch c) (c.follow (c.board.dispatch p c.attended)) := by
  obtain ⟨o, origins, rest, horigins, hsends, hrest, hlistening, hsenders, hopen, hattended⟩ :=
    h.exists_taken hshutdown hp
  -- A local teardown would have sent a suspend.
  have hpeer : ¬o.isLocal = true := by
    intro hlocal
    obtain ⟨code, hcode⟩ := Option.isSome_iff_exists.mp hlocal
    rw [hsends code hcode] at hother
    exact hother rfl
  have hfirst := h.first hopen
  rw [horigins, List.find?_cons_of_neg hpeer] at hfirst
  obtain ⟨board, scene, hdispatch, hreplied, hhalt, hboard⟩ :=
    Switchboard.dispatch_other hother c.board c.attended
  rw [hattended] at hreplied
  have hsaid : Session.Replied p.operation { c.scene.session with inbound := rest } scene.session :=
    hreplied
  have hinbound : scene.session.inbound = rest := hsaid.worked.inbound
  have hlive : scene.session.live = c.scene.session.live := hsaid.worked.live
  have hfarewell : scene.session.farewell = c.scene.session.farewell := hsaid.worked.farewell
  have hnone : (some p).any (·.request == .suspend) = false := beq_eq_false_iff_ne.mpr hother
  rw [hdispatch, Chronicle.dispatch, if_neg hshutdown, hp, horigins]
  simp only [hnone, Bool.false_eq_true, ↓reduceIte, List.tail_cons]
  exact { h with
    listening := hinbound ▸ hlistening
    senders := hinbound ▸ hsenders
    live := hlive.trans h.live
    board := hboard h.board
    halt := fun hopen => hhalt.trans (h.halt hopen)
    queued := hinbound ▸ hrest
    farewell := hfarewell.trans h.farewell
    first := fun _ => hfirst
    decides := by
      show Chronicle.Decides _ c.verdict
      rw [hopen]
      rfl
    wrote := h.wrote_of_open hopen _
    spoken := hsaid.spoken h.spoken }

/-- Dispatching takes the first of what waits, or the shutdown, and either is accounted for. -/
private theorem accounted_dispatch (h : Accounted history c) (hstep : c.step? .dispatch = some c') :
    Accounted (history.dispatch c) c' := by
  by_cases hshutdown : c.shutdown = true
  · exact accounted_shutdown h hshutdown hstep
  · cases steps_of_step? hstep with
    | @dispatch p hp =>
      by_cases hsuspend : p.request = .suspend
      · exact accounted_suspend h hshutdown hp hsuspend
      · exact accounted_other h hshutdown hp hsuspend

/-! ### The other loops -/

/-- The watch is a teardown if it finds the peer silent, and nothing otherwise. -/
private theorem accounted_watch (h : Accounted history c) (hstep : c.step? .watch = some c') :
    Accounted (history.record c .watch) c' := by
  cases steps_of_step? hstep with
  | @watch watch silent hwatch =>
    simp only [Chronicle.record, hwatch, Option.any_some]
    cases silent with
    | false =>
      exact accounted_beside h rfl (.refl c.scene) h.board (fun _ => rfl) h.wrote h.spoken
    | true =>
      -- The peer is found silent only while the session lives, so dispatching goes on and its suspend
      -- arrives.
      have hlive := live_of_silent hwatch
      have hsends : List.Forall₂ Origin.Sends [.silence] [.suspend .connectionCheckFailed] :=
        .cons (fun code hcode => by cases hcode; rfl) .nil
      exact accounted_arrive h (h.open_of_live hlive) hsends rfl rfl rfl rfl rfl rfl rfl rfl

/-- The probe queues a connection check at most, which is no suspend. -/
private theorem accounted_probe (h : Accounted history c) (hstep : c.step? .probe = some c') :
    Accounted history c' := by
  cases steps_of_step? hstep with
  | @probe probe tick _ =>
    cases tick with
    | false =>
      exact accounted_beside h rfl (.refl c.scene) h.board (fun _ => rfl) h.wrote h.spoken
    | true =>
      have hworked := worked_probe c.scene
      have hspoken : ∀ p ∈ c.scene.probe.session.outbound.waiting, p.Spoken := by
        unfold Scene.probe
        split
        · intro p hp
          rcases Queue.mem_waiting_push hp with hp | rfl
          · exact h.spoken p hp
          · exact Packet.spoken_connectionCheck
        · exact h.spoken
      exact accounted_beside h rfl hworked h.board (fun _ => rfl) (h.wrote.worked hworked) hspoken

/-- Sending goes on with what was taken, and leaves the inbound queue alone unless it is hindered. -/
private theorem accounted_send {answer : WriteAnswer} (h : Accounted history c)
    (hunhindered : Unhindered c (.send answer)) (hstep : c.step? (.send answer) = some c') :
    Accounted history c' := by
  cases steps_of_step? hstep with
  | send hsent =>
    obtain ⟨hwrote, hspoken⟩ :=
      Sender.wrote_step? h.wrote h.spoken hunhindered.1 hunhindered.2 hsent
    have hspec := Sender.step?_spec h.wrote.sound hunhindered.1 hsent
    exact accounted_beside h rfl hspec.worked h.board (fun _ => rfl) hwrote hspoken

/-- Every step keeps the account. -/
theorem accounted_step {e : Event} (h : Accounted history c) (hunhindered : Unhindered c e)
    (hstep : c.step? e = some c') : Accounted (history.record c e) c' := by
  -- By what the step does. Whatever has to do with the inbound queue has a lemma of its own.
  cases steps_of_step? hstep with
  | read => exact accounted_read h hstep
  | readEnd => exact accounted_readEnd h hstep
  | readFailure => exact accounted_readEnd h hstep
  | dispatch => exact accounted_dispatch h hstep
  | operate hadvance =>
    have honward := Switchboard.advance?_onward h.board hadvance
    obtain ⟨operation, hreplied⟩ := honward.replied
    have hspoken := Session.Replied.spoken hreplied h.spoken
    exact accounted_beside h rfl honward.worked honward.sound (fun _ => honward.halt)
      (h.wrote.worked honward.worked) hspoken
  | close hover =>
    refine accounted_beside h rfl (.refl c.scene) ⟨h.board.ascending, h.board.listening⟩
      (fun hopen => ?_) h.wrote h.spoken
    rw [hopen] at hover
    cases hover
  | send => exact accounted_send h hunhindered hstep
  | watch => exact accounted_watch h hstep
  | probe => exact accounted_probe h hstep
  | _ => exact accounted_beside h rfl (.refl c.scene) h.board (fun _ => rfl) h.wrote h.spoken

/-! ### Whole runs -/

/-- Nothing has happened to a connection over a slot that is ready. -/
theorem accounted_start {config : Config} {store : Storage.Store} {tree : Storage.Tree}
    {metrics : Metrics} {shutdown : Bool} {slot : Slot} (hslot : slot.Ready config)
    (hstart : start config store tree metrics shutdown slot = .ok c) : Accounted {} c := by
  -- Both queues are empty and the writer is idle, so there is nothing to account for.
  obtain ⟨id, peer, probe, -, rfl⟩ := start_eq_ok hslot hstart
  have hnone : ∀ p ∈ ([] : List Packet), p.Spoken := by
    intro p hp
    cases hp
  exact {
    listening := rfl
    senders := Nat.one_ne_zero
    live := rfl
    board := Switchboard.sound_empty
    halt := fun _ => rfl
    queued := .nil
    locals := fun o ho => by cases ho
    farewell := rfl
    first := fun _ => rfl
    decides := rfl
    wrote := ⟨Frame.Writer.sound_new config.sendChunk, [], [], hnone, ⟨rfl, rfl⟩, rfl⟩
    spoken := hnone }

/-- Every chronicle of a connection is an account of it. -/
theorem Traced.accounted {c₀ : Connection} (h : Traced c₀ history c) (h₀ : Accounted {} c₀) :
    Accounted history c := by
  induction h with
  | start => exact h₀
  | step _ hunhindered hstep ih => exact accounted_step ih hunhindered hstep

/-- A connection that is served, with a socket that never fails and a farewell that is in time, has
written frames of which at most the last one is a suspend. A teardown that is initiated on this side is
answered by a farewell: for a fault and for a silence it carries the code of the connection, and for a
shutdown that of the teardown that was initiated first. Nothing on this side answers a suspend of the
peer or the end of its stream, if no such teardown was initiated before. -/
theorem farewell_of_first_cause {config : Config} {store : Storage.Store} {tree : Storage.Tree}
    {metrics : Metrics} {shutdown : Bool} {slot : Slot} {c₀ : Connection}
    (hslot : slot.Ready config) (hstart : start config store tree metrics shutdown slot = .ok c₀)
    (h : Traced c₀ history c) (hserved : c.isServed = true) :
    ∃ packets farewell code origin,
      Frame.Stream maxAnnounced c.outgoing (packets ++ (farewell.map .suspend).toList) .clean ∧
      (∀ p ∈ packets, p.request ≠ .suspend) ∧
      c.verdict = some code ∧ history.ended = some origin ∧
      (origin.isLocal = true → origin ≠ .shutdown → farewell = some code) ∧
      (origin = .shutdown → code = .manualShutdown ∧ ∃ first, history.causes.head? = some first ∧
        first.isLocal = true ∧ farewell = first.code?) ∧
      (origin.isLocal = false → history.causes = [] → farewell = none) := by
  have haccount := h.accounted (accounted_start hslot hstart)
  have hclosed : c.board.halt = some .closed ∧ c.sender.isStopped = true := by
    simp only [isServed, Bool.and_eq_true, beq_iff_eq] at hserved
    exact ⟨hserved.1.1.1.2, hserved.1.1.2⟩
  obtain ⟨packets, hspoken, hstream⟩ := haccount.wrote.stream hclosed.2
  cases hverdict : c.verdict with
  | none =>
    -- The switchboard closes behind the verdict only.
    have hhalt := haccount.halt hverdict
    rw [hclosed.1] at hhalt
    cases hhalt
  | some code =>
    have hdecides := haccount.decides
    rw [hverdict] at hdecides
    obtain ⟨origin, hended, hcode, hmem, hfirst⟩ := hdecides
    have hfarewell := haccount.farewell
    refine ⟨packets, c.scene.session.farewell, code, origin, hstream, hspoken, rfl, hended, ?_, ?_, ?_⟩
    · -- Its suspend was the first in the queue, and it was the first to ask.
      intro hlocal hne
      rw [hfarewell, hfirst hlocal hne]
      exact hcode hlocal
    · rintro rfl
      refine ⟨(Option.some.inj (hcode rfl)).symm, ?_⟩
      obtain ⟨first, rest, hcauses⟩ := List.exists_cons_of_ne_nil (List.ne_nil_of_mem (hmem rfl))
      have hhead : history.causes.head? = some first := by rw [hcauses]; rfl
      refine ⟨first, hhead, haccount.locals first (List.mem_of_head? hhead), ?_⟩
      rw [hfarewell, hhead]
      rfl
    · intro _ hcauses
      rw [hfarewell, hcauses]
      rfl

/-- A peer that is silent from the beginning is told so, and no suspend is written before that. -/
theorem farewell_of_silence :
    let slot := (Slot.new {}).attach 1 (some "192.0.2.1:4000")
    ∃ c₀, start {} { dlcRoot := ⟨["dlc"]⟩, userRoot := ⟨["user"]⟩ } {} {} false slot = .ok c₀ ∧
      ∃ history c, Traced c₀ history c ∧ c.isServed = true ∧ history.ended = some .silence ∧
        ∃ packets, (∀ p ∈ packets, p.request ≠ .suspend) ∧
          Frame.Stream maxAnnounced c.outgoing (packets ++ [.suspend .connectionCheckFailed]) .clean := by
  intro slot
  let c₀ : Connection :=
    (start {} { dlcRoot := ⟨["dlc"]⟩, userRoot := ⟨["user"]⟩ } {} {} false slot).toOption.get rfl
  have hstart : start {} { dlcRoot := ⟨["dlc"]⟩, userRoot := ⟨["user"]⟩ } {} {} false slot = .ok c₀ :=
    rfl
  let events : List Event :=
    [.wait (.seconds 60), .watch, .dispatch, .close, .readStop, .send (.accept 1), .send (.accept 1),
      .send (.accept 12), .probe]
  obtain ⟨⟨history, c⟩, htrace, hchecks⟩ := Option.any_eq_true _ _ |>.mp
    (show (Chronicle.trace? {} c₀ events).any (fun result => result.2.isServed &&
        result.1.ended == some .silence && result.2.verdict == some .connectionCheckFailed) = true by
      decide +kernel)
  simp only [Bool.and_eq_true, beq_iff_eq] at hchecks
  obtain ⟨⟨hserved, hended⟩, hverdict⟩ := hchecks
  have htraced := traced_of_trace? .start rfl htrace
  obtain ⟨packets, farewell, code, origin, hstream, hspoken, hcode, horigin, hanswer, -, -⟩ :=
    farewell_of_first_cause ((Slot.ready_new {}).attach 1 _) hstart htraced hserved
  rw [hended] at horigin
  cases horigin
  rw [hverdict] at hcode
  cases hcode
  rw [hanswer rfl (by decide)] at hstream
  exact ⟨c₀, hstart, history, c, htraced, hserved, hended, packets, hspoken, hstream⟩

/-- A shutdown that overtakes a fault ends the connection with its own code, and the farewell carries
that of the fault. -/
theorem shutdown_overtakes_fault :
    let slot := (Slot.new {}).attach 1 (some "192.0.2.1:4000")
    ∃ c₀, start {} { dlcRoot := ⟨["dlc"]⟩, userRoot := ⟨["user"]⟩ } {} {} false slot = .ok c₀ ∧
      ∃ history c, Traced c₀ history c ∧ c.isServed = true ∧ history.ended = some .shutdown ∧
        c.verdict = some .manualShutdown ∧
        Frame.Stream maxAnnounced c.outgoing [.suspend .invalidPacket] .clean ∧
        ¬∃ packets,
          Frame.Stream maxAnnounced c.outgoing (packets ++ [.suspend .manualShutdown]) .clean := by
  intro slot
  let c₀ : Connection :=
    (start {} { dlcRoot := ⟨["dlc"]⟩, userRoot := ⟨["user"]⟩ } {} {} false slot).toOption.get rfl
  have hgarbage : Frame.Faulty 524288 (List.replicate 11 0) (.badMagic 0) :=
    .magic (by decide) rfl (by decide)
  obtain ⟨r, hfeed, -⟩ := Frame.Reader.feed_stream (.rest (.faulty hgarbage))
  -- The suspend of the fault is queued when the shutdown comes.
  let scene := c₀.scene.count (.errors .frame)
  let c₁ : Connection :=
    ({ c₀ with
        reader := r
        buffer := List.replicate 11 0
        scene := { scene with session := scene.session.requestFarewell .invalidPacket } } :
      Connection).endReading .invalidPacket
  have hread : c₀.step? (.read (List.replicate 11 0)) = some c₁ := by
    show some (c₀.takeIn (List.replicate 11 0)) = some c₁
    simp only [takeIn, show c₀.reader = .new 524288 from rfl, hfeed]
    rfl
  let events : List Event :=
    [.shutdown, .dispatch, .close, .send (.accept 1), .send (.accept 1), .send (.accept 12), .watch,
      .probe]
  let before : Chronicle := ({} : Chronicle).record c₀ (.read (List.replicate 11 0))
  have hbefore : before = { queued := [.fault (.badMagic 0)], causes := [.fault (.badMagic 0)] } := by
    show Chronicle.arrive {} (Chronicle.origins (c₀.reader.feed (List.replicate 11 0))) = _
    rw [show c₀.reader = .new 524288 from rfl, hfeed]
    rfl
  have htraced : Traced c₀ before c₁ := .step .start trivial hread
  let farewell := (Packet.suspend .invalidPacket).header.encode ++ (Packet.suspend .invalidPacket).payload
  obtain ⟨⟨history, c⟩, htrace, hchecks⟩ := Option.any_eq_true _ _ |>.mp
    (show (before.trace? c₁ events).any (fun result => result.2.isServed &&
        result.1.ended == some .shutdown && result.2.verdict == some .manualShutdown &&
        result.2.outgoing == farewell) = true by
      rw [hbefore]
      rfl)
  simp only [Bool.and_eq_true, beq_iff_eq] at hchecks
  obtain ⟨⟨⟨hserved, hended⟩, hverdict⟩, houtgoing⟩ := hchecks
  have hstream : Frame.Stream maxAnnounced c.outgoing [.suspend .invalidPacket] .clean := by
    rw [houtgoing, ← List.append_nil farewell]
    exact .frame ⟨rfl, rfl⟩ (by decide) (.rest .clean)
  refine ⟨c₀, rfl, history, c, traced_of_trace? htraced rfl htrace, hserved, hended, hverdict,
    hstream, ?_⟩
  rintro ⟨packets, hother⟩
  obtain ⟨hpackets, -⟩ := hstream.unique hother
  have hlast := congrArg List.getLast? hpackets
  rw [List.getLast?_concat] at hlast
  exact absurd hlast (by decide)

end Connection

end Depot
