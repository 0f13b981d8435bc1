import Depot.Proofs.Connection.Steps

/-!
# What is coming

At every moment of a passage one can say which packets are `coming`: those that wait in the inbound
queue, those that the unread bytes complete, and the suspend that reading ends with. A step either
leaves them alone or dispatches the first of them, and dispatching goes on up to the first suspend.

This takes an invariant, `Orderly`: the inbound queue is open, the session lives until dispatching has
ended, and from then on every operation is doomed.

## Key results

- `orderly_start`: a connection over a fresh session is orderly
- `orderly_step`: a step keeps it so, and what it does to the packets that are coming
-/

namespace Depot.Connection

/-- How the parts of a connection fit together in a passage. -/
structure Orderly (c : Connection) : Prop where
  shutdown : c.shutdown = false
  listening : c.scene.session.inbound.receiver = .listening
  senders : c.scene.session.inbound.senders ≠ 0
  live : c.scene.session.live = c.verdict.isNone
  halt : c.verdict = none → c.board.halt = none
  board : c.board.Sound
  doomed : c.verdict.isSome → c.board.Doomed
  writer : c.sender.writer.Sound

/-- The suspend with which reading ends behind an intake. -/
def closing (intake : Frame.Intake) : Packet :=
  .suspend ((intake.fault.map Frame.Fault.suspendCode).getD .socketClosed)

/-- The packets that are still to come if nothing but the peer has a say in it. -/
def coming (left : List UInt8) (c : Connection) : List Packet :=
  c.scene.session.inbound.waiting ++
    if c.reading then (c.reader.feed left).packets ++ [closing (c.reader.feed left)] else []

/-- What a step does to the packets that are coming. -/
inductive Moves (left : List UInt8) (c : Connection) : List Packet → List UInt8 → Connection → Prop
  /-- It leaves them alone, or dispatching has ended. -/
  | aside {left' : List UInt8} {c' : Connection} (hverdict : c'.verdict = c.verdict)
      (hcoming : c.verdict = none → coming left' c' = coming left c) : Moves left c [] left' c'
  /-- It dispatches the first of them, and a suspend ends dispatching. -/
  | dispatches {left' : List UInt8} {c' : Connection} {p : Packet} (hopen : c.verdict = none)
      (hcoming : coming left c = p :: coming left' c')
      (hverdict : c'.verdict =
        if p.request = .suspend then some (p.suspendCode?.getD .unknown) else none) :
      Moves left c [p] left' c'

variable {left : List UInt8} {c c' : Connection}

/-- A verdict stands. -/
theorem Moves.verdict_eq {left' : List UInt8} {packets : List Packet}
    (h : Moves left c packets left' c') (hover : c.verdict.isSome = true) : c'.verdict = c.verdict := by
  cases h with
  | aside hverdict _ => exact hverdict
  | dispatches hopen _ _ => rw [hopen] at hover; cases hover

/-- A step that has nothing to do with reading and dispatching. -/
private theorem orderly_beside (h : c.Orderly) (hshutdown : c'.shutdown = c.shutdown)
    (hverdict : c'.verdict = c.verdict) (hreading : c'.reading = c.reading)
    (hreader : c'.reader = c.reader) (hworked : c.scene.Worked c'.scene)
    (hhalt : c.verdict = none → c'.board.halt = c.board.halt) (hboard : c'.board.Sound)
    (hdoomed : c.board.Doomed → c'.board.Doomed) (hwriter : c'.sender.writer.Sound) :
    c'.Orderly ∧ Moves left c [] left c' := by
  have hinbound := Session.Worked.inbound hworked
  constructor
  · exact {
      shutdown := hshutdown.trans h.shutdown
      listening := hinbound ▸ h.listening
      senders := hinbound ▸ h.senders
      live := by rw [Session.Worked.live hworked, hverdict, h.live]
      halt := fun hopen => (hhalt (hverdict ▸ hopen)).trans (h.halt (hverdict ▸ hopen))
      board := hboard
      doomed := fun hover => hdoomed (h.doomed (hverdict ▸ hover))
      writer := hwriter }
  · -- What is coming is made of the inbound queue, the reader and the bytes that are left.
    exact .aside hverdict fun _ => by rw [coming, coming, hinbound, hreading, hreader]

/-- Putting packets into the inbound queue keeps a connection orderly, whatever else reading does. -/
private theorem Orderly.deliver (h : c.Orderly) (packets : List Packet) (farewell : Option ErrorCode)
    (metrics : Metrics) (reader : Frame.Reader) (buffer : List UInt8) (reading : Bool)
    (watch : Liveness.Watch) :
    Orderly
      { c with
        reader, buffer, reading, watch
        scene := { c.scene with
          metrics
          session := { c.scene.session with
            inbound := packets.foldl Queue.push c.scene.session.inbound
            farewell } } } := by
  obtain ⟨hreceiver, hsenders⟩ := Queue.ends_foldl_push c.scene.session.inbound packets
  exact { h with listening := hreceiver.trans h.listening, senders := hsenders ▸ h.senders }

/-- What is read is no longer left, and the packets that it completes are in the queue. -/
private theorem orderly_read {chunk : List UInt8} (h : c.Orderly) (hchunk : chunk <+: left)
    (hstep : c.step? (.read chunk) = some c') :
    c'.Orderly ∧ Moves left c [] (left.drop chunk.length) c' := by
  cases steps_of_step? hstep with
  | @read _ watch metrics hreading =>
    refine ⟨h.deliver _ _ metrics _ chunk _ watch, .aside rfl fun _ => ?_⟩
    -- The bytes that are left are read behind the chunk, unless there is a fault in it.
    obtain ⟨rest, rfl⟩ := hchunk
    rw [coming, coming, List.drop_left]
    simp only [hreading, Bool.true_and, ↓reduceIte, Queue.waiting_foldl_push _ h.listening]
    rw [Frame.Reader.feed_append, arrivals]
    cases hfault : (c.reader.feed chunk).fault with
    | none =>
      simp only [Frame.Intake.andThen, hfault, closing, Option.isSome_none, Option.isNone_none,
        Bool.false_eq_true, ↓reduceIte, Option.map_none, Option.toList_none, List.append_nil,
        List.append_assoc]
    | some fault =>
      rw [Frame.Intake.andThen_of_fault (by rw [hfault]; rfl)]
      simp only [closing, hfault, Option.isNone_some, Bool.false_eq_true, ↓reduceIte,
        Option.map_some, Option.toList_some, Option.getD_some, List.append_nil]

/-- The end of the stream is told by a suspend. -/
private theorem orderly_readEnd (h : c.Orderly) (hleft : left = [])
    (hstep : c.step? .readEnd = some c') : c'.Orderly ∧ Moves left c [] left c' := by
  cases steps_of_step? hstep with
  | readEnd hreading =>
    refine ⟨h.deliver [.suspend .socketClosed] c.scene.session.farewell c.scene.metrics c.reader []
      false c.watch, .aside rfl fun _ => ?_⟩
    subst hleft
    rw [coming, coming]
    simp only [endReading, Session.deliver, hreading, Queue.waiting_push _ h.listening, closing,
      Frame.Reader.feed_nil, Bool.false_eq_true, ↓reduceIte, List.append_nil, List.nil_append,
      Option.map_none, Option.getD_none]

/-- Reading stops when the session is over, and then nothing is coming any more. -/
private theorem orderly_readStop (h : c.Orderly) (hstep : c.step? .readStop = some c') :
    c'.Orderly ∧ Moves left c [] left c' := by
  cases steps_of_step? hstep with
  | readStop _ hdead =>
    refine ⟨{ h with }, .aside rfl fun hopen => ?_⟩
    -- The session is over, so dispatching has ended.
    rw [h.live, hopen] at hdead
    cases hdead

/-- The first of what is coming is dispatched. A suspend ends the session. -/
private theorem orderly_dispatch (h : c.Orderly) (hstep : c.step? .dispatch = some c') :
    c'.Orderly ∧ Moves left c (c.dispatched .dispatch) left c' := by
  cases steps_of_step? hstep with
  | @dispatch p hp =>
    obtain ⟨hopen, rest, hwaiting, hlistening, hsenders, hattended⟩ :=
      taken_of_upcoming? h.shutdown h.listening h.senders hp
    have hcoming {c' : Connection} (hinbound : c'.scene.session.inbound = rest)
        (hreading : c'.reading = c.reading) (hreader : c'.reader = c.reader) :
        coming left c = p :: coming left c' := by
      rw [coming, coming, hwaiting, hinbound, hreading, hreader, List.cons_append]
    rw [dispatched, hp, Option.toList_some]
    by_cases hsuspend : p.request = .suspend
    · -- The session is over with the verdict, and every operation has the suspend in its inbox.
      rw [Switchboard.dispatch_suspend hsuspend, hattended]
      have hends : p.request.endsOperation = true := by rw [hsuspend]; rfl
      refine ⟨?_, .dispatches hopen (hcoming rfl rfl rfl) (if_pos hsuspend).symm⟩
      exact { h with
        listening := hlistening
        senders := hsenders
        live := rfl
        halt := fun hopen => by cases hopen
        board := Switchboard.sound_suspend p h.board
        doomed := fun _ => Switchboard.doomed_suspend hends h.board }
    · obtain ⟨board, scene, hdispatch, hreplied, hhalt, hboard⟩ :=
        Switchboard.dispatch_other hsuspend c.board c.attended
      rw [hdispatch]
      rw [hattended] at hreplied
      have hinbound : scene.session.inbound = rest := (Session.Replied.worked hreplied).inbound
      refine ⟨?_, .dispatches hopen (hcoming hinbound rfl rfl) (hopen.trans (if_neg hsuspend).symm)⟩
      exact { h with
        listening := hinbound ▸ hlistening
        senders := hinbound ▸ hsenders
        live := (Session.Replied.worked hreplied).live.trans h.live
        halt := fun hopen => hhalt.trans (h.halt hopen)
        board := hboard h.board
        doomed := fun hover => by rw [follow, hopen] at hover; cases hover }

/-- To close the switchboard changes nothing that is coming. -/
private theorem orderly_close (h : c.Orderly) (hstep : c.step? .close = some c') :
    c'.Orderly ∧ Moves left c [] left c' := by
  cases steps_of_step? hstep with
  | close hover =>
    refine orderly_beside h rfl rfl rfl rfl (.refl c.scene) (fun hopen => ?_)
      ⟨h.board.ascending, h.board.listening⟩ (fun hdoomed => hdoomed) h.writer
    -- Without a verdict the switchboard is not closed.
    rw [hopen] at hover
    cases hover

/-- A watch that finds nobody silent changes nothing that is coming. -/
private theorem orderly_watch (h : c.Orderly)
    (hsilent : ∀ w, c.watch.step? c.times c.now c.scene.session.live ≠ some (w, true))
    (hstep : c.step? .watch = some c') : c'.Orderly ∧ Moves left c [] left c' := by
  cases steps_of_step? hstep with
  | @watch watch silent hwatch =>
    cases silent with
    | true => exact absurd hwatch (hsilent watch)
    | false =>
      exact orderly_beside h rfl rfl rfl rfl (.refl c.scene) (fun _ => rfl) h.board
        (fun hdoomed => hdoomed) h.writer

/-- Nobody is found silent after the end of the session. -/
theorem live_of_silent {w w' : Liveness.Watch} {times : Liveness.Times} {now : Liveness.Instant}
    {live : Bool} (h : w.step? times now live = some (w', true)) : live = true := by
  cases live with
  | true => rfl
  | false =>
    simp only [Liveness.Watch.step?, Bool.not_false, ↓reduceIte] at h
    split at h <;> cases h

/-- A probe is something that is said to the peer. -/
theorem worked_probe (s : Scene) : s.Worked s.probe := by
  unfold Scene.probe
  split
  · exact Session.Worked.post s.session _
  · exact .refl s

/-- So to probe changes nothing that is coming. -/
private theorem orderly_probe (h : c.Orderly) (hstep : c.step? .probe = some c') :
    c'.Orderly ∧ Moves left c [] left c' := by
  cases steps_of_step? hstep with
  | @probe probe tick _ =>
    refine orderly_beside h rfl rfl rfl rfl ?_ (fun _ => rfl) h.board (fun hdoomed => hdoomed) h.writer
    show c.scene.Worked (if tick then c.scene.probe else c.scene)
    split
    · exact worked_probe c.scene
    · exact .refl c.scene

/-- A step of a passage keeps a connection orderly, and either leaves what is coming alone or dispatches
the first of it. -/
theorem orderly_step {e : Event} (h : c.Orderly) (hundisturbed : Undisturbed left c e)
    (hstep : c.step? e = some c') :
    c'.Orderly ∧ Moves left c (c.dispatched e) (unread left e) c' := by
  -- One case for each event. Those that a passage does not have are excluded.
  cases e with
  | read chunk => exact orderly_read h hundisturbed hstep
  | readEnd => exact orderly_readEnd h hundisturbed hstep
  | readFailure => exact hundisturbed.elim
  | readStop => exact orderly_readStop h hstep
  | dispatch => exact orderly_dispatch h hstep
  | operate id =>
    cases steps_of_step? hstep with
    | operate hadvance =>
      have honward := Switchboard.advance?_onward h.board hadvance
      exact orderly_beside h rfl rfl rfl rfl honward.worked (fun _ => honward.halt) honward.sound
        honward.doomed h.writer
  | close => exact orderly_close h hstep
  | send answer =>
    cases steps_of_step? hstep with
    | send hsent =>
      have hspec := Sender.step?_spec h.writer hundisturbed hsent
      exact orderly_beside h rfl rfl rfl rfl hspec.worked (fun _ => rfl) h.board
        (fun hdoomed => hdoomed) hspec.sound
  | watch => exact orderly_watch h hundisturbed hstep
  | probe => exact orderly_probe h hstep
  | wait duration =>
    cases hstep
    exact orderly_beside h rfl rfl rfl rfl (.refl c.scene) (fun _ => rfl) h.board
      (fun hdoomed => hdoomed) h.writer
  | shutdown => exact hundisturbed.elim

end Depot.Connection
