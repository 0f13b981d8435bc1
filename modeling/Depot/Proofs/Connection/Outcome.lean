import Depot.Proofs.Connection.Orderly
import Depot.Proofs.Frame.Stream

/-!
# How a connection ends

The packets that are dispatched in a passage, and the code that it ends with, can be read off the bytes
of the peer. They are the packets of the stream up to the first suspend, which gives the code; without
one, a suspend follows that says how the stream ended.

## Key results

- `Passage.destined`: a passage takes what it is destined to take, and ends as it is destined to
- `ends_heard`: what that is for the packets of a stream
-/

namespace Depot

/-- Whether a slot is as a new one, but for whose connection it is for. -/
structure Slot.Ready (config : Config) (s : Slot) : Prop where
  session : ∃ id peer, s.session = { id, peer }
  reader : s.reader = .new config.maxPayload
  writer : s.writer = .new config.sendChunk

theorem Slot.ready_new (config : Config) : (Slot.new config).Ready config := ⟨⟨0, none, rfl⟩, rfl, rfl⟩

/-- A slot of the right size is ready again when it is recycled, whatever its last connection left. -/
theorem Slot.ready_recycle {config : Config} {s : Slot}
    (hreader : s.reader.maxPayload = config.maxPayload)
    (hwriter : s.writer.chunk = max config.sendChunk 1) : s.recycle.Ready config := by
  refine ⟨⟨0, none, rfl⟩, ?_, ?_⟩
  · simp only [recycle, Frame.Reader.reset, Frame.Reader.new, hreader]
  · simp only [recycle, Frame.Writer.reset, Frame.Writer.new, hwriter]

/-- A slot that is ready is ready for whoever is attached. -/
theorem Slot.Ready.attach {config : Config} {s : Slot} (h : s.Ready config) (id : Nat)
    (peer : Option String) : (s.attach id peer).Ready config := by
  obtain ⟨id', peer', hsession⟩ := h.session
  refine ⟨⟨id, peer, ?_⟩, h.reader, h.writer⟩
  show s.session.attach id peer = _
  rw [hsession]
  rfl

namespace Connection

/-- What a connection over a slot that is ready begins as. -/
theorem start_eq_ok {config : Config} {store : Storage.Store} {tree : Storage.Tree} {metrics : Metrics}
    {shutdown : Bool} {slot : Slot} {c : Connection} (hslot : slot.Ready config)
    (hstart : start config store tree metrics shutdown slot = .ok c) :
    ∃ id peer probe, Liveness.Probe.start? config.liveness.keepalive 0 = some probe ∧ c =
      { service :=
          { store, limits := { downloadChunk := config.downloadChunk, maxUpload := config.maxUpload } }
        times := config.liveness
        linger := config.linger
        scene :=
          { session := { id, peer, inboundTaken := true, outboundTaken := true }, tree, metrics }
        reader := .new config.maxPayload
        buffer := slot.buffer
        shutdown
        sender := { writer := .new config.sendChunk }
        watch := .start config.liveness 0
        probe } := by
  obtain ⟨⟨id, peer, hsession⟩, hreader, hwriter⟩ := hslot
  simp only [start, hsession] at hstart
  cases hprobe : Liveness.Probe.start? config.liveness.keepalive 0 with
  | none => rw [hprobe] at hstart; cases hstart
  | some probe =>
    rw [hprobe] at hstart
    cases hstart
    exact ⟨id, peer, probe, rfl, by rw [hreader, hwriter]⟩

/-! ### What is heard -/

/-- Packets up to the first suspend. -/
def untilSuspend : List Packet → List Packet
  | [] => []
  | p :: rest => if p.request = .suspend then [p] else p :: untilSuspend rest

/-- The code that a stream leaves to its ending. -/
def endingCode : Frame.Ending → ErrorCode
  | .faulty _ => .invalidPacket
  | _ => .socketClosed

/-- The packets that are dispatched of a stream. -/
def heard (packets : List Packet) (ending : Frame.Ending) : List Packet :=
  untilSuspend (packets ++ [.suspend (endingCode ending)])

/-- The code that a stream ends a connection with. -/
def outcome (packets : List Packet) (ending : Frame.Ending) : ErrorCode :=
  match packets.find? (·.request == .suspend) with
  | some p =>
      match p.payload with
      | [] => .unknown
      | b :: _ => .ofByte b
  | none => endingCode ending

/-- Dispatching takes so many of the packets that are coming and ends with a code. -/
inductive Ends : List Packet → List Packet → ErrorCode → Prop
  | suspend {p : Packet} {rest : List Packet} (hp : p.request = .suspend) :
      Ends (p :: rest) [p] (p.suspendCode?.getD .unknown)
  | other {p : Packet} {rest packets : List Packet} {code : ErrorCode} (hp : p.request ≠ .suspend)
      (h : Ends rest packets code) : Ends (p :: rest) (p :: packets) code

theorem Ends.queue_ne_nil {queue packets : List Packet} {code : ErrorCode}
    (h : Ends queue packets code) : queue ≠ [] := by
  cases h <;> exact List.cons_ne_nil _ _

/-- A queue that ends with what a stream ends with ends at the first suspend in it. -/
theorem ends_heard (packets : List Packet) (ending : Frame.Ending) :
    Ends (packets ++ [.suspend (endingCode ending)]) (heard packets ending)
      (outcome packets ending) := by
  -- Packet by packet, to the first suspend or to the one behind them all.
  induction packets with
  | nil =>
    have hcode : (Packet.suspend (endingCode ending)).suspendCode?.getD .unknown =
        endingCode ending := by
      cases ending <;> rfl
    have h : Ends [.suspend (endingCode ending)] [.suspend (endingCode ending)]
        ((Packet.suspend (endingCode ending)).suspendCode?.getD .unknown) := .suspend rfl
    rwa [hcode] at h
  | cons p packets ih =>
    by_cases hp : p.request = .suspend
    · -- The first suspend gives the code, and nothing behind it counts.
      have hcode : p.suspendCode?.getD .unknown = outcome (p :: packets) ending := by
        simp only [outcome, Packet.suspendCode?, hp, List.find?_cons, beq_self_eq_true]
        cases p.payload <;> rfl
      rw [heard, List.cons_append, untilSuspend, if_pos hp, ← hcode]
      exact .suspend hp
    · have hcode : outcome (p :: packets) ending = outcome packets ending := by
        simp only [outcome, List.find?_cons, beq_eq_false_iff_ne.mpr hp]
      rw [heard, List.cons_append, untilSuspend, if_neg hp, hcode]
      exact .other hp ih

/-- What is still dispatched from a state on, and the code that dispatching ends with. -/
inductive Destined (left : List UInt8) (c : Connection) : List Packet → ErrorCode → Prop
  | ended {code : ErrorCode} (h : c.verdict = some code) : Destined left c [] code
  | going {packets : List Packet} {code : ErrorCode} (hopen : c.verdict = none)
      (h : Ends (coming left c) packets code) : Destined left c packets code

variable {left left' : List UInt8} {c c' : Connection} {packets now : List Packet} {code : ErrorCode}

/-- A connection over a slot that is ready is orderly, and nothing has come yet. -/
private theorem orderly_start {config : Config} {store : Storage.Store} {tree : Storage.Tree}
    {metrics : Metrics} {slot : Slot} (hslot : slot.Ready config)
    (hstart : start config store tree metrics false slot = .ok c) :
    c.Orderly ∧ c.verdict = none ∧ c.scene.session.inbound.waiting = [] ∧ c.reading = true ∧
      c.reader = .new config.maxPayload := by
  obtain ⟨id, peer, probe, -, rfl⟩ := start_eq_ok hslot hstart
  refine ⟨?_, rfl, rfl, rfl, rfl⟩
  exact {
    shutdown := rfl
    listening := rfl
    senders := Nat.one_ne_zero
    live := rfl
    halt := fun _ => rfl
    board := Switchboard.sound_empty
    doomed := fun hover => by cases hover
    writer := Frame.Writer.sound_new config.sendChunk }

/-- The bytes of the peer decide what a connection is destined to. -/
theorem destined_start {config : Config} {store : Storage.Store} {tree : Storage.Tree}
    {metrics : Metrics} {slot : Slot} {bytes : List UInt8} {ending : Frame.Ending}
    (hslot : slot.Ready config) (hstart : start config store tree metrics false slot = .ok c)
    (hstream : Frame.Stream config.maxPayload bytes packets ending) :
    c.Orderly ∧ Destined bytes c (heard packets ending) (outcome packets ending) := by
  obtain ⟨horderly, hopen, hwaiting, hreading, hreader⟩ := orderly_start hslot hstart
  obtain ⟨r, hfeed, -⟩ := Frame.Reader.feed_stream hstream
  -- How the stream ends decides which suspend stands behind its packets.
  obtain ⟨_, rest, -, -, hrest⟩ := hstream.exists_rest
  have hclosing : closing { packets, reader := r, fault := ending.fault? } =
      .suspend (endingCode ending) := by
    cases hrest with
    | clean => rfl
    | unfinished _ => rfl
    | faulty hfault =>
      simp only [closing, Frame.Ending.fault?, Option.map_some, Option.getD_some, hfault.suspendCode,
        endingCode]
  refine ⟨horderly, .going hopen ?_⟩
  rw [coming, hwaiting, hreading, hreader, hfeed, if_pos rfl, List.nil_append, hclosing]
  exact ends_heard packets ending

/-- When there is a verdict it is the one that the bytes decide, and everything was dispatched. -/
theorem Destined.verdict_eq (h : Destined left c packets code) (hover : c.verdict.isSome) :
    packets = [] ∧ c.verdict = some code := by
  cases h with
  | ended h => exact ⟨rfl, h⟩
  | going hopen _ => rw [hopen] at hover; cases hover

/-- A step keeps the destiny of a connection, and what it dispatches comes off the front. -/
theorem Destined.moves (h : Destined left c packets code) (hmoves : Moves left c now left' c') :
    ∃ packets', packets = now ++ packets' ∧ Destined left' c' packets' code := by
  cases hmoves with
  | aside hverdict hcoming =>
    refine ⟨packets, rfl, ?_⟩
    cases h with
    | ended h => exact .ended (hverdict.trans h)
    | going hopen h => exact .going (hverdict.trans hopen) (hcoming hopen ▸ h)
  | dispatches hopen hcoming hverdict =>
    cases h with
    | ended h => rw [hopen] at h; cases h
    | going _ h =>
      -- What is dispatched is the first of what is coming, and it is a suspend or is not.
      rw [hcoming] at h
      cases h with
      | suspend hp => exact ⟨[], rfl, .ended (hverdict.trans (if_pos hp))⟩
      | other hp h => exact ⟨_, rfl, .going (hverdict.trans (if_neg hp)) h⟩

/-- A passage takes what it is destined to take, and ends as it is destined to. -/
theorem Passage.destined (h : Passage left c now left' c') (hc : c.Orderly)
    (hd : Destined left c packets code) :
    c'.Orderly ∧ ∃ packets', packets = now ++ packets' ∧ Destined left' c' packets' code := by
  -- Every step takes its share of what is destined, and leaves the rest to the steps behind it.
  induction h generalizing packets with
  | nil => exact ⟨hc, packets, rfl, hd⟩
  | cons hundisturbed hstep _ ih =>
    obtain ⟨hc', hmoves⟩ := orderly_step hc hundisturbed hstep
    obtain ⟨packets', rfl, hd'⟩ := hd.moves hmoves
    obtain ⟨hc'', packets'', rfl, hd''⟩ := ih hc' hd'
    exact ⟨hc'', packets'', (List.append_assoc _ _ _).symm, hd''⟩

end Connection

end Depot
