import Depot.Proofs.Connection.Outcome
import Depot.Proofs.Connection.SendingSide
import Depot.Proofs.Connection.Sizes
import Depot.Proofs.Operation.Lengths
import Depot.Proofs.Server.Limits
import Depot.Proofs.Switchboard.Draining

/-!
# What the peer has to take in

A connection takes no payload from its peer that is longer than a limit. If the peer does the same, with
the same limit, it should never be sent a longer one. A valid configuration sees to that for the blocks of
downloads, but not for the replies that are as long as they are. `Measured` is kept by every step: whatever
waits for the peer, and whatever was written to it, is as long as `Packet.Sized` says. So a peer that reads
it is refused nothing if the limit is `Roomy`; under another limit it may be refused the description of a
file that it has asked for.

## Key results

- `measured_step`, `measured_run`: what every step and run of a connection keeps
- `replies_keep_to_limit`: what is said to the peer, and that a peer with room can read it
- `description_exceeds_limit`: a description that does not fit where the request for it did
-/

namespace Depot

/-! ### What is taken in -/

namespace Frame.Reader

/-- Whether the frame in progress keeps to the limit. -/
def Keeping (r : Reader) : Prop := ∀ header, r.phase = .payload header → header.size.toNat ≤ r.maxPayload

/-- What is complete keeps to the limit, and so does what is announced. -/
private theorem keeping_complete {r next : Reader} {packet : Option Packet} (h : r.Keeping)
    (hfull : r.buffer.length = r.phase.target) (hcomplete : r.complete = .ok (packet, next)) :
    (∀ p ∈ packet, p.payload.length ≤ r.maxPayload) ∧ next.Keeping := by
  -- A payload is as long as its header announces, and what is too long is never waited for.
  unfold complete at hcomplete
  split at hcomplete
  · next header hphase =>
    cases hcomplete
    refine ⟨fun p hp => ?_, fun header hheader => by cases hheader⟩
    cases hp
    rw [hphase] at hfull
    exact hfull ▸ h header hphase
  · split at hcomplete
    · cases hcomplete
    · next header hdecode =>
      split at hcomplete
      · cases hcomplete
      · next hsize =>
        split at hcomplete
        · cases hcomplete
          refine ⟨fun p hp => ?_, fun header hheader => by cases hheader⟩
          cases hp
          exact Nat.zero_le _
        · cases hcomplete
          refine ⟨fun p hp => ?_, fun header hheader => ?_⟩
          · cases hp
          · cases hheader
            exact Nat.not_lt.mp hsize

/-- No packet that a reader gives out is longer than its limit. -/
theorem keeping_feed {r : Reader} (h : r.Keeping) (chunk : List UInt8) :
    (∀ p ∈ (r.feed chunk).packets, p.payload.length ≤ r.maxPayload) ∧ (r.feed chunk).reader.Keeping := by
  -- By induction on the rounds of `feed`.
  fun_induction r.feed chunk with
  | case1 => exact ⟨List.forall_mem_nil _, h⟩
  | case2 r b rest taken r' hfull fault hcomplete =>
    exact ⟨List.forall_mem_nil _, fun header hheader => by cases hheader⟩
  | case3 r b rest taken r' hfull packet next hcomplete intake ih =>
    have hkept : r'.Keeping := h
    have hsame : next.maxPayload = r'.maxPayload := maxPayload_complete hcomplete
    obtain ⟨hpacket, hnext⟩ := keeping_complete hkept hfull hcomplete
    obtain ⟨hpackets, hreader⟩ := ih hnext
    refine ⟨fun p hp => ?_, hreader⟩
    rcases List.mem_append.mp hp with hp | hp
    · exact hpacket p (Option.mem_toList.mp hp)
    · rw [hsame] at hpackets
      exact hpackets p hp
  | case4 r b rest taken r' hshort ih => exact ih h

end Frame.Reader

/-- What is left after a receipt was there before. -/
theorem Queue.mem_waiting_receive {α : Type} {q : Queue α} {a : α} (h : a ∈ q.receive.2.waiting) :
    a ∈ q.waiting := by
  unfold receive at h
  split at h
  · next b rest htry =>
    rw [waiting_tryReceive htry]
    exact List.mem_cons_of_mem b h
  · split at h <;> exact h

/-! ### The switchboard -/

namespace Switchboard

/-- Whether all operations keep to a limit. -/
def Within (limit : Nat) (b : Switchboard) : Prop := b.entries.All fun e => e.operation.Within limit

section

variable {limit : Nat} {service : Service} {b b' : Switchboard} {scene scene' : Scene}

/-- An inbox within the limit stays so with a packet that keeps to it. -/
theorem Entry.within_put {e : Entry} {p : Packet} (h : e.operation.Within limit)
    (hp : p.payload.length ≤ limit) : (e.put p).operation.Within limit := by
  refine ⟨h.stage, fun q hq => ?_⟩
  rcases Queue.mem_waiting_push hq with hq | rfl
  · exact h.inbox q hq
  · exact hp

/-- A packet that keeps to the limit leaves all operations within it, and is answered, if at all, by an
error. -/
theorem within_dispatch {p : Packet} {flow : Flow} (h : b.Within limit) (hp : p.payload.length ≤ limit)
    (hdispatch : b.dispatch p scene = (flow, b', scene')) :
    b'.Within limit ∧ scene'.session.inbound = scene.session.inbound ∧ scene.Speaks limit scene' := by
  have hquiet : scene.Speaks limit scene := fun q hq => .inl hq
  -- A suspend goes to all, a block to one, a request starts an operation or is refused, and anything else is
  -- ignored.
  rcases dispatch_cases hdispatch with
    ⟨-, -, rfl, rfl⟩ | ⟨-, -, rfl, rfl⟩ | ⟨kind, -, -, hstart⟩ | ⟨-, -, -, rfl, rfl⟩
  · exact ⟨h.map fun e he => Entry.within_put he hp, rfl, hquiet⟩
  · exact ⟨h.amend _ fun e he => Entry.within_put he hp, rfl, hquiet⟩
  · unfold start at hstart
    split at hstart
    · next entries henroll =>
      cases hstart
      have hopened : (Entry.opened b.started kind p).operation.Within limit :=
        Entry.within_put ⟨trivial, List.forall_mem_nil _⟩ hp
      exact ⟨h.enroll? hopened henroll, rfl, hquiet⟩
    · cases hstart
      refine ⟨h, rfl, fun q hq => ?_⟩
      rcases Queue.mem_waiting_push hq with hq | rfl
      · exact .inl hq
      · exact .inr (Packet.measured_error limit _ _ _)
  · exact ⟨h, rfl, hquiet⟩

/-- A step of an operation leaves all of them within the limit. -/
theorem within_advance? {id : UInt8} (h : b.Within limit) (hlimit : 0 < limit)
    (hchunk : service.limits.downloadChunk ≤ limit) (hreaches : scene.reachesPeer = true)
    (hadvance : b.advance? service id scene = some (b', scene')) :
    b'.Within limit ∧ scene.Speaks limit scene' := by
  obtain ⟨e, hfind, ⟨op, hstep, rfl⟩ | ⟨outcome, hstep, rfl⟩⟩ := advance?_cases hadvance
  · obtain ⟨hop, hspeaks⟩ :=
      Operation.within_step_running (h.of_find? hfind) hlimit hchunk hreaches hstep
    exact ⟨h.amend id fun _ _ => hop, hspeaks⟩
  · exact ⟨h.dismiss id,
      Operation.within_step_ended (h.of_find? hfind) hlimit hchunk hreaches hstep⟩

end

end Switchboard

namespace Connection

/-! ### What a connection keeps -/

/-- What keeps to the limit in a connection, and what is measured by it. -/
structure Measured (limit : Nat) (c : Connection) : Prop where
  chunk : c.service.limits.downloadChunk ≤ limit
  reader : c.reader.maxPayload = limit ∧ c.reader.Keeping
  inbound : ∀ p ∈ c.scene.session.inbound.waiting, p.payload.length ≤ limit
  /-- Operations that nobody hears any more may be in any state. -/
  board : c.scene.session.live = true → c.board.Within limit
  outbound : ∀ p ∈ c.scene.session.outbound.waiting, p.Measured limit
  underway : c.Underway
  outlet : ∃ queued taken, (∀ p ∈ taken, p.Measured limit) ∧ c.outlet.Ordered queued taken True

variable {limit : Nat} {c c' : Connection} {e : Event}

namespace Measured

/-- A step of another loop than sending leaves what was written as it was. -/
private theorem beside (h : Measured limit c) (hstep : c.step? e = some c')
    (hsender : c'.sender = c.sender) (houtgoing : c'.outgoing = c.outgoing) :
    c'.Underway ∧
      ∃ queued taken, (∀ p ∈ taken, p.Measured limit) ∧ c'.outlet.Ordered queued taken True := by
  obtain ⟨queued, taken, htaken, hordered⟩ := h.outlet
  obtain ⟨hunderway, events, hrun⟩ := h.underway.step hstep
  -- Nothing was taken from the queue. What waits there now counts as queued anew.
  obtain ⟨more, hordered', hover⟩ := Outlet.ordered_run hordered hrun
  refine ⟨hunderway, taken ++ c'.scene.session.outbound.waiting, taken, htaken, ?_⟩
  exact {
    sound := by
      show c'.sender.writer.Sound
      rw [hsender]
      exact hordered.sound
    listening := hordered'.listening
    queue := rfl
    told := by
      show Outlet.Told c'.sender c'.scene.session c'.outgoing taken True
      rw [hsender, houtgoing]
      exact hordered.told.congr fun hdead => (hover hdead).2 }

/-- A suspend that is queued when no more comes in keeps to the limit. -/
private theorem suspends (h : Measured limit c) (hlimit : 0 < limit) (code : ErrorCode) :
    ∀ p ∈ (c.scene.session.inbound.push (.suspend code)).waiting, p.payload.length ≤ limit := by
  intro p hp
  rcases Queue.mem_waiting_push hp with hp | rfl
  · exact h.inbound p hp
  · exact hlimit

/-- Bytes that are read bring packets within the limit. -/
private theorem read {chunk : List UInt8} (h : Measured limit c) (hlimit : 0 < limit)
    (hstep : c.step? (.read chunk) = some c') : Measured limit c' := by
  have hreader := Frame.Reader.keeping_feed h.reader.2 chunk
  have hsame : (c.reader.feed chunk).reader.maxPayload = limit :=
    (c.reader.maxPayload_feed chunk).trans h.reader.1
  -- The reader lets nothing longer through, and the suspend that follows a fault has one byte.
  have harrivals : ∀ p ∈ arrivals (c.reader.feed chunk), p.payload.length ≤ limit := by
    intro p hp
    rcases List.mem_append.mp hp with hp | hp
    · exact h.reader.1 ▸ hreader.1 p hp
    · obtain ⟨fault, -, rfl⟩ := Option.map_eq_some_iff.mp (Option.mem_toList.mp hp)
      exact hlimit
  cases steps_of_step? hstep with
  | read =>
    obtain ⟨hunderway, houtlet⟩ := h.beside hstep rfl rfl
    exact { h with
      reader := ⟨hsame, hreader.2⟩
      inbound := fun p hp => (Queue.mem_waiting_foldl_push hp).elim (h.inbound p) (harrivals p)
      underway := hunderway
      outlet := houtlet }

/-- The end of the stream brings a suspend, which has one byte. -/
private theorem readEnd (h : Measured limit c) (hlimit : 0 < limit)
    (hstep : c.step? .readEnd = some c') : Measured limit c' := by
  cases steps_of_step? hstep with
  | readEnd =>
    obtain ⟨hunderway, houtlet⟩ := h.beside hstep rfl rfl
    exact { h with
      inbound := h.suspends hlimit .socketClosed
      underway := hunderway
      outlet := houtlet }

/-- What is dispatched keeps to the limit: it was in the inbound queue, or it is a suspend. -/
private theorem upcoming (h : Measured limit c) (hlimit : 0 < limit) {p : Packet}
    (hp : c.upcoming? = some p) : p.payload.length ≤ limit := by
  -- A shutdown comes before what waits, and the end of the queue is a suspend as well.
  unfold upcoming? at hp
  split at hp
  · cases hp
  · split at hp
    · cases hp
      exact hlimit
    · cases hreceive : c.scene.session.inbound.receive with
      | mk received rest =>
        rw [hreceive] at hp
        cases received with
        | item q =>
          cases hp
          exact h.inbound _ (by rw [(Queue.receive_item hreceive).1]; exact List.mem_cons_self)
        | ended =>
          cases hp
          exact hlimit
        | pending => cases hp

/-- Before a packet is dispatched nothing is said. -/
private theorem attended (h : Measured limit c) :
    c.attended.session.live = c.scene.session.live ∧
      c.attended.session.outbound = c.scene.session.outbound ∧
      ∀ p ∈ c.attended.session.inbound.waiting, p.payload.length ≤ limit := by
  unfold Connection.attended
  split
  · exact ⟨rfl, rfl, h.inbound⟩
  · exact ⟨rfl, rfl, fun p hp => h.inbound p (Queue.mem_waiting_receive hp)⟩

/-- Dispatching hands out a packet within the limit, and answers with an error at most. -/
private theorem dispatch (h : Measured limit c) (hlimit : 0 < limit)
    (hstep : c.step? .dispatch = some c') : Measured limit c' := by
  cases steps_of_step? hstep with
  | @dispatch p hp =>
    -- Dispatching goes on only before the verdict, and so in a session that lives.
    have hopen : c.verdict = none := by
      cases hverdict : c.verdict with
      | none => rfl
      | some code =>
        rw [upcoming?, hverdict] at hp
        cases hp
    obtain ⟨-, houtbound, hinbound⟩ := h.attended
    cases hdispatch : c.board.dispatch p c.attended with
    | mk flow moved =>
      obtain ⟨board, scene⟩ := moved
      obtain ⟨hboard, hsame, hspeaks⟩ :=
        Switchboard.within_dispatch (h.board (h.underway.live hopen)) (h.upcoming hlimit hp) hdispatch
      rw [hdispatch] at hstep
      obtain ⟨hunderway, houtlet⟩ :=
        h.beside hstep (by cases flow <;> rfl) (by cases flow <;> rfl)
      have hsaid : ∀ q ∈ scene.session.outbound.waiting, q.Measured limit := fun q hq =>
        (hspeaks q hq).elim (fun hq => h.outbound q (houtbound ▸ hq))
          fun hsaid => hsaid
      cases flow
      all_goals exact { h with
        inbound := hsame ▸ hinbound
        board := fun _ => hboard
        outbound := hsaid
        underway := hunderway
        outlet := houtlet }

/-- An operation keeps to the limit as long as it reaches the peer, and is silent after that. -/
private theorem operate {id : UInt8} (h : Measured limit c) (hlimit : 0 < limit)
    (hstep : c.step? (.operate id) = some c') : Measured limit c' := by
  cases steps_of_step? hstep with
  | @operate _ board scene hadvance =>
    obtain ⟨hunderway, houtlet⟩ := h.beside hstep rfl rfl
    have hworked := (Switchboard.advance?_onward h.underway.board hadvance).worked
    have hinbound : ∀ p ∈ scene.session.inbound.waiting, p.payload.length ≤ limit := by
      rw [Session.Worked.inbound hworked]
      exact h.inbound
    -- After the end of the session the operations may be anywhere, but nobody hears them.
    cases hlive : c.scene.session.live with
    | true =>
      obtain ⟨queued, taken, -, hordered⟩ := h.outlet
      have hlistening : c.scene.session.outbound.receiver = .listening := hordered.listening
      have hreaches : c.scene.reachesPeer = true := by
        simp only [Scene.reachesPeer, Queue.isClosed, hlive, hlistening]
        rfl
      obtain ⟨hboard, hspeaks⟩ :=
        Switchboard.within_advance? (h.board hlive) hlimit h.chunk hreaches hadvance
      exact { h with
        inbound := hinbound
        board := fun _ => hboard
        outbound := fun p hp => (hspeaks p hp).elim (h.outbound p) fun hsaid => hsaid
        underway := hunderway
        outlet := houtlet }
    | false =>
      have hreaches : c.scene.reachesPeer = false := by
        simp only [Scene.reachesPeer, hlive, Bool.false_and]
      obtain ⟨hdead, houtbound⟩ := Switchboard.advance?_silent hreaches hadvance
      have hoverlive : scene.session.live = false := hdead.trans hlive
      exact { h with
        inbound := hinbound
        board := fun hlive' => by
          rw [hoverlive] at hlive'
          cases hlive'
        outbound := houtbound ▸ h.outbound
        underway := hunderway
        outlet := houtlet }

/-- Sending takes packets from the queue, and those keep to the limit. -/
private theorem send {answer : WriteAnswer} (h : Measured limit c) (hlimit : 0 < limit)
    (hstep : c.step? (.send answer) = some c') : Measured limit c' := by
  obtain ⟨hunderway, -⟩ := h.underway.step hstep
  cases steps_of_step? hstep with
  | @send _ sent hsent =>
    have hmoves := Sender.moves_of_step? hsent
    obtain ⟨queued, taken, htaken, hordered⟩ := h.outlet
    have hsends : c.outlet.step? (.send answer) = some (c.outlet.advance sent) :=
      Option.map_eq_some_iff.mpr ⟨sent, hsent, rfl⟩
    obtain ⟨more, hordered', -⟩ := Outlet.ordered_step hordered hsends
    -- Whatever was taken or is still waiting was taken or was waiting before.
    have hqueue : (taken ++ more) ++ sent.scene.session.outbound.waiting =
        taken ++ c.scene.session.outbound.waiting :=
      hordered'.queue.trans ((List.append_nil queued).trans hordered.queue.symm)
    have hall : ∀ p ∈ (taken ++ more) ++ sent.scene.session.outbound.waiting, p.Measured limit := by
      rw [hqueue]
      exact List.forall_mem_append.mpr ⟨htaken, h.outbound⟩
    obtain ⟨htaken', hwaiting'⟩ := List.forall_mem_append.mp hall
    have hinbound : ∀ p ∈ sent.scene.session.inbound.waiting, p.payload.length ≤ limit := by
      cases hmoves with
      | givesUp => exact h.suspends hlimit .socketClosed
      | parts => rw [Sender.scene_part]; exact h.inbound
      | finishes =>
        show ∀ p ∈ (Sender.part _ _ _ c.scene).scene.session.inbound.waiting, _
        rw [Sender.scene_part]
        exact h.inbound
      | _ => exact h.inbound
    exact { h with
      inbound := hinbound
      board := fun hlive => h.board (hmoves.ends.1 ▸ hlive)
      outbound := hwaiting'
      underway := hunderway
      outlet := ⟨_, _, htaken', hordered'.mono fun _ => trivial⟩ }

/-- The watch brings a suspend at most. -/
private theorem watch (h : Measured limit c) (hlimit : 0 < limit)
    (hstep : c.step? .watch = some c') : Measured limit c' := by
  cases steps_of_step? hstep with
  | @watch _ silent =>
    obtain ⟨hunderway, houtlet⟩ := h.beside hstep rfl rfl
    cases silent with
    | false => exact { h with underway := hunderway, outlet := houtlet }
    | true =>
      exact { h with
        inbound := h.suspends hlimit .connectionCheckFailed
        underway := hunderway
        outlet := houtlet }

/-- The probe queues a connection check at most, which has one byte. -/
private theorem probe (h : Measured limit c) (hlimit : 0 < limit)
    (hstep : c.step? .probe = some c') : Measured limit c' := by
  cases steps_of_step? hstep with
  | @probe _ tick =>
    obtain ⟨hunderway, houtlet⟩ := h.beside hstep rfl rfl
    cases tick with
    | false => exact { h with underway := hunderway, outlet := houtlet }
    | true =>
      have hworked := worked_probe c.scene
      exact { h with
        inbound := by
          show ∀ p ∈ c.scene.probe.session.inbound.waiting, _
          rw [Session.Worked.inbound hworked]
          exact h.inbound
        board := fun hlive => h.board (Session.Worked.live hworked ▸ hlive)
        outbound := by
          show ∀ p ∈ c.scene.probe.session.outbound.waiting, _
          unfold Scene.probe
          split
          · intro p hp
            rcases Queue.mem_waiting_push hp with hp | rfl
            · exact h.outbound p hp
            · exact ⟨rfl, .fits hlimit⟩
          · exact h.outbound
        underway := hunderway
        outlet := houtlet }

end Measured

/-- Every step keeps to the limit. -/
theorem measured_step (h : Measured limit c) (hlimit : 0 < limit) (hstep : c.step? e = some c') :
    Measured limit c' := by
  have hbeside := h.beside hstep
  -- One case for each kind of event.
  cases steps_of_step? hstep with
  | read => exact h.read hlimit hstep
  | readEnd => exact h.readEnd hlimit hstep
  | readFailure => exact h.readEnd hlimit hstep
  | readStop =>
    obtain ⟨hunderway, houtlet⟩ := hbeside rfl rfl
    exact { h with underway := hunderway, outlet := houtlet }
  | dispatch => exact h.dispatch hlimit hstep
  | operate => exact h.operate hlimit hstep
  | close =>
    obtain ⟨hunderway, houtlet⟩ := hbeside rfl rfl
    exact { h with board := h.board, underway := hunderway, outlet := houtlet }
  | send => exact h.send hlimit hstep
  | watch => exact h.watch hlimit hstep
  | probe => exact h.probe hlimit hstep
  | wait =>
    obtain ⟨hunderway, houtlet⟩ := hbeside rfl rfl
    exact { h with underway := hunderway, outlet := houtlet }
  | shutdown =>
    obtain ⟨hunderway, houtlet⟩ := hbeside rfl rfl
    exact { h with underway := hunderway, outlet := houtlet }

/-- And so does every run. -/
theorem measured_run {events : List Event} (h : Measured limit c) (hlimit : 0 < limit)
    (hrun : Run c events c') : Measured limit c' := by
  induction events generalizing c with
  | nil =>
    cases hrun
    exact h
  | cons e rest ih =>
    obtain ⟨next, hstep, hrest⟩ := Option.bind_eq_some_iff.mp hrun
    exact ih (measured_step h hlimit hstep) hrest

/-- A connection over a slot that is ready begins so, if the blocks of downloads keep to the limit. -/
theorem measured_start {config : Config} {store : Storage.Store} {tree : Storage.Tree}
    {metrics : Metrics} {shutdown : Bool} {slot : Slot} (hslot : slot.Ready config)
    (hchunk : config.downloadChunk ≤ config.maxPayload)
    (hstart : start config store tree metrics shutdown slot = .ok c) :
    Measured config.maxPayload c := by
  obtain ⟨id, peer, probe, -, rfl⟩ := start_eq_ok hslot hstart
  -- There are no packets anywhere yet.
  exact {
    chunk := hchunk
    reader := ⟨rfl, fun header hheader => by cases hheader⟩
    inbound := List.forall_mem_nil _
    board := fun _ => List.forall_mem_nil _
    outbound := List.forall_mem_nil _
    underway := ⟨fun _ => rfl, Switchboard.sound_empty⟩
    outlet := ⟨_, [], List.forall_mem_nil _,
      (Outlet.ordered_start config.linger config.sendChunk rfl).mono fun _ => trivial⟩ }

/-! ### What the peer reads -/

/-- A reader is refused nothing of the frames of packets that keep to its limit. -/
theorem fault_feed_of_prefix {limit : Nat} {said : List Packet} {bytes : List UInt8}
    (hsaid : ∀ p ∈ said, p.header.size.toNat = p.payload.length ∧ p.payload.length ≤ limit)
    (hbytes : bytes <+: Packet.allOnWire said) : ((Frame.Reader.new limit).feed bytes).fault = none := by
  have hframes : Packet.encodeAll said = .ok (Packet.allOnWire said) := by
    refine Packet.encodeAll_eq_allOnWire fun p hp => ⟨_, Packet.encode_of_le ?_⟩
    have hsize := p.header.size.toNat_lt
    have hannounced := (hsaid p hp).1
    simp only [maxAnnounced]
    omega
  rw [← Packet.encodeAll_canonical] at hframes
  have hformed : ∀ q ∈ said.map Packet.canonical, q.WellFormed ∧ q.payload.length ≤ limit := by
    intro q hq
    obtain ⟨p, hp, rfl⟩ := List.mem_map.mp hq
    exact ⟨Packet.wellFormed_canonical (hsaid p hp).1, (hsaid p hp).2⟩
  have hstream := Frame.Stream.of_packets hformed hframes
  obtain ⟨r, hfeed, -⟩ := Frame.Reader.feed_stream hstream
  obtain ⟨rest, hrest⟩ := hbytes
  -- A fault in the beginning would be one of the whole.
  cases hfault : ((Frame.Reader.new limit).feed bytes).fault with
  | none => rfl
  | some fault =>
    rw [← hrest, Frame.Reader.feed_append,
      Frame.Intake.andThen_of_fault (by rw [hfault]; rfl)] at hfeed
    rw [hfeed] at hfault
    cases hfault

/-- Under a valid configuration whatever waits for the peer, and whatever was written to it, is no longer
than the largest payload that is taken from it, but for errors, user ids and the descriptions of files that
it has asked for. So if the limit has room for these nothing that waits is longer, and a peer with the same
limit is refused nothing, in whatever chunks it reads. -/
theorem replies_keep_to_limit {config : Config} {store : Storage.Store} {tree : Storage.Tree}
    {metrics : Metrics} {shutdown : Bool} {slot : Slot} {c₀ c : Connection} {events : List Event}
    (hvalid : config.validate = .ok ()) (hslot : slot.Ready config)
    (hstart : start config store tree metrics shutdown slot = .ok c₀) (hrun : Run c₀ events c) :
    (∀ p ∈ c.scene.session.outbound.waiting, p.Sized config.maxPayload) ∧
      (∃ said, (∀ p ∈ said, p.Sized config.maxPayload) ∧ c.outgoing <+: Packet.allOnWire said) ∧
      (Roomy config.maxPayload →
        (∀ p ∈ c.scene.session.outbound.waiting, p.payload.length ≤ config.maxPayload) ∧
          ∀ chunks, chunks.flatten = c.outgoing →
            ((Frame.Reader.new config.maxPayload).feedAll chunks).fault = none) := by
  have hsensible := Config.validate_eq_ok_iff.mp hvalid
  have hmeasured := measured_run (measured_start hslot hsensible.block hstart) hsensible.payload hrun
  obtain ⟨queued, taken, htaken, hordered⟩ := hmeasured.outlet
  -- Behind what was taken there may be a farewell.
  have hsaid : ∀ p ∈ taken ++ Outlet.last c.scene.session, p.Measured config.maxPayload := by
    refine List.forall_mem_append.mpr ⟨htaken, fun p hp => ?_⟩
    unfold Outlet.last at hp
    split at hp
    · cases hp
    · obtain ⟨code, -, rfl⟩ := Option.map_eq_some_iff.mp (Option.mem_toList.mp hp)
      exact ⟨rfl, .fits hsensible.payload⟩
  refine ⟨fun p hp => (hmeasured.outbound p hp).sized,
    ⟨_, fun p hp => (hsaid p hp).sized, hordered.written⟩, fun hroomy => ⟨fun p hp => ?_, ?_⟩⟩
  · exact (hmeasured.outbound p hp).sized.length_le hroomy
  · intro chunks hchunks
    rw [Frame.Reader.feedAll_eq_feed, hchunks]
    exact fault_feed_of_prefix
      (fun p hp => ⟨(hsaid p hp).announced, (hsaid p hp).sized.length_le hroomy⟩) hordered.written

/-- Under a limit of 264 bytes, with room for the longest description, a peer that asks for a file reads
the description and the block that follow. -/
theorem replies_keep_to_limit_with_room :
    let config : Config := { maxPayload := 264, downloadChunk := 10 }
    let slot := (Slot.new config).attach 1 none
    let store : Storage.Store := ⟨⟨["dlc"]⟩, ⟨["user"]⟩⟩
    let tree : Storage.Tree :=
      ⟨[(["dlc"], .directory), (["dlc", "a.txt"], .file { bytes := [1, 2, 3] })]⟩
    ∃ c₀ c events, start config store tree {} false slot = .ok c₀ ∧ Run c₀ events c ∧
      c.outgoing.length = 39 ∧ ((Frame.Reader.new 264).feedAll [c.outgoing]).fault = none := by
  intro config slot store tree
  let request : Packet := (Client.fileRequest 7 .dlc "a.txt" 1).toOption.get rfl
  let events : List Event :=
    [.read (request.header.encode ++ request.payload), .dispatch, .operate 1, .operate 1, .operate 1,
      .send (.accept 1), .send (.accept 100), .send (.accept 1), .send (.accept 100)]
  have hvalid : config.validate = .ok () := rfl
  have hslot : slot.Ready config := (Slot.ready_new config).attach 1 none
  let c₀ : Connection := (start config store tree {} false slot).toOption.get rfl
  have hstart : start config store tree {} false slot = .ok c₀ := rfl
  obtain ⟨c, hrun, hlength⟩ := (Option.any_eq_true _ _).mp
    (show (c₀.run? events).any (·.outgoing.length == 39) = true by decide +kernel)
  have hroomy : Roomy config.maxPayload := by
    unfold Roomy
    decide
  have hreads := ((replies_keep_to_limit hvalid hslot hstart hrun).2.2 hroomy).2 [c.outgoing]
    (List.append_nil _)
  exact ⟨c₀, c, events, hstart, hrun, beq_iff_eq.mp hlength, hreads⟩

/-- Under a limit of ten bytes, which a request for a file keeps to, the description of the file has
fourteen, and a peer that takes no more than ten cannot read it. -/
theorem description_exceeds_limit :
    let config : Config := { maxPayload := 10, downloadChunk := 10 }
    let slot := (Slot.new config).attach 1 none
    let store : Storage.Store := ⟨⟨["dlc"]⟩, ⟨["user"]⟩⟩
    let tree : Storage.Tree :=
      ⟨[(["dlc"], .directory), (["dlc", "a.txt"], .file { bytes := [1, 2, 3] })]⟩
    config.validate = .ok () ∧ slot.Ready config ∧
      ∃ (request : Packet) (frame : List UInt8) (c₀ c c' : Connection),
        request.encode = .ok frame ∧ request.payload.length = 10 ∧
        start config store tree {} false slot = .ok c₀ ∧
        Run c₀ [.read frame, .dispatch, .operate 1, .operate 1, .operate 1] c ∧
        (∃ p ∈ c.scene.session.outbound.waiting, p.request = .fileInfo ∧ p.payload.length = 14) ∧
        Run c [.send (.accept 1), .send (.accept 100)] c' ∧
        ((Frame.Reader.new config.maxPayload).feed c'.outgoing).fault = some (.oversized 14 10) := by
  intro config slot store tree
  let request : Packet := (Client.fileRequest 7 .dlc "a.txt" 1).toOption.get rfl
  let frame := request.header.encode ++ request.payload
  let c₀ : Connection := (start config store tree {} false slot).toOption.get rfl
  let asks : List Event := [.read frame, .dispatch, .operate 1, .operate 1, .operate 1]
  let sends : List Event := [.send (.accept 1), .send (.accept 100)]
  obtain ⟨c, hasked, hchecks⟩ := (Option.any_eq_true _ _).mp
    (show (c₀.run? asks).any (fun c =>
        c.scene.session.outbound.waiting.any (fun p =>
            decide (p.request = .fileInfo ∧ p.payload.length = 14)) &&
          (c.run? sends).any fun c' =>
            ((Frame.Reader.new config.maxPayload).feed c'.outgoing).fault == some (.oversized 14 10)) =
        true by decide +kernel)
  rw [Bool.and_eq_true, List.any_eq_true] at hchecks
  obtain ⟨⟨p, hp, hinfo⟩, hsends⟩ := hchecks
  obtain ⟨c', hsent, hfault⟩ := (Option.any_eq_true _ _).mp hsends
  exact ⟨rfl, (Slot.ready_new config).attach 1 none, request, frame, c₀, c, c', rfl, rfl, rfl, hasked,
    ⟨p, hp, of_decide_eq_true hinfo⟩, hsent, beq_iff_eq.mp hfault⟩

end Connection

end Depot
