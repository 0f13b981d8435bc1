import Depot.Connection.Basic
import Depot.Proofs.Connection.Sending
import Depot.Proofs.Frame.Stream
import Depot.Proofs.Switchboard.Dispatch

/-!
# What is written

Packets for the peer are taken from the outbound queue one after another, and each is written as a whole
before the next one is. After the end of the session the one in progress is completed, and then the
farewell is written, if there is one. So what was written and what is still unsent are together the frames
of packets that were `Spoken`, and behind them perhaps the farewell, as long as the socket does not fail
and the farewell is not too late.

## Key results

- `Sender.wrote_step?`: what a step of sending keeps
- `Sender.Wrote.stream`: what a peer reads when sending has stopped
-/

namespace Depot

/-- What a connection may say before its farewell: the replies of operations, and connection checks. -/
structure Packet.Spoken (p : Packet) : Prop where
  announced : p.header.size.toNat = p.payload.length
  speaks : p.request.isReply = true ∨ p.request = .connectionCheck

theorem Packet.Reply.spoken {operation : UInt8} {p : Packet} (h : p.Reply operation) : p.Spoken :=
  ⟨h.announced, .inl h.isReply⟩

theorem Packet.spoken_connectionCheck : Packet.connectionCheck.Spoken := ⟨rfl, .inr rfl⟩

/-- None of it reads as a suspend. -/
theorem Packet.Spoken.not_suspend {p : Packet} (h : p.Spoken) : p.canonical.request ≠ .suspend := by
  show RequestType.ofByte p.request.toByte ≠ .suspend
  rcases h.speaks with hreply | hcheck
  · cases hrequest : p.request <;> rw [hrequest] at hreply <;> first | decide | cases hreply
  · rw [hcheck]
    decide

namespace Connection

namespace Sender

/-- What may stand behind the packets that were spoken, and that nothing is unsent between two packets. -/
def Behind (s : Sender) (session : Session) (last : List Packet) : Prop :=
  match s.sending with
  | .idle => last = [] ∧ s.writer.unsent = []
  | .packet => last = []
  | .finishing _ farewell => last = [] ∧ session.live = false ∧ farewell = session.farewell
  | .parting _ => session.live = false ∧
      ∃ code, session.farewell = some code ∧ last = [.suspend code]
  | .stopped => session.live = false ∧ last = (session.farewell.map .suspend).toList ∧
      s.writer.unsent = []

/-- What was written and what is unsent, in terms of packets. -/
structure Wrote (s : Sender) (session : Session) (outgoing : List UInt8) : Prop where
  sound : s.writer.Sound
  frames : ∃ packets last, (∀ p ∈ packets, p.Spoken) ∧ s.Behind session last ∧
    Packet.encodeAll (packets ++ last) = .ok (outgoing ++ s.writer.unsent)

section

variable {s : Sender} {session session' : Session} {scene : Scene} {outgoing bytes : List UInt8}
  {writer : Frame.Writer} {answer : WriteAnswer} {linger : Duration} {now deadline : Liveness.Instant}
  {sent : Sent} {farewell : Option ErrorCode}

/-- What others do to a session does not touch it, as long as a farewell that was taken up stands. -/
theorem Wrote.congr (h : s.Wrote session outgoing)
    (hsession : session.live = false → session'.live = false ∧ session'.farewell = session.farewell) :
    s.Wrote session' outgoing := by
  obtain ⟨packets, last, hspoken, hbehind, hframes⟩ := h.frames
  refine ⟨h.sound, packets, last, hspoken, ?_, hframes⟩
  -- Only where sending has seen the end of the session does it depend on the session at all.
  unfold Behind at hbehind ⊢
  split at hbehind
  · exact hbehind
  · exact hbehind
  · obtain ⟨hlast, hlive, hfarewell⟩ := hbehind
    obtain ⟨hlive', hsame⟩ := hsession hlive
    exact ⟨hlast, hlive', hfarewell.trans hsame.symm⟩
  · obtain ⟨hlive, code, hcode, hlast⟩ := hbehind
    obtain ⟨hlive', hsame⟩ := hsession hlive
    exact ⟨hlive', code, hsame.trans hcode, hlast⟩
  · obtain ⟨hlive, hlast, hunsent⟩ := hbehind
    obtain ⟨hlive', hsame⟩ := hsession hlive
    exact ⟨hlive', by rw [hsame, hlast], hunsent⟩

/-- Whoever works for the peer leaves what was written as it is. -/
theorem Wrote.worked (h : s.Wrote session outgoing) (hworked : session.Worked session') :
    s.Wrote session' outgoing :=
  h.congr fun hdead => ⟨hworked.live.trans hdead, hworked.farewell⟩

/-- A write moves bytes from what is unsent to what was written. -/
private theorem append_write {packets : List Packet} (hw : s.writer.Sound)
    (hwrite : write s.writer answer = some (writer, bytes))
    (h : Packet.encodeAll packets = .ok (outgoing ++ s.writer.unsent)) :
    Packet.encodeAll packets = .ok (outgoing ++ bytes ++ writer.unsent) := by
  rw [h, List.append_assoc, (write_spec hw hwrite).2]

/-- When the packet in progress is complete the farewell follows, if there is one. -/
private theorem wrote_part {packets : List Packet} (hw : s.writer.Sound)
    (hunsent : s.writer.unsent = []) (hspoken : ∀ p ∈ packets, p.Spoken)
    (hlive : scene.session.live = false) (hfarewell : farewell = scene.session.farewell)
    (h : Packet.encodeAll packets = .ok outgoing) :
    (s.part deadline farewell scene).sender.Wrote scene.session outgoing := by
  -- Without a farewell nothing is left to be written, and otherwise its frame is all that is left.
  cases hcode : farewell with
  | none =>
    refine ⟨hw, packets, [], hspoken, ⟨hlive, by rw [← hfarewell, hcode]; rfl, hunsent⟩, ?_⟩
    rw [List.append_nil, h]
    show _ = Except.ok (outgoing ++ s.writer.unsent)
    rw [hunsent, List.append_nil]
  | some code =>
    obtain ⟨writer, hstage, hpart⟩ := exists_part s deadline code scene
    have hstaged := (Frame.Writer.unsent_of_stage hstage).1
    rw [hpart]
    refine ⟨Frame.Writer.sound_of_stage hw hstage, packets, [.suspend code], hspoken,
      ⟨hlive, code, by rw [← hfarewell, hcode], rfl⟩, ?_⟩
    have hlast : Packet.encodeAll [.suspend code] = .ok (writer.unsent ++ []) :=
      Packet.encodeAll_cons hstaged rfl
    rw [List.append_nil] at hlast
    exact Packet.encodeAll_append h hlast

/-- The packet that is taken stands behind the ones that were written as a whole. -/
private theorem wrote_stage {p : Packet} (h : s.Wrote session outgoing) (hsending : s.sending = .idle)
    (hp : p.Spoken) (hstage : s.writer.stage p = .ok writer) :
    Wrote { sending := .packet, writer } session outgoing := by
  obtain ⟨packets, last, hspoken, hbehind, hframes⟩ := h.frames
  rw [Behind, hsending] at hbehind
  obtain ⟨rfl, hunsent⟩ := hbehind
  rw [hunsent, List.append_nil, List.append_nil] at hframes
  have hstaged := (Frame.Writer.unsent_of_stage hstage).1
  have hnew : Packet.encodeAll [p] = .ok (writer.unsent ++ []) :=
    Packet.encodeAll_cons hstaged rfl
  refine ⟨Frame.Writer.sound_of_stage h.sound hstage, packets ++ [p], [], fun q hq => ?_, rfl, ?_⟩
  · rcases List.mem_append.mp hq with hq | hq
    · exact hspoken q hq
    · rw [List.mem_singleton.mp hq]
      exact hp
  · rw [List.append_nil] at hnew ⊢
    exact Packet.encodeAll_append hframes hnew

/-- The end of the session leaves what was written as it is. -/
private theorem wrote_close (h : s.Wrote scene.session outgoing)
    (hsending : s.sending = .idle ∨ s.sending = .packet) (hlive : scene.session.live = false) :
    (s.close linger now scene).sender.Wrote scene.session outgoing := by
  obtain ⟨packets, last, hspoken, hbehind, hframes⟩ := h.frames
  -- Neither between two packets nor within one is there a farewell yet.
  have hlast : last = [] := by
    rcases hsending with hsending | hsending
    · rw [Behind, hsending] at hbehind
      exact hbehind.1
    · rw [Behind, hsending] at hbehind
      exact hbehind
  exact ⟨h.sound, packets, last, hspoken, ⟨hlast, hlive, rfl⟩, hframes⟩

/-- A write within a frame leaves what stands behind it as it is. -/
private theorem wrote_write (h : s.Wrote session outgoing) (hbusy : s.sending ≠ .idle)
    (hgoing : s.sending ≠ .stopped) (hwrite : write s.writer answer = some (writer, bytes)) :
    Wrote { s with writer } session (outgoing ++ bytes) := by
  obtain ⟨packets, last, hspoken, hbehind, hframes⟩ := h.frames
  refine ⟨(write_spec h.sound hwrite).1, packets, last, hspoken, ?_, append_write h.sound hwrite hframes⟩
  unfold Behind at hbehind ⊢
  split at hbehind
  · next hidle => exact absurd hidle hbusy
  · next hpacket => simp only [hpacket, hbehind]
  · next hfinishing => simp only [hfinishing, hbehind, and_self]
  · next hparting => simp only [hparting, hbehind, true_and]
  · next hstopped => exact absurd hstopped hgoing

/-- A step of sending keeps what was written in order, if the socket does not fail and is in time. -/
theorem wrote_step? (h : s.Wrote scene.session outgoing)
    (hqueue : ∀ p ∈ scene.session.outbound.waiting, p.Spoken) (hanswer : answer.Works)
    (hintime : answer = .full → ∀ deadline, s.alarm? = some deadline → now < deadline)
    (hstep : s.step? linger now answer scene = some sent) :
    sent.sender.Wrote sent.scene.session (outgoing ++ sent.bytes) ∧
      ∀ p ∈ sent.scene.session.outbound.waiting, p.Spoken := by
  have hworks : write s.writer answer ≠ none := by
    obtain ⟨writer, bytes, hwrite⟩ := exists_write s.writer hanswer
    rw [hwrite]
    exact Option.some_ne_none _
  -- One case for each move. Some stage a packet, some write a part of one, and some only change what comes
  -- next.
  cases moves_of_step? hstep with
  | takes hsending _ htake hstage =>
    have hwaiting := Queue.waiting_tryReceive htake
    rw [List.append_nil]
    refine ⟨?_, fun q hq => hqueue q (by rw [hwaiting]; exact List.mem_cons_of_mem _ hq)⟩
    have hp := hqueue _ (by rw [hwaiting]; exact List.mem_cons_self)
    exact (wrote_stage h hsending hp hstage).congr fun hlive => ⟨hlive, rfl⟩
  | drops _ _ htake =>
    have hwaiting := Queue.waiting_tryReceive htake
    rw [List.append_nil]
    exact ⟨h.congr fun hlive => ⟨hlive, rfl⟩,
      fun q hq => hqueue q (by rw [hwaiting]; exact List.mem_cons_of_mem _ hq)⟩
  | closes hsending hdead =>
    show (s.close linger now scene).sender.Wrote scene.session (outgoing ++ []) ∧ _
    rw [List.append_nil]
    exact ⟨wrote_close h hsending hdead, hqueue⟩
  | writes hbusy hgoing _ hwrite => exact ⟨wrote_write h hbusy hgoing hwrite, hqueue⟩
  | completes hsending _ hwrite hidle =>
    obtain ⟨packets, last, hspoken, hbehind, hframes⟩ := h.frames
    rw [Behind, hsending] at hbehind
    exact ⟨⟨(write_spec h.sound hwrite).1, packets, last, hspoken,
      ⟨hbehind, Frame.Writer.unsent_eq_nil_of_isIdle hidle⟩, append_write h.sound hwrite hframes⟩,
      hqueue⟩
  | givesUp _ _ hwrite => exact absurd hwrite hworks
  | parts hsending hidle =>
    obtain ⟨packets, last, hspoken, hbehind, hframes⟩ := h.frames
    rw [Behind, hsending] at hbehind
    obtain ⟨rfl, hlive, hfarewell⟩ := hbehind
    have hunsent := Frame.Writer.unsent_eq_nil_of_isIdle hidle
    rw [hunsent, List.append_nil, List.append_nil] at hframes
    rw [scene_part, bytes_part, List.append_nil]
    exact ⟨wrote_part h.sound hunsent hspoken hlive hfarewell hframes, hqueue⟩
  | finishes hsending hwrite hidle =>
    obtain ⟨packets, last, hspoken, hbehind, hframes⟩ := h.frames
    rw [Behind, hsending] at hbehind
    obtain ⟨rfl, hlive, hfarewell⟩ := hbehind
    have hunsent := Frame.Writer.unsent_eq_nil_of_isIdle hidle
    have hmoved := append_write h.sound hwrite hframes
    rw [hunsent, List.append_nil, List.append_nil] at hmoved
    simp only [scene_part]
    exact ⟨wrote_part (write_spec h.sound hwrite).1 hunsent hspoken hlive hfarewell hmoved, hqueue⟩
  | parted hsending hwrite hidle =>
    obtain ⟨packets, last, hspoken, hbehind, hframes⟩ := h.frames
    rw [Behind, hsending] at hbehind
    obtain ⟨hlive, code, hcode, hlast⟩ := hbehind
    refine ⟨⟨(write_spec h.sound hwrite).1, packets, last, hspoken,
      ⟨hlive, ?_, Frame.Writer.unsent_eq_nil_of_isIdle hidle⟩, append_write h.sound hwrite hframes⟩,
      hqueue⟩
    rw [hlast]
    show _ = (scene.session.farewell.map Packet.suspend).toList
    rw [hcode]
    rfl
  | stops halarm _ hcause =>
    rcases hcause with hwrite | ⟨hfull, hlate⟩
    · exact absurd hwrite hworks
    · exact absurd (hintime hfull _ halarm) (Nat.not_lt.mpr hlate)

/-- When sending has stopped a peer that reads all of it reads what was spoken, and then the farewell. -/
theorem Wrote.stream (h : s.Wrote session outgoing) (hstopped : s.isStopped = true) :
    ∃ packets, (∀ p ∈ packets, p.request ≠ .suspend) ∧
      Frame.Stream maxAnnounced outgoing (packets ++ (session.farewell.map .suspend).toList) .clean := by
  obtain ⟨packets, last, hspoken, hbehind, hframes⟩ := h.frames
  simp only [isStopped, beq_iff_eq] at hstopped
  rw [Behind, hstopped] at hbehind
  obtain ⟨-, rfl, hunsent⟩ := hbehind
  rw [hunsent, List.append_nil] at hframes
  have hsuspend : (session.farewell.map Packet.suspend).toList.map Packet.canonical =
      (session.farewell.map Packet.suspend).toList := by
    cases session.farewell <;> rfl
  refine ⟨packets.map .canonical, fun p hp => ?_, ?_⟩
  · obtain ⟨q, hq, rfl⟩ := List.mem_map.mp hp
    exact (hspoken q hq).not_suspend
  · -- A peer reads packets in the form that their frames give them.
    rw [← hsuspend, ← List.map_append]
    rw [← Packet.encodeAll_canonical] at hframes
    refine Frame.Stream.of_packets (fun p hp => ?_) hframes
    obtain ⟨q, hq, rfl⟩ := List.mem_map.mp hp
    have hannounced : q.header.size.toNat = q.payload.length := by
      rcases List.mem_append.mp hq with hq | hq
      · exact (hspoken q hq).announced
      · -- A suspend announces its one byte.
        cases hcode : session.farewell with
        | none => rw [hcode] at hq; cases hq
        | some code =>
          rw [hcode] at hq
          rw [List.mem_singleton.mp hq]
          rfl
    have hformed := Packet.wellFormed_canonical hannounced
    exact ⟨hformed, hformed.length_le⟩

end

end Sender

end Connection

end Depot
