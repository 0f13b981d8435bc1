import Depot.Connection.Sending
import Depot.Proofs.Frame.Progress
import Depot.Proofs.Packet.Frames

/-!
# The moves of sending

`Sender.step?` is a tree of cases: what is being sent, whether the session lives, whether a frame is in
progress, what the socket does. `Sender.Moves` lists its leaves, each with what led there and with the
whole of what comes of it, so that an invariant of sending is a proof with one case for each move.

## Key results

- `write_spec`: what a write takes is the beginning of what is unsent
- `moves_of_step?`: what a step of sending can do
- `Moves.sound`: every move keeps the writer sound
- `Moves.ends`: no move ends the session or asks for a farewell
-/

namespace Depot.Connection

/-- Whether the socket takes part: it takes something, or nothing yet. -/
def WriteAnswer.Works (answer : WriteAnswer) : Prop := answer ≠ .fail ∧ answer ≠ .accept 0

theorem WriteAnswer.works_accept (count : Nat) : (accept (count + 1)).Works :=
  ⟨by simp, by simp⟩

/-- The frames of a suspend have room for its code. -/
theorem exists_encode_suspend (code : ErrorCode) :
    ∃ frame, (Packet.suspend code).encode = .ok frame :=
  ⟨_, Packet.encode_of_le (show 1 ≤ maxAnnounced by decide)⟩

namespace Sender

/-- What a write takes is the beginning of what is unsent. -/
theorem write_spec {w w' : Frame.Writer} {answer : WriteAnswer} {bytes : List UInt8} (hw : w.Sound)
    (h : write w answer = some (w', bytes)) : w'.Sound ∧ bytes ++ w'.unsent = w.unsent := by
  unfold write at h
  split at h
  · cases h
  · next count _ =>
    cases h
    -- The socket may be ready for more than the slice that it is offered.
    have hlength : (w.slice.take count).length ≤ w.slice.length := by
      rw [List.length_take]
      exact Nat.min_le_right _ _
    have htaken : w.slice.take count = w.unsent.take (w.slice.take count).length := by
      rw [← Frame.Writer.take_slice hlength, List.length_take, ← List.take_eq_take_min]
    refine ⟨Frame.Writer.sound_advance hw (Nat.le_trans hlength w.length_slice_le), ?_⟩
    rw [Frame.Writer.unsent_advance]
    conv => lhs; lhs; rw [htaken]
    exact List.take_append_drop _ _
  · cases h
    exact ⟨hw, List.nil_append _⟩
  · cases h

/-- A socket that takes part lets every write succeed. -/
theorem exists_write (w : Frame.Writer) {answer : WriteAnswer} (h : answer.Works) :
    ∃ w' bytes, write w answer = some (w', bytes) := by
  unfold write
  split
  · exact absurd rfl h.2
  · exact ⟨_, _, rfl⟩
  · exact ⟨_, _, rfl⟩
  · exact absurd rfl h.1

/-- A write of a frame takes a byte of it, unless the socket takes nothing yet. -/
theorem write_ne_nil {w w' : Frame.Writer} {answer : WriteAnswer} {bytes : List UInt8} (hw : w.Sound)
    (hbusy : w.isIdle = false) (hanswer : answer.Works) (hfull : answer ≠ .full)
    (h : write w answer = some (w', bytes)) : bytes ≠ [] := by
  -- Of a slice that is not empty at least the first byte is taken.
  cases answer with
  | full => exact absurd rfl hfull
  | fail => exact absurd rfl hanswer.1
  | accept count =>
    cases count with
    | zero => exact absurd rfl hanswer.2
    | succ count =>
      cases h
      rw [Ne, List.take_eq_nil_iff, not_or]
      exact ⟨Nat.succ_ne_zero count, Frame.Writer.slice_ne_nil hw hbusy⟩

/-- Going on to the farewell leaves the scene alone. -/
theorem scene_part (s : Sender) (deadline : Liveness.Instant) (farewell : Option ErrorCode)
    (scene : Scene) : (s.part deadline farewell scene).scene = scene := by
  unfold part
  split <;> rfl

/-- To part is to stage a farewell, if there is one. Nothing is written yet. -/
theorem bytes_part (s : Sender) (deadline : Liveness.Instant) (farewell : Option ErrorCode)
    (scene : Scene) : (s.part deadline farewell scene).bytes = [] := by
  unfold part
  split <;> rfl

/-- The writer is in order when the farewell has been staged. -/
theorem sound_part {s : Sender} {deadline : Liveness.Instant} {farewell : Option ErrorCode}
    {scene : Scene} (hw : s.writer.Sound) :
    (s.part deadline farewell scene).sender.writer.Sound := by
  unfold part
  split
  · next hstage =>
    obtain ⟨code, -, hstage⟩ := Option.map_eq_some_iff.mp hstage
    exact Frame.Writer.sound_of_stage hw hstage
  · exact hw

/-- There is always a frame for a farewell that was asked for. -/
theorem exists_part (s : Sender) (deadline : Liveness.Instant) (code : ErrorCode) (scene : Scene) :
    ∃ writer, s.writer.stage (.suspend code) = .ok writer ∧
      s.part deadline (some code) scene =
        { sender := { sending := .parting deadline, writer }, scene } := by
  obtain ⟨frame, hframe⟩ := exists_encode_suspend code
  obtain ⟨writer, hstage⟩ := Frame.Writer.exists_stage (w := s.writer) hframe
  exact ⟨writer, hstage, by simp only [part, Option.map_some, hstage]⟩

/-- What a step of sending can do. -/
inductive Moves (linger : Duration) (now : Liveness.Instant) (answer : WriteAnswer) (s : Sender)
    (scene : Scene) : Sent → Prop
  /-- The next packet of the queue is the one in progress. -/
  | takes {p : Packet} {outbound : Queue Packet} {writer : Frame.Writer} (hsending : s.sending = .idle)
      (hlive : scene.session.live = true)
      (htake : scene.session.outbound.tryReceive = some (p, outbound))
      (hstage : s.writer.stage p = .ok writer) :
      Moves linger now answer s scene
        { sender := { sending := .packet, writer }
          scene := { scene with session := { scene.session with outbound } } }
  /-- The next packet of the queue has no frame. -/
  | drops {p : Packet} {outbound : Queue Packet} {fault : Frame.Fault} (hsending : s.sending = .idle)
      (hlive : scene.session.live = true)
      (htake : scene.session.outbound.tryReceive = some (p, outbound))
      (hstage : s.writer.stage p = .error fault) :
      Moves linger now answer s scene
        { sender := s, scene := { scene with session := { scene.session with outbound } } }
  /-- The end of the session is taken up. -/
  | closes (hsending : s.sending = .idle ∨ s.sending = .packet) (hdead : scene.session.live = false) :
      Moves linger now answer s scene (s.close linger now scene)
  /-- A part of the frame in progress is written. -/
  | writes {writer : Frame.Writer} {bytes : List UInt8} (hbusy : s.sending ≠ .idle)
      (hgoing : s.sending ≠ .stopped) (hfull : answer ≠ .full)
      (hwrite : write s.writer answer = some (writer, bytes)) (hleft : writer.isIdle = false) :
      Moves linger now answer s scene { sender := { s with writer }, scene, bytes }
  /-- The last part of a packet of the queue is written. -/
  | completes {writer : Frame.Writer} {bytes : List UInt8} (hsending : s.sending = .packet)
      (hlive : scene.session.live = true) (hwrite : write s.writer answer = some (writer, bytes))
      (hidle : writer.isIdle = true) :
      Moves linger now answer s scene
        { sender := { sending := .idle, writer }, scene := scene.count (.frames .outbound), bytes }
  /-- The socket fails. -/
  | givesUp (hsending : s.sending = .packet) (hlive : scene.session.live = true)
      (hwrite : write s.writer answer = none) : Moves linger now answer s scene (s.giveUp scene)
  /-- After the end of the session, no packet is in progress. -/
  | parts {deadline : Liveness.Instant} {farewell : Option ErrorCode}
      (hsending : s.sending = .finishing deadline farewell) (hidle : s.writer.isIdle = true) :
      Moves linger now answer s scene (s.part deadline farewell scene)
  /-- After the end of the session, the last part of the packet in progress is written. -/
  | finishes {deadline : Liveness.Instant} {farewell : Option ErrorCode} {writer : Frame.Writer}
      {bytes : List UInt8} (hsending : s.sending = .finishing deadline farewell)
      (hwrite : write s.writer answer = some (writer, bytes)) (hidle : writer.isIdle = true) :
      Moves linger now answer s scene { part deadline farewell { s with writer } scene with bytes }
  /-- The last part of the farewell is written. -/
  | parted {deadline : Liveness.Instant} {writer : Frame.Writer} {bytes : List UInt8}
      (hsending : s.sending = .parting deadline)
      (hwrite : write s.writer answer = some (writer, bytes)) (hidle : writer.isIdle = true) :
      Moves linger now answer s scene
        { sender := { sending := .stopped, writer }, scene := scene.count (.frames .outbound), bytes }
  /-- The socket fails after the end of the session, or is late. -/
  | stops {deadline : Liveness.Instant} (halarm : s.alarm? = some deadline)
      (hbusy : ∀ farewell, s.sending = .finishing deadline farewell → s.writer.isIdle = false)
      (hcause : write s.writer answer = none ∨ answer = .full ∧ deadline ≤ now) :
      Moves linger now answer s scene { sender := { s with sending := .stopped }, scene }

section

variable {linger : Duration} {now deadline : Liveness.Instant} {answer : WriteAnswer} {s : Sender}
  {scene : Scene} {sent : Sent}

/-- What is taken up from the queue is staged, or dropped if it cannot be. -/
private theorem moves_of_takeUp? (hsending : s.sending = .idle) (hlive : scene.session.live = true)
    (h : s.takeUp? scene = some sent) : Moves linger now answer s scene sent := by
  -- The queue is looked at first. A packet whose payload cannot be announced has no frame to stage.
  unfold takeUp? at h
  split at h
  · cases h
  · next p outbound htake =>
    simp only at h
    split at h
    · next hstage =>
      cases h
      exact .drops hsending hlive htake hstage
    · next hstage =>
      cases h
      exact .takes hsending hlive htake hstage

/-- A write of a packet completes it, or does not, or ends sending. -/
private theorem moves_of_writePacket? (hsending : s.sending = .packet)
    (hlive : scene.session.live = true) (h : s.writePacket? answer scene = some sent) :
    Moves linger now answer s scene sent := by
  -- A full socket is waited for, one that fails ends sending, and any other takes a part of the frame.
  unfold writePacket? at h
  split at h
  · cases h
  · next hfull =>
    split at h
    · next hwrite =>
      cases h
      exact .givesUp hsending hlive hwrite
    · next hwrite =>
      split at h
      · next hidle =>
        cases h
        exact .completes hsending hlive hwrite hidle
      · next hleft =>
        cases h
        exact .writes (by simp [hsending]) (by simp [hsending]) hfull hwrite (by simpa using hleft)

/-- After the end of the session, a step of writing stops or comes nearer to the end of a frame. -/
private theorem writeLast?_leaves {complete : Sender → Sent}
    (h : s.writeLast? deadline now answer scene complete = some sent) :
    ((write s.writer answer = none ∨ answer = .full ∧ deadline ≤ now) ∧
        sent = { sender := { s with sending := .stopped }, scene }) ∨
      ∃ writer bytes, write s.writer answer = some (writer, bytes) ∧
        (writer.isIdle = true ∧ sent = { complete { s with writer } with bytes } ∨
          answer ≠ .full ∧ writer.isIdle = false ∧
            sent = { sender := { s with writer }, scene, bytes }) := by
  unfold writeLast? at h
  split at h
  · next hfull =>
    split at h
    · next hlate =>
      cases h
      exact .inl ⟨.inr ⟨hfull, hlate⟩, rfl⟩
    · cases h
  · next hfull =>
    split at h
    · next hwrite =>
      cases h
      exact .inl ⟨.inl hwrite, rfl⟩
    · next writer bytes hwrite =>
      simp only at h
      split at h
      · next hidle =>
        cases h
        exact .inr ⟨writer, bytes, hwrite, .inl ⟨hidle, rfl⟩⟩
      · next hleft =>
        cases h
        exact .inr ⟨writer, bytes, hwrite, .inr ⟨hfull, by simpa using hleft, rfl⟩⟩

/-- Every step of sending is one of the moves. -/
theorem moves_of_step? (h : s.step? linger now answer scene = some sent) :
    Moves linger now answer s scene sent := by
  -- One case for each thing that sending may be about, with the lemmas above for what it does there.
  cases hsending : s.sending with
  | stopped =>
    simp only [step?, hsending] at h
    cases h
  | idle =>
    simp only [step?, hsending] at h
    split at h
    · next hlive => exact moves_of_takeUp? hsending hlive h
    · next hdead =>
      cases h
      exact .closes (.inl hsending) (by simpa using hdead)
  | packet =>
    simp only [step?, hsending] at h
    split at h
    · next hlive => exact moves_of_writePacket? hsending hlive h
    · next hdead =>
      cases h
      exact .closes (.inr hsending) (by simpa using hdead)
  | finishing deadline farewell =>
    simp only [step?, hsending] at h
    split at h
    · next hidle =>
      cases h
      exact .parts hsending hidle
    · next hbusy =>
      rcases writeLast?_leaves h with
        ⟨hcause, rfl⟩ | ⟨writer, bytes, hwrite, ⟨hidle, rfl⟩ | ⟨hfull, hleft, rfl⟩⟩
      · exact .stops (by rw [alarm?, hsending]) (fun _ _ => by simpa using hbusy) hcause
      · exact .finishes hsending hwrite hidle
      · exact .writes (by simp [hsending]) (by simp [hsending]) hfull hwrite hleft
  | parting deadline =>
    simp only [step?, hsending] at h
    rcases writeLast?_leaves h with
      ⟨hcause, rfl⟩ | ⟨writer, bytes, hwrite, ⟨hidle, rfl⟩ | ⟨hfull, hleft, rfl⟩⟩
    · refine .stops (by rw [alarm?, hsending]) (fun _ hfinishing => ?_) hcause
      rw [hsending] at hfinishing
      cases hfinishing
    · exact .parted hsending hwrite hidle
    · exact .writes (by simp [hsending]) (by simp [hsending]) hfull hwrite hleft

/-- No move leaves the writer in disorder. -/
theorem Moves.sound (h : Moves linger now answer s scene sent) (hw : s.writer.Sound) :
    sent.sender.writer.Sound := by
  cases h with
  | takes _ _ _ hstage => exact Frame.Writer.sound_of_stage hw hstage
  | writes _ _ _ hwrite => exact (write_spec hw hwrite).1
  | completes _ _ hwrite => exact (write_spec hw hwrite).1
  | parts => exact sound_part hw
  | finishes _ hwrite => exact sound_part (write_spec hw hwrite).1
  | parted _ hwrite => exact (write_spec hw hwrite).1
  | _ => exact hw

/-- Sending neither ends the session nor asks for a farewell. -/
theorem Moves.ends (h : Moves linger now answer s scene sent) :
    sent.scene.session.live = scene.session.live ∧
      sent.scene.session.farewell = scene.session.farewell := by
  cases h with
  | parts => exact ⟨by rw [scene_part], by rw [scene_part]⟩
  | finishes =>
    show (part _ _ _ scene).scene.session.live = _ ∧ (part _ _ _ scene).scene.session.farewell = _
    rw [scene_part]
    exact ⟨rfl, rfl⟩
  | _ => exact ⟨rfl, rfl⟩

end

end Sender

end Depot.Connection
