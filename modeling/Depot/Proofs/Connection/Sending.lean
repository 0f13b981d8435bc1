import Depot.Proofs.Connection.Moves
import Depot.Proofs.Operation.Steps

/-!
# Sending step by step

As long as the socket does not fail, sending changes the session only as operations may, and the writer
stays sound. After the end of the session there is always something to do until sending has stopped;
`Sender.toGo` counts how much.

## Key results

- `step?_spec`: what a step does if the socket does not fail
- `toGo_step?_lt`: after the end of the session every step comes nearer to the end of sending
- `exists_step?`: and as long as sending has not stopped there is one
-/

namespace Depot.Connection.Sender

/-- What a step does to the session, and that the writer is sound behind it. -/
structure Spec (scene : Scene) (sent : Sent) : Prop where
  worked : scene.Worked sent.scene
  sound : sent.sender.writer.Sound

/-- A socket that takes part has no session suspended. -/
theorem Moves.worked {s : Sender} {linger : Duration} {now : Liveness.Instant} {answer : WriteAnswer}
    {scene : Scene} {sent : Sent} (h : Moves linger now answer s scene sent)
    (hanswer : answer.Works) : scene.Worked sent.scene := by
  cases h with
  | takes => exact ⟨_, _, rfl⟩
  | drops => exact ⟨_, _, rfl⟩
  | completes => exact .count scene _
  | givesUp _ _ hwrite =>
    obtain ⟨writer, bytes, hwritten⟩ := exists_write s.writer hanswer
    rw [hwrite] at hwritten
    cases hwritten
  | parts =>
    rw [scene_part]
    exact .refl scene
  | finishes =>
    show scene.Worked (part _ _ _ scene).scene
    rw [scene_part]
    exact .refl scene
  | parted => exact .count scene _
  | _ => exact .refl scene

/-- What a step of sending does to the session, and that the writer stays in order. -/
theorem step?_spec {s : Sender} {linger : Duration} {now : Liveness.Instant} {answer : WriteAnswer}
    {scene : Scene} {sent : Sent} (hw : s.writer.Sound) (hanswer : answer.Works)
    (h : s.step? linger now answer scene = some sent) : Spec scene sent :=
  ⟨(moves_of_step? h).worked hanswer, (moves_of_step? h).sound hw⟩

/-- The bytes that are written and the steps that are taken before sending stops, at most. A farewell is
a header and one byte. -/
def toGo (s : Sender) : Nat :=
  match s.sending with
  | .idle | .packet => s.writer.unsent.length + Header.length + 4
  | .finishing _ _ => s.writer.unsent.length + Header.length + 3
  | .parting _ => s.writer.unsent.length + 1
  | .stopped => 0

/-- A farewell is a header and two bytes at most, so there are so many steps to go at most. -/
private theorem toGo_part_le (s : Sender) (deadline : Liveness.Instant) (farewell : Option ErrorCode)
    (scene : Scene) : (s.part deadline farewell scene).sender.toGo ≤ Header.length + 2 := by
  unfold part
  split
  · next hstage =>
    obtain ⟨code, -, hstage⟩ := Option.map_eq_some_iff.mp hstage
    have hframe := (Frame.Writer.unsent_of_stage hstage).1
    have hpayload : (Packet.suspend code).payload.length ≤ maxAnnounced := by
      show 1 ≤ maxAnnounced
      decide
    rw [Packet.encode_of_le hpayload] at hframe
    simp only [toGo, ← Except.ok.inj hframe, List.length_append, Header.length_encode]
    exact Nat.le_refl _
  · exact Nat.zero_le _

/-- Taking up the end of the session is a step on the way to the end of sending. -/
private theorem toGo_close_lt {s : Sender} (linger : Duration) (now : Liveness.Instant) (scene : Scene)
    (h : s.sending = .idle ∨ s.sending = .packet) :
    (s.close linger now scene).sender.toGo < s.toGo := by
  rcases h with h | h
  all_goals
    simp only [close, toGo, h]
    omega

/-- A write that does not complete the frame leaves less of it to write. -/
private theorem unsent_lt_of_write {w w' : Frame.Writer} {answer : WriteAnswer} {bytes : List UInt8}
    (hw : w.Sound) (hanswer : answer.Works) (hfull : answer ≠ .full)
    (hwrite : write w answer = some (w', bytes)) (hleft : w'.isIdle = false) :
    w'.unsent.length < w.unsent.length := by
  obtain ⟨hw', hbytes⟩ := write_spec hw hwrite
  -- A writer that is busy behind the write was busy before it, so a byte was taken.
  have hbefore : w.isIdle = false := by
    refine Bool.eq_false_iff.mpr fun hidle => Bool.eq_false_iff.mp hleft ?_
    rw [Frame.Writer.unsent_eq_nil_of_isIdle hidle] at hbytes
    exact (Frame.Writer.isIdle_iff hw').mpr (List.append_eq_nil_iff.mp hbytes).2
  have hpos := List.length_pos_iff.mpr (write_ne_nil hw hbefore hanswer hfull hwrite)
  rw [← hbytes, List.length_append]
  omega

/-- After the end of the session every step of sending comes nearer to its own end. -/
theorem toGo_step?_lt {s : Sender} {linger : Duration} {now : Liveness.Instant} {answer : WriteAnswer}
    {scene : Scene} {sent : Sent} (hw : s.writer.Sound) (hanswer : answer.Works)
    (hover : scene.session.live = false) (h : s.step? linger now answer scene = some sent) :
    sent.sender.toGo < s.toGo := by
  have hdead (hlive : scene.session.live = true) : False := by
    rw [hover] at hlive
    cases hlive
  cases moves_of_step? h with
  | takes _ hlive => exact (hdead hlive).elim
  | drops _ hlive => exact (hdead hlive).elim
  | completes _ hlive => exact (hdead hlive).elim
  | givesUp _ hlive => exact (hdead hlive).elim
  | closes hsending => exact toGo_close_lt linger now scene hsending
  | writes hbusy hgoing hfull hwrite hleft =>
    have hlt := unsent_lt_of_write hw hanswer hfull hwrite hleft
    cases hsending : s.sending with
    | idle => exact absurd hsending hbusy
    | stopped => exact absurd hsending hgoing
    | _ =>
      simp only [toGo, hsending]
      omega
  | parts hsending =>
    -- The packet in progress is complete, and the farewell is shorter than what is kept for it.
    refine Nat.lt_of_le_of_lt (toGo_part_le s _ _ scene) ?_
    simp only [toGo, hsending]
    omega
  | finishes hsending =>
    refine Nat.lt_of_le_of_lt (toGo_part_le _ _ _ scene) ?_
    simp only [toGo, hsending]
    omega
  | parted hsending =>
    simp only [toGo, hsending]
    omega
  | stops halarm =>
    unfold alarm? at halarm
    unfold toGo
    split at halarm
    · next hsending =>
      simp only [hsending]
      omega
    · next hsending =>
      simp only [hsending]
      omega
    · cases halarm

/-- After the end of the session sending goes on until it has stopped, if the socket takes a byte. -/
theorem exists_step? {s : Sender} (linger : Duration) (now : Liveness.Instant) {scene : Scene}
    (hover : scene.session.live = false) (hstopped : s.isStopped = false) :
    ∃ sent, s.step? linger now (.accept 1) scene = some sent := by
  -- A socket that takes a byte is all that is needed, whatever there is to be written.
  obtain ⟨w, bytes, hwrite⟩ := exists_write s.writer (WriteAnswer.works_accept 0)
  have hlast (deadline : Liveness.Instant) (complete : Sender → Sent) :
      ∃ sent, s.writeLast? deadline now (.accept 1) scene complete = some sent := by
    simp only [writeLast?, reduceCtorEq, ↓reduceIte, hwrite]
    split
    · exact ⟨_, rfl⟩
    · exact ⟨_, rfl⟩
  unfold step?
  split
  · next hsending =>
    rw [isStopped, hsending] at hstopped
    cases hstopped
  · rw [hover]
    exact ⟨_, rfl⟩
  · rw [hover]
    exact ⟨_, rfl⟩
  · split
    · exact ⟨_, rfl⟩
    · exact hlast _ _
  · exact hlast _ _

end Depot.Connection.Sender
