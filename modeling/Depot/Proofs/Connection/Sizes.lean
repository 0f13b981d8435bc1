import Depot.Proofs.Connection.Moves
import Depot.Proofs.Connection.Steps

/-!
# What stays of a slot

Whatever is read and written through a slot, the longest payload that its reader takes and the longest
slice that its writer offers are those that it was made with.

## Key results

- `Frame.Reader.maxPayload_feed`, `Frame.Writer.chunk_stage`, `Frame.Writer.chunk_advance`
- `Connection.sizes_step`: the same of every step of a connection
-/

namespace Depot

namespace Frame

/-- A part that is complete leaves the limit of the reader alone. -/
theorem Reader.maxPayload_complete {r next : Reader} {packet : Option Packet}
    (h : r.complete = .ok (packet, next)) : next.maxPayload = r.maxPayload := by
  unfold complete at h
  split at h
  · cases h
    rfl
  · split at h
    · cases h
    · split at h
      · cases h
      · split at h
        · cases h
          rfl
        · cases h
          rfl

/-- Taking in a chunk leaves the limit as it is. -/
theorem Reader.maxPayload_feed (r : Reader) (chunk : List UInt8) :
    (r.feed chunk).reader.maxPayload = r.maxPayload := by
  fun_induction r.feed chunk with
  | case1 => rfl
  | case2 r b rest taken r' hfull fault hcomplete => rfl
  | case3 r b rest taken r' hfull packet next hcomplete intake ih =>
    have hkept : next.maxPayload = r'.maxPayload := maxPayload_complete hcomplete
    exact ih.trans hkept
  | case4 r b rest taken r' hshort ih => exact ih

/-- What is staged leaves the length of slices alone. -/
theorem Writer.chunk_stage {w w' : Writer} {p : Packet} (h : w.stage p = .ok w') :
    w'.chunk = w.chunk := by
  unfold stage at h
  cases hframe : p.encode with
  | error fault =>
    rw [hframe] at h
    cases h
  | ok frame =>
    rw [hframe] at h
    cases h
    rfl

/-- What is written leaves the length of slices alone. -/
theorem Writer.chunk_advance (w : Writer) (count : Nat) : (w.advance count).chunk = w.chunk := by
  unfold advance
  simp only
  split <;> rfl

end Frame

namespace Connection

/-- A write leaves the length of slices as it is. -/
theorem Sender.chunk_write {w w' : Frame.Writer} {answer : WriteAnswer} {bytes : List UInt8}
    (h : write w answer = some (w', bytes)) : w'.chunk = w.chunk := by
  unfold write at h
  split at h
  · cases h
  · cases h
    exact w.chunk_advance _
  · cases h
    rfl
  · cases h

/-- A farewell leaves the length of slices alone. -/
private theorem Sender.chunk_part (deadline : Liveness.Instant) (farewell : Option ErrorCode)
    (s : Sender) (scene : Scene) :
    (s.part deadline farewell scene).sender.writer.chunk = s.writer.chunk := by
  unfold part
  split
  · next hstage =>
    obtain ⟨code, -, hstage⟩ := Option.map_eq_some_iff.mp hstage
    exact Frame.Writer.chunk_stage hstage
  · rfl

/-- A step of sending leaves the length of slices as it is. -/
theorem Sender.chunk_step? {s : Sender} {linger : Duration} {now : Liveness.Instant}
    {answer : WriteAnswer} {scene : Scene} {sent : Sent}
    (h : s.step? linger now answer scene = some sent) :
    sent.sender.writer.chunk = s.writer.chunk := by
  cases moves_of_step? h with
  | takes _ _ _ hstage => exact Frame.Writer.chunk_stage hstage
  | writes _ _ _ hwrite => exact chunk_write hwrite
  | completes _ _ hwrite => exact chunk_write hwrite
  | parts => exact chunk_part _ _ s scene
  | finishes _ hwrite => exact (chunk_part _ _ _ scene).trans (chunk_write hwrite)
  | parted _ hwrite => exact chunk_write hwrite
  | _ => rfl

/-- The longest payload that is read and the longest slice that is written. -/
def sizes (c : Connection) : Nat × Nat := (c.reader.maxPayload, c.sender.writer.chunk)

/-- No step of a connection changes its sizes. -/
theorem sizes_step {c c' : Connection} {e : Event} (h : c.step? e = some c') : c'.sizes = c.sizes := by
  cases steps_of_step? h with
  | @read chunk =>
    exact congrArg (Prod.mk · c.sender.writer.chunk) (c.reader.maxPayload_feed chunk)
  | @dispatch p _ =>
    rcases c.board.dispatch p c.attended with ⟨flow, board, scene⟩
    cases flow <;> rfl
  | send hsent => exact congrArg (Prod.mk c.reader.maxPayload) (Sender.chunk_step? hsent)
  | _ => rfl

end Connection

end Depot
