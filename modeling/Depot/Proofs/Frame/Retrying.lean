import Depot.Proofs.Frame.RoundTrip

/-!
# Writing to a sink that refuses

A sink may take less than it is offered, take nothing at all, or fail, and whoever has a frame to write
may try again as often as they like: write by write, or with a flush. All of that leaves the frame in one
piece. What the sink took is a beginning of the frame, and what it is offered next is what follows.

## Key results

- `writes_write`: what one write comes to
- `writeAll_eq_of_le`: a flush is over after as many writes as there are unsent bytes
- `Underway.attemptAll`: what attempts leave of a frame on its way
- `delivered_under_retries`: a frame arrives in order and only once, however often it is tried
-/

namespace Depot.Frame

/-- The number of bytes that a sink took in some writes. -/
def Call.total (calls : List Call) : Nat := calls.foldl (fun n call => n + call.accepted.getD 0) 0

theorem Call.total_append_singleton (calls : List Call) (call : Call) :
    Call.total (calls ++ [call]) = Call.total calls + call.accepted.getD 0 := by
  simp [Call.total]

namespace Writer

/-! ### One write -/

/-- What one write comes to. -/
inductive Writes (w : Writer) (sink : Sink) : Except StreamError Nat × Writer × Sink → Prop
  /-- There is nothing to write. -/
  | idle (hidle : w.isIdle = true) : Writes w sink (.ok 0, w, sink)
  /-- The sink failed, or took nothing of the slice. -/
  | refused {e : StreamError} {call : Call} {sink' : Sink} (hbusy : w.isIdle = false)
      (hoffered : call.offered = w.slice.length) (haccepted : call.accepted.getD 0 = 0)
      (hcalls : sink'.calls = sink.calls ++ [call]) (hwritten : sink'.written = sink.written) :
      Writes w sink (.error e, w, sink')
  /-- The sink took some bytes from the beginning of the slice. -/
  | taken {count : Nat} {sink' : Sink} (hbusy : w.isIdle = false) (hpos : 0 < count)
      (hle : count ≤ w.slice.length)
      (hcalls : sink'.calls = sink.calls ++ [⟨w.slice.length, some count⟩])
      (hwritten : sink'.written = sink.written ++ w.slice.take count) :
      Writes w sink (.ok count, w.advance count, sink')

/-- A write finds nothing to write, is refused, or gets rid of the first bytes of its slice. -/
theorem writes_write (w : Writer) (sink : Sink) : Writes w sink (w.write sink) := by
  cases hidle : w.isIdle with
  | true =>
    rw [write, if_pos hidle]
    exact .idle hidle
  | false =>
    rw [write, if_neg (by simp [hidle]), Sink.write]
    cases hreply : sink.reply w.slice.length with
    | fail => exact .refused hidle rfl rfl rfl rfl
    | accept offer =>
      simp only
      generalize hcount : min offer w.slice.length = count
      have hle : count ≤ w.slice.length := by omega
      cases count with
      | zero =>
        -- A write that takes nothing is an error of its own.
        exact .refused hidle rfl rfl rfl (by simp)
      | succ count => exact .taken hidle (Nat.succ_pos count) hle rfl rfl

/-- A sink that fails or takes nothing leaves everything as it was. -/
theorem write_of_refusal {w : Writer} {sink : Sink} {reply : Reply} (h : sink.plan.head? = some reply)
    (hreply : reply = .fail ∨ reply = .accept 0) :
    (w.write sink).2.1 = w ∧ (w.write sink).2.2.written = sink.written := by
  have hnext : sink.reply w.slice.length = reply := by
    rw [Sink.reply, List.headD_eq_head?_getD, h]
    rfl
  cases hidle : w.isIdle with
  | true => simp [write, hidle]
  | false =>
    rcases hreply with rfl | rfl
    · simp [write, Sink.write, hidle, hnext]
    · simp [write, Sink.write, hidle, hnext]

/-! ### Flushing -/

/-- Where there is nothing to write a flush calls nobody, however many rounds it has. -/
theorem writeAll_of_isIdle {w : Writer} (h : w.isIdle = true) (sink : Sink) (rounds : Nat) :
    w.writeAll sink rounds = (.ok (), w, sink) := by
  cases rounds with
  | zero => rfl
  | succ rounds => rw [writeAll, if_pos h]

/-- Nothing unsent, nothing to write. -/
theorem isIdle_of_remaining {w : Writer} (hw : w.Sound) (h : w.remaining = 0) : w.isIdle = true := by
  rw [isIdle_iff hw]
  apply List.length_eq_zero_iff.mp
  rw [length_unsent, h]

/-- After a write that took something there is less to write. -/
theorem remaining_advance {w : Writer} {count : Nat} (hpos : 0 < count) (hle : count ≤ w.slice.length) :
    (w.advance count).remaining < w.remaining := by
  have hslice := length_slice_le w
  rw [← length_unsent, ← length_unsent, unsent_advance, List.length_drop]
  omega

/-- A flush is over after as many writes as there are unsent bytes: each takes a byte, or is the last. -/
theorem writeAll_eq_of_le {w : Writer} (hw : w.Sound) (sink : Sink) {m n : Nat} (hm : w.remaining ≤ m)
    (hn : w.remaining ≤ n) : w.writeAll sink m = w.writeAll sink n := by
  -- Both have a round to go as long as there is something to write, so the two go on side by side.
  induction m generalizing w sink n with
  | zero =>
    have hidle := isIdle_of_remaining hw (by omega)
    rw [writeAll_of_isIdle hidle, writeAll_of_isIdle hidle]
  | succ m ih =>
    cases n with
    | zero =>
      have hidle := isIdle_of_remaining hw (by omega)
      rw [writeAll_of_isIdle hidle, writeAll_of_isIdle hidle]
    | succ n =>
      have hwrite := writes_write w sink
      rw [writeAll, writeAll]
      generalize w.write sink = result at hwrite ⊢
      cases hwrite with
      | idle hidle => rw [if_pos hidle, if_pos hidle]
      | refused hbusy => rfl
      | taken hbusy hpos hle =>
        have hless := remaining_advance hpos hle
        have hsound := sound_advance hw (Nat.le_trans hle (length_slice_le w))
        simp only [hbusy, Bool.false_eq_true, ↓reduceIte]
        exact ih hsound _ (by omega) (by omega)

/-- A flush that fails nowhere writes all that there is. -/
theorem isIdle_of_writeAll {w : Writer} (hw : w.Sound) (sink : Sink) {rounds : Nat}
    (hrounds : w.remaining ≤ rounds) (h : (w.writeAll sink rounds).1 = .ok ()) :
    (w.writeAll sink rounds).2.1.isIdle = true := by
  -- Every round takes a byte, so the rounds cannot run out before the bytes do.
  induction rounds generalizing w sink with
  | zero => exact isIdle_of_remaining hw (Nat.le_zero.mp hrounds)
  | succ rounds ih =>
    have hwrite := writes_write w sink
    rw [writeAll] at h ⊢
    generalize w.write sink = result at hwrite h ⊢
    cases hwrite with
    | idle hidle =>
      rw [if_pos hidle]
      exact hidle
    | refused hbusy =>
      simp only [hbusy, Bool.false_eq_true, ↓reduceIte] at h
      cases h
    | taken hbusy hpos hle =>
      have hless := remaining_advance hpos hle
      have hsound := sound_advance hw (Nat.le_trans hle (length_slice_le w))
      simp only [hbusy, Bool.false_eq_true, ↓reduceIte] at h ⊢
      exact ih hsound _ (by omega) h

/-- A flush leaves what its writes leave; only the answer is another one. -/
theorem flush_leaves (w : Writer) (sink : Sink) :
    (w.flush sink).2 = (w.writeAll sink w.remaining).2 := by
  unfold flush
  generalize w.writeAll sink w.remaining = result
  obtain ⟨outcome, w', sink'⟩ := result
  cases outcome <;> rfl

/-! ### Any number of attempts -/

/-- A way to try to get rid of a frame. -/
inductive Attempt
  | write
  | flush
  deriving DecidableEq, Repr

/-- The writer and the sink after an attempt, whatever came of it. -/
def attempt (w : Writer) (sink : Sink) : Attempt → Writer × Sink
  | .write => (w.write sink).2
  | .flush => (w.flush sink).2

/-- The writer and the sink after some attempts, one after another. -/
def attemptAll (w : Writer) (sink : Sink) : List Attempt → Writer × Sink
  | [] => (w, sink)
  | a :: rest => (w.attempt sink a).1.attemptAll (w.attempt sink a).2 rest

/-- A frame on its way to a sink: what the sink took of it is its beginning, and what is unsent is the
rest. No slice that was offered was empty or too long. -/
structure Underway (frame : List UInt8) (chunk : Nat) (before : Sink) (w : Writer) (sink : Sink)
    (accepted : List UInt8) (calls : List Call) : Prop where
  sound : w.Sound
  chunk_eq : w.chunk = chunk
  staged_le : w.staged.length ≤ frame.length
  frame_eq : accepted ++ w.unsent = frame
  written : sink.written = before.written ++ accepted
  calls_eq : sink.calls = before.calls ++ calls
  total_eq : Call.total calls = accepted.length
  offered : ∀ call ∈ calls, 0 < call.offered ∧ call.offered ≤ chunk

section

variable {frame accepted : List UInt8} {chunk : Nat} {before sink : Sink} {w : Writer}
  {calls : List Call}

/-- The bounds of a slice, as the number of bytes that a write offers. -/
theorem offered_slice {w : Writer} (hw : w.Sound) (h : w.isIdle = false) :
    0 < w.slice.length ∧ w.slice.length ≤ w.chunk := by
  refine ⟨List.length_pos_iff.mpr (slice_ne_nil hw h), ?_⟩
  rw [slice_eq, List.length_take]
  exact Nat.min_le_left _ _

/-- Another call has a slice of the right length too. -/
theorem Underway.offered_append {call : Call} (h : Underway frame chunk before w sink accepted calls)
    (hbusy : w.isIdle = false) (hcall : call.offered = w.slice.length) :
    ∀ c ∈ calls ++ [call], 0 < c.offered ∧ c.offered ≤ chunk := by
  have hslice := offered_slice h.sound hbusy
  rw [h.chunk_eq] at hslice
  intro c hc
  rcases List.mem_append.mp hc with hc | hc
  · exact h.offered c hc
  · rw [List.mem_singleton.mp hc, hcall]
    exact hslice

/-- A write keeps the frame on its way, with a longer beginning or the same one. -/
theorem Underway.write (h : Underway frame chunk before w sink accepted calls) :
    ∃ accepted calls,
      Underway frame chunk before (w.write sink).2.1 (w.write sink).2.2 accepted calls := by
  have hwrite := writes_write w sink
  generalize w.write sink = result at hwrite ⊢
  cases hwrite with
  | idle hidle => exact ⟨accepted, calls, h⟩
  | @refused e call sink' hbusy hoffered haccepted hcalls hwritten =>
    -- One more call, and nothing else.
    refine ⟨accepted, calls ++ [call], h.sound, h.chunk_eq, h.staged_le, h.frame_eq, ?_, ?_, ?_, ?_⟩
    · rw [hwritten, h.written]
    · rw [hcalls, h.calls_eq, List.append_assoc]
    · rw [Call.total_append_singleton, h.total_eq, haccepted, Nat.add_zero]
    · exact h.offered_append hbusy hoffered
  | @taken count sink' hbusy hpos hle hcalls hwritten =>
    -- What was taken moves from the unsent bytes to the accepted ones.
    have htake := take_slice hle
    have hunsent : count ≤ w.unsent.length := Nat.le_trans hle (length_slice_le w)
    refine ⟨accepted ++ w.unsent.take count, calls ++ [⟨w.slice.length, some count⟩],
      sound_advance h.sound hunsent, ?_, ?_, ?_, ?_, ?_, ?_, ?_⟩
    · rw [← h.chunk_eq, advance]
      split <;> rfl
    · have hstaged := h.staged_le
      rw [advance]
      split
      · simp [reset]
      · exact hstaged
    · rw [unsent_advance, List.append_assoc, List.take_append_drop, h.frame_eq]
    · rw [hwritten, htake, h.written, List.append_assoc]
    · rw [hcalls, h.calls_eq, List.append_assoc]
    · rw [Call.total_append_singleton, h.total_eq, List.length_append, List.length_take]
      simp only [Option.getD_some]
      omega
    · exact h.offered_append hbusy rfl

/-- Any number of writes keeps the frame on its way, even if one of them fails. -/
theorem Underway.writeAll (h : Underway frame chunk before w sink accepted calls) (rounds : Nat) :
    ∃ accepted calls, Underway frame chunk before (w.writeAll sink rounds).2.1
      (w.writeAll sink rounds).2.2 accepted calls := by
  induction rounds generalizing w sink accepted calls with
  | zero => exact ⟨accepted, calls, h⟩
  | succ rounds ih =>
    rw [Writer.writeAll]
    split
    · exact ⟨accepted, calls, h⟩
    · obtain ⟨accepted₁, calls₁, h₁⟩ := h.write
      generalize w.write sink = result at h₁ ⊢
      obtain ⟨outcome, w₁, sink₁⟩ := result
      -- An error ends the flush, and otherwise the next round goes on.
      cases outcome with
      | error e => exact ⟨accepted₁, calls₁, h₁⟩
      | ok count => exact ih h₁

/-- Whatever is tried, the frame stays on its way. -/
theorem Underway.attemptAll (h : Underway frame chunk before w sink accepted calls)
    (attempts : List Attempt) :
    ∃ accepted calls, Underway frame chunk before (w.attemptAll sink attempts).1
      (w.attemptAll sink attempts).2 accepted calls := by
  -- One attempt after the other: each starts with the writer and the sink that the one before has left.
  induction attempts generalizing w sink accepted calls with
  | nil => exact ⟨accepted, calls, h⟩
  | cons a rest ih =>
    obtain ⟨accepted₁, calls₁, h₁⟩ : ∃ accepted calls, Underway frame chunk before
        (w.attempt sink a).1 (w.attempt sink a).2 accepted calls := by
      cases a with
      | write => exact h.write
      | flush =>
        rw [Writer.attempt, flush_leaves]
        exact h.writeAll w.remaining
    exact ih h₁

/-- The frame that was just staged is on its way as a whole. -/
theorem underway_of_stage {staged : Writer} {p : Packet} (hchunk : 0 < w.chunk)
    (h : w.stage p = .ok staged) (sink : Sink) :
    ∃ frame, p.encode = .ok frame ∧ Underway frame w.chunk sink staged sink [] [] := by
  cases hencode : p.encode with
  | error fault => simp [stage, hencode, Except.map] at h
  | ok frame =>
    rw [stage, hencode] at h
    cases h
    refine ⟨frame, rfl, ⟨hchunk, fun hne => List.length_pos_iff.mpr hne, fun _ => rfl⟩, rfl, ?_, rfl, ?_,
      ?_, rfl, List.forall_mem_nil _⟩
    · exact Nat.le_refl _
    · exact (List.append_nil _).symm
    · exact (List.append_nil _).symm

/-! ### In order and only once -/

/-- All that is reckoned with the offset of a writer stays within a word of 64 bits and within the frame
in progress: where the next slice begins and ends, and where the one after it may begin. -/
structure InBounds (w : Writer) : Prop where
  stop_lt : w.sent + w.chunk < UInt64.size
  staged_le : w.staged.length ≤ Memory.limit
  sent_le : w.sent ≤ w.staged.length
  slice_eq : w.slice = w.staged.extract w.sent (min (w.sent + w.chunk) w.staged.length)
  next_le : ∀ count ≤ w.slice.length, w.sent + count ≤ w.staged.length

/-- A frame is never too long to be reckoned with. -/
theorem length_encode_le {p : Packet} (h : p.encode = .ok frame) :
    frame.length ≤ Header.length + maxAnnounced := by
  unfold Packet.encode at h
  split at h
  · cases h
  · next hle =>
    cases h
    rw [List.length_append, Header.length_encode]
    omega

/-- The cursors of a writer stay in the range of its numbers. -/
theorem Underway.inBounds (h : Underway frame chunk before w sink accepted calls)
    (hframe : frame.length ≤ Header.length + maxAnnounced) (hchunk : chunk ≤ Memory.limit) :
    w.InBounds := by
  have hstaged := h.staged_le
  have hsent : w.sent ≤ w.staged.length := by
    by_cases hnil : w.staged = []
    · simp [h.sound.sent_eq hnil]
    · exact Nat.le_of_lt (h.sound.sent_lt hnil)
  have hw := h.chunk_eq
  -- A frame is at most a few bytes longer than what a header can announce, and a chunk fits into memory:
  -- their sum is far below the range of a word.
  simp only [Header.length, maxAnnounced, Memory.limit] at hframe hchunk
  refine ⟨?_, ?_, hsent, ?_, fun count hcount => ?_⟩
  · simp only [UInt64.size]
    omega
  · simp only [Memory.limit]
    omega
  · rw [slice, List.extract_eq_take_drop, List.take_eq_take_iff, List.length_drop]
    omega
  · have hle := length_slice_le w
    rw [length_unsent, remaining] at hle
    omega

/-- The writer is idle just when all of the frame was taken. -/
theorem Underway.isIdle_iff (h : Underway frame chunk before w sink accepted calls) :
    w.isIdle = true ↔ accepted = frame := by
  rw [Writer.isIdle_iff h.sound, ← h.frame_eq]
  simp

/-- A frame that was staged arrives in order and only once, however often its writing is tried and
whatever the sink answers: it may take any part of a slice, take nothing, or fail. What it took is a
beginning of the frame, the rest is what the writer still holds, and the next slice follows on what was
taken. A write that is refused changes nothing. A flush takes no more writes than there are bytes left,
and a sink that goes on to take something has taken the whole frame then. -/
theorem delivered_under_retries {chunk : Nat} {w staged : Writer} {p : Packet}
    (hroom : Memory.holds chunk 1 = true) (hchunk : w.chunk = max chunk 1)
    (hstage : w.stage p = .ok staged) (sink : Sink) (attempts : List Attempt) :
    ∃ frame accepted calls w' sink', p.encode = .ok frame ∧
      staged.attemptAll sink attempts = (w', sink') ∧
      w'.chunk = max chunk 1 ∧
      sink'.calls = sink.calls ++ calls ∧
      (∀ call ∈ calls, 0 < call.offered ∧ call.offered ≤ w'.chunk) ∧
      Call.total calls = accepted.length ∧
      sink'.written = sink.written ++ accepted ∧
      accepted <+: frame ∧
      w'.remaining = frame.length - accepted.length ∧
      w'.slice = (frame.drop accepted.length).take w'.chunk ∧
      (w'.isIdle = true ↔ accepted = frame) ∧
      w'.InBounds ∧
      (∀ reply, sink'.plan.head? = some reply → reply = .fail ∨ reply = .accept 0 →
        (w'.write sink').2.1 = w' ∧ (w'.write sink').2.2.written = sink'.written) ∧
      (∀ rounds, w'.remaining ≤ rounds →
        w'.writeAll sink' rounds = w'.writeAll sink' w'.remaining ∧
        ((w'.writeAll sink' rounds).1 = .ok () → (w'.writeAll sink' rounds).2.1.isIdle = true)) ∧
      (sink'.Willing → ∃ sink'', w'.flush sink' = (.ok (), w'.reset, sink'') ∧
        sink''.written = sink.written ++ frame) := by
  obtain ⟨frame, hencode, hstart⟩ := underway_of_stage (by omega) hstage sink
  obtain ⟨accepted, calls, h⟩ := hstart.attemptAll attempts
  rw [hchunk] at h
  have hlimit : max chunk 1 ≤ Memory.limit := by
    have hle : chunk * 1 ≤ Memory.limit := of_decide_eq_true hroom
    simp only [Memory.limit] at hle ⊢
    omega
  generalize hend : staged.attemptAll sink attempts = result at h
  obtain ⟨w', sink'⟩ := result
  simp only at h
  have hframe := h.frame_eq
  refine ⟨frame, accepted, calls, w', sink', hencode, rfl, h.chunk_eq, h.calls_eq, ?_, h.total_eq,
    h.written, ⟨w'.unsent, hframe⟩, ?_, ?_, h.isIdle_iff, h.inBounds (length_encode_le hencode) hlimit,
    fun _ => write_of_refusal, fun rounds hrounds => ⟨?_, ?_⟩, fun hwilling => ?_⟩
  · rw [h.chunk_eq]
    exact h.offered
  · -- What is not accepted is unsent.
    rw [← hframe, List.length_append, length_unsent]
    omega
  · -- The next slice begins where the accepted bytes end.
    rw [slice_eq, ← hframe, List.drop_left]
  · exact writeAll_eq_of_le h.sound sink' hrounds (Nat.le_refl _)
  · exact isIdle_of_writeAll h.sound sink' hrounds
  · -- A flush to a sink that always takes something brings the rest.
    obtain ⟨sink'', hflush, hwritten, -⟩ := flush_of_willing h.sound hwilling
    refine ⟨sink'', hflush, ?_⟩
    rw [hwritten, h.written, List.append_assoc, hframe]

/-- A frame of 13 bytes in slices of four, to a sink that takes one byte, nothing, fails, takes three and
then all of a slice, and fails again: after five attempts only the last byte is left to write. -/
theorem delivered_under_retries_but_one_byte :
    let p := (Packet.new .file [7, 8]).withMore true
    let sink : Sink :=
      { plan := [.accept 1, .accept 0, .fail, .accept 3, .accept 9, .fail] }
    let attempts : List Attempt := [.write, .write, .flush, .flush, .write]
    ∃ staged, Memory.holds 4 1 = true ∧ (new 4).chunk = max 4 1 ∧ (new 4).stage p = .ok staged ∧
      ∃ frame accepted calls w' sink', p.encode = .ok frame ∧
        staged.attemptAll sink attempts = (w', sink') ∧ sink'.calls = calls ∧
        (∀ call ∈ calls, 0 < call.offered ∧ call.offered ≤ 4) ∧ sink'.written = accepted ∧
        accepted <+: frame ∧ accepted.length = 12 ∧ w'.remaining = 1 := by
  intro p sink attempts
  obtain ⟨staged, hstaged⟩ : ∃ staged : Writer,
      staged = { chunk := 4, staged := p.header.encode ++ p.payload } := ⟨_, rfl⟩
  have hstage : (new 4).stage p = .ok staged := by
    rw [hstaged, stage, Packet.encode_of_le (by decide)]
    rfl
  have hend : (staged.attemptAll sink attempts).2.written.length = 12 ∧
      (staged.attemptAll sink attempts).1.remaining = 1 := by
    rw [hstaged]
    decide
  obtain ⟨frame, accepted, calls, w', sink', hencode, hattempts, hchunk, hcalls, hoffered, -, hwritten,
    hprefix, -⟩ := delivered_under_retries (by decide) rfl hstage sink attempts
  rw [hattempts] at hend
  rw [hchunk] at hoffered
  have hlength : accepted.length = 12 := by
    rw [← hend.1, hwritten]
    rfl
  exact ⟨staged, by decide, rfl, hstage, frame, accepted, calls, w', sink', hencode, hattempts, hcalls,
    hoffered, hwritten, hprefix, hlength, hend.2⟩

end

end Writer

end Depot.Frame
