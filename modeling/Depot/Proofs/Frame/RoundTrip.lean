import Depot.Proofs.Frame.Progress
import Depot.Proofs.Frame.Stream

/-!
# From a writer to a reader

Packets that are sent one after another arrive as they were, whatever the receiving end of the stream
takes at a time and in whatever chunks the bytes are read.

## Key results

- `flush_of_willing`: a sink that always takes something takes the whole frame in progress
- `sendAll_of_willing`: and so the frames of all packets, one after another
- `send_then_feed`: a reader gives the packets back
-/

namespace Depot.Frame

/-- Sends packets one after another, up to the first that cannot be sent. -/
def Writer.sendAll (w : Writer) (sink : Sink) :
    List Packet → Except StreamError Unit × Writer × Sink
  | [] => (.ok (), w, sink)
  | p :: rest =>
      match w.send p sink with
      | (.error e, w, sink) => (.error e, w, sink)
      | (.ok (), w, sink) => w.sendAll sink rest

/-- A sink that takes something of whatever it is offered, and can be flushed. -/
structure Sink.Willing (s : Sink) : Prop where
  accepts : ∀ reply ∈ s.plan, ∃ count, 0 < count ∧ reply = .accept count
  flushes : s.flushFails = false

namespace Sink

/-- A willing sink takes at least one byte of a slice, from its beginning. -/
theorem write_of_willing {s : Sink} (hs : s.Willing) {slice : List UInt8} (hne : slice ≠ []) :
    ∃ count s', s.write slice = (.ok count, s') ∧ 0 < count ∧ count ≤ slice.length ∧
      s'.written = s.written ++ slice.take count ∧ s'.Willing := by
  have hlen : 0 < slice.length := List.length_pos_iff.mpr hne
  have hplan : ∀ reply ∈ s.plan.tail, ∃ count, 0 < count ∧ reply = .accept count :=
    fun reply h => hs.accepts reply (List.mem_of_mem_tail h)
  -- Behind its plan a sink takes the whole slice, which is not empty.
  obtain ⟨count, hcount, hreply⟩ : ∃ count, 0 < count ∧ s.reply slice.length = .accept count := by
    rw [reply]
    cases hp : s.plan with
    | nil => exact ⟨slice.length, hlen, rfl⟩
    | cons reply rest => exact hs.accepts reply (by rw [hp]; exact List.mem_cons_self)
  rw [write, hreply]
  exact ⟨min count slice.length, _, rfl, by omega, Nat.min_le_right _ _, rfl, hplan, hs.flushes⟩

/-- A sink that always takes something does not fail when it is flushed. -/
theorem flush_of_willing {s : Sink} (hs : s.Willing) : s.flush = .ok () := by
  rw [flush, hs.flushes]
  rfl

end Sink

namespace Writer

/-- One write to a willing sink takes at least one byte of what is unsent. -/
theorem write_of_willing {w : Writer} {sink : Sink} (hw : w.Sound) (hbusy : w.isIdle = false)
    (hs : sink.Willing) :
    ∃ count sink', w.write sink = (.ok count, w.advance count, sink') ∧ 0 < count ∧
      count ≤ w.unsent.length ∧ sink'.written = sink.written ++ w.unsent.take count ∧
      sink'.Willing := by
  obtain ⟨count, sink', hwrite, hpos, hle, hwritten, hs'⟩ :=
    Sink.write_of_willing hs (slice_ne_nil hw hbusy)
  refine ⟨count, sink', ?_, hpos, Nat.le_trans hle (length_slice_le w), ?_, hs'⟩
  · obtain ⟨k, rfl⟩ : ∃ k, count = k + 1 := ⟨count - 1, by omega⟩
    simp only [write, hbusy, hwrite, Bool.false_eq_true, ↓reduceIte]
  · rw [hwritten, take_slice hle]

/-- As many writes as there are unsent bytes finish the frame in progress. -/
theorem writeAll_of_willing {w : Writer} {sink : Sink} (hw : w.Sound) (hs : sink.Willing)
    {rounds : Nat} (hrounds : w.unsent.length ≤ rounds) :
    ∃ sink', w.writeAll sink rounds = (.ok (), w.reset, sink') ∧
      sink'.written = sink.written ++ w.unsent ∧ sink'.Willing := by
  induction rounds generalizing w sink with
  | zero =>
    have hnil : w.unsent = [] := List.length_eq_zero_iff.mp (by omega)
    have hidle : w.isIdle := (isIdle_iff hw).mpr hnil
    exact ⟨sink, by rw [writeAll, reset_eq_of_isIdle hw hidle], by rw [hnil, List.append_nil], hs⟩
  | succ rounds ih =>
    cases hidle : w.isIdle with
    | true =>
      refine ⟨sink, ?_, by rw [unsent_eq_nil_of_isIdle hidle, List.append_nil], hs⟩
      rw [writeAll, if_pos hidle, reset_eq_of_isIdle hw hidle]
    | false =>
      -- A write takes a byte at least, so one round less suffices for the rest.
      obtain ⟨count, sink₁, hwrite, hpos, hle, hwritten, hs₁⟩ := write_of_willing hw hidle hs
      have hless : (w.advance count).unsent.length ≤ rounds := by
        rw [unsent_advance, List.length_drop]; omega
      obtain ⟨sink', hall, hrest, hs'⟩ := ih (sound_advance hw hle) hs₁ hless
      refine ⟨sink', ?_, ?_, hs'⟩
      · rw [reset_advance] at hall
        simp only [writeAll, hidle, hwrite, hall, Bool.false_eq_true, ↓reduceIte]
      · rw [hrest, hwritten, unsent_advance, List.append_assoc, List.take_append_drop]

/-- Flushing to a willing sink writes what is unsent and leaves the writer idle. -/
theorem flush_of_willing {w : Writer} {sink : Sink} (hw : w.Sound) (hs : sink.Willing) :
    ∃ sink', w.flush sink = (.ok (), w.reset, sink') ∧
      sink'.written = sink.written ++ w.unsent ∧ sink'.Willing := by
  obtain ⟨sink', hall, hwritten, hs'⟩ := writeAll_of_willing hw hs (Nat.le_of_eq (length_unsent w))
  refine ⟨sink', ?_, hwritten, hs'⟩
  simp only [flush, hall, Sink.flush_of_willing hs']

/-- A packet with a frame is sent to a willing sink as that frame. -/
theorem send_of_willing {w : Writer} {sink : Sink} (hw : w.Sound) (hs : sink.Willing) {p : Packet}
    {frame : List UInt8} (hp : p.encode = .ok frame) :
    ∃ sink', w.send p sink = (.ok (), w.reset, sink') ∧
      sink'.written = sink.written ++ frame ∧ sink'.Willing := by
  obtain ⟨staged, hstage⟩ := exists_stage (w := w) hp
  obtain ⟨hframe, hreset⟩ := unsent_of_stage hstage
  obtain ⟨sink', hflush, hwritten, hs'⟩ := flush_of_willing (sound_of_stage hw hstage) hs
  have heq : frame = staged.unsent := Except.ok.inj (hp.symm.trans hframe)
  refine ⟨sink', ?_, heq ▸ hwritten, hs'⟩
  rw [hreset] at hflush
  simp only [send, hstage, hflush]

/-- Packets with frames are sent to a willing sink as their frames, one after another. -/
theorem sendAll_of_willing {w : Writer} {sink : Sink} (hw : w.Sound) (hidle : w.isIdle)
    (hs : sink.Willing) {packets : List Packet} {frames : List UInt8}
    (hp : Packet.encodeAll packets = .ok frames) :
    ∃ sink', w.sendAll sink packets = (.ok (), w, sink') ∧ sink'.written = sink.written ++ frames := by
  induction packets generalizing sink frames with
  | nil =>
    cases hp
    exact ⟨sink, rfl, (List.append_nil _).symm⟩
  | cons p packets ih =>
    obtain ⟨frame, more, hframe, hmore, rfl⟩ := Packet.encodeAll_cons_eq_ok hp
    obtain ⟨sink₁, hsend, hwritten, hs₁⟩ := send_of_willing hw hs hframe
    obtain ⟨sink', hall, hrest⟩ := ih hs₁ hmore
    -- Behind a packet the writer is as it was, so the next one finds it idle.
    rw [reset_eq_of_isIdle hw hidle] at hsend
    refine ⟨sink', by simp only [sendAll, hsend, hall], ?_⟩
    rw [hrest, hwritten, List.append_assoc]

end Writer

/-- Packets that were built with the constructors and can be taken arrive as they were sent, in the same
order: whatever the slices of the writer, whatever a willing sink takes at a time, and in whatever
chunks the bytes it took are read. Both ends are idle afterwards. -/
theorem send_then_feed (limit chunk : Nat) (packets : List Packet) (sink : Sink)
    (hp : ∀ p ∈ packets, p.Built ∧ p.payload.length ≤ limit ∧ p.payload.length ≤ maxAnnounced)
    (hs : sink.Willing) :
    ∃ w sink' stream, (Writer.new chunk).sendAll sink packets = (.ok (), w, sink') ∧ w.isIdle ∧
      Packet.encodeAll packets = .ok stream ∧ sink'.written = sink.written ++ stream ∧
      ∀ chunks : List (List UInt8), chunks.flatten = stream →
        let intake := (Reader.new limit).feedAll chunks
        intake.packets = packets ∧ intake.fault = none ∧ intake.reader.isIdle := by
  have hwf : ∀ p ∈ packets, p.WellFormed ∧ p.payload.length ≤ limit := fun p h =>
    ⟨(hp p h).1.wellFormed (hp p h).2.2, (hp p h).2.1⟩
  obtain ⟨stream, hstream⟩ := Packet.exists_encodeAll fun p h => (hp p h).2.2
  obtain ⟨sink', hsend, hwritten⟩ :=
    Writer.sendAll_of_willing (Writer.sound_new chunk) rfl hs hstream
  refine ⟨_, sink', stream, hsend, rfl, hstream, hwritten, ?_⟩
  -- However the bytes are cut, they are the frames of the packets and end cleanly.
  rintro chunks rfl
  obtain ⟨r, hfeed, hends⟩ := Reader.feed_stream (Stream.of_packets hwf hstream)
  rw [Reader.feedAll_eq_feed, hfeed]
  refine ⟨rfl, rfl, ?_⟩
  show r.isIdle
  rw [hends.fresh fun _ _ h => by cases h]
  rfl

/-- A request for an id and a block of a file, in slices of four bytes, to a sink that takes one byte
and then three before it takes all. -/
theorem send_then_feed_id_and_block :
    let packets : List Packet :=
      [(Packet.new .idRequest []).withOperation 3, (Packet.new .file [7, 8]).withMore true]
    let sink : Sink := { plan := [.accept 1, .accept 3] }
    (∀ p ∈ packets, p.Built ∧ p.payload.length ≤ 2 ∧ p.payload.length ≤ maxAnnounced) ∧
      sink.Willing ∧
      ∃ w sink' stream, (Writer.new 4).sendAll sink packets = (.ok (), w, sink') ∧ w.isIdle ∧
        Packet.encodeAll packets = .ok stream ∧ sink'.written = sink.written ++ stream ∧
        ∀ chunks : List (List UInt8), chunks.flatten = stream →
          let intake := (Reader.new 2).feedAll chunks
          intake.packets = packets ∧ intake.fault = none ∧ intake.reader.isIdle := by
  intro packets sink
  have hp : ∀ p ∈ packets, p.Built ∧ p.payload.length ≤ 2 ∧ p.payload.length ≤ maxAnnounced := by
    intro p h
    simp only [packets, List.mem_cons, List.not_mem_nil, or_false] at h
    rcases h with rfl | rfl
    · exact ⟨.withOperation (.new rfl) 3, by decide, by decide⟩
    · exact ⟨.withMore (.new rfl) true, by decide, by decide⟩
  have hs : sink.Willing := by
    refine ⟨fun reply h => ?_, rfl⟩
    simp only [sink, List.mem_cons, List.not_mem_nil, or_false] at h
    rcases h with rfl | rfl
    · exact ⟨1, by decide, rfl⟩
    · exact ⟨3, by decide, rfl⟩
  exact ⟨hp, hs, send_then_feed 2 4 packets sink hp hs⟩

end Depot.Frame
