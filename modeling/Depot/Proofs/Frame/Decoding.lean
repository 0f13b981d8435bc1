import Depot.Frame.Decoder
import Depot.Proofs.Frame.Stream

/-!
# Packets one by one

A caller hands its buffers to a `Decoder` one after another, asks for packets until there are no more,
and says at last that the stream has ended. `Decoder.decodeAll` is what it gets up to the first fault.

The fault that ends a stream is always found, and nothing is lost. But a fault is reported before the
packets that the same buffer completed: they stay ready in the decoder, for a caller who asks again. So
the caller gets what the grammar says in the order of the grammar just if no buffer that completes a
faulty header completes a packet before it, and that depends on how the stream was cut.

## Key results

- `exhaust_of_feed`, `exhaust_of_fault`: what a buffer comes to
- `decodeAll_append`, `decodeAll_of_fault`: what buffers come to, in terms of the reader
- `decodeAll_of_stream`: what they come to, in terms of the grammar
- `fault_overtakes_packet`: a packet and a faulty header in one buffer
-/

namespace Depot.Frame

/-- What comes out of a stream that ends so and is closed then, behind its packets. -/
def Ending.verdict : Ending → Option Fault
  | clean => none
  | unfinished buffered expected => some (.truncated buffered expected)
  | faulty fault => some fault

/-- Only a faulty ending has a fault. -/
theorem Ending.eq_faulty {ending : Ending} {fault : Fault} (h : ending.fault? = some fault) :
    ending = .faulty fault := by
  cases ending with
  | clean => cases h
  | unfinished buffered expected => cases h
  | faulty found =>
    cases h
    rfl

namespace Decoder

/-- What a caller gets from a decoder: packets, and then perhaps a fault. -/
structure Output where
  packets : List Packet := []
  fault : Option Fault := none
  /-- The decoder afterwards. -/
  decoder : Decoder
  deriving DecidableEq, Repr

/-- A decoder with packets that are ready leaves the buffer alone. -/
theorem decode_of_ready {d : Decoder} {p : Packet} {rest : List Packet} (h : d.ready = p :: rest)
    (buffer : List UInt8) :
    d.decode buffer = { result := .ok (some p), decoder := { d with ready := rest }, buffer } := by
  simp only [decode, pop, h, List.isEmpty_cons, Bool.false_and, Bool.false_eq_true, ↓reduceIte,
    List.head?_cons, List.tail_cons]

/-- A decoder with nothing ready reads the whole buffer. -/
theorem decode_of_nothing_ready {d : Decoder} (h : d.ready = []) (buffer : List UInt8) :
    d.decode buffer =
      match (d.reader.feed buffer).fault with
      | some fault =>
          { result := .error fault, decoder := ⟨(d.reader.feed buffer).reader, (d.reader.feed buffer).packets⟩,
            buffer := [] }
      | none =>
          { result := .ok (d.reader.feed buffer).packets.head?,
            decoder := ⟨(d.reader.feed buffer).reader, (d.reader.feed buffer).packets.tail⟩, buffer := [] } := by
  obtain ⟨reader, ready⟩ := d
  subst h
  cases buffer with
  | nil =>
    -- An empty buffer is not read at all, which comes to the same.
    simp only [decode, pop, Reader.feed_nil]
    rfl
  | cons b rest =>
    simp only [decode, List.isEmpty_nil, List.isEmpty_cons, Bool.not_false, Bool.and_self, ↓reduceIte]
    cases (reader.feed (b :: rest)).fault <;> rfl

/-- Every packet is either taken out of the buffer or was ready. -/
theorem decode_lt {d : Decoder} {buffer : List UInt8} {p : Packet}
    (h : (d.decode buffer).result = .ok (some p)) :
    (d.decode buffer).buffer.length < buffer.length ∨
      (d.decode buffer).buffer.length = buffer.length ∧
        (d.decode buffer).decoder.ready.length < d.ready.length := by
  cases hready : d.ready with
  | cons first rest =>
    rw [decode_of_ready hready]
    exact .inr ⟨rfl, Nat.lt_succ_self _⟩
  | nil =>
    cases buffer with
    | nil =>
      rw [decode_of_nothing_ready hready, Reader.feed_nil] at h
      cases h
    | cons b rest =>
      left
      rw [decode_of_nothing_ready hready]
      split <;> exact Nat.zero_lt_succ _

/-- Asks for packets until there is none or a fault. -/
def exhaust (d : Decoder) (buffer : List UInt8) : Output :=
  match _h : (d.decode buffer).result with
  | .error fault => { fault := some fault, decoder := (d.decode buffer).decoder }
  | .ok none => { decoder := (d.decode buffer).decoder }
  | .ok (some p) =>
      let rest := exhaust (d.decode buffer).decoder (d.decode buffer).buffer
      { rest with packets := p :: rest.packets }
termination_by (buffer.length, d.ready.length)
decreasing_by
  have := decode_lt _h
  simp only [Prod.lex_def]
  omega

/-- Hands buffers to a decoder, one after another up to the first fault, and then says that the stream
has ended. -/
def decodeAll (d : Decoder) : List (List UInt8) → Output
  | [] =>
      let answer := d.decodeEnd []
      match answer.result with
      | .error fault => { fault := some fault, decoder := answer.decoder }
      | .ok p => { packets := p.toList, decoder := answer.decoder }
  | buffer :: buffers =>
      let first := d.exhaust buffer
      if first.fault.isSome then first
      else
        let rest := first.decoder.decodeAll buffers
        { rest with packets := first.packets ++ rest.packets }

/-! ### One buffer -/

section

variable {d : Decoder} {buffer : List UInt8}

/-- What a caller gets depends on the first answer. -/
theorem exhaust_eq (d : Decoder) (buffer : List UInt8) :
    d.exhaust buffer =
      match (d.decode buffer).result with
      | .error fault => { fault := some fault, decoder := (d.decode buffer).decoder }
      | .ok none => { decoder := (d.decode buffer).decoder }
      | .ok (some p) =>
          let rest := exhaust (d.decode buffer).decoder (d.decode buffer).buffer
          { rest with packets := p :: rest.packets } := by
  rw [exhaust]
  split
  · next hresult => simp only [hresult]
  · next hresult => simp only [hresult]
  · next hresult => simp only [hresult]

/-- What is ready is handed out first. -/
theorem exhaust_of_ready {p : Packet} {rest : List Packet} (h : d.ready = p :: rest)
    (buffer : List UInt8) :
    d.exhaust buffer =
      { exhaust { d with ready := rest } buffer with
        packets := p :: (exhaust { d with ready := rest } buffer).packets } := by
  rw [exhaust_eq, decode_of_ready h]

/-- What is ready comes out in its order. -/
theorem exhaust_nil (reader : Reader) (ready : List Packet) :
    exhaust ⟨reader, ready⟩ [] = { packets := ready, decoder := ⟨reader, []⟩ } := by
  induction ready with
  | nil =>
    rw [exhaust_eq, decode_of_nothing_ready rfl, Reader.feed_nil]
    rfl
  | cons p rest ih => rw [exhaust_of_ready rfl, ih]

/-- A fault is reported at once, and the packets before it stay ready. -/
theorem exhaust_of_fault {fault : Fault} (hready : d.ready = [])
    (h : (d.reader.feed buffer).fault = some fault) :
    d.exhaust buffer =
      { fault := some fault
        decoder := ⟨(d.reader.feed buffer).reader, (d.reader.feed buffer).packets⟩ } := by
  rw [exhaust_eq, decode_of_nothing_ready hready, h]

/-- Without a fault all packets of the buffer come out. -/
theorem exhaust_of_feed (hready : d.ready = []) (h : (d.reader.feed buffer).fault = none) :
    d.exhaust buffer =
      { packets := (d.reader.feed buffer).packets
        decoder := ⟨(d.reader.feed buffer).reader, []⟩ } := by
  rw [exhaust_eq, decode_of_nothing_ready hready, h]
  cases (d.reader.feed buffer).packets with
  | nil => rfl
  | cons p rest =>
    -- The first packet comes out of the buffer, and the others are ready.
    simp only [List.head?_cons, List.tail_cons, exhaust_nil]

end

/-! ### Many buffers -/

/-- What a reader says of the end of its stream. -/
def verdict (r : Reader) : Option Fault :=
  match r.finish with
  | .error fault => some fault
  | .ok () => none

/-- When there are no buffers left the end of the stream is judged. -/
theorem decodeAll_nil (r : Reader) :
    decodeAll ⟨r, []⟩ [] = { fault := verdict r, decoder := ⟨r, []⟩ } := by
  have hend : decodeEnd ⟨r, []⟩ [] =
      { result := r.finish.map fun _ => none, decoder := ⟨r, []⟩, buffer := [] } := by
    simp only [decodeEnd, decode_of_nothing_ready, Reader.feed_nil, List.head?_nil, List.tail_nil]
  rw [decodeAll, hend, verdict]
  cases r.finish <;> rfl

/-- As long as there is no fault, the packets of buffers come out in their order. -/
theorem decodeAll_append {r : Reader} {before : List (List UInt8)}
    (h : (r.feedAll before).fault = none) (rest : List (List UInt8)) :
    decodeAll ⟨r, []⟩ (before ++ rest) =
      { decodeAll ⟨(r.feedAll before).reader, []⟩ rest with
        packets := (r.feedAll before).packets ++
          (decodeAll ⟨(r.feedAll before).reader, []⟩ rest).packets } := by
  induction before generalizing r with
  | nil => rfl
  | cons buffer before ih =>
    have hfirst := Reader.fault_of_feedAll_cons h
    rw [Reader.feedAll_cons, Intake.andThen_of_none hfirst] at h ⊢
    rw [List.cons_append, decodeAll, exhaust_of_feed rfl hfirst]
    simp only [Option.isSome_none, Bool.false_eq_true, ↓reduceIte, ih h, List.append_assoc]

/-- A fault is found in the buffer that completes it. The packets of the buffers before come out, and
those of the buffer itself stay ready. -/
theorem decodeAll_of_fault {r : Reader} {before : List (List UInt8)} {buffer : List UInt8}
    {fault : Fault} (hbefore : (r.feedAll before).fault = none)
    (hfault : ((r.feedAll before).reader.feed buffer).fault = some fault)
    (after : List (List UInt8)) :
    decodeAll ⟨r, []⟩ (before ++ buffer :: after) =
      { packets := (r.feedAll before).packets
        fault := some fault
        decoder := ⟨((r.feedAll before).reader.feed buffer).reader,
          ((r.feedAll before).reader.feed buffer).packets⟩ } := by
  rw [decodeAll_append hbefore, decodeAll, exhaust_of_fault rfl hfault]
  simp only [Option.isSome_some, ↓reduceIte, List.append_nil]

end Decoder

/-! ### Streams -/

/-- A reader judges the end of a sound stream as the grammar does. -/
theorem Reader.StandsAt.verdict_eq {r : Reader} {limit : Nat} {ending : Ending}
    (h : r.StandsAt limit ending) (hfault : ending.fault? = none) :
    Decoder.verdict r = ending.verdict := by
  rw [Decoder.verdict, h.finish]
  cases ending with
  | clean => rfl
  | unfinished buffered expected => rfl
  | faulty fault => cases hfault

/-- Whether a buffer completes packets, and behind them a faulty header. -/
def Overtakes (limit : Nat) (buffers : List (List UInt8)) : Prop :=
  ∃ before buffer after early late ending fault, buffers = before ++ buffer :: after ∧
    Stream limit before.flatten early ending ∧ ending.fault? = none ∧
    Stream limit (before.flatten ++ buffer) (early ++ late) (.faulty fault) ∧ late ≠ []

section

variable {limit : Nat} {buffers : List (List UInt8)}

/-- What a reader that has taken in the bytes of a stream has given out. -/
theorem Stream.feedAll_eq {packets : List Packet} {ending : Ending}
    (h : Stream limit buffers.flatten packets ending) :
    ∃ r, (Reader.new limit).feedAll buffers = { packets, reader := r, fault := ending.fault? } ∧
      r.StandsAt limit ending := by
  obtain ⟨r, hfeed, hstands⟩ := Reader.feed_stream h
  exact ⟨r, (Reader.feedAll_eq_feed _ _).trans hfeed, hstands⟩

/-- A stream that goes on behind bytes without a fault. -/
theorem Stream.feed_behind {before : List (List UInt8)} {buffer : List UInt8}
    {packets : List Packet} {ending : Ending}
    (hbefore : ((Reader.new limit).feedAll before).fault = none)
    (h : Stream limit (before.flatten ++ buffer) packets ending) :
    packets = ((Reader.new limit).feedAll before).packets ++
        (((Reader.new limit).feedAll before).reader.feed buffer).packets ∧
      ending.fault? = (((Reader.new limit).feedAll before).reader.feed buffer).fault := by
  obtain ⟨r, hfeed, -⟩ := Reader.feed_stream h
  rw [Reader.feed_append, ← Reader.feedAll_eq_feed, Intake.andThen_of_none hbefore] at hfeed
  exact ⟨congrArg Intake.packets hfeed.symm, congrArg Intake.fault hfeed.symm⟩

/-- What a fault overtakes is ready behind it. -/
theorem ready_of_overtakes (h : Overtakes limit buffers) :
    ((Decoder.new limit).decodeAll buffers).decoder.ready ≠ [] := by
  obtain ⟨before, buffer, after, early, late, ending, fault, rfl, hearly, hsound, hlate, hne⟩ := h
  obtain ⟨r, hfed, -⟩ := hearly.feedAll_eq
  have hbefore : ((Reader.new limit).feedAll before).fault = none := by rw [hfed, hsound]
  obtain ⟨hpackets, hfault⟩ := hlate.feed_behind hbefore
  have hsame : late = (((Reader.new limit).feedAll before).reader.feed buffer).packets := by
    have hearlier : ((Reader.new limit).feedAll before).packets = early := by rw [hfed]
    rw [hearlier] at hpackets
    exact List.append_cancel_left hpackets
  rw [Decoder.new, Decoder.decodeAll_of_fault hbefore hfault.symm]
  rwa [← hsame]

/-- What a buffer with a fault completes before it is overtaken. -/
theorem overtakes_of_fault {before after : List (List UInt8)} {buffer : List UInt8} {fault : Fault}
    (hbefore : ((Reader.new limit).feedAll before).fault = none)
    (hfault : (((Reader.new limit).feedAll before).reader.feed buffer).fault = some fault)
    (hne : (((Reader.new limit).feedAll before).reader.feed buffer).packets ≠ []) :
    Overtakes limit (before ++ buffer :: after) := by
  obtain ⟨early, ending, hearly⟩ := exists_stream limit before.flatten
  obtain ⟨packets, ending', hlate⟩ := exists_stream limit (before.flatten ++ buffer)
  obtain ⟨r, hfed, -⟩ := hearly.feedAll_eq
  obtain ⟨hpackets, hending⟩ := hlate.feed_behind hbefore
  rw [hfault] at hending
  have hsound : ending.fault? = none := by rw [← hbefore, hfed]
  have hearlier : ((Reader.new limit).feedAll before).packets = early := by rw [hfed]
  rw [hpackets, hearlier, Ending.eq_faulty hending] at hlate
  exact ⟨before, buffer, after, early, _, ending, fault, rfl, hearly, hsound, hlate, hne⟩

/-- The class of the error that a stream ends with. -/
theorem Stream.kind_of_verdict {bytes : List UInt8} {packets : List Packet} {ending : Ending}
    {fault : Fault} (h : Stream limit bytes packets ending) (hverdict : ending.verdict = some fault) :
    (StreamError.fault fault).kind =
      if ending.fault?.isSome then "InvalidData" else "UnexpectedEof" := by
  obtain ⟨frames, rest, -, -, hrest⟩ := h.exists_rest
  -- A faulty header is invalid data, whatever is wrong with it. All else is an end that came too soon.
  cases hrest with
  | clean => cases hverdict
  | unfinished hopen =>
    cases hverdict
    rfl
  | faulty hfaulty =>
    cases hverdict
    cases hfaulty <;> rfl

end

/-- What a caller gets who takes every packet that there is from every buffer: the fault is the one that
the grammar says, and the packets before it come out in their order up to the buffer that completes the
fault. Those that are completed by that buffer are still ready behind the fault, and so the caller gets
what the grammar says just if there are none. -/
theorem decodeAll_of_stream (limit : Nat) (buffers : List (List UInt8)) :
    ∃ packets ending, Stream limit buffers.flatten packets ending ∧
      let output := (Decoder.new limit).decodeAll buffers
      output.fault = ending.verdict ∧
      packets = output.packets ++ output.decoder.ready ∧
      (output.packets = packets ↔ ¬Overtakes limit buffers) ∧
      ∀ fault, output.fault = some fault → (StreamError.fault fault).kind =
        if ending.fault?.isSome then "InvalidData" else "UnexpectedEof" := by
  obtain ⟨packets, ending, hstream⟩ := exists_stream limit buffers.flatten
  obtain ⟨r, hall, hstands⟩ := hstream.feedAll_eq
  refine ⟨packets, ending, hstream, ?_⟩
  intro output
  -- The fault, the packets and what is left behind, whether there is a fault or not.
  have hoverview : output.fault = ending.verdict ∧ packets = output.packets ++ output.decoder.ready ∧
      (output.decoder.ready ≠ [] → Overtakes limit buffers) := by
    cases hfault : ending.fault? with
    | none =>
      rw [hfault] at hall
      have hend := Decoder.decodeAll_append (congrArg Intake.fault hall) []
      rw [List.append_nil, hall, Decoder.decodeAll_nil, hstands.verdict_eq hfault] at hend
      have houtput : output = { packets, fault := ending.verdict, decoder := ⟨r, []⟩ } := by
        rw [← List.append_nil packets]
        exact hend
      rw [houtput]
      exact ⟨rfl, (List.append_nil packets).symm, fun h => absurd rfl h⟩
    | some fault =>
      rw [hfault] at hall
      obtain ⟨before, buffer, after, rfl, hbefore, hbad⟩ :=
        Reader.exists_faulty_chunk (congrArg Intake.fault hall)
      have houtput : output = _ := Decoder.decodeAll_of_fault hbefore hbad after
      -- What is behind the fault in the stream is never read.
      rw [List.flatten_append, List.flatten_cons] at hstream
      obtain ⟨hpackets, -⟩ := hstream.feed_behind hbefore
      rw [Reader.feed_append, Intake.andThen_of_fault (by rw [hbad]; rfl)] at hpackets
      rw [houtput, Ending.eq_faulty hfault]
      exact ⟨rfl, hpackets, overtakes_of_fault hbefore hbad⟩
  obtain ⟨hfault, hpackets, hlate⟩ := hoverview
  refine ⟨hfault, hpackets, ⟨fun heq hovertakes => ?_, fun hnot => ?_⟩, fun fault hsome => ?_⟩
  · have hready : output.decoder.ready ≠ [] := ready_of_overtakes hovertakes
    rw [heq] at hpackets
    exact hready (List.append_right_eq_self.mp hpackets.symm)
  · have hready : output.decoder.ready = [] := Classical.byContradiction fun h => hnot (hlate h)
    rw [hpackets, hready, List.append_nil]
  · rw [hfault] at hsome
    exact hstream.kind_of_verdict hsome

/-- A packet and a faulty header in one buffer: the fault comes first and the packet is left behind. In
two buffers the same bytes give the packet. -/
theorem fault_overtakes_packet :
    let limit := Decoder.defaultMaxPayload
    let p : Packet := (Packet.new .fileRequest [97, 98, 99]).withOperation 1
    let frame : List UInt8 := [1, 0, 0, 9, 3, 0, 0, 0, 2, 1, 15, 97, 98, 99]
    let faulty : List UInt8 := [2, 0, 0, 8, 2, 0, 0, 0, 2, 0, 15, 122, 122]
    Stream limit (frame ++ faulty) [p] (.faulty (.badMagic 2)) ∧
      (Decoder.new limit).decodeAll [frame ++ faulty] =
        { packets := [], fault := some (.badMagic 2), decoder := ⟨.new limit, [p]⟩ } ∧
      (Decoder.new limit).decodeAll [frame, faulty] =
        { packets := [p], fault := some (.badMagic 2), decoder := ⟨.new limit, []⟩ } := by
  intro limit p frame faulty
  have hframe : frame = p.header.encode ++ p.payload := by decide
  have hfaulty : Stream limit faulty [] (.faulty (.badMagic 2)) :=
    .rest (.faulty (.magic (by decide) rfl (by decide)))
  have hone : Stream limit frame [p] .clean := by
    rw [hframe, ← List.append_nil (p.header.encode ++ p.payload)]
    exact .frame ⟨by decide, by decide⟩ (by decide) (.rest .clean)
  have hboth : Stream limit (frame ++ faulty) [p] (.faulty (.badMagic 2)) := by
    rw [hframe]
    exact .frame ⟨by decide, by decide⟩ (by decide) hfaulty
  obtain ⟨r, hfeed, hstands⟩ := Reader.feed_stream hboth
  obtain ⟨first, hfirst, hclean⟩ := Reader.feed_stream hone
  obtain ⟨second, hsecond, hstopped⟩ := Reader.feed_stream hfaulty
  cases hstands.fresh fun _ _ h => by cases h
  cases hclean.fresh fun _ _ h => by cases h
  cases hstopped.fresh fun _ _ h => by cases h
  refine ⟨hboth, ?_, ?_⟩
  · have hfault : (((Reader.new limit).feedAll []).reader.feed (frame ++ faulty)).fault =
        some (.badMagic 2) := congrArg Intake.fault hfeed
    have hout := Decoder.decodeAll_of_fault rfl hfault []
    rw [show ((Reader.new limit).feedAll []).reader = Reader.new limit from rfl, hfeed] at hout
    exact hout
  · have hall : (Reader.new limit).feedAll [frame] =
        { packets := [p], reader := .new limit, fault := none } := by
      rw [Reader.feedAll_eq_feed, List.flatten_singleton]
      exact hfirst
    have hfault : (((Reader.new limit).feedAll [frame]).reader.feed faulty).fault =
        some (.badMagic 2) := by
      rw [hall, hsecond]
      rfl
    have hout := Decoder.decodeAll_of_fault (congrArg Intake.fault hall) hfault []
    rw [hall, hsecond] at hout
    exact hout

end Depot.Frame
