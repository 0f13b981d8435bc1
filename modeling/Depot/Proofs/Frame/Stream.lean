import Depot.Proofs.Frame.Chunks
import Depot.Proofs.Packet.Frames

/-!
# The grammar of streams

A byte stream is a number of frames and then an ending: nothing, the beginning of one more frame, or
eleven bytes that are no header to go on with. `Stream` says so without a reader; the frames in it are
written with `Packet.encode`.

## Key results

- `exists_stream`: every byte string is a stream, whatever is in it
- `feed_stream`: a reader gives out the packets of the frames and stands where the ending says
- `feed_accepts_grammar`: what a reader accepts and refuses, in terms of the bytes alone
-/

namespace Depot

namespace Frame

/-- The beginning of a frame, with the number of bytes that are known to belong to it. -/
inductive Unfinished (limit : Nat) : List UInt8 → Nat → Prop
  /-- Fewer bytes than a header has. -/
  | header {rest : List UInt8} (hne : rest ≠ []) (hlen : rest.length < 11) :
      Unfinished limit rest 11
  /-- A header, and fewer bytes than it announces. -/
  | payload {h : Header} {data : List UInt8} (hmax : h.size.toNat ≤ limit)
      (hlen : data.length < h.size.toNat) :
      Unfinished limit (h.encode ++ data) (11 + h.size.toNat)

/-- Bytes that begin with eleven which are not a header to go on with, and why not. -/
inductive Faulty (limit : Nat) : List UInt8 → Fault → Prop
  | magic {rest : List UInt8} {found : UInt8} (hlen : 11 ≤ rest.length)
      (hfirst : rest[0]? = some found) (hbad : found ≠ 0x01) : Faulty limit rest (.badMagic found)
  | marker {rest : List UInt8} {found : UInt8} (hlen : 11 ≤ rest.length)
      (hfirst : rest[0]? = some 0x01) (hlast : rest[10]? = some found) (hmore : found ≠ 0xf0)
      (hend : found ≠ 0x0f) : Faulty limit rest (.badMarker found)
  | oversized {h : Header} {rest : List UInt8} (hsize : limit < h.size.toNat) :
      Faulty limit (h.encode ++ rest) (.oversized h.size.toNat limit)

/-- How a stream ends behind its last frame. -/
inductive Ending
  | clean
  /-- With so many bytes of a frame of which so many are needed. -/
  | unfinished (buffered expected : Nat)
  | faulty (fault : Fault)
  deriving DecidableEq, Repr

/-- The bytes behind the last frame and the ending that they make. -/
inductive Rest (limit : Nat) : List UInt8 → Ending → Prop
  | clean : Rest limit [] .clean
  | unfinished {rest : List UInt8} {expected : Nat} (h : Unfinished limit rest expected) :
      Rest limit rest (.unfinished rest.length expected)
  | faulty {rest : List UInt8} {fault : Fault} (h : Faulty limit rest fault) :
      Rest limit rest (.faulty fault)

/-- Frames with payloads of at most `limit` bytes, with the packets in them, and then an ending. -/
inductive Stream (limit : Nat) : List UInt8 → List Packet → Ending → Prop
  | rest {rest : List UInt8} {ending : Ending} (h : Rest limit rest ending) :
      Stream limit rest [] ending
  | frame {p : Packet} {bytes : List UInt8} {packets : List Packet} {ending : Ending}
      (hp : p.WellFormed) (hmax : p.payload.length ≤ limit) (h : Stream limit bytes packets ending) :
      Stream limit (p.header.encode ++ p.payload ++ bytes) (p :: packets) ending

namespace Unfinished

/-- The bytes of a frame in progress are fewer than it needs. -/
theorem length_lt {limit : Nat} {rest : List UInt8} {expected : Nat}
    (h : Unfinished limit rest expected) : rest.length < expected := by
  cases h with
  | header _ hlen => exact hlen
  | payload _ hlen => rw [List.length_append, Header.length_encode, Header.length]; omega

/-- A frame in progress has begun. -/
theorem ne_nil {limit : Nat} {rest : List UInt8} {expected : Nat}
    (h : Unfinished limit rest expected) : rest ≠ [] := by
  cases h with
  | header hne _ => exact hne
  | payload _ _ => simp [Header.encode]

end Unfinished

/-- A faulty header is reported as a bad packet, whatever is wrong with it. -/
theorem Faulty.suspendCode {limit : Nat} {rest : List UInt8} {fault : Fault}
    (h : Faulty limit rest fault) : fault.suspendCode = .invalidPacket := by
  cases h <;> rfl

namespace Ending

/-- The fault of a stream that ends so. -/
def fault? : Ending → Option Fault
  | faulty fault => some fault
  | _ => none

/-- What is said of a stream that ends so and then is closed. -/
def finish : Ending → Except Fault Unit
  | unfinished buffered expected => .error (.truncated buffered expected)
  | _ => .ok ()

/-- The fault and the verdict on the end tell the endings apart. -/
theorem eq_of_fault?_of_finish {e e' : Ending} (hfault : e.fault? = e'.fault?)
    (hfinish : e.finish = e'.finish) : e = e' := by
  cases e <;> cases e' <;> simp_all [fault?, finish]

end Ending

namespace Stream

/-- A stream is the frames of its packets and the bytes of its ending. -/
theorem exists_rest {limit : Nat} {bytes : List UInt8} {packets : List Packet} {ending : Ending}
    (h : Stream limit bytes packets ending) :
    ∃ frames rest, Packet.encodeAll packets = .ok frames ∧ bytes = frames ++ rest ∧
      Rest limit rest ending := by
  induction h with
  | rest h => exact ⟨[], _, rfl, rfl, h⟩
  | frame hp hmax h ih =>
    obtain ⟨frames, rest, hframes, rfl, hrest⟩ := ih
    refine ⟨_, rest, Packet.encodeAll_cons (Packet.encode_of_le hp.length_le) hframes, ?_, hrest⟩
    simp only [List.append_assoc]

/-- The packets of a stream are well-formed, and none is longer than the limit. -/
theorem wellFormed {limit : Nat} {bytes : List UInt8} {packets : List Packet} {ending : Ending}
    (h : Stream limit bytes packets ending) :
    ∀ p ∈ packets, p.WellFormed ∧ p.payload.length ≤ limit := by
  induction h with
  | rest h => simp
  | frame hp hmax h ih =>
    intro q hq
    rcases List.mem_cons.mp hq with rfl | hq
    · exact ⟨hp, hmax⟩
    · exact ih q hq

/-- The frames of packets are a stream that ends cleanly. -/
theorem of_packets {limit : Nat} {packets : List Packet} {frames : List UInt8}
    (hp : ∀ p ∈ packets, p.WellFormed ∧ p.payload.length ≤ limit)
    (h : Packet.encodeAll packets = .ok frames) : Stream limit frames packets .clean := by
  -- The grammar and the concatenation both put one frame in front of the rest.
  induction packets generalizing frames with
  | nil =>
    cases h
    exact .rest .clean
  | cons p packets ih =>
    obtain ⟨frame, more, hframe, hmore, rfl⟩ := Packet.encodeAll_cons_eq_ok h
    obtain ⟨hwf, hmax⟩ := hp p List.mem_cons_self
    rw [Packet.encode_of_le hwf.length_le] at hframe
    cases hframe
    exact .frame hwf hmax (ih (fun q hq => hp q (List.mem_cons_of_mem p hq)) hmore)

end Stream

namespace Reader

/-- The first bytes of a chunk, if they are all that the part in progress lacks, complete it. -/
private theorem feed_part (r : Reader) (part rest : List UInt8) (hne : part ≠ [])
    (hlen : part.length = r.wanted) :
    r.feed (part ++ rest) =
      match ({ r with buffer := r.buffer ++ part } : Reader).complete with
      | .error fault => { packets := [], reader := r.reset, fault := some fault }
      | .ok (packet, next) =>
          { next.feed rest with packets := packet.toList ++ (next.feed rest).packets } := by
  obtain ⟨b, more, rfl⟩ := List.exists_cons_of_ne_nil hne
  rw [List.length_cons] at hlen
  have htake : (more ++ rest).take (r.wanted - 1) = more := by
    rw [← hlen, Nat.add_sub_cancel, List.take_left]
  have hdrop : (more ++ rest).drop (r.wanted - 1) = rest := by
    rw [← hlen, Nat.add_sub_cancel, List.drop_left]
  have hfull : (r.buffer ++ b :: more).length = r.phase.target := by
    simp only [wanted, List.length_append, List.length_cons] at hlen ⊢; omega
  rw [List.cons_append, feed]
  simp only [htake, hdrop, hfull, ↓reduceIte]
  rfl

/-- A chunk that is shorter than what is lacking is only kept. -/
private theorem feed_short (r : Reader) (chunk : List UInt8) (hlen : chunk.length < r.wanted) :
    r.feed chunk = { packets := [], reader := { r with buffer := r.buffer ++ chunk }, fault := none } := by
  cases chunk with
  | nil => rw [feed_nil, List.append_nil]
  | cons b rest =>
    rw [List.length_cons] at hlen
    have htake : rest.take (r.wanted - 1) = rest := List.take_of_length_le (by omega)
    have hdrop : rest.drop (r.wanted - 1) = [] := List.drop_of_length_le (by omega)
    have hopen : (r.buffer ++ b :: rest).length ≠ r.phase.target := by
      simp only [wanted, List.length_append, List.length_cons] at hlen ⊢; omega
    rw [feed]
    simp only [htake, hdrop, hopen, ↓reduceIte, feed_nil]

/-- The reader that has just read a header. -/
def expecting (limit : Nat) (h : Header) : Reader := { maxPayload := limit, phase := .payload h }

/-- A header that announces something is followed by its payload. -/
private theorem feed_header (limit : Nat) (h : Header) (rest : List UInt8)
    (hcanonical : h.canonical = h) (hmax : h.size.toNat ≤ limit) (hpos : 0 < h.size.toNat) :
    (new limit).feed (h.encode ++ rest) = (expecting limit h).feed rest := by
  have hne : h.encode ≠ [] := by simp [Header.encode]
  have hsize : h.size ≠ 0 := by
    intro h0
    rw [h0] at hpos
    exact absurd hpos (by decide)
  rw [feed_part (new limit) h.encode rest hne rfl]
  simp only [complete, new, List.nil_append, Header.decode_encode, hcanonical, gt_iff_lt,
    Nat.not_lt.mpr hmax, hsize, ↓reduceIte, Option.toList_none, expecting]

/-- A frame as a whole gives its packet. -/
theorem feed_frame (limit : Nat) {p : Packet} (hp : p.WellFormed) (hmax : p.payload.length ≤ limit)
    (rest : List UInt8) :
    (new limit).feed (p.header.encode ++ p.payload ++ rest) =
      { (new limit).feed rest with packets := p :: ((new limit).feed rest).packets } := by
  obtain ⟨header, payload⟩ := p
  obtain ⟨hsize, hcanonical⟩ := hp
  simp only at hsize hcanonical hmax ⊢
  rw [List.append_assoc]
  by_cases hempty : payload = []
  · -- The frame is complete with its header.
    subst hempty
    have hzero : header.size = 0 := UInt32.toNat_inj.mp hsize
    have hne : header.encode ≠ [] := by simp [Header.encode]
    rw [List.nil_append, feed_part (new limit) header.encode rest hne rfl]
    simp only [complete, new, List.nil_append, Header.decode_encode, hcanonical, hzero, gt_iff_lt,
      UInt32.toNat_zero, Nat.not_lt_zero, ↓reduceIte, Option.toList_some, List.singleton_append,
      reset]
  · have hpos : 0 < header.size.toNat := by
      rw [hsize]; exact List.length_pos_iff.mpr hempty
    rw [feed_header limit header _ hcanonical (by omega) hpos,
      feed_part (expecting limit header) payload rest hempty (by
        rw [← hsize]; rfl)]
    simp only [complete, expecting, List.nil_append, Option.toList_some, List.singleton_append, reset,
      new]

/-- Bytes that begin with a faulty header give the fault and nothing else. -/
private theorem feed_faulty {limit : Nat} {rest : List UInt8} {fault : Fault}
    (h : Faulty limit rest fault) :
    (new limit).feed rest = { packets := [], reader := new limit, fault := some fault } := by
  -- The eleven bytes are looked at on their own; what follows them is never read.
  suffices hraw : ∃ raw more, rest = raw ++ more ∧ raw.length = 11 ∧
      ({ new limit with buffer := raw } : Reader).complete = .error fault by
    obtain ⟨raw, more, rfl, hlen, hfault⟩ := hraw
    rw [feed_part (new limit) raw more (by rintro rfl; cases hlen) hlen]
    simp only [show (new limit).buffer ++ raw = raw from rfl, hfault]
    rfl
  have hdecode {raw : List UInt8} (hd : Header.decode raw = .error fault) :
      ({ new limit with buffer := raw } : Reader).complete = .error fault := by
    simp only [complete, new, hd]
  cases h with
  | magic hlen hfirst hbad =>
    have htake : (rest.take 11).length = 11 := by rw [List.length_take]; omega
    refine ⟨rest.take 11, rest.drop 11, (List.take_append_drop 11 rest).symm, htake, hdecode ?_⟩
    rw [Header.decode_eq_error_iff htake]
    exact .inl ⟨_, by rw [List.getElem?_take_of_lt (by decide), hfirst], hbad, rfl⟩
  | marker hlen hfirst hlast hmore hend =>
    have htake : (rest.take 11).length = 11 := by rw [List.length_take]; omega
    refine ⟨rest.take 11, rest.drop 11, (List.take_append_drop 11 rest).symm, htake, hdecode ?_⟩
    rw [Header.decode_eq_error_iff htake]
    exact .inr ⟨_, by rw [List.getElem?_take_of_lt (by decide), hfirst],
      by rw [List.getElem?_take_of_lt (by decide), hlast], hmore, hend, rfl⟩
  | oversized hsize =>
    rename_i header more
    refine ⟨header.encode, more, rfl, header.length_encode, ?_⟩
    simp only [complete, new, Header.decode_encode, Header.size_canonical, gt_iff_lt, hsize,
      ↓reduceIte]

/-- Where a reader stands behind a stream with an ending. -/
structure StandsAt (r : Reader) (limit : Nat) (ending : Ending) : Prop where
  finish : r.finish = ending.finish
  fresh : (∀ buffered expected, ending ≠ .unfinished buffered expected) → r = new limit

/-- The beginning of a frame gives nothing and is remembered. -/
private theorem feed_unfinished {limit : Nat} {rest : List UInt8} {expected : Nat}
    (h : Unfinished limit rest expected) :
    ∃ r, (new limit).feed rest = { packets := [], reader := r, fault := none } ∧
      r.finish = .error (.truncated rest.length expected) := by
  cases h with
  | header hne hlen =>
    refine ⟨_, feed_short (new limit) rest hlen, ?_⟩
    have hbusy : rest.isEmpty = false := by rwa [List.isEmpty_eq_false_iff]
    simp only [finish, isIdle, new, List.nil_append, hbusy, Bool.and_false, Bool.false_eq_true,
      ↓reduceIte]
    rfl
  | payload hmax hlen =>
    rename_i header data
    -- The header may name its enumerations otherwise; the size that counts is the same.
    have hbytes : header.encode = header.canonical.encode := by
      rw [Header.encode_decode (Header.decode_encode header)]
    refine ⟨{ expecting limit header.canonical with buffer := data }, ?_, ?_⟩
    · rw [hbytes, feed_header limit _ data header.canonical_canonical hmax (by
        rw [Header.size_canonical]; omega)]
      exact feed_short (expecting limit header.canonical) data hlen
    · rw [List.length_append, Header.length_encode]
      rfl

/-- Behind an ending a reader has given out nothing more. -/
private theorem feed_rest {limit : Nat} {rest : List UInt8} {ending : Ending}
    (h : Rest limit rest ending) :
    ∃ r, (new limit).feed rest = { packets := [], reader := r, fault := ending.fault? } ∧
      StandsAt r limit ending := by
  cases h with
  | clean => exact ⟨new limit, feed_nil _, rfl, fun _ => rfl⟩
  | unfinished h =>
    obtain ⟨r, hfeed, hfinish⟩ := feed_unfinished h
    exact ⟨r, hfeed, hfinish, fun h => absurd rfl (h _ _)⟩
  | faulty h => exact ⟨new limit, feed_faulty h, rfl, fun _ => rfl⟩

/-- A reader gives out the packets of a stream and stands where its ending says. -/
theorem feed_stream {limit : Nat} {bytes : List UInt8} {packets : List Packet} {ending : Ending}
    (h : Stream limit bytes packets ending) :
    ∃ r, (new limit).feed bytes = { packets, reader := r, fault := ending.fault? } ∧
      StandsAt r limit ending := by
  induction h with
  | rest h => exact feed_rest h
  | frame hp hmax h ih =>
    obtain ⟨r, hfeed, hends⟩ := ih
    refine ⟨r, ?_, hends⟩
    rw [feed_frame limit hp hmax, hfeed]

end Reader

/-- Bytes are one stream only. -/
theorem Stream.unique {limit : Nat} {bytes : List UInt8} {packets packets' : List Packet}
    {e e' : Ending} (h : Stream limit bytes packets e) (h' : Stream limit bytes packets' e') :
    packets = packets' ∧ e = e' := by
  obtain ⟨r, hfeed, hends⟩ := Reader.feed_stream h
  obtain ⟨r', hfeed', hends'⟩ := Reader.feed_stream h'
  rw [hfeed] at hfeed'
  obtain ⟨hpackets, rfl, hfault⟩ := Intake.mk.inj hfeed'
  exact ⟨hpackets, Ending.eq_of_fault?_of_finish hfault (hends.finish.symm.trans hends'.finish)⟩

/-- Bytes make one ending at most. -/
theorem Rest.unique {limit : Nat} {rest : List UInt8} {e e' : Ending} (h : Rest limit rest e)
    (h' : Rest limit rest e') : e = e' := (Stream.unique (.rest h) (.rest h')).2

/-- Eleven bytes or more begin with a header or are faulty. -/
private theorem exists_header_or_faulty (limit : Nat) {bytes : List UInt8} (hlen : 11 ≤ bytes.length) :
    (∃ h more, bytes = Header.encode h ++ more ∧ h.canonical = h) ∨
      ∃ fault, Faulty limit bytes fault := by
  have htake : (bytes.take 11).length = 11 := by rw [List.length_take]; omega
  have hget {i : Nat} (hi : i < 11) : (bytes.take 11)[i]? = bytes[i]? :=
    List.getElem?_take_of_lt hi
  cases hd : Header.decode (bytes.take 11) with
  | ok h =>
    left
    refine ⟨h, bytes.drop 11, ?_, Header.canonical_of_decode hd⟩
    rw [Header.encode_decode hd, List.take_append_drop]
  | error fault =>
    right
    rcases (Header.decode_eq_error_iff htake).mp hd with
      ⟨found, hfirst, hbad, rfl⟩ | ⟨found, hfirst, hlast, hmore, hend, rfl⟩
    · rw [hget (by decide)] at hfirst
      exact ⟨_, .magic hlen hfirst hbad⟩
    · rw [hget (by decide)] at hfirst hlast
      exact ⟨_, .marker hlen hfirst hlast hmore hend⟩

/-- Every byte string is a stream. -/
theorem exists_stream (limit : Nat) (bytes : List UInt8) :
    ∃ packets ending, Stream limit bytes packets ending := by
  induction hn : bytes.length using Nat.strongRecOn generalizing bytes with
  | ind n ih =>
    by_cases hshort : bytes.length < 11
    · by_cases hne : bytes = []
      · exact ⟨[], .clean, .rest (hne ▸ .clean)⟩
      · exact ⟨[], _, .rest (.unfinished (.header hne hshort))⟩
    · have hlong : 11 ≤ bytes.length := by omega
      rcases exists_header_or_faulty limit hlong with ⟨h, more, rfl, hcanonical⟩ | ⟨fault, hfault⟩
      · by_cases hsize : limit < h.size.toNat
        · exact ⟨[], _, .rest (.faulty (.oversized hsize))⟩
        · by_cases hmore : more.length < h.size.toNat
          · exact ⟨[], _, .rest (.unfinished (.payload (by omega) hmore))⟩
          · -- A whole frame: it is cut off, and the rest is a stream of its own.
            have htake : (more.take h.size.toNat).length = h.size.toNat := by
              rw [List.length_take]; omega
            obtain ⟨packets, ending, hstream⟩ := ih (more.drop h.size.toNat).length (by
              rw [← hn, List.length_append, List.length_drop, Header.length_encode, Header.length]
              omega) _ rfl
            have hframe := Stream.frame (p := { header := h, payload := more.take h.size.toNat })
              ⟨htake.symm, hcanonical⟩ (by rw [htake]; omega) hstream
            simp only [List.append_assoc, List.take_append_drop] at hframe
            exact ⟨_, ending, hframe⟩
      · exact ⟨[], _, .rest (.faulty hfault)⟩

/-- What a reader accepts: the bytes are the frames of the packets that it gives out, and then a rest.
It goes on as long as the rest is nothing, less than a header, or a header with less than its payload,
and then says what is lacking; it stops at eleven bytes that are a faulty header, with the first fault
in them, and is as it was at the beginning. -/
theorem feed_accepts_grammar (limit : Nat) (bytes : List UInt8) :
    let intake := (Reader.new limit).feed bytes
    ∃ frames rest, Packet.encodeAll intake.packets = .ok frames ∧ bytes = frames ++ rest ∧
      (∀ p ∈ intake.packets, p.WellFormed ∧ p.payload.length ≤ limit) ∧
      (intake.fault = none ↔ rest = [] ∨ ∃ expected, Unfinished limit rest expected) ∧
      (intake.fault = none → (intake.reader.finish = .ok () ↔ rest = [])) ∧
      (∀ expected, Unfinished limit rest expected →
        intake.reader.finish = .error (.truncated rest.length expected) ∧
          rest.length < expected) ∧
      (∀ fault, intake.fault = some fault ↔ Faulty limit rest fault) ∧
      (intake.fault.isSome → intake.reader = Reader.new limit) := by
  -- The stream is parsed first. What the reader does with it is then a matter of its ending, which is the
  -- only one it can have.
  obtain ⟨packets, ending, hstream⟩ := exists_stream limit bytes
  obtain ⟨frames, rest, hframes, hbytes, hrest⟩ := hstream.exists_rest
  obtain ⟨r, hfeed, hends⟩ := Reader.feed_stream hstream
  rw [hfeed]
  refine ⟨frames, rest, hframes, hbytes, hstream.wellFormed, ?_, ?_, ?_, ?_, ?_⟩
  · cases hrest with
    | clean => simp [Ending.fault?]
    | unfinished h => exact iff_of_true rfl (.inr ⟨_, h⟩)
    | faulty h =>
      refine iff_of_false (by simp [Ending.fault?]) ?_
      rintro (rfl | ⟨expected, hopen⟩)
      · cases Rest.unique (.faulty h) .clean
      · cases Rest.unique (.faulty h) (.unfinished hopen)
  · intro hok
    show r.finish = .ok () ↔ rest = []
    rw [hends.finish]
    cases hrest with
    | clean => simp [Ending.finish]
    | unfinished h => simp [Ending.finish, h.ne_nil]
    | faulty h => cases hok
  · intro expected hopen
    have hending := Rest.unique hrest (.unfinished hopen)
    exact ⟨hends.finish.trans (by rw [hending]; rfl), hopen.length_lt⟩
  · intro fault
    constructor
    · intro hfault
      cases hrest with
      | clean => cases hfault
      | unfinished h => cases hfault
      | faulty h =>
        cases hfault
        exact h
    · intro hfault
      rw [Rest.unique hrest (.faulty hfault)]
      rfl
  · intro hfault
    refine hends.fresh fun buffered expected hending => ?_
    rw [hending] at hfault
    cases hfault

end Frame

end Depot
