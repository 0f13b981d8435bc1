import Depot.Packet.Basic

/-!
# Packets and their frames

A packet is `WellFormed` when its frame says all of it: the header announces the payload, and the
enumerations in the header are the ones that their bytes stand for. Every packet that was `Built` with
the constructors is, as long as a header can announce its payload.

## Key results

- `Built.wellFormed`: the constructors give well-formed packets
- `Header.decode_eq_error_iff`: which eleven bytes are no header, and why not
- `Header.canonical_of_decode`: what reads as a header reads back unchanged
-/

namespace Depot

/-- A packet as frames carry it: the header announces the payload, and the enumerations in it are the
ones that their bytes stand for. -/
structure Packet.WellFormed (p : Packet) : Prop where
  announced : p.header.size.toNat = p.payload.length
  canonical : p.header.canonical = p.header

/-- The packets that the constructors give, from enumerations that their bytes stand for. -/
inductive Packet.Built : Packet → Prop
  | new {request : RequestType} {payload : List UInt8}
      (hrequest : RequestType.ofByte request.toByte = request) : Built (.new request payload)
  | withSequence {p : Packet} (h : Built p) (n : UInt16) : Built (p.withSequence n)
  | withKind {p : Packet} {kind : FileKind} (h : Built p)
      (hkind : FileKind.ofByte kind.toByte = kind) : Built (p.withKind kind)
  | withOperation {p : Packet} (h : Built p) (operation : UInt8) : Built (p.withOperation operation)
  | withMore {p : Packet} (h : Built p) (more : Bool) : Built (p.withMore more)

namespace Packet

/-- The size in the header of a built packet is that of its payload, as far as a header can say it. -/
theorem Built.size_eq {p : Packet} (h : p.Built) :
    p.header.size = UInt32.ofNat (min p.payload.length maxAnnounced) := by
  -- Only the first constructor chooses a payload, and it announces it.
  induction h with
  | new _ => rfl
  | withSequence _ _ ih => exact ih
  | withKind _ _ ih => exact ih
  | withOperation _ _ ih => exact ih
  | withMore _ _ ih => exact ih

/-- The header of a built packet reads back as itself. -/
theorem Built.canonical_eq {p : Packet} (h : p.Built) : p.header.canonical = p.header := by
  suffices hbytes : RequestType.ofByte p.header.request.toByte = p.header.request ∧
      FileKind.ofByte p.header.kind.toByte = p.header.kind by
    rw [Header.canonical, hbytes.1, hbytes.2]
  -- Only `new` and `withKind` choose an enumeration.
  induction h with
  | new hrequest => exact ⟨hrequest, rfl⟩
  | withSequence _ _ ih => exact ih
  | withKind _ hkind ih => exact ⟨ih.1, hkind⟩
  | withOperation _ _ ih => exact ih
  | withMore _ _ ih => exact ih

/-- A built packet is well-formed if its payload can be announced. -/
theorem Built.wellFormed {p : Packet} (h : p.Built) (hlen : p.payload.length ≤ maxAnnounced) :
    p.WellFormed := by
  have hlt : p.payload.length < UInt32.size := by
    simp only [maxAnnounced] at hlen
    simp only [UInt32.size]; omega
  refine ⟨?_, h.canonical_eq⟩
  rw [h.size_eq, Nat.min_eq_left hlen, UInt32.toNat_ofNat_of_lt' hlt]

/-- A packet whose payload can be announced has a frame. -/
theorem encode_of_le {p : Packet} (h : p.payload.length ≤ maxAnnounced) :
    p.encode = .ok (p.header.encode ++ p.payload) := by
  rw [encode, if_neg (by omega)]

/-- What is announced could be. -/
theorem WellFormed.length_le {p : Packet} (h : p.WellFormed) : p.payload.length ≤ maxAnnounced := by
  have hlt := p.header.size.toNat_lt
  have hsize := h.announced
  simp only [maxAnnounced]; omega

/-- The frames of packets, one after another. -/
def encodeAll : List Packet → Except Frame.Fault (List UInt8)
  | [] => .ok []
  | p :: rest => do
      let frame ← p.encode
      let frames ← encodeAll rest
      return frame ++ frames

/-- One more packet in front is one more frame in front. -/
theorem encodeAll_cons {p : Packet} {packets : List Packet} {frame frames : List UInt8}
    (hp : p.encode = .ok frame) (hps : encodeAll packets = .ok frames) :
    encodeAll (p :: packets) = .ok (frame ++ frames) := by
  rw [encodeAll, hp, hps]
  rfl

/-- Packets with frames after the first are the frame of the first and those of the others. -/
theorem encodeAll_cons_eq_ok {p : Packet} {packets : List Packet} {bytes : List UInt8}
    (h : encodeAll (p :: packets) = .ok bytes) :
    ∃ frame frames, p.encode = .ok frame ∧ encodeAll packets = .ok frames ∧
      bytes = frame ++ frames := by
  rw [encodeAll] at h
  cases hp : p.encode with
  | error fault => rw [hp] at h; cases h
  | ok frame =>
    cases hps : encodeAll packets with
    | error fault => rw [hp, hps] at h; cases h
    | ok frames =>
      rw [hp, hps] at h
      cases h
      exact ⟨frame, frames, rfl, rfl, rfl⟩

/-- The frames of packets in a row stand in a row. -/
theorem encodeAll_append {packets packets' : List Packet} {frames frames' : List UInt8}
    (h : encodeAll packets = .ok frames) (h' : encodeAll packets' = .ok frames') :
    encodeAll (packets ++ packets') = .ok (frames ++ frames') := by
  -- Frame by frame along the first packets.
  induction packets generalizing frames with
  | nil =>
    cases h
    exact h'
  | cons p packets ih =>
    obtain ⟨frame, rest, hp, hrest, rfl⟩ := encodeAll_cons_eq_ok h
    rw [List.cons_append, encodeAll_cons hp (ih hrest), List.append_assoc]

/-- Packets have frames if their payloads can be announced. -/
theorem exists_encodeAll {packets : List Packet}
    (h : ∀ p ∈ packets, p.payload.length ≤ maxAnnounced) :
    ∃ frames, encodeAll packets = .ok frames := by
  induction packets with
  | nil => exact ⟨[], rfl⟩
  | cons p packets ih =>
    obtain ⟨frames, hframes⟩ := ih fun q hq => h q (List.mem_cons_of_mem p hq)
    exact ⟨_, encodeAll_cons (encode_of_le (h p List.mem_cons_self)) hframes⟩

end Packet

namespace Header

/-- Eleven bytes are no header if the first is not the magic byte or else the last is no marker, and
only then. -/
theorem decode_eq_error_iff {raw : List UInt8} {fault : Frame.Fault} (hlen : raw.length = 11) :
    decode raw = .error fault ↔
      (∃ found, raw[0]? = some found ∧ found ≠ 0x01 ∧ fault = .badMagic found) ∨
      (∃ found, raw[0]? = some 0x01 ∧ raw[10]? = some found ∧ found ≠ 0xf0 ∧ found ≠ 0x0f ∧
        fault = .badMarker found) := by
  -- With the bytes named, only the first and the last are looked at.
  match raw, hlen with
  | [first, _, _, _, _, _, _, _, _, _, marker], _ =>
    simp only [decode, more?, magic, moreMarker, lastMarker, List.getElem?_cons_zero,
      List.getElem?_cons_succ, Option.some.injEq]
    by_cases hfirst : first = 0x01
    · by_cases hmore : marker = 0xf0
      · simp [hfirst, hmore]
      · by_cases hlast : marker = 0x0f
        · simp [hfirst, hlast]
        · simp [hfirst, hmore, hlast, eq_comm]
    · simp [hfirst, eq_comm]

/-- What reads as a header names its enumerations as their bytes do. -/
theorem canonical_of_decode {raw : List UInt8} {h : Header} (hd : decode raw = .ok h) :
    h.canonical = h := by
  have hcanonical := decode_encode h
  rw [encode_decode hd, hd] at hcanonical
  exact (Except.ok.inj hcanonical).symm

@[simp] theorem size_canonical (h : Header) : h.canonical.size = h.size := rfl

theorem canonical_canonical (h : Header) : h.canonical.canonical = h.canonical :=
  canonical_of_decode (decode_encode h)

/-- A header is written as the one that it reads back as. -/
theorem encode_canonical (h : Header) : h.canonical.encode = h.encode :=
  encode_decode (decode_encode h)

end Header

namespace Packet

/-- The packet as it reads back from its frame. -/
def canonical (p : Packet) : Packet := { p with header := p.header.canonical }

/-- A packet has the frame of the packet that it reads back as. -/
theorem encode_canonical (p : Packet) : p.canonical.encode = p.encode := by
  simp only [encode, canonical, Header.encode_canonical]

/-- Packets have the frames of the packets that they read back as. -/
theorem encodeAll_canonical (packets : List Packet) :
    encodeAll (packets.map canonical) = encodeAll packets := by
  induction packets with
  | nil => rfl
  | cons p packets ih => simp only [List.map_cons, encodeAll, encode_canonical, ih]

/-- A packet that announces its payload reads back as a well-formed one. -/
theorem wellFormed_canonical {p : Packet} (h : p.header.size.toNat = p.payload.length) :
    p.canonical.WellFormed := ⟨h, Header.canonical_canonical p.header⟩

end Packet

end Depot
