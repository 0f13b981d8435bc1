import Depot.Proofs.Packet.Frames

/-!
# Canonical values

The three enumerations of the protocol keep a byte without a meaning in `other`, so every byte can be
read and written again. Nothing keeps `other` from holding a byte that does have a meaning, though. Such a
value is written like the one with the name, and reads back as that one; every other value is `Canonical`
and reads back as itself.

A header has two enumerations, so it reads back as it was written just if both are canonical. In the other
direction nothing is lost: the eleven bytes of a header are what is written for it.

## Key results

- `RequestType.ofByte_toByte_iff`, `FileKind.ofByte_toByte_iff`, `ErrorCode.ofByte_toByte_iff`: the values
  that read back as themselves
- `Header.codec_is_exact`: reading and writing headers, in both directions
-/

namespace Depot

/-- Whether a purpose is not `other` with the byte of an assigned one. -/
def RequestType.Canonical (r : RequestType) : Prop := ∀ b, r = .other b → ∀ k ∈ known, k.toByte ≠ b

/-- Whether a storage area is not `other` with the byte of an assigned one. -/
def FileKind.Canonical (k : FileKind) : Prop := ∀ b, k = .other b → ∀ l ∈ known, l.toByte ≠ b

/-- Whether a reason is not `other` with the byte of an assigned one. -/
def ErrorCode.Canonical (c : ErrorCode) : Prop := ∀ b, c = .other b → ∀ d ∈ known, d.toByte ≠ b

/-- Where every known value is read from its byte, a byte goes to `other` if no known value has it. -/
private theorem eq_other_iff {α : Type} {ofByte : UInt8 → α} {toByte : α → UInt8} {other : UInt8 → α}
    {known : List α} (hwritten : ∀ b, toByte (ofByte b) = b) (hread : ∀ k ∈ known, ofByte (toByte k) = k)
    (hother : ∀ b c, other b = other c → b = c) (hknown : ∀ b, other b ∉ known)
    (htable : ∀ b, ofByte b ∈ known ∨ ofByte b = other b) (b : UInt8) :
    ofByte b = other b ↔ ∀ c, other b = other c → ∀ k ∈ known, toByte k ≠ c := by
  constructor
  -- A known value with that byte would be read from it.
  · rintro hunread c hc k hk rfl
    have hbyte := hread k hk
    rw [← hother b _ hc, hunread] at hbyte
    exact hknown b (hbyte ▸ hk)
  · intro hnone
    rcases htable b with hk | hunread
    · exact absurd (hwritten b) (hnone b rfl _ hk)
    · exact hunread

/-- Reading what was written for a purpose gives it back, unless `other` hides one with a name. -/
theorem RequestType.ofByte_toByte_iff (r : RequestType) : ofByte r.toByte = r ↔ r.Canonical := by
  cases r with
  | other b =>
    have htable (b : UInt8) : ofByte b ∈ known ∨ ofByte b = other b := by
      unfold ofByte
      split <;> simp [known]
    exact eq_other_iff toByte_ofByte (by decide) (fun _ _ => other.inj) (by simp [known]) htable b
  | _ => exact iff_of_true rfl fun _ h => by cases h

/-- Reading what was written for a storage area gives it back under the same condition. -/
theorem FileKind.ofByte_toByte_iff (k : FileKind) : ofByte k.toByte = k ↔ k.Canonical := by
  cases k with
  | other b =>
    have htable (b : UInt8) : ofByte b ∈ known ∨ ofByte b = other b := by
      unfold ofByte
      split <;> simp [known]
    exact eq_other_iff toByte_ofByte (by decide) (fun _ _ => other.inj) (by simp [known]) htable b
  | _ => exact iff_of_true rfl fun _ h => by cases h

/-- Reading what was written for a reason does, too. -/
theorem ErrorCode.ofByte_toByte_iff (c : ErrorCode) : ofByte c.toByte = c ↔ c.Canonical := by
  cases c with
  | other b =>
    have htable (b : UInt8) : ofByte b ∈ known ∨ ofByte b = other b := by
      unfold ofByte
      split <;> simp [known]
    exact eq_other_iff toByte_ofByte (by decide) (fun _ _ => other.inj) (by simp [known]) htable b
  | _ => exact iff_of_true rfl fun _ h => by cases h

namespace Header

/-- A header is canonical if both its enumerations are. -/
theorem canonical_eq_iff (h : Header) :
    h.canonical = h ↔ h.request.Canonical ∧ h.kind.Canonical := by
  rw [← RequestType.ofByte_toByte_iff, ← FileKind.ofByte_toByte_iff]
  constructor
  · intro heq
    exact ⟨congrArg Header.request heq, congrArg Header.kind heq⟩
  · rintro ⟨hrequest, hkind⟩
    rw [canonical, hrequest, hkind]

/-- Eleven bytes are a header if the first is the magic byte and the last is a marker, and only then. -/
theorem exists_decode_iff {raw : List UInt8} (hlen : raw.length = 11) :
    (∃ h, decode raw = .ok h) ↔
      raw[0]? = some 0x01 ∧ (raw[10]? = some 0xf0 ∨ raw[10]? = some 0x0f) := by
  -- With the bytes named, only the first and the last are looked at.
  match raw, hlen with
  | [first, _, _, _, _, _, _, _, _, _, marker], _ =>
    simp only [decode, more?, magic, moreMarker, lastMarker, List.getElem?_cons_zero,
      List.getElem?_cons_succ, Option.some.injEq]
    by_cases hfirst : first = 0x01
    · by_cases hmore : marker = 0xf0
      · simp [hfirst, hmore]
      · by_cases hlast : marker = 0x0f
        · simp [hfirst, hlast]
        · simp [hfirst, hmore, hlast]
    · simp [hfirst]

/-- Eleven bytes read as a header just if they begin with the magic byte and end with a marker; what is
written for that header is then the same eleven bytes, so none of them is lost, with a meaning or without.
Any header that is written reads back with its enumerations as their bytes tell them, and so as itself if
and only if both are canonical. -/
theorem codec_is_exact :
    (∀ raw : Vector UInt8 11,
      ((∃ h, decode raw.toList = .ok h) ↔ raw[0] = 0x01 ∧ (raw[10] = 0xf0 ∨ raw[10] = 0x0f)) ∧
        ∀ h, decode raw.toList = .ok h → h.encode = raw.toList) ∧
      ∀ h : Header, h.encode.length = 11 ∧
        decode h.encode = .ok { h with
          request := .ofByte h.request.toByte
          kind := .ofByte h.kind.toByte } ∧
        (decode h.encode = .ok h ↔ h.request.Canonical ∧ h.kind.Canonical) := by
  refine ⟨fun raw => ⟨?_, fun h hdecode => encode_decode hdecode⟩,
    fun h => ⟨length_encode h, decode_encode h, ?_⟩⟩
  · have hfirst : raw.toList[0]? = some raw[0] := by simp
    have hlast : raw.toList[10]? = some raw[10] := by simp
    rw [exists_decode_iff raw.length_toList, hfirst, hlast]
    simp only [Option.some.injEq]
  · rw [decode_encode, Except.ok.injEq, canonical_eq_iff]

/-- A purpose that hides behind `other` comes back with its name. -/
example : decode (encode { request := .other 8 }) = .ok { request := .file } := rfl

end Header

end Depot
