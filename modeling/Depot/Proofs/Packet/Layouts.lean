import Depot.Proofs.Packet.Canonical
import Depot.Proofs.Packet.Payloads

/-!
# Payloads against their layouts

Readers and writers of payloads are written apart, with offsets of their own. A `Layout` says that they fit:
what is written reads back whatever follows it, what was read is written as the very bytes it was read from,
and a payload that is cut short is told so with the number of bytes that the next field needs. A payload with
fewer bytes than that is still cut short, and one with as many is not cut short there.

Fields are read from front to back, so how a payload is read follows from how its fields are (`Staged`).

## Key results

- `writeName_cases`, `readName_eq_nameNotAscii_iff`: which names are refused, on writing and on reading
- `Staged.bind`: a reader made of two that take their fields from front to back
- `FileRequest.layout`, `FileDescriptor.layout`, `UserId.layout`, `ErrorReport.layout`
- `Payload.readers_and_writers_agree`: all four layouts, and the names that can be written
-/

namespace Depot

namespace Payload

variable {α β : Type}

/-! ### Names that can be written -/

/-- Whether a name has one byte below 128 for every character. -/
def Ascii (name : String) : Prop := ∀ c ∈ name.toList, c.toNat < 128

/-- Whether a name is ASCII can be computed. -/
theorem all_toNat_lt_iff {name : String} :
    name.toList.all (·.toNat < 128) = true ↔ Ascii name := by
  simp [Ascii]

/-- What becomes of a name that is to be written. -/
theorem writeName_cases (name : String) :
    (Ascii name ∧ name.utf8ByteSize ≤ 255 ∧ ∃ bytes, writeName name = .ok bytes) ∨
      (Ascii name ∧ 255 < name.utf8ByteSize ∧
        writeName name = .error (.nameTooLong name.utf8ByteSize)) ∨
      (¬ Ascii name ∧ writeName name = .error .nameNotAscii) := by
  -- The characters are looked at first and the length after that.
  by_cases hascii : Ascii name
  · have hall := all_toNat_lt_iff.mpr hascii
    have hsize := utf8ByteSize_of_ascii hascii
    by_cases hlen : name.toList.length > maxName
    · refine .inr (.inl ⟨hascii, hsize ▸ hlen, ?_⟩)
      simp only [writeName, hall, ↓reduceIte, if_pos hlen, hsize]
    · refine .inl ⟨hascii, hsize ▸ Nat.not_lt.mp hlen, ?_⟩
      simp only [writeName, hall, ↓reduceIte, if_neg hlen]
      exact ⟨_, rfl⟩
  · have hall : ¬ (name.toList.all (·.toNat < 128) = true) := mt all_toNat_lt_iff.mp hascii
    refine .inr (.inr ⟨hascii, ?_⟩)
    simp only [writeName, if_neg hall]

/-! ### Names that can be read -/

/-- A name is refused on reading if all of it is there with a byte outside ASCII. -/
theorem readName_eq_nameNotAscii_iff (p : List UInt8) (start : Nat) :
    readName p start = .error .nameNotAscii ↔
      ∃ front length raw after, p = front ++ length :: (raw ++ after) ∧ front.length = start ∧
        raw.length = length.toNat ∧ ∃ b ∈ raw, 128 ≤ b := by
  -- Reading fails for want of a length, for want of bytes, or for their values. Only the last is this error.
  constructor
  · intro h
    obtain hnone | ⟨front, length, rest, rfl, rfl, hrest⟩ |
      ⟨front, length, raw, after, rfl, rfl, hraw⟩ := readName_cases p start
    · rw [readName_none hnone] at h
      cases h
    · rw [readName_short front hrest] at h
      cases h
    · refine ⟨front, length, raw, after, rfl, rfl, hraw, ?_⟩
      rw [readName_whole front after hraw] at h
      split at h
      · cases h
      · next hforeign => simpa using hforeign
  · rintro ⟨front, length, raw, after, rfl, rfl, hraw, b, hb, hge⟩
    have hforeign : ¬ (raw.all (· < 128) = true) := by
      intro hall
      have := List.all_eq_true.mp hall b hb
      simp only [decide_eq_true_eq, UInt8.lt_iff_toNat_lt] at this
      rw [UInt8.le_iff_toNat_le] at hge
      omega
    rw [readName_whole front after hraw, if_neg hforeign]

/-! ### Reading in stages -/

/-- A reader that takes its fields from front to back, and so never looks beyond what it needs. -/
structure Staged (read : List UInt8 → Except PayloadError α) : Prop where
  /-- Bytes that follow do not change what is read. -/
  stable : ∀ {p a}, read p = .ok a → ∀ after, read (p ++ after) = .ok a
  /-- Where bytes are missing, all that are there are too few. -/
  available : ∀ {p needed available}, read p = .error (.truncated needed available) →
    available = p.length ∧ p.length < needed
  /-- As long as bytes are missing, as many are needed. -/
  short : ∀ {p needed available}, read p = .error (.truncated needed available) →
    ∀ after, (p ++ after).length < needed →
      read (p ++ after) = .error (.truncated needed (p ++ after).length)

/-- A reader that reads nothing is staged. -/
theorem staged_pure (a : α) : Staged fun _ => .ok a where
  stable h _ := h
  available h := by cases h
  short h := by cases h

/-- Two staged readers, one after another, make a staged one. -/
theorem Staged.bind {read : List UInt8 → Except PayloadError α}
    {next : α → List UInt8 → Except PayloadError β} (hread : Staged read)
    (hnext : ∀ a, Staged (next a)) : Staged fun p => read p >>= fun a => next a p where
  -- In each part, what the first reader says is passed on or is the end of it.
  stable := by
    intro p b h after
    cases hp : read p with
    | error e =>
      rw [hp] at h
      cases h
    | ok a =>
      rw [hp] at h
      show read (p ++ after) >>= _ = _
      rw [hread.stable hp after]
      exact (hnext a).stable h after
  available := by
    intro p needed available h
    cases hp : read p with
    | error e =>
      rw [hp] at h
      cases h
      exact hread.available hp
    | ok a =>
      rw [hp] at h
      exact (hnext a).available h
  short := by
    intro p needed available h after hlen
    cases hp : read p with
    | error e =>
      rw [hp] at h
      cases h
      show read (p ++ after) >>= _ = _
      rw [hread.short hp after hlen]
      rfl
    | ok a =>
      rw [hp] at h
      show read (p ++ after) >>= _ = _
      rw [hread.stable hp after]
      exact (hnext a).short h after hlen

/-- A word is read in one stage. -/
theorem staged_readWord (start : Nat) : Staged (readWord · start) where
  -- Its four bytes are there or not, and more bytes behind them do not matter.
  stable := by
    intro p w h after
    obtain hshort | ⟨front, v, rest, rfl, rfl⟩ := readWord_cases p start
    · rw [readWord_short hshort] at h
      cases h
    · rw [List.append_assoc, List.append_assoc, readWord_append]
      rwa [readWord_append] at h
  available := by
    intro p needed available h
    obtain hshort | ⟨front, v, rest, rfl, rfl⟩ := readWord_cases p start
    · rw [readWord_short hshort] at h
      cases h
      exact ⟨rfl, hshort⟩
    · rw [readWord_append] at h
      cases h
  short := by
    intro p needed available h after hlen
    obtain hshort | ⟨front, v, rest, rfl, rfl⟩ := readWord_cases p start
    · rw [readWord_short hshort] at h
      cases h
      exact readWord_short hlen
    · rw [readWord_append] at h
      cases h

/-- A name is read in one stage, though it takes two looks: one for the length and one for the bytes. -/
theorem staged_readName (start : Nat) : Staged (readName · start) where
  stable := by
    intro p name h after
    obtain hnone | ⟨front, length, rest, rfl, rfl, hrest⟩ |
      ⟨front, length, raw, rest, rfl, rfl, hraw⟩ := readName_cases p start
    · rw [readName_none hnone] at h
      cases h
    · rw [readName_short front hrest] at h
      cases h
    · rw [readName_whole front rest hraw] at h
      rwa [List.append_assoc, List.cons_append, List.append_assoc, readName_whole front _ hraw]
  available := by
    intro p needed available h
    obtain hnone | ⟨front, length, rest, rfl, rfl, hrest⟩ |
      ⟨front, length, raw, rest, rfl, rfl, hraw⟩ := readName_cases p start
    · rw [readName_none hnone] at h
      cases h
      exact ⟨rfl, Nat.lt_succ_of_le hnone⟩
    · rw [readName_short front hrest] at h
      cases h
      refine ⟨rfl, ?_⟩
      simp only [List.length_append, List.length_cons]
      omega
    · rw [readName_whole front rest hraw] at h
      split at h <;> cases h
  short := by
    intro p needed available h after hlen
    obtain hnone | ⟨front, length, rest, rfl, rfl, hrest⟩ |
      ⟨front, length, raw, rest, rfl, rfl, hraw⟩ := readName_cases p start
    · rw [readName_none hnone] at h
      cases h
      exact readName_none (Nat.le_of_lt_succ hlen)
    · rw [readName_short front hrest] at h
      cases h
      rw [List.append_assoc, List.cons_append] at hlen ⊢
      refine readName_short front ?_
      simp only [List.length_append, List.length_cons] at hlen ⊢
      omega
    · rw [readName_whole front rest hraw] at h
      split at h <;> cases h

/-! ### Layouts -/

/-- What makes a reader and a writer of payloads fit, where a value takes `size` bytes and reads back as its
`canonical` form. -/
structure Layout (parse : List UInt8 → Except PayloadError α)
    (encode : α → Except PayloadError (List UInt8)) (size : α → Nat) (canonical : α → α) :
    Prop where
  /-- What is written reads back, whatever follows it. -/
  parse_encode : ∀ {a bytes}, encode a = .ok bytes → ∀ after,
    parse (bytes ++ after) = .ok (canonical a)
  /-- What was read is written as the bytes it was read from. -/
  encode_parse : ∀ {p a}, parse p = .ok a → size a ≤ p.length ∧ encode a = .ok (p.take (size a))
  /-- Where bytes are missing, too few are there. -/
  available : ∀ {p needed available}, parse p = .error (.truncated needed available) →
    available = p.length ∧ p.length < needed
  /-- With fewer bytes than needed, whatever they are, there is nothing to read. -/
  short : ∀ {p needed available}, parse p = .error (.truncated needed available) →
    ∀ after, (p ++ after).length < needed → ∀ a, parse (p ++ after) ≠ .ok a
  /-- With the bytes that were needed, none of them is missing any more. -/
  enough : ∀ {p needed available}, parse p = .error (.truncated needed available) →
    ∀ after, needed ≤ (p ++ after).length →
      ∀ available, parse (p ++ after) ≠ .error (.truncated needed available)

/-- For a reader that works in stages, reading and writing are left to be compared. -/
theorem Staged.layout {parse : List UInt8 → Except PayloadError α}
    {encode : α → Except PayloadError (List UInt8)} {size : α → Nat} {canonical : α → α}
    (hstaged : Staged parse)
    (hparse : ∀ {a bytes}, encode a = .ok bytes → ∀ after, parse (bytes ++ after) = .ok (canonical a))
    (hencode : ∀ {p a}, parse p = .ok a → size a ≤ p.length ∧ encode a = .ok (p.take (size a))) :
    Layout parse encode size canonical where
  parse_encode := hparse
  encode_parse := hencode
  available := hstaged.available
  -- What is too short for a reader stays so until all is there that it asks for.
  short := by
    intro p needed available h after hlen a hok
    rw [hstaged.short h after hlen] at hok
    cases hok
  enough := by
    intro p needed available _ after hlen available' h
    exact absurd (hstaged.available h).2 (Nat.not_lt.mpr hlen)

/-- What a name does to the payload that it ends, of which it takes the bytes from `start`. -/
structure EndsInName (parse : List UInt8 → Except PayloadError α)
    (encode : α → Except PayloadError (List UInt8)) (name : α → String) (start : Nat) : Prop where
  /-- A value can be written if its name is in ASCII and not too long. -/
  encode_ok_iff : ∀ a, (∃ bytes, encode a = .ok bytes) ↔
    Ascii (name a) ∧ (name a).utf8ByteSize ≤ 255
  /-- A name outside ASCII is refused for that, however long it is. -/
  encode_eq_nameNotAscii_iff : ∀ a, encode a = .error .nameNotAscii ↔ ¬ Ascii (name a)
  encode_eq_nameTooLong_iff : ∀ a length, encode a = .error (.nameTooLong length) ↔
    Ascii (name a) ∧ 255 < (name a).utf8ByteSize ∧ length = (name a).utf8ByteSize
  /-- A name that was sent is refused if all of it is there with a byte outside ASCII. -/
  parse_eq_nameNotAscii_iff : ∀ p, parse p = .error .nameNotAscii ↔
    ∃ front length raw after, p = front ++ length :: (raw ++ after) ∧ front.length = start ∧
      raw.length = length.toNat ∧ ∃ b ∈ raw, 128 ≤ b

/-- If the name is written last, whether a payload can be written is decided by the name. -/
theorem endsInName {parse : List UInt8 → Except PayloadError α}
    {encode : α → Except PayloadError (List UInt8)} {name : α → String} {start : Nat}
    (front : α → List UInt8) (hencode : ∀ a, encode a = (writeName (name a)).map (front a ++ ·))
    (hparse : ∀ p, parse p = .error .nameNotAscii ↔ readName p start = .error .nameNotAscii) :
    EndsInName parse encode name start where
  -- What is in front of the name is always written, so only the name can fail.
  encode_ok_iff a := by
    rw [hencode]
    obtain ⟨hascii, hlen, bytes, h⟩ | ⟨hascii, hlen, h⟩ | ⟨hascii, h⟩ := writeName_cases (name a)
    · simp [h, hascii, hlen, Except.map]
    · simp [h, hascii, Nat.not_le.mpr hlen, Except.map]
    · simp [h, hascii, Except.map]
  encode_eq_nameNotAscii_iff a := by
    rw [hencode]
    obtain ⟨hascii, -, bytes, h⟩ | ⟨hascii, -, h⟩ | ⟨hascii, h⟩ := writeName_cases (name a) <;>
      simp [h, hascii, Except.map]
  encode_eq_nameTooLong_iff a length := by
    rw [hencode]
    obtain ⟨hascii, hlen, bytes, h⟩ | ⟨hascii, hlen, h⟩ | ⟨hascii, h⟩ := writeName_cases (name a)
    · simp [h, hascii, Nat.not_lt.mpr hlen, Except.map]
    · simp [h, hascii, hlen, Except.map, eq_comm]
    · simp [h, hascii, Except.map]
  parse_eq_nameNotAscii_iff p := by rw [hparse, readName_eq_nameNotAscii_iff]

/-- A word in front of a name is there when the name is refused, and is never refused itself. -/
theorem readWord_bind_eq_nameNotAscii_iff {p : List UInt8} {at' start : Nat}
    {next : UInt32 → Except PayloadError β} (hle : at' + 4 ≤ start)
    (hnext : ∀ w, next w = .error .nameNotAscii ↔ readName p start = .error .nameNotAscii) :
    (readWord p at' >>= next) = .error .nameNotAscii ↔ readName p start = .error .nameNotAscii := by
  -- The word is there, or the payload ends in it.
  obtain hshort | ⟨front, w, after, rfl, rfl⟩ := readWord_cases p at'
  · -- The payload ends within the word, so there is no name to refuse.
    have hname : readName p start ≠ .error .nameNotAscii := by
      intro h
      obtain ⟨front, length, raw, after, rfl, rfl, -⟩ := (readName_eq_nameNotAscii_iff p start).mp h
      rw [List.length_append] at hshort
      omega
    rw [readWord_short hshort]
    exact iff_of_false (by intro h; cases h) hname
  · rw [readWord_append]
    exact hnext w

/-- What is made of a name does not change whether it is refused. -/
theorem readName_bind_eq_nameNotAscii_iff {p : List UInt8} {start : Nat} {make : String → β} :
    (readName p start >>= fun name => pure (make name)) = .error .nameNotAscii ↔
      readName p start = .error .nameNotAscii := by
  cases readName p start with
  | error e => simp [bind, Except.bind]
  | ok name => simp [bind, Except.bind, pure, Except.pure]

end Payload

open Payload

namespace FileRequest

/-- A request is read in stages: the user, then the name. -/
theorem staged_parse : Staged parse :=
  (staged_readWord 0).bind fun _ => (staged_readName 4).bind fun _ => staged_pure _

/-- A request that was read is written back as the bytes that it took. -/
theorem encode_parse {p : List UInt8} {r : FileRequest} (h : parse p = .ok r) :
    5 + r.name.utf8ByteSize ≤ p.length ∧ r.encode = .ok (p.take (5 + r.name.utf8ByteSize)) := by
  obtain ⟨huser, hname⟩ := parse_eq_ok h
  obtain ⟨-, huser⟩ := bytes32_of_readWord huser
  obtain ⟨hlen, hname⟩ := writeName_of_readName hname
  have hjoin : p.take (4 + (1 + r.name.utf8ByteSize)) =
      p.take 4 ++ (p.drop 4).take (1 + r.name.utf8ByteSize) := List.take_add
  refine ⟨by omega, ?_⟩
  rw [encode, hname, huser, Nat.add_assoc 4 1, hjoin]
  rfl

/-- A request is refused for its name just when the name is. -/
theorem parse_eq_nameNotAscii_iff (p : List UInt8) :
    parse p = .error .nameNotAscii ↔ readName p 4 = .error .nameNotAscii :=
  readWord_bind_eq_nameNotAscii_iff (by omega) fun _ => readName_bind_eq_nameNotAscii_iff

/-- A request for a file takes five bytes and those of the name. -/
theorem layout : Layout parse encode (fun r => 5 + r.name.utf8ByteSize) id :=
  staged_parse.layout parse_encode encode_parse

/-- Whether a request can be written is decided by its name. -/
theorem endsInName : EndsInName parse encode name 4 :=
  Payload.endsInName (Wire.bytes32 ·.user)
    (fun r => by rw [encode]; cases writeName r.name <;> rfl) parse_eq_nameNotAscii_iff

end FileRequest

namespace FileDescriptor

/-- A description is read in stages: the size, the user, then the name. -/
theorem staged_parse : Staged parse :=
  (staged_readWord 0).bind fun _ => (staged_readWord 4).bind fun _ =>
    (staged_readName 8).bind fun _ => staged_pure _

/-- A description that was read is written back as the bytes that it took. -/
theorem encode_parse {p : List UInt8} {d : FileDescriptor} (h : parse p = .ok d) :
    9 + d.name.utf8ByteSize ≤ p.length ∧ d.encode = .ok (p.take (9 + d.name.utf8ByteSize)) := by
  obtain ⟨hsize, huser, hname⟩ := parse_eq_ok h
  obtain ⟨-, hsize⟩ := bytes32_of_readWord hsize
  obtain ⟨-, huser⟩ := bytes32_of_readWord huser
  obtain ⟨hlen, hname⟩ := writeName_of_readName hname
  -- The bytes are cut where the words and the name begin.
  have hjoin : p.take (8 + (1 + d.name.utf8ByteSize)) =
      p.take 8 ++ (p.drop 8).take (1 + d.name.utf8ByteSize) := List.take_add
  have hwords : p.take (4 + 4) = p.take 4 ++ (p.drop 4).take 4 := List.take_add
  refine ⟨by omega, ?_⟩
  rw [encode, hname, hsize, huser, Nat.add_assoc 8 1, hjoin, hwords]
  rfl

/-- A description is refused for its name just when the name is. -/
theorem parse_eq_nameNotAscii_iff (p : List UInt8) :
    parse p = .error .nameNotAscii ↔ readName p 8 = .error .nameNotAscii :=
  readWord_bind_eq_nameNotAscii_iff (by omega) fun _ =>
    readWord_bind_eq_nameNotAscii_iff (by omega) fun _ => readName_bind_eq_nameNotAscii_iff

/-- A description of a file takes nine bytes and those of the name. -/
theorem layout : Layout parse encode (fun d => 9 + d.name.utf8ByteSize) id :=
  staged_parse.layout parse_encode encode_parse

/-- Whether a description can be written is decided by its name. -/
theorem endsInName : EndsInName parse encode name 8 :=
  Payload.endsInName (fun d => Wire.bytes32 d.size ++ Wire.bytes32 d.user)
    (fun d => by rw [encode]; cases writeName d.name <;> rfl) parse_eq_nameNotAscii_iff

end FileDescriptor

/-- A user id takes four bytes. -/
theorem UserId.layout : Layout parse (fun user => .ok (encode user)) (fun _ => 4) id := by
  refine (staged_readWord 0).layout ?_ ?_
  · intro user bytes h after
    cases h
    exact readWord_append [] after user
  · intro p user h
    obtain ⟨hlen, hbytes⟩ := bytes32_of_readWord h
    exact ⟨hlen, by rw [encode, hbytes, List.drop_zero]⟩

namespace ErrorReport

/-- An error report as it reads back. -/
def canonical (r : ErrorReport) : ErrorReport :=
  { request := .ofByte r.request.toByte, code := .ofByte r.code.toByte }

/-- A report is canonical if both of its enums are. -/
theorem canonical_eq_iff (r : ErrorReport) :
    r.canonical = r ↔ r.request.Canonical ∧ r.code.Canonical := by
  rw [← RequestType.ofByte_toByte_iff, ← ErrorCode.ofByte_toByte_iff]
  constructor
  · intro h
    exact ⟨congrArg request h, congrArg code h⟩
  · rintro ⟨hrequest, hcode⟩
    rw [canonical, hrequest, hcode]

/-- A report is read in one stage of two bytes. -/
theorem staged_parse : Staged parse where
  stable := by
    intro p r h after
    match p, h with
    | _ :: _ :: _, h => exact h
  available := by
    intro p needed available h
    match p, h with
    | [], h => cases h; exact ⟨rfl, by decide⟩
    | [_], h => cases h; exact ⟨rfl, by simp⟩
  short := by
    intro p needed available h after hlen
    match p, h with
    | [], h =>
      cases h
      match after, hlen with
      | [], _ => rfl
      | [_], _ => rfl
    | [_], h =>
      cases h
      match after, hlen with
      | [], _ => rfl

/-- An error report takes two bytes. -/
theorem layout : Layout parse (fun r => .ok r.encode) (fun _ => 2) canonical := by
  refine staged_parse.layout ?_ ?_
  · intro r bytes h after
    cases h
    rfl
  · intro p r h
    -- Every byte is a request and every byte is an error, so two bytes are a report.
    match p, h with
    | b0 :: b1 :: _, h =>
      cases h
      refine ⟨by simp, ?_⟩
      simp only [encode, RequestType.toByte_ofByte, ErrorCode.toByte_ofByte, List.take_succ_cons,
        List.take_zero]

end ErrorReport

/-- Requests for files, descriptions of files, user ids and error reports are read as they are written and
written as they were read, and are told precisely to be cut short. The first two can be written if the name is
in ASCII and its length fits a byte, and are refused on reading for a name outside ASCII only when all of it is
there; whatever file can be asked for can be described. An error report reads back as itself if both its
enumerations are canonical. -/
theorem Payload.readers_and_writers_agree :
    (Layout FileRequest.parse FileRequest.encode (fun r => 5 + r.name.utf8ByteSize) id ∧
        EndsInName FileRequest.parse FileRequest.encode FileRequest.name 4) ∧
      (Layout FileDescriptor.parse FileDescriptor.encode (fun d => 9 + d.name.utf8ByteSize) id ∧
        EndsInName FileDescriptor.parse FileDescriptor.encode FileDescriptor.name 8) ∧
      (∀ p r size, FileRequest.parse p = .ok r →
        ∃ bytes, FileDescriptor.encode ⟨size, r.user, r.name⟩ = .ok bytes) ∧
      Layout UserId.parse (fun user => .ok (UserId.encode user)) (fun _ => 4) id ∧
      Layout ErrorReport.parse (fun r => .ok r.encode) (fun _ => 2) ErrorReport.canonical ∧
      ∀ r : ErrorReport, r.canonical = r ↔ r.request.Canonical ∧ r.code.Canonical :=
  ⟨⟨FileRequest.layout, FileRequest.endsInName⟩, ⟨FileDescriptor.layout, FileDescriptor.endsInName⟩,
    fun _ _ size h => FileRequest.exists_description_of_parse h size,
    UserId.layout, ErrorReport.layout, ErrorReport.canonical_eq_iff⟩

/-- The length of the name is looked at before the name. -/
example : FileRequest.parse [1, 0, 0, 0, 3, 0xe9] = .error (.truncated 8 6) := rfl

end Depot
