import Depot.Packet.Payload

/-!
# Payloads read back

A name is written in as many bytes as it has characters, behind one more that says how many, and what
is written reads back wherever it stands in a payload and whatever follows it. In the other direction, a
field that was read is written as the bytes that stand there.

## Key results

- `readWord_cases`, `readName_cases`: the forms that a payload has where a field is read
- `readWord_append`, `readName_append`: a field reads back where it was written
- `bytes32_of_readWord`, `writeName_of_readName`: a field is written as it was read
- `FileRequest.parse_encode`, `FileDescriptor.parse_encode`: a payload reads back
- `FileRequest.exists_description_of_parse`: whatever file can be asked for can be described
-/

namespace Depot

namespace Payload

/-! ### Names -/

/-- What is written for a name. -/
theorem writeName_eq_ok {name : String} {bytes : List UInt8} (h : writeName name = .ok bytes) :
    (∀ c ∈ name.toList, c.toNat < 128) ∧ name.toList.length ≤ maxName ∧
      bytes = UInt8.ofNat name.toList.length :: name.toList.map fun c => UInt8.ofNat c.toNat := by
  simp only [writeName] at h
  split at h
  · next hascii =>
    split at h
    · cases h
    · next hlen =>
      cases h
      refine ⟨fun c hc => ?_, Nat.not_lt.mp hlen, rfl⟩
      simpa using List.all_eq_true.mp hascii c hc
  · cases h

/-- A text in ASCII has as many bytes as characters. -/
theorem utf8ByteSize_of_ascii {s : String} (h : ∀ c ∈ s.toList, c.toNat < 128) :
    s.utf8ByteSize = s.toList.length := by
  suffices hlist : ∀ cs : List Char, (∀ c ∈ cs, c.toNat < 128) →
      (String.ofList cs).utf8ByteSize = cs.length by
    have := hlist s.toList h
    rwa [String.ofList_toList] at this
  intro cs hcs
  -- Character by character, each of which takes one byte.
  induction cs with
  | nil => rfl
  | cons c cs ih =>
    have hc : c.utf8Size = 1 := by
      rw [Char.utf8Size_eq_one_iff, UInt32.le_iff_toNat_le]
      exact Nat.le_of_lt_succ (hcs c List.mem_cons_self)
    rw [String.ofList_cons, String.utf8ByteSize_append, String.utf8ByteSize_singleton, hc,
      ih fun d hd => hcs d (List.mem_cons_of_mem c hd), List.length_cons, Nat.add_comm]

/-- A byte below 128 is the code of a character. -/
private theorem toNat_char_of_byte {b : UInt8} (h : b.toNat < 128) :
    (Char.ofNat b.toNat).toNat = b.toNat := by
  have hvalid : b.toNat.isValidChar := .inl (by omega)
  rw [Char.ofNat, dif_pos hvalid]
  rfl

/-- The bytes of a name are what is written for the text they stand for. -/
theorem writeName_ofList {raw : List UInt8} (hascii : raw.all (· < 128) = true)
    (hlen : raw.length ≤ maxName) :
    writeName (String.ofList (raw.map fun b => Char.ofNat b.toNat)) =
      .ok (UInt8.ofNat raw.length :: raw) := by
  have hbyte : ∀ b ∈ raw, (Char.ofNat b.toNat).toNat = b.toNat := by
    intro b hb
    have hlt := List.all_eq_true.mp hascii b hb
    exact toNat_char_of_byte (by simpa [UInt8.lt_iff_toNat_lt] using hlt)
  have hchars : (raw.map fun b => Char.ofNat b.toNat).all (·.toNat < 128) = true := by
    rw [List.all_map, List.all_eq_true]
    intro b hb
    have hlt := List.all_eq_true.mp hascii b hb
    simpa [hbyte b hb, UInt8.lt_iff_toNat_lt] using hlt
  -- From byte to character and back again.
  have hback : (raw.map fun b => Char.ofNat b.toNat).map (fun c => UInt8.ofNat c.toNat) = raw := by
    rw [List.map_map]
    conv => rhs; rw [← List.map_id raw]
    refine List.map_congr_left fun b hb => ?_
    rw [Function.comp_apply, hbyte b hb, UInt8.ofNat_toNat, id]
  simp only [writeName, String.toList_ofList, hchars, ↓reduceIte, List.length_map,
    if_neg (Nat.not_lt.mpr hlen), hback]

/-! ### Fields -/

/-- A field has all its bytes in the payload, or not. -/
theorem split_at_or_short (p : List UInt8) (start size : Nat) :
    p.length < start + size ∨
      ∃ front field after, p = front ++ (field ++ after) ∧ front.length = start ∧
        field.length = size := by
  by_cases h : p.length < start + size
  · exact .inl h
  · refine .inr ⟨p.take start, (p.drop start).take size, (p.drop start).drop size, ?_, ?_, ?_⟩
    · rw [List.take_append_drop, List.take_append_drop]
    · rw [List.length_take]
      omega
    · rw [List.length_take, List.length_drop]
      omega

/-- A word that was written reads back. -/
theorem readWord_append (before after : List UInt8) (w : UInt32) :
    readWord (before ++ (Wire.bytes32 w ++ after)) before.length = .ok w := by
  rw [readWord, List.drop_left]
  show Except.ok (Wire.word32 _ _ _ _) = _
  rw [Wire.word32_bytes32]

/-- Too few bytes are no word. -/
theorem readWord_short {p : List UInt8} {start : Nat} (h : p.length < start + 4) :
    readWord p start = .error (.truncated (start + 4) p.length) := by
  have hlen : (p.drop start).length < 4 := by
    rw [List.length_drop]
    omega
  unfold readWord
  split
  · next heq =>
    simp only [heq, List.length_cons] at hlen
    omega
  · rfl

/-- Where a word is read, there are fewer than four bytes, or the bytes of a word. -/
theorem readWord_cases (p : List UInt8) (start : Nat) :
    p.length < start + 4 ∨
      ∃ front w after, p = front ++ (Wire.bytes32 w ++ after) ∧ front.length = start := by
  obtain h | ⟨front, field, after, rfl, hfront, hfield⟩ := split_at_or_short p start 4
  · exact .inl h
  · match field, hfield with
    | [b0, b1, b2, b3], _ =>
      refine .inr ⟨front, Wire.word32 b0 b1 b2 b3, after, ?_, hfront⟩
      rw [Wire.bytes32_word32]

/-- Where the payload ends there is no name. -/
theorem readName_none {p : List UInt8} {start : Nat} (h : p.length ≤ start) :
    readName p start = .error (.truncated (start + 1) p.length) := by
  rw [readName, List.drop_of_length_le h]

/-- A name that is cut off is not read. -/
theorem readName_short {length : UInt8} (front : List UInt8) {rest : List UInt8}
    (h : rest.length < length.toNat) :
    readName (front ++ length :: rest) front.length =
      .error (.truncated (front.length + 1 + length.toNat) (front ++ length :: rest).length) := by
  have hraw : (rest.take length.toNat).length < length.toNat := by
    rw [List.length_take]
    omega
  simp only [readName, List.drop_left, if_pos hraw]

/-- A name that is all there is read, if it is in ASCII. -/
theorem readName_whole {length : UInt8} (front : List UInt8) {raw : List UInt8}
    (after : List UInt8) (h : raw.length = length.toNat) :
    readName (front ++ length :: (raw ++ after)) front.length =
      if raw.all (· < 128) then .ok (String.ofList (raw.map fun b => Char.ofNat b.toNat))
      else .error .nameNotAscii := by
  simp only [readName, List.drop_left, List.take_left' h, h, Nat.lt_irrefl, ↓reduceIte]

/-- Where a name is read, its length is missing, or a part of it, or it is all there. -/
theorem readName_cases (p : List UInt8) (start : Nat) :
    p.length ≤ start ∨
      (∃ front length rest, p = front ++ length :: rest ∧ front.length = start ∧
        rest.length < length.toNat) ∨
      ∃ front length raw after, p = front ++ length :: (raw ++ after) ∧ front.length = start ∧
        raw.length = length.toNat := by
  obtain h | ⟨front, field, rest, rfl, hfront, hfield⟩ := split_at_or_short p start 1
  · exact .inl (Nat.le_of_lt_succ h)
  -- The length is there. Whether the rest has as many bytes is what decides.
  · match field, hfield with
    | [length], _ =>
      by_cases hrest : rest.length < length.toNat
      · exact .inr (.inl ⟨front, length, rest, rfl, hfront, hrest⟩)
      · refine .inr (.inr ⟨front, length, rest.take length.toNat, rest.drop length.toNat, ?_,
          hfront, ?_⟩)
        · rw [List.take_append_drop]
          rfl
        · rw [List.length_take]
          omega

/-- A word that was read is written as the four bytes it was read from. -/
theorem bytes32_of_readWord {p : List UInt8} {start : Nat} {w : UInt32}
    (h : readWord p start = .ok w) :
    start + 4 ≤ p.length ∧ Wire.bytes32 w = (p.drop start).take 4 := by
  obtain hshort | ⟨front, v, after, rfl, rfl⟩ := readWord_cases p start
  · rw [readWord_short hshort] at h
    cases h
  · rw [readWord_append] at h
    cases h
    refine ⟨?_, ?_⟩
    · simp only [List.length_append, Wire.length_bytes32]
      omega
    · rw [List.drop_left, List.take_left' (Wire.length_bytes32 w)]

/-- A name that was read is written as the bytes it was read from. -/
theorem writeName_of_readName {p : List UInt8} {start : Nat} {name : String}
    (h : readName p start = .ok name) :
    start + (1 + name.utf8ByteSize) ≤ p.length ∧
      writeName name = .ok ((p.drop start).take (1 + name.utf8ByteSize)) := by
  -- Only a name that is all there was read.
  obtain hnone | ⟨front, length, rest, rfl, rfl, hrest⟩ |
    ⟨front, length, raw, after, rfl, rfl, hraw⟩ := readName_cases p start
  · rw [readName_none hnone] at h
    cases h
  · rw [readName_short front hrest] at h
    cases h
  · rw [readName_whole front after hraw] at h
    split at h
    · next hascii =>
      cases h
      have hmax : raw.length ≤ maxName := by
        have := length.toNat_lt
        simp only [maxName]
        omega
      have hwritten := writeName_ofList hascii hmax
      have hsize := utf8ByteSize_of_ascii (writeName_eq_ok hwritten).1
      rw [String.toList_ofList, List.length_map] at hsize
      rw [hsize]
      refine ⟨?_, ?_⟩
      · simp only [List.length_append, List.length_cons]
        omega
      · rw [hwritten, hraw, UInt8.ofNat_toNat, List.drop_left, Nat.add_comm 1, List.take_succ_cons,
          List.take_left' hraw]
    · cases h

/-- A character in ASCII is the one that its byte stands for. -/
private theorem char_of_byte {c : Char} (h : c.toNat < 128) :
    Char.ofNat (UInt8.ofNat c.toNat).toNat = c := by
  rw [UInt8.toNat_ofNat_of_lt' (by simp only [UInt8.size]; omega), Char.ofNat_toNat]

/-- A name that was written reads back. -/
theorem readName_append {name : String} {bytes : List UInt8} (before after : List UInt8)
    (h : writeName name = .ok bytes) : readName (before ++ (bytes ++ after)) before.length = .ok name := by
  obtain ⟨hascii, hlen, rfl⟩ := writeName_eq_ok h
  have hsize : (name.toList.map fun c => UInt8.ofNat c.toNat).length =
      (UInt8.ofNat name.toList.length).toNat := by
    rw [List.length_map, UInt8.toNat_ofNat_of_lt']
    simp only [maxName] at hlen
    simp only [UInt8.size]
    omega
  have hbytes : (name.toList.map fun c => UInt8.ofNat c.toNat).all (· < 128) = true := by
    refine List.all_eq_true.mpr fun b hb => ?_
    obtain ⟨c, hc, rfl⟩ := List.mem_map.mp hb
    have := hascii c hc
    simp only [decide_eq_true_eq, UInt8.lt_iff_toNat_lt]
    rw [UInt8.toNat_ofNat_of_lt' (by simp only [UInt8.size]; omega)]
    exact this
  rw [List.cons_append, readName_whole before after hsize, if_pos hbytes, List.map_map]
  -- Character by character, the name is what its bytes stand for.
  congr 1
  conv => rhs; rw [← String.ofList_toList (s := name)]
  congr 1
  conv => rhs; rw [← List.map_id name.toList]
  exact List.map_congr_left fun c hc => char_of_byte (hascii c hc)

end Payload

/-! ### Payloads -/

/-- A request for a file reads back, whatever follows it. -/
theorem FileRequest.parse_encode {r : FileRequest} {bytes : List UInt8} (h : r.encode = .ok bytes)
    (after : List UInt8) : parse (bytes ++ after) = .ok r := by
  cases hname : Payload.writeName r.name with
  | error e => simp only [encode, hname] at h; cases h
  | ok name =>
    simp only [encode, hname] at h
    cases h
    have huser := Payload.readWord_append [] (name ++ after) r.user
    have hread := Payload.readName_append (Wire.bytes32 r.user) after hname
    rw [Wire.length_bytes32] at hread
    rw [List.nil_append, List.length_nil] at huser
    simp only [parse, List.append_assoc, huser, hread]
    rfl

/-- A request for a file is a word and then a name. -/
theorem FileRequest.parse_eq_ok {p : List UInt8} {r : FileRequest} (h : parse p = .ok r) :
    Payload.readWord p 0 = .ok r.user ∧ Payload.readName p 4 = .ok r.name := by
  simp only [parse, bind, Except.bind] at h
  split at h
  · cases h
  · next huser =>
    split at h
    · cases h
    · next hname =>
      cases h
      exact ⟨huser, hname⟩

/-- A file that was asked for can be described. -/
theorem FileRequest.exists_description_of_parse {payload : List UInt8} {r : FileRequest}
    (h : parse payload = .ok r) (size : UInt32) :
    ∃ bytes, FileDescriptor.encode ⟨size, r.user, r.name⟩ = .ok bytes := by
  have hwritten := (Payload.writeName_of_readName (parse_eq_ok h).2).2
  exact ⟨_, by simp only [FileDescriptor.encode, hwritten]; rfl⟩

/-- A description of a file reads back, whatever follows it. -/
theorem FileDescriptor.parse_encode {d : FileDescriptor} {bytes : List UInt8}
    (h : d.encode = .ok bytes) (after : List UInt8) : parse (bytes ++ after) = .ok d := by
  cases hname : Payload.writeName d.name with
  | error e => simp only [encode, hname] at h; cases h
  | ok name =>
    simp only [encode, hname] at h
    cases h
    have hsize := Payload.readWord_append [] (Wire.bytes32 d.user ++ (name ++ after)) d.size
    have huser := Payload.readWord_append (Wire.bytes32 d.size) (name ++ after) d.user
    have hread := Payload.readName_append (Wire.bytes32 d.size ++ Wire.bytes32 d.user) after hname
    rw [List.length_append, Wire.length_bytes32, Wire.length_bytes32, List.append_assoc] at hread
    rw [Wire.length_bytes32] at huser
    rw [List.nil_append, List.length_nil] at hsize
    simp only [parse, List.append_assoc, hsize, huser, hread]
    rfl

/-- A description of a file is two words and then a name. -/
theorem FileDescriptor.parse_eq_ok {p : List UInt8} {d : FileDescriptor} (h : parse p = .ok d) :
    Payload.readWord p 0 = .ok d.size ∧ Payload.readWord p 4 = .ok d.user ∧
      Payload.readName p 8 = .ok d.name := by
  simp only [parse, bind, Except.bind] at h
  split at h
  · cases h
  · next hsize =>
    split at h
    · cases h
    · next huser =>
      split at h
      · cases h
      · next hname =>
        cases h
        exact ⟨hsize, huser, hname⟩

end Depot
