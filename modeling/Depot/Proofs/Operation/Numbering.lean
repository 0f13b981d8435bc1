import Depot.Proofs.Operation.Contents
import Depot.Proofs.Operation.Uploads

/-!
# The numbers of blocks

A client and a download cut a file into the same blocks when their blocks have the same length, and both
mark the last of them. They number the blocks from one on, but not alike for ever: the numbers of a
download start again from zero when they have reached the largest, and those of a client stay there. So
the packets of both carry the same numbers just if there are no more blocks than numbers.

## Key results

- `Download.content_numbered`: the first blocks of a file are its beginning
- `Client.fileChunks_eq`: what a client sends, number by number
- `Download.Opened.run_eq`: what a download sends that has opened its file
- `blocks_of_client_and_download`: where the two agree, and where they do not
-/

namespace Depot

namespace Operation.Download

/-! ### Blocks of a download -/

section

variable {id : UInt8} {kind : FileKind} {chunk : Nat} {data : List UInt8}

/-- Packets in a row under the numbers from one on. -/
theorem getElem?_numbers {f : Nat → Packet} {count i : Nat} {p : Packet}
    (h : ((List.range' 1 count).map f)[i]? = some p) : i < count ∧ p = f (i + 1) := by
  rw [List.getElem?_map, Option.map_eq_some_iff] at h
  obtain ⟨number, hnumber, rfl⟩ := h
  obtain ⟨hi, rfl⟩ := List.getElem?_eq_some_iff.mp hnumber
  simp only [List.length_range'] at hi
  refine ⟨hi, ?_⟩
  rw [List.getElem_range', Nat.one_mul, Nat.add_comm]

/-- The block with a number is what a chunk holds from where the ones before it end. -/
theorem payload_numbered (number : Nat) :
    (numbered id kind chunk data (number + 1)).payload = (data.drop (number * chunk)).take chunk := by
  show data.extract ((number + 1 - 1) * chunk) (min ((number + 1) * chunk) data.length) = _
  rw [Nat.add_sub_cancel, List.extract_eq_take_drop, List.take_eq_take_iff, List.length_drop, Nat.add_mul]
  omega

/-- The first blocks of a file are its beginning. -/
theorem content_numbered (count : Nat) :
    Upload.content ((List.range' 1 count).map (numbered id kind chunk data)) =
      data.take (count * chunk) := by
  -- One block after the other: the next one begins where the ones before it end.
  induction count with
  | zero => simp [Upload.content]
  | succ count ih =>
    simp only [Upload.content] at ih ⊢
    rw [List.range'_1_concat, List.map_append, List.flatMap_append, ih, Nat.add_mul, Nat.one_mul,
      List.take_add]
    simp [Nat.add_comm 1 count, payload_numbered]

/-- The number of blocks is what the length comes to in whole blocks, rounded up. -/
theorem blockCount_bounds (hchunk : 0 < chunk) (hdata : data ≠ []) :
    0 < blockCount chunk data.length ∧ (blockCount chunk data.length - 1) * chunk < data.length ∧
      data.length ≤ blockCount chunk data.length * chunk := by
  have hlength := List.length_pos_iff.mpr hdata
  have hfirst := (lt_blockCount_iff hchunk 0 data.length).mpr (by omega)
  have hlast := (lt_blockCount_iff hchunk (blockCount chunk data.length - 1) data.length).mp (by omega)
  have hnone := mt (lt_blockCount_iff hchunk (blockCount chunk data.length) data.length).mpr
    (Nat.lt_irrefl _)
  exact ⟨hfirst, hlast, Nat.not_lt.mp hnone⟩

/-! ### A download that has opened its file -/

/-- A download that has opened its file and said nothing yet. What it found was a file of some size, and
the file holds some bytes. -/
structure Opened (op : Operation) (scene : Scene) (kind : FileKind) (size : UInt32) (r : FileRequest)
    (held : List UInt8) : Prop where
  sending : ∃ place content, op.stage = .sending
    { place := place, kind := kind, descriptor := ⟨size, r.user, r.name⟩ } ∧
      scene.tree.get? place = some (.file content) ∧ content.toList = held
  requested : ∃ payload, FileRequest.parse payload = .ok r
  undisturbed : ∀ p ∈ op.inbox.waiting, p.request.endsOperation = false
  reaches : scene.reachesPeer = true

/-- The name of a file that was asked for can be written again. -/
theorem exists_announcement {r : FileRequest} {payload : List UInt8}
    (h : FileRequest.parse payload = .ok r) (place : Storage.Place) (kind : FileKind) (size : UInt32)
    (id : UInt8) :
    let t : Transfer := { place := place, kind := kind, descriptor := ⟨size, r.user, r.name⟩ }
    ∃ description, Client.fileInfo size r.user kind r.name id = .ok description ∧
      description.more = true ∧ announcement id t = .ok [description] := by
  obtain ⟨bytes, hencode⟩ := FileRequest.exists_description_of_parse h size
  refine ⟨(((Packet.new .fileInfo bytes).withKind kind).withOperation id).withMore true, ?_, rfl, ?_⟩
  · simp only [Client.fileInfo, hencode]
    rfl
  · simp only [announcement, infoPacket, hencode]
    rfl

/-- If the file holds as many bytes as were found, it is described, and then its blocks are sent, number
by number. -/
theorem Opened.run_eq {service : Service} {op : Operation} {scene : Scene} {size : UInt32}
    {r : FileRequest} (h : Opened op scene kind size r data) (hdata : data ≠ [])
    (hsize : size.toNat = data.length) (hchunk : 0 < service.limits.downloadChunk) :
    ∃ description, Client.fileInfo size r.user kind r.name op.id = .ok description ∧
      op.run service scene = (none, op.conclude (.ok ()) (scene.postAll
        (description :: allNumbered op.id kind service.limits.downloadChunk data))) := by
  obtain ⟨⟨place, content, hstage, hfile, rfl⟩, ⟨payload, hparse⟩, hinbox, hreaches⟩ := h
  obtain ⟨description, hdescription, -, hopening⟩ := exists_announcement hparse place kind size op.id
  have hlength := List.length_pos_iff.mpr hdata
  have hsent : HasSent service.limits.downloadChunk content.toList.length 0
      { place := place, kind := kind, descriptor := ⟨size, r.user, r.name⟩ } :=
    ⟨hsize, by simp, rfl⟩
  have hblocks := blockPackets_blocks hchunk op.id hsent
  rw [Nat.zero_mul, List.drop_zero, Nat.zero_add, Nat.sub_zero] at hblocks
  refine ⟨description, hdescription, ?_⟩
  rw [run, runFor_sending hstage hreaches hinbox hfile hopening
    (by simp [Transfer.remaining, hsize]) (by simp [Transfer.remaining, hsize]; omega) hchunk
    (by simp [budget, hstage])]
  simp only [List.drop_zero, hblocks]
  rfl

end

end Operation.Download

namespace Client

open Operation.Download

/-! ### Blocks of a client -/

section

variable {chunk : Nat} {data : List UInt8}

/-- The packet in which a client sends a block of a file. The first block has the number 1. -/
def numbered (id : UInt8) (chunk : Nat) (data : List UInt8) (number : Nat) : Packet :=
  blockPacket id (number - 1) ((data.drop ((number - 1) * chunk)).take chunk)
    (decide (number < blockCount chunk data.length))

/-- There are no blocks just if there is no data. -/
theorem isEmpty_blocks (chunk : Nat) (data : List UInt8) :
    (blocks chunk data).isEmpty = data.isEmpty := by
  cases data with
  | nil =>
    rw [blocks]
    rfl
  | cons b rest =>
    rw [blocks]
    rfl

/-- Every block but the last says that more follow. -/
theorem blockPackets_cons (id : UInt8) (index : Nat) (block : List UInt8) (rest : List (List UInt8)) :
    blockPackets id index (block :: rest) =
      blockPacket id index block (!rest.isEmpty) :: blockPackets id (index + 1) rest := by
  cases rest with
  | nil => rfl
  | cons next rest => rfl

/-- The packets of the blocks that are left are those with the numbers that follow. -/
theorem blockPackets_blocks (hchunk : 0 < chunk) (id : UInt8) (data : List UInt8) (index : Nat) :
    blockPackets id index (blocks chunk (data.drop (index * chunk))) =
      (List.range' (index + 1) (blockCount chunk data.length - index)).map (numbered id chunk data) := by
  generalize hleft : blockCount chunk data.length - index = left
  -- By the numbers that are left. The first of them cuts one block off the data.
  induction left generalizing index with
  | zero =>
    -- No number is left, and no byte either.
    have hend := mt (lt_blockCount_iff hchunk index data.length).mpr (by omega)
    rw [List.drop_eq_nil_of_le (Nat.not_lt.mp hend), blocks]
    rfl
  | succ left ih =>
    have hmore := (lt_blockCount_iff hchunk index data.length).mp (by omega)
    have hdata : data.drop (index * chunk) ≠ [] := by
      rw [ne_eq, List.drop_eq_nil_iff]
      omega
    have hrest : (data.drop (index * chunk)).drop chunk = data.drop ((index + 1) * chunk) := by
      rw [List.drop_drop, Nat.add_mul, Nat.one_mul]
    -- More follow just if a number is left.
    have hlast : (!(blocks chunk (data.drop ((index + 1) * chunk))).isEmpty) =
        decide (index + 1 < blockCount chunk data.length) := by
      rw [isEmpty_blocks, Bool.eq_iff_iff]
      simp only [Bool.not_eq_true', List.isEmpty_eq_false_iff, ne_eq, List.drop_eq_nil_iff,
        decide_eq_true_eq, lt_blockCount_iff hchunk]
      omega
    rw [blocks_eq hchunk hdata, hrest, blockPackets_cons, hlast, ih (index + 1) (by omega),
      List.range'_succ, List.map_cons]
    rfl

/-- What a client sends of a file that is not empty, number by number. -/
theorem fileChunks_eq (hchunk : 0 < chunk) (hdata : data ≠ []) (id : UInt8) :
    fileChunks data chunk id =
      (List.range' 1 (blockCount chunk data.length)).map (numbered id chunk data) := by
  have hblocks := blockPackets_blocks hchunk id data 0
  rw [Nat.zero_mul, List.drop_zero, Nat.zero_add, Nat.sub_zero] at hblocks
  rw [fileChunks, if_neg (by simpa using hdata), hblocks]

/-- The blocks of a client and those of a download are the same, under the same marks. -/
theorem blocks_numbered (id id' : UInt8) (kind : FileKind) (chunk : Nat) (data : List UInt8) (count : Nat) :
    ((List.range' 1 count).map (numbered id chunk data)).map (fun p => (p.payload, p.more)) =
      ((List.range' 1 count).map (Operation.Download.numbered id' kind chunk data)).map
        (fun p => (p.payload, p.more)) := by
  rw [List.map_map, List.map_map]
  apply List.map_congr_left
  intro number hnumber
  obtain ⟨number, rfl⟩ : ∃ n, number = n + 1 := by
    refine ⟨number - 1, ?_⟩
    have := (List.mem_range'_1.mp hnumber).1
    omega
  simp only [Function.comp_apply, Prod.mk.injEq]
  exact ⟨(Operation.Download.payload_numbered number).symm, rfl⟩

/-- A client and a download give so many blocks the same numbers just if there are as many numbers. -/
theorem sequence_numbered_iff (id id' : UInt8) (kind : FileKind) (chunk : Nat) (data : List UInt8)
    (count : Nat) :
    ((List.range' 1 count).map (Operation.Download.numbered id' kind chunk data)).map
        (·.header.sequence) =
      ((List.range' 1 count).map (numbered id chunk data)).map (·.header.sequence) ↔
    count ≤ 65535 := by
  have hsame (number : Nat) (h : 0 < number) :
      UInt16.ofNat (number % 65536) = blockNumber (number - 1) ↔ number % 65536 = min number 65535 := by
    rw [blockNumber, Nat.sub_add_cancel h, ← UInt16.toNat_inj,
      UInt16.toNat_ofNat_of_lt' (by simp only [UInt16.size]; omega),
      UInt16.toNat_ofNat_of_lt' (by simp only [UInt16.size]; omega)]
  rw [List.map_map, List.map_map, List.map_inj_left]
  constructor
  · intro hall
    -- The first number that is one too many is zero for a download.
    apply Nat.le_of_not_lt
    intro hlarge
    have hfirst := (hsame 65536 (by omega)).mp (hall 65536 (List.mem_range'_1.mpr (by omega)))
    omega
  · intro hcount number hnumber
    have hbounds := List.mem_range'_1.mp hnumber
    exact (hsame number (by omega)).mpr (by omega)

end

end Client

open Operation Operation.Download in
/-- A client and a download cut the same data into the same blocks, which are as many as the length comes
to, rounded up: all of the length of a block but the last, which may be shorter, and all but the last say
that more follow. The blocks of a download are numbered modulo 65536. Those of a client are numbered up to
65535 and no further, so the numbers are the same just if there are no more blocks than that. -/
theorem blocks_of_client_and_download {data : List UInt8} {chunk : Nat} (hdata : data ≠ [])
    (hchunk : 1 ≤ chunk) (id : UInt8) :
    let count := blockCount chunk data.length
    let packets := Client.fileChunks data chunk id
    packets.length = count ∧ (count - 1) * chunk < data.length ∧ data.length ≤ count * chunk ∧
    Upload.content packets = data ∧
    (∀ i p, packets[i]? = some p → p.request = .file ∧ p.operation = id ∧
      p.payload ≠ [] ∧ p.payload.length ≤ chunk ∧ (i + 1 < count → p.payload.length = chunk) ∧
      p.more = decide (i + 1 < count) ∧ p.header.sequence = UInt16.ofNat (min (i + 1) 65535)) ∧
    ∀ (service : Service) (op : Operation) (scene : Scene) (kind : FileKind) (size : UInt32)
      (r : FileRequest), service.limits.downloadChunk = chunk → size.toNat = data.length →
      Opened op scene kind size r data →
      ∃ description blocks,
        Client.fileInfo size r.user kind r.name op.id = .ok description ∧
        op.run service scene =
          (none, op.conclude (.ok ()) (scene.postAll (description :: blocks))) ∧
        blocks.map (fun p => (p.payload, p.more)) = packets.map (fun p => (p.payload, p.more)) ∧
        (∀ i p, blocks[i]? = some p → p.header.sequence = UInt16.ofNat ((i + 1) % 65536)) ∧
        (blocks.map (·.header.sequence) = packets.map (·.header.sequence) ↔ count ≤ 65535) := by
  intro count packets
  have hpackets : packets = (List.range' 1 count).map (Client.numbered id chunk data) :=
    Client.fileChunks_eq hchunk hdata id
  obtain ⟨hpos, hlast, hend⟩ := blockCount_bounds hchunk hdata
  refine ⟨by rw [hpackets, List.length_map, List.length_range'], hlast, hend, ?_, fun i p hp => ?_, ?_⟩
  · -- The contents are those of a download, block by block.
    have hpayloads : packets.map (·.payload) =
        ((List.range' 1 count).map (numbered id .none chunk data)).map (·.payload) := by
      have hfst := congrArg (List.map Prod.fst) (Client.blocks_numbered id id .none chunk data count)
      rw [List.map_map, List.map_map (g := Prod.fst)] at hfst
      rw [hpackets]
      exact hfst
    rw [Upload.content, List.flatMap_def, hpayloads, ← List.flatMap_def]
    exact (content_numbered count).trans (List.take_of_length_le hend)
  · -- A block begins within the data, and ends there if another one follows.
    rw [hpackets] at hp
    obtain ⟨hi, rfl⟩ := getElem?_numbers hp
    have hbegin := (lt_blockCount_iff hchunk i data.length).mp hi
    have hpayload : (Client.numbered id chunk data (i + 1)).payload.length =
        min chunk (data.length - i * chunk) := by
      rw [← List.length_drop, ← List.length_take]
      rfl
    refine ⟨rfl, rfl, ?_, ?_, fun hmore => ?_, rfl, rfl⟩
    · apply List.ne_nil_of_length_pos
      omega
    · omega
    · have hnext := (lt_blockCount_iff hchunk (i + 1) data.length).mp hmore
      rw [Nat.add_mul, Nat.one_mul] at hnext
      omega
  · intro service op scene kind size r hlimit hsize hopened
    obtain ⟨description, hdescription, hrun⟩ :=
      hopened.run_eq hdata hsize (show 0 < service.limits.downloadChunk by omega)
    rw [hlimit] at hrun
    refine ⟨description, _, hdescription, hrun, ?_, fun i p hp => ?_, ?_⟩
    · rw [hpackets]
      exact (Client.blocks_numbered id op.id kind chunk data count).symm
    · obtain ⟨-, rfl⟩ := getElem?_numbers hp
      rfl
    · rw [hpackets]
      exact Client.sequence_numbered_iff id op.id kind chunk data count

open Operation Operation.Download in
/-- Three bytes in blocks of two: the client and the download number their two blocks alike. -/
theorem blocks_of_client_and_download_for_three_bytes :
    let service : Service := { store := ⟨⟨["dlc"]⟩, ⟨["user"]⟩⟩, limits := ⟨2, 10⟩ }
    let scene : Scene :=
      { tree := ⟨[(["dlc"], .directory), (["dlc", "a"], .file { bytes := [1, 2, 3] })]⟩ }
    let op : Operation :=
      { id := 2, kind := .download
        stage := .sending { place := ["dlc", "a"], kind := .dlc, descriptor := ⟨3, 7, "a"⟩ } }
    let packets := Client.fileChunks [1, 2, 3] 2 9
    packets.length = 2 ∧ Upload.content packets = [1, 2, 3] ∧
      ∃ description blocks, Client.fileInfo 3 7 .dlc "a" 2 = .ok description ∧
        op.run service scene =
          (none, op.conclude (.ok ()) (scene.postAll (description :: blocks))) ∧
        blocks.map (·.header.sequence) = packets.map (·.header.sequence) := by
  intro service scene op packets
  have hopened : Opened op scene .dlc 3 ⟨7, "a"⟩ [1, 2, 3] :=
    ⟨⟨["dlc", "a"], { bytes := [1, 2, 3] }, rfl, rfl, rfl⟩, ⟨[7, 0, 0, 0, 1, 97], rfl⟩,
      List.forall_mem_nil _, rfl⟩
  obtain ⟨hlength, -, -, hcontent, -, hdownloads⟩ :=
    blocks_of_client_and_download (show ([1, 2, 3] : List UInt8) ≠ [] by decide)
      (show 1 ≤ 2 by decide) 9
  obtain ⟨description, blocks, hdescription, hrun, -, -, hnumbers⟩ :=
    hdownloads service op scene .dlc 3 ⟨7, "a"⟩ rfl rfl hopened
  exact ⟨hlength, hcontent, description, blocks, hdescription, hrun, hnumbers.mpr (by decide)⟩

open Operation Operation.Download in
/-- Of 65536 blocks a client gives the last two the same number, where a download starts again. -/
theorem client_number_stays :
    let data : List UInt8 := List.replicate 65536 0
    let packets := Client.fileChunks data 1 1
    packets.length = 65536 ∧
      packets[65534]?.map (·.header.sequence) = some 65535 ∧
      packets[65535]?.map (·.header.sequence) = some 65535 ∧
      (allNumbered 1 .dlc 1 data)[65535]?.map (·.header.sequence) = some 0 ∧
      packets[65535]?.map (·.header.sequence) ≠ some (UInt16.ofNat ((65535 + 1) % 65536)) := by
  intro data packets
  have hlength : data.length = 65536 := List.length_replicate
  have hcount : blockCount 1 data.length = 65536 := by
    rw [hlength, blockCount, Nat.div_one, Nat.add_sub_cancel]
  have hdata : data ≠ [] := List.ne_nil_of_length_pos (by omega)
  have hpackets : packets = (List.range' 1 65536).map (Client.numbered 1 1 data) := by
    rw [← hcount]
    exact Client.fileChunks_eq Nat.one_pos hdata 1
  -- The packets are never written out: each is the packet with its number, and only two numbers are looked
  -- at.
  have hclient (i : Nat) (hi : i < 65536) :
      packets[i]?.map (·.header.sequence) = some (Client.blockNumber i) := by
    rw [hpackets, List.getElem?_map, List.getElem?_range' hi, Nat.one_mul, Nat.add_comm 1 i]
    rfl
  have hdownload : (allNumbered 1 .dlc 1 data)[65535]?.map (·.header.sequence) =
      some (UInt16.ofNat ((1 + 1 * 65535) % 65536)) := by
    rw [allNumbered, hcount, List.getElem?_map, List.getElem?_range' (by omega)]
    rfl
  have hstays : Client.blockNumber 65534 = 65535 ∧ Client.blockNumber 65535 = 65535 := by decide
  rw [hclient 65534 (by omega), hclient 65535 (by omega), hstays.1, hstays.2]
  exact ⟨by rw [hpackets, List.length_map, List.length_range'], rfl, rfl, hdownload, by decide⟩

end Depot
