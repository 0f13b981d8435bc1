import Depot.Proofs.Operation.Numbering

/-!
# Downloads of files that have shrunk

A file may be shorter when it is read than when it was measured. A download reads one block ahead of what
it says: as long as whole blocks are there they are sent, and the first that is not ends the download with
an error. So a file without one whole block is not even described, and of every other the whole blocks are
sent, each of which says that more follow.

## Key results

- `readBlock_of_enough`, `readBlock_of_short`: reading succeeds just if enough is there
- `runFor_shrunken`: a transfer sends the whole blocks that are left, number by number
- `shrunken_file_is_never_complete`: what a download of a shorter file sends
-/

namespace Depot.Operation.Download

section

variable {tree : Storage.Tree} {place : Storage.Place} {content : Storage.Content} {offset count : Nat}

/-- A block that is there as a whole is read. -/
theorem readBlock_of_enough (hfile : tree.get? place = some (.file content))
    (h : offset + count ≤ content.length) :
    readBlock tree place offset count = .ok ((content.toList.drop offset).take count) := by
  rw [readBlock_eq, tree.bytesAt_of_file hfile, if_neg]
  rw [List.length_take, List.length_drop, content.length_toList]
  omega

/-- One that is not is an error, even if a part of it is there. -/
theorem readBlock_of_short (hfile : tree.get? place = some (.file content))
    (h : content.length < offset + count) (hcount : 0 < count) :
    readBlock tree place offset count = .error (.io "early eof") := by
  rw [readBlock_eq, tree.bytesAt_of_file hfile, if_pos]
  rw [List.length_take, List.length_drop, content.length_toList]
  omega

end

section

variable {service : Service} {op : Operation} {scene : Scene} {t : Transfer} {opening : List Packet}
  {content : Storage.Content}

/-- What remains is what was measured beyond the offset. -/
theorem HasSent.remaining_eq {chunk length sent : Nat} (h : HasSent chunk length sent t) :
    t.remaining = length - t.offset := by
  rw [Transfer.remaining, h.size]

/-- What lies within the beginning of a file can be read from the beginning alone. -/
theorem block_of_prefix {front whole : List UInt8} {offset count : Nat} (h : front <+: whole)
    (hlength : offset + count ≤ front.length) :
    (front.drop offset).take count = (whole.drop offset).take count := by
  obtain ⟨rest, rfl⟩ := h
  rw [List.drop_append_of_le_length (by omega), List.take_append_of_le_length]
  rw [List.length_drop]
  omega

/-- A block that cannot be read ends a transfer before it says anything. -/
theorem turn_sending_short (hstage : op.stage = .sending t) {failure : Failure}
    (hblock : readBlock scene.tree t.place t.offset (min t.remaining service.limits.downloadChunk) =
      .error failure) :
    op.turn service scene = .done (.error failure) scene := by
  simp only [turn, hstage, sendBlock, hblock, Turn.proceed]

/-- Of a file that is shorter than it was measured a transfer sends the whole blocks that are left, as it
would have sent them of any file of that length that begins so, and then it fails. -/
theorem runFor_shrunken {whole : List UInt8} {sent left fuel : Nat} (hstage : op.stage = .sending t)
    (hreaches : scene.reachesPeer = true)
    (hinbox : ∀ p ∈ op.inbox.waiting, p.request.endsOperation = false)
    (hfile : scene.tree.get? t.place = some (.file content))
    (hsent : HasSent service.limits.downloadChunk whole.length sent t)
    (hwhole : content.toList <+: whole) (hshort : content.length < whole.length)
    (hchunk : 0 < service.limits.downloadChunk)
    (hleft : content.length / service.limits.downloadChunk = sent + left)
    (hopening : announcement op.id t = .ok opening) (hquiet : left = 0 → opening = [])
    (hfuel : left < fuel) :
    runFor service fuel op scene = (none, op.conclude (.error (.io "early eof"))
      (scene.postAll (opening ++ (List.range' (sent + 1) left).map
        (numbered op.id t.kind service.limits.downloadChunk whole)))) := by
  -- Every step sends one block more, until the next is not there as a whole.
  induction left generalizing op t scene opening sent fuel with
  | zero =>
    obtain ⟨fuel, rfl⟩ : ∃ n, fuel = n + 1 := ⟨fuel - 1, by omega⟩
    have hend := Nat.lt_mul_of_div_lt (a := content.length) (Nat.lt_succ_self _) hchunk
    have hbegin := Nat.div_mul_le_self content.length service.limits.downloadChunk
    rw [hleft, Nat.add_zero] at hend hbegin
    rw [Nat.succ_mul] at hend
    have hoffset := hsent.offset
    have hremaining := hsent.remaining_eq
    have hblock : readBlock scene.tree t.place t.offset (min t.remaining service.limits.downloadChunk) =
        .error (.io "early eof") := readBlock_of_short hfile (by omega) (by omega)
    rw [runFor_done (turn_sending_short hstage hblock), hquiet rfl]
    rfl
  | succ left ih =>
    obtain ⟨fuel, rfl⟩ : ∃ n, fuel = n + 1 := ⟨fuel - 1, by omega⟩
    have hnext := (Nat.le_div_iff_mul_le hchunk).mp (show sent + 1 ≤ content.length / _ by omega)
    rw [Nat.add_mul, Nat.one_mul] at hnext
    have hoffset := hsent.offset
    have hremaining := hsent.remaining_eq
    have hbegin : t.offset = sent * service.limits.downloadChunk := by omega
    have hcount : min t.remaining service.limits.downloadChunk = service.limits.downloadChunk := by omega
    -- The block is the one that the file would have had there in its full length.
    have hblock : readBlock scene.tree t.place t.offset (min t.remaining service.limits.downloadChunk) =
        .ok ((whole.drop (sent * service.limits.downloadChunk)).take service.limits.downloadChunk) := by
      rw [hcount, readBlock_of_enough hfile (by omega), block_of_prefix hwhole, hbegin]
      rw [content.length_toList]
      omega
    generalize hdata : (whole.drop (sent * service.limits.downloadChunk)).take
      service.limits.downloadChunk = block at hblock
    have hlength : block.length = service.limits.downloadChunk := (length_readBlock hblock).trans hcount
    have hturn := turn_sending hstage hreaches hinbox hblock hopening
    have hmore : (advance t block.length).remaining ≠ 0 := by
      simp only [Transfer.remaining, advance, hsent.size, hlength]
      omega
    have hpacket := hsent.blockPacket_advance hchunk (by omega) hdata.symm op.id
    simp only [hmore, ↓reduceIte, hpacket] at hturn
    -- The rest goes on without a description, behind what has been said so far.
    rw [runFor_next hturn]
    refine Eq.trans (ih rfl ((scene.reachesPeer_postAll _).trans hreaches)
      (fun p hp => by rw [Queue.waiting_drained] at hp; cases hp) hfile (hsent.advance hdata.symm)
      (by rw [hleft]; omega) rfl (fun _ => rfl) (by omega)) ?_
    rw [← Scene.postAll_append, List.nil_append, List.append_assoc, List.range'_succ, List.map_cons]
    rfl

/-- The whole blocks at the beginning of a file, as long as the file goes on behind them. -/
theorem whole_blocks {id : UInt8} {kind : FileKind} {chunk count : Nat} {data : List UInt8}
    (hchunk : 0 < chunk) (h : count * chunk < data.length) :
    ∀ p ∈ (List.range' 1 count).map (numbered id kind chunk data),
      p.request = .file ∧ p.operation = id ∧ p.header.kind = kind ∧ p.more = true ∧
        p.payload.length = chunk := by
  intro p hp
  obtain ⟨number, hnumber, rfl⟩ := List.mem_map.mp hp
  have hbounds := List.mem_range'_1.mp hnumber
  obtain ⟨number, rfl⟩ : ∃ n, number = n + 1 := ⟨number - 1, by omega⟩
  have hle : (number + 1) * chunk ≤ count * chunk := Nat.mul_le_mul_right chunk (by omega)
  refine ⟨rfl, rfl, rfl, ?_, ?_⟩
  · exact decide_eq_true ((lt_blockCount_iff hchunk _ _).mpr (by omega))
  · rw [Nat.add_mul, Nat.one_mul] at hle
    rw [payload_numbered, List.length_take, List.length_drop]
    omega

/-- A file that is shorter than it was measured is never sent as if it were complete. Its download fails,
and what it sent before is nothing at all if the first block was not there, and otherwise the description
of the file and all of its whole blocks, each of which says that more follow. -/
theorem shrunken_file_is_never_complete {kind : FileKind} {size : UInt32} {r : FileRequest}
    {held : List UInt8} (hchunk : 1 ≤ service.limits.downloadChunk) (hshort : held.length < size.toNat)
    (h : Opened op scene kind size r held) :
    let chunk := service.limits.downloadChunk
    ∃ sent,
      op.run service scene =
        (none, op.conclude (.error (.io "early eof")) (scene.postAll sent)) ∧
      (∀ p ∈ sent, p.more = true) ∧
      (held.length < min size.toNat chunk → sent = []) ∧
      (min size.toNat chunk ≤ held.length → ∃ description blocks, sent = description :: blocks ∧
        Client.fileInfo size r.user kind r.name op.id = .ok description ∧
        blocks.length = held.length / chunk ∧
        (∀ p ∈ blocks, p.request = .file ∧ p.operation = op.id ∧ p.header.kind = kind ∧
          p.more = true ∧ p.payload.length = chunk) ∧
        (∀ i p, blocks[i]? = some p → p.header.sequence = UInt16.ofNat ((i + 1) % 65536)) ∧
        Upload.content blocks = held.take (held.length / chunk * chunk)) := by
  intro chunk
  obtain ⟨⟨place, content, hstage, hfile, rfl⟩, ⟨payload, hparse⟩, hinbox, hreaches⟩ := h
  have hlength := content.length_toList
  have hbudget : op.budget = size.toNat + 1 := by simp [budget, hstage, Transfer.remaining]
  rw [hlength] at hshort ⊢
  by_cases hfirst : content.length < min size.toNat chunk
  · -- The first block is not there.
    have hblock : readBlock scene.tree place 0 (min size.toNat chunk) = .error (.io "early eof") :=
      readBlock_of_short hfile (by omega) (by omega)
    refine ⟨[], ?_, List.forall_mem_nil _, fun _ => rfl, fun hle => by omega⟩
    rw [run, hbudget, runFor_done (turn_sending_short hstage hblock)]
    rfl
  · -- There are whole blocks, and they are those of any file of the full length that begins so.
    obtain ⟨description, hdescription, hmore, hopening⟩ := exists_announcement hparse place kind size op.id
    -- The missing bytes are made up, and none of them is ever read.
    obtain ⟨whole, hwhole, htotal⟩ : ∃ whole : List UInt8, content.toList <+: whole ∧
        whole.length = size.toNat :=
      ⟨content.toList ++ List.replicate (size.toNat - content.length) 0, List.prefix_append _ _,
        by simp; omega⟩
    have hsent : HasSent chunk whole.length 0
        { place := place, kind := kind, descriptor := ⟨size, r.user, r.name⟩ } :=
      ⟨htotal.symm, by simp, rfl⟩
    have hcount : 0 < content.length / chunk := Nat.div_pos (by omega) hchunk
    have hfew := Nat.div_le_self content.length chunk
    have hfits := Nat.div_mul_le_self content.length chunk
    have hrun : op.run service scene = (none, op.conclude (.error (.io "early eof"))
        (scene.postAll (description ::
          (List.range' 1 (content.length / chunk)).map (numbered op.id kind chunk whole)))) :=
      runFor_shrunken hstage hreaches hinbox hfile hsent hwhole (by omega) hchunk
        (Nat.zero_add _).symm hopening (fun hnone => absurd hnone (Nat.ne_of_gt hcount))
        (Nat.lt_of_le_of_lt hfew (by omega))
    have hblocks : ∀ p ∈ (List.range' 1 (content.length / chunk)).map
        (numbered op.id kind chunk whole), _ := whole_blocks hchunk (by omega)
    refine ⟨_, hrun, ?_, fun hless => absurd hless hfirst,
      fun _ => ⟨description, _, rfl, hdescription, ?_, hblocks, ?_, ?_⟩⟩
    · intro p hp
      rcases List.mem_cons.mp hp with rfl | hp
      · exact hmore
      · exact (hblocks p hp).2.2.2.1
    · rw [List.length_map, List.length_range']
    · intro i p hp
      obtain ⟨-, rfl⟩ := getElem?_numbers hp
      rfl
    · obtain ⟨rest, rfl⟩ := hwhole
      rw [content_numbered, List.take_append_of_le_length (by omega)]

/-- Of a file that was measured with ten bytes six are left: one block of four is sent, and no more. -/
theorem shrunken_file_is_never_complete_after_one_block :
    let service : Service := { store := ⟨⟨["dlc"]⟩, ⟨["user"]⟩⟩, limits := ⟨4, 64⟩ }
    let scene : Scene :=
      { tree := ⟨[(["dlc"], .directory), (["dlc", "a"], .file { bytes := [1, 2, 3, 4, 5, 6] })]⟩ }
    let op : Operation :=
      { id := 2, kind := .download
        stage := .sending { place := ["dlc", "a"], kind := .dlc, descriptor := ⟨10, 7, "a"⟩ } }
    Opened op scene .dlc 10 ⟨7, "a"⟩ [1, 2, 3, 4, 5, 6] ∧
      ∃ description blocks,
        op.run service scene = (none, op.conclude (.error (.io "early eof"))
          (scene.postAll (description :: blocks))) ∧
        (∀ p ∈ description :: blocks, p.more = true) ∧ blocks.length = 1 ∧
        Upload.content blocks = [1, 2, 3, 4] := by
  intro service scene op
  have hopened : Opened op scene .dlc 10 ⟨7, "a"⟩ [1, 2, 3, 4, 5, 6] :=
    ⟨⟨["dlc", "a"], { bytes := [1, 2, 3, 4, 5, 6] }, rfl, rfl, rfl⟩, ⟨[7, 0, 0, 0, 1, 97], rfl⟩,
      List.forall_mem_nil _, rfl⟩
  have hchunk : 1 ≤ service.limits.downloadChunk := by decide
  obtain ⟨sent, hrun, hmore, -, hsome⟩ := shrunken_file_is_never_complete hchunk (by decide) hopened
  obtain ⟨description, blocks, rfl, -, hlength, -, -, hcontent⟩ := hsome (by decide)
  exact ⟨hopened, description, blocks, hrun, hmore, hlength.trans (by decide),
    hcontent.trans (by decide)⟩

end

end Depot.Operation.Download
