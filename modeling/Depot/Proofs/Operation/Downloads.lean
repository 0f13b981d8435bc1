import Depot.Client.Requests
import Depot.Proofs.Operation.Steps

/-!
# What a download sends

A download of a file that does not change sends its content in the blocks that a client would cut it
into, in packets that say of all blocks but the last that more follow, behind one packet that describes
the file.

## Key results

- `Client.flatten_blocks`: the blocks of data are the data
- `runFor_sending`: a transfer sends the packets of the blocks that are left
- `run_download`: a download sends the description of the file and the packets of all blocks
-/

namespace Depot

namespace Client

/-- What is cut off first is as long as it may be, and the rest is cut in the same way. -/
theorem blocks_eq {length : Nat} (hlength : 0 < length) {data : List UInt8} (hdata : data ≠ []) :
    blocks length data = data.take length :: blocks length (data.drop length) := by
  obtain ⟨length, rfl⟩ : ∃ n, length = n + 1 := ⟨length - 1, by omega⟩
  cases data with
  | nil => exact absurd rfl hdata
  | cons b rest =>
    rw [blocks]
    simp only [Nat.add_sub_cancel, List.take_succ_cons, List.drop_succ_cons]

/-- The blocks of data are the data, cut somehow. -/
theorem flatten_blocks (length : Nat) (data : List UInt8) : (blocks length data).flatten = data := by
  induction data using blocks.induct length with
  | case1 => rw [blocks]; rfl
  | case2 b rest ih =>
    rw [blocks, List.flatten_cons, ih, List.cons_append, List.take_append_drop]

/-- No block is empty. -/
theorem ne_nil_of_mem_blocks {length : Nat} {data block : List UInt8} (h : block ∈ blocks length data) :
    block ≠ [] := by
  induction data using blocks.induct length with
  | case1 => rw [blocks] at h; cases h
  | case2 b rest ih =>
    rw [blocks] at h
    rcases List.mem_cons.mp h with rfl | h
    · exact List.cons_ne_nil b _
    · exact ih h

end Client

namespace Operation.Download

/-- A packet that opens a download. -/
theorem request_eq_ok {p : Packet} {r : FileRequest} (hrequest : p.request = .fileRequest)
    (hparse : FileRequest.parse p.payload = .ok r) (hkind : p.header.kind.isStored = true)
    (huser : r.user ≠ 0) : request p = .ok (p.header.kind, r) := by
  simp only [request, bind, Except.bind, hrequest, hparse, hkind, huser, mapError_ok, ne_eq,
    not_true_eq_false, Bool.not_true, Bool.false_eq_true, ↓reduceIte]
  rfl

/-- What was located is a file that a path of the store leads to. -/
theorem locate_eq_ok {service : Service} {scene : Scene} {kind : FileKind} {r : FileRequest} {t : Transfer}
    (h : locate service scene kind r = .ok t) :
    ∃ path content, service.store.resolve kind r.user r.name = .ok path ∧
      scene.tree.locate path = .ok (t.place, .file content) := by
  simp only [locate, bind, Except.bind] at h
  cases hopened : service.store.openFile scene.tree kind r.user r.name with
  | error e => rw [hopened] at h; cases h
  | ok found =>
    obtain ⟨place, size⟩ := found
    obtain ⟨path, content, hpath, hfound⟩ := Storage.Store.locate_of_openFile hopened
    rw [hopened] at h
    simp only [mapError_ok] at h
    split at h
    · cases h
    · cases h
      exact ⟨path, content, hpath, hfound⟩

/-- Locating looks at the way to the file only. -/
theorem locate_congr {service : Service} {scene scene' : Scene} {kind : FileKind} {r : FileRequest}
    (h : ∀ path, service.store.resolve kind r.user r.name = .ok path →
      Storage.Tree.AgreeOn path.way scene.tree scene'.tree) :
    locate service scene' kind r = locate service scene kind r := by
  simp only [locate, Storage.Store.openFile_congr h]

/-! ### The packets of a transfer -/

/-- The packets of blocks from a state of the transfer on. -/
def blockPackets (id : UInt8) (t : Transfer) : List (List UInt8) → List Packet
  | [] => []
  | block :: rest =>
      let t' := advance t block.length
      (blockPacket t' block).withOperation id :: blockPackets id t' rest

/-- What a transfer says before its next block. -/
def announcement (id : UInt8) (t : Transfer) : Except Failure (List Packet) :=
  if t.announced then .ok [] else (infoPacket t).map fun p => [p.withOperation id]

/-- An announcement carries the id of its operation. -/
theorem operation_of_announcement {id : UInt8} {t : Transfer} {opening : List Packet}
    (h : announcement id t = .ok opening) : ∀ p ∈ opening, p.operation = id := by
  intro p hp
  unfold announcement at h
  split at h
  · cases h
    cases hp
  · cases hinfo : infoPacket t with
    | error failure => rw [hinfo] at h; cases h
    | ok info =>
      rw [hinfo] at h
      cases h
      rw [List.mem_singleton.mp hp]
      rfl

/-- All that a step of a transfer says carries the id of the operation. -/
theorem operation_of_opening_block {id : UInt8} {t : Transfer} {opening : List Packet}
    (h : announcement id t = .ok opening) (block : Packet) :
    ∀ p ∈ opening ++ [block.withOperation id], p.operation = id := by
  intro p hp
  rcases List.mem_append.mp hp with hp | hp
  · exact operation_of_announcement h p hp
  · rw [List.mem_singleton.mp hp]
    rfl

/-- The packets of blocks carry the blocks. -/
theorem payloads_blockPackets (id : UInt8) (t : Transfer) (blocks : List (List UInt8)) :
    (blockPackets id t blocks).map (·.payload) = blocks := by
  induction blocks generalizing t with
  | nil => rfl
  | cons block blocks ih =>
    rw [blockPackets, List.map_cons, ih]
    rfl

/-- The packets carry blocks of the file, of the operation and under its kind. -/
theorem blockPackets_all (id : UInt8) (t : Transfer) (blocks : List (List UInt8)) :
    ∀ p ∈ blockPackets id t blocks,
      p.request = .file ∧ p.operation = id ∧ p.header.kind = t.kind := by
  induction blocks generalizing t with
  | nil => intro p hp; cases hp
  | cons block blocks ih =>
    intro p hp
    rcases List.mem_cons.mp hp with rfl | hp
    · exact ⟨rfl, rfl, rfl⟩
    · exact ih (advance t block.length) p hp

/-- If the blocks are all that is left, every packet but the last says that more follow. -/
theorem blockPackets_more (id : UInt8) {t : Transfer} {blocks : List (List UInt8)}
    (hne : blocks ≠ []) (hblocks : ∀ block ∈ blocks, block ≠ [])
    (hleft : t.remaining = blocks.flatten.length) :
    ∃ before last, blockPackets id t blocks = before ++ [last] ∧ (∀ p ∈ before, p.more = true) ∧
      last.more = false := by
  induction blocks generalizing t with
  | nil => exact absurd rfl hne
  | cons block rest ih =>
    have hleft' : (advance t block.length).remaining = rest.flatten.length := by
      rw [List.flatten_cons, List.length_append] at hleft
      simp only [Transfer.remaining, advance] at hleft ⊢
      omega
    -- More follow if anything is left behind this block.
    have hmore : ((blockPacket (advance t block.length) block).withOperation id).more =
        decide (rest.flatten.length > 0) := by
      show decide ((advance t block.length).remaining > 0) = _
      rw [hleft']
    cases rest with
    | nil =>
      exact ⟨[], _, rfl, List.forall_mem_nil _, hmore⟩
    | cons next rest =>
      obtain ⟨before, last, hpackets, hbefore, hlast⟩ := ih (List.cons_ne_nil next rest)
        (fun b hb => hblocks b (List.mem_cons_of_mem block hb)) hleft'
      refine ⟨_ :: before, last, by rw [blockPackets, hpackets, List.cons_append], fun p hp => ?_, hlast⟩
      rcases List.mem_cons.mp hp with rfl | hp
      · -- There is another block, and it is not empty.
        have hnext := List.length_pos_iff.mpr (hblocks next (by simp))
        rw [hmore, List.flatten_cons, List.length_append]
        exact decide_eq_true (by omega)
      · exact hbefore p hp

/-! ### Sending -/

/-- Where the peer is reached, to announce a file is to queue the announcement. -/
theorem announce_eq {scene : Scene} (h : scene.reachesPeer = true) (id : UInt8) (t : Transfer) :
    announce id t scene = (announcement id t).map scene.postAll := by
  unfold announce announcement
  split
  · rfl
  · cases infoPacket t with
    | error failure => rfl
    | ok p =>
      simp only [Scene.send?_of_reachesPeer h]
      rfl

section

variable {service : Service} {op : Operation} {scene : Scene} {fuel : Nat} {t : Transfer}
  {opening : List Packet} {block : List UInt8}

/-- One step of a transfer that nothing ends. -/
theorem turn_sending (hstage : op.stage = .sending t) (hreaches : scene.reachesPeer = true)
    (hinbox : ∀ p ∈ op.inbox.waiting, p.request.endsOperation = false)
    (hblock : readBlock scene.tree t.place t.offset (min t.remaining service.limits.downloadChunk) =
      .ok block)
    (hopening : announcement op.id t = .ok opening) :
    op.turn service scene =
      let t' := advance t block.length
      let scene' := scene.postAll (opening ++ [(blockPacket t' block).withOperation op.id])
      if t'.remaining = 0 then .done (.ok ()) scene'
      else .next (.sending t') op.inbox.drained scene' := by
  have hlength := length_readBlock hblock
  -- What the announcement said does not close the way to the peer.
  have hreaches' := (scene.reachesPeer_postAll opening).trans hreaches
  have hlive : (scene.postAll opening).session.live = true := by
    simp only [Scene.reachesPeer, Bool.and_eq_true] at hreaches'
    exact hreaches'.1
  have hgoes : op.inbox.waiting.any (·.request.endsOperation) = false := by
    rw [List.any_eq_false]
    intro p hp
    rw [hinbox p hp]
    exact Bool.false_ne_true
  simp only [turn, hstage, sendBlock, Turn.proceed, hblock, announce_eq hreaches, hopening, Except.map,
    hlive, hgoes, Bool.not_true, Bool.or_false, Bool.false_eq_true, ↓reduceIte,
    Scene.send?_of_reachesPeer hreaches', Scene.postAll_append, hlength]

/-- The next block of a file is cut off what is left of it. -/
theorem readBlock_of_file {tree : Storage.Tree} {content : Storage.Content}
    (hfile : tree.get? t.place = some (.file content))
    (hleft : t.remaining = (content.toList.drop t.offset).length) (chunk : Nat) :
    readBlock tree t.place t.offset (min t.remaining chunk) =
      .ok ((content.toList.drop t.offset).take chunk) := by
  have htake : (content.toList.drop t.offset).take (min t.remaining chunk) =
      (content.toList.drop t.offset).take chunk := by
    rw [hleft, Nat.min_comm, ← List.take_eq_take_min]
  rw [readBlock_eq, tree.bytesAt_of_file hfile, htake, if_neg]
  rw [List.length_take, ← hleft]
  omega

/-- A transfer sends the packets of the blocks that are left. -/
theorem runFor_sending {content : Storage.Content} (hstage : op.stage = .sending t)
    (hreaches : scene.reachesPeer = true)
    (hinbox : ∀ p ∈ op.inbox.waiting, p.request.endsOperation = false)
    (hfile : scene.tree.get? t.place = some (.file content))
    (hopening : announcement op.id t = .ok opening)
    (hleft : t.remaining = (content.toList.drop t.offset).length) (hpos : 0 < t.remaining)
    (hchunk : 0 < service.limits.downloadChunk) (hfuel : t.remaining ≤ fuel) :
    runFor service fuel op scene = (none, op.conclude (.ok ()) (scene.postAll (opening ++
      blockPackets op.id t
        (Client.blocks service.limits.downloadChunk (content.toList.drop t.offset))))) := by
  -- Every step sends a block that is not empty, so as many steps as there are bytes are enough.
  induction fuel generalizing op t scene opening with
  | zero => omega
  | succ fuel ih =>
    -- The next block is the first of those that are left.
    have hread := readBlock_of_file hfile hleft service.limits.downloadChunk
    have hturn := turn_sending hstage hreaches hinbox hread hopening
    have hdata : content.toList.drop t.offset ≠ [] := by
      intro hnil
      rw [hnil, List.length_nil] at hleft
      omega
    rw [Client.blocks_eq hchunk hdata, blockPackets]
    have hlength : ((content.toList.drop t.offset).take service.limits.downloadChunk).length =
        min service.limits.downloadChunk t.remaining := by rw [List.length_take, hleft]
    generalize (content.toList.drop t.offset).take service.limits.downloadChunk = block
      at hread hturn hlength ⊢
    have hremaining : (advance t block.length).remaining =
        t.remaining - service.limits.downloadChunk := by
      simp only [Transfer.remaining, advance, hlength]
      omega
    simp only [hremaining] at hturn
    split at hturn
    · next hend =>
      -- This was the last block.
      have hnone : (content.toList.drop t.offset).drop service.limits.downloadChunk = [] :=
        List.drop_eq_nil_of_le (by omega)
      rw [runFor_done hturn, hnone, Client.blocks]
      rfl
    · next hmore =>
      have hoffset : (advance t block.length).offset = t.offset + service.limits.downloadChunk := by
        show t.offset + block.length = _
        omega
      -- The rest goes on without a description, behind what has been said so far.
      rw [runFor_next hturn, List.drop_drop, ← hoffset]
      refine Eq.trans (ih rfl ((scene.reachesPeer_postAll _).trans hreaches)
        (fun p hp => by rw [Queue.waiting_drained] at hp; cases hp) hfile rfl
        (by rw [hremaining, hoffset, ← List.drop_drop, List.length_drop, hleft]) (by omega) (by omega)) ?_
      rw [← Scene.postAll_append, List.nil_append, List.append_assoc]
      rfl

/-- A download sends the description of the file that was asked for, and the packets of its blocks. -/
theorem run_download {p info : Packet} {rest : List Packet} {kind : FileKind} {r : FileRequest}
    {path : Storage.Path} {place : Storage.Place} {content : Storage.Content}
    (hkind : op.kind = .download) (hstage : op.stage = .opening) (hreaches : scene.reachesPeer = true)
    (hpackets : op.inbox.waiting = p :: rest) (hp : p.request.endsOperation = false)
    (hrest : ∀ q ∈ rest, q.request.endsOperation = false) (hrequest : request p = .ok (kind, r))
    (hpath : service.store.resolve kind r.user r.name = .ok path)
    (hlocate : scene.tree.locate path = .ok (place, .file content)) (hpos : 0 < content.length)
    (hlen : content.length ≤ Storage.Store.maxLength) (hchunk : 0 < service.limits.downloadChunk)
    (ht : t = { place, kind, descriptor := ⟨UInt32.ofNat content.length, r.user, r.name⟩ })
    (hinfo : infoPacket t = .ok info) :
    op.run service scene = (none, op.conclude (.ok ()) (scene.postAll (info.withOperation op.id ::
      blockPackets op.id t (Client.blocks service.limits.downloadChunk content.toList)))) := by
  have hsize := Storage.Store.toNat_ofNat_length hlen
  have hne : UInt32.ofNat content.length ≠ 0 := by
    intro hzero
    rw [hzero] at hsize
    exact absurd hsize (Nat.ne_of_lt hpos)
  -- The request is read, the file is found, and then it is sent.
  obtain ⟨inbox, hinbox, -, -, hread⟩ := Turn.read_cons hpackets
  have hopening : op.turn service scene = .next (.locating kind r) inbox scene := by
    simp only [turn, hstage, hkind, hread, hp, hrequest]
    rfl
  have hlocating : turn service { op with stage := .locating kind r, inbox } scene =
      .next (.sending t) inbox scene := by
    simp only [turn, locate, Storage.Store.openFile_eq_ok hpath hlocate hlen, ht]
    simp only [mapError_ok, bind, Except.bind, if_neg hne]
    rfl
  have hbudget : op.budget = Storage.Store.maxLength + op.inbox.waiting.length + 2 + 1 + 1 := by
    simp only [budget, hstage]
  have hremaining : t.remaining = content.length := by
    rw [ht]
    exact hsize
  have hoffset : t.offset = 0 := by rw [ht]
  rw [run, hbudget, runFor_next hopening, runFor_next hlocating]
  refine Eq.trans (runFor_sending rfl hreaches (by rw [hinbox]; exact hrest)
    (by rw [ht]; exact (Storage.Tree.get?_of_locate_file hlocate).1)
    (by rw [announcement, hinfo, ht]; rfl) (by rw [hremaining, hoffset, List.drop_zero, content.length_toList])
    (by rw [hremaining]; exact hpos) hchunk (by rw [hremaining]; omega)) ?_
  rw [hoffset, List.drop_zero]
  rfl

end

end Operation.Download

end Depot
