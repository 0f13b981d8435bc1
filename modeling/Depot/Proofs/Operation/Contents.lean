import Depot.Proofs.Operation.Reading

/-!
# What a request for a file is answered with

A file that can be sent is described, and then its blocks follow under their numbers; a block says that
more follow if it is not the last. Whatever else is asked for is answered with one error, and its code is
that of the first thing that was found wrong.

## Key results

- `lt_blockCount_iff`: which numbers blocks have
- `blockPackets_blocks`: the packets of the blocks that are left, number by number
- `Arises.offset_le`: a download never sends more than the length that it announced
- `answer_to_request`: what a request for a file is answered with
-/

namespace Depot

open Storage

namespace Operation

namespace Download

/-! ### Blocks by number -/

/-- The number of blocks of a file of some length: the quotient, rounded up. -/
def blockCount (chunk length : Nat) : Nat := (length + chunk - 1) / chunk

/-- There is a block for every multiple of the chunk below the length. -/
theorem lt_blockCount_iff {chunk : Nat} (h : 0 < chunk) (k length : Nat) :
    k < blockCount chunk length ↔ k * chunk < length := by
  rw [blockCount, Nat.lt_div_iff_mul_lt h]
  omega

/-- The packet of a block of a file. The first block has the number 1. -/
def numbered (id : UInt8) (kind : FileKind) (chunk : Nat) (data : List UInt8) (number : Nat) : Packet :=
  ((((Packet.new .file
    (data.extract ((number - 1) * chunk) (min (number * chunk) data.length))).withSequence
      (UInt16.ofNat (number % 65536))).withKind kind).withMore
        (decide (number < blockCount chunk data.length))).withOperation id

/-- The packets of all blocks of a file. -/
def allNumbered (id : UInt8) (kind : FileKind) (chunk : Nat) (data : List UInt8) : List Packet :=
  (List.range' 1 (blockCount chunk data.length)).map (numbered id kind chunk data)

/-- A download of a file of some length of which so many blocks were sent. -/
structure HasSent (chunk length sent : Nat) (t : Transfer) : Prop where
  size : t.descriptor.size.toNat = length
  offset : t.offset = min (sent * chunk) length
  sequence : t.sequence = UInt16.ofNat sent

section

variable {chunk sent : Nat} {data block : List UInt8} {t : Transfer}

/-- One more block is sent under the next number. -/
theorem HasSent.advance (h : HasSent chunk data.length sent t)
    (hblock : block = (data.drop (sent * chunk)).take chunk) :
    HasSent chunk data.length (sent + 1) (Download.advance t block.length) := by
  refine ⟨h.size, ?_, ?_⟩
  · have hlength : block.length = min chunk (data.length - sent * chunk) := by
      rw [hblock, List.length_take, List.length_drop]
    simp only [Download.advance, h.offset, hlength, Nat.add_mul, Nat.one_mul]
    omega
  · simp only [Download.advance, h.sequence, UInt16.ofNat_add]
    rfl

/-- The block that follows so many is the next one, with its own number and content. -/
theorem HasSent.blockPacket_advance (h : HasSent chunk data.length sent t) (hchunk : 0 < chunk)
    (hmore : sent * chunk < data.length) (hblock : block = (data.drop (sent * chunk)).take chunk)
    (id : UInt8) :
    (blockPacket (Download.advance t block.length) block).withOperation id =
      numbered id t.kind chunk data (sent + 1) := by
  have hnext := h.advance hblock
  -- What is read is the part of the file that belongs to the number.
  have hcut : block = data.extract (sent * chunk) (min ((sent + 1) * chunk) data.length) := by
    rw [hblock, List.extract_eq_take_drop, List.take_eq_take_iff, List.length_drop, Nat.add_mul]
    omega
  -- There is more to come just when a further block has a number.
  have hleft : decide ((Download.advance t block.length).remaining > 0) =
      decide (sent + 1 < blockCount chunk data.length) := by
    rw [decide_eq_decide, lt_blockCount_iff hchunk, Transfer.remaining, hnext.size, hnext.offset]
    omega
  have hsequence : (Download.advance t block.length).sequence = UInt16.ofNat ((sent + 1) % 65536) := by
    rw [hnext.sequence]
    exact UInt16.ofNat_mod_size.symm
  simp only [blockPacket, numbered, hleft, hsequence, Nat.add_sub_cancel, ← hcut]
  rfl

/-- The packets of the blocks that are left are those with the numbers that follow. -/
theorem blockPackets_blocks (hchunk : 0 < chunk) (id : UInt8) (h : HasSent chunk data.length sent t) :
    blockPackets id t (Client.blocks chunk (data.drop (sent * chunk))) =
      (List.range' (sent + 1) (blockCount chunk data.length - sent)).map
        (numbered id t.kind chunk data) := by
  generalize hleft : blockCount chunk data.length - sent = left
  induction left generalizing sent t with
  | zero =>
    -- No number is left, and no byte either.
    have hend := mt (lt_blockCount_iff hchunk sent data.length).mpr (by omega)
    rw [List.drop_eq_nil_of_le (Nat.not_lt.mp hend), Client.blocks]
    rfl
  | succ left ih =>
    have hmore := (lt_blockCount_iff hchunk sent data.length).mp (by omega)
    have hdata : data.drop (sent * chunk) ≠ [] := by
      rw [ne_eq, List.drop_eq_nil_iff]
      omega
    have hrest : (data.drop (sent * chunk)).drop chunk = data.drop ((sent + 1) * chunk) := by
      rw [List.drop_drop, Nat.add_mul, Nat.one_mul]
    rw [Client.blocks_eq hchunk hdata, blockPackets, List.range'_succ, List.map_cons, hrest]
    simp only [h.blockPacket_advance hchunk hmore rfl id]
    rw [ih (h.advance rfl) (by omega)]
    rfl

end

/-! ### Requests -/

/-- A request for a file that makes sense, and the path that it leads to. -/
structure Asks (service : Service) (p : Packet) (r : FileRequest) (path : Path) : Prop where
  parsed : FileRequest.parse p.payload = .ok r
  kind : p.header.kind = .dlc ∨ p.header.kind = .user
  user : r.user ≠ 0
  name : isPlainName r.name = true
  path : service.store.resolve p.header.kind r.user r.name = .ok path

/-- A request for a file that can be sent. -/
def Granted (service : Service) (tree : Tree) (p : Packet) (r : FileRequest) (content : Content) : Prop :=
  ∃ path place, Asks service p r path ∧ tree.locate path = .ok (place, .file content) ∧
    1 ≤ content.length ∧ content.length ≤ Store.maxLength

/-- Why a request for a file is refused, in the order in which it is looked at. -/
inductive Refused (service : Service) (tree : Tree) (p : Packet) : ErrorCode → Prop
  | malformed {e : PayloadError} (h : FileRequest.parse p.payload = .error e) :
      Refused service tree p .invalidPacket
  | kind {r : FileRequest} (hparse : FileRequest.parse p.payload = .ok r)
      (h : ¬(p.header.kind = .dlc ∨ p.header.kind = .user)) : Refused service tree p .argumentError
  | user {r : FileRequest} (hparse : FileRequest.parse p.payload = .ok r)
      (hkind : p.header.kind = .dlc ∨ p.header.kind = .user) (h : r.user = 0) :
      Refused service tree p .argumentError
  | name {r : FileRequest} (hparse : FileRequest.parse p.payload = .ok r)
      (hkind : p.header.kind = .dlc ∨ p.header.kind = .user) (huser : r.user ≠ 0)
      (h : isPlainName r.name = false) : Refused service tree p .argumentError
  | missing {r : FileRequest} {path : Path} (hasks : Asks service p r path)
      (h : tree.locate path = .error .notFound) : Refused service tree p .fileNotFound
  | directory {r : FileRequest} {path : Path} {place : Place} (hasks : Asks service p r path)
      (h : tree.locate path = .ok (place, .directory)) : Refused service tree p .fileNotFound
  | unreachable {r : FileRequest} {path : Path} {fault : Fault} (hasks : Asks service p r path)
      (h : tree.locate path = .error fault) (hfault : fault ≠ .notFound) : Refused service tree p .unknown
  | tooLong {r : FileRequest} {path : Path} {place : Place} {content : Content}
      (hasks : Asks service p r path) (h : tree.locate path = .ok (place, .file content))
      (hlength : content.length > Store.maxLength) : Refused service tree p .argumentError
  | empty {r : FileRequest} {path : Path} {place : Place} {content : Content}
      (hasks : Asks service p r path) (h : tree.locate path = .ok (place, .file content))
      (hlength : content.length = 0) : Refused service tree p .emptyFile

section

variable {service : Service} {tree : Tree} {p : Packet} {r : FileRequest} {path : Path}

/-- A request is granted or refused. -/
theorem granted_or_refused (service : Service) (tree : Tree) (p : Packet) :
    (∃ r content, Granted service tree p r content) ∨ ∃ code, Refused service tree p code := by
  cases hparse : FileRequest.parse p.payload with
  | error e => exact .inr ⟨_, .malformed hparse⟩
  | ok r =>
    by_cases hkind : p.header.kind = .dlc ∨ p.header.kind = .user
    · by_cases huser : r.user = 0
      · exact .inr ⟨_, .user hparse hkind huser⟩
      · cases hname : isPlainName r.name with
        | false => exact .inr ⟨_, .name hparse hkind huser hname⟩
        | true =>
          -- A file of these kinds has a directory, and so a path.
          obtain ⟨dir, hdir⟩ : ∃ dir, service.store.directory p.header.kind r.user = .ok dir := by
            rcases hkind with hkind | hkind <;> rw [hkind] <;> exact ⟨_, rfl⟩
          have hasks : Asks service p r (dir.child r.name) :=
            ⟨hparse, hkind, huser, hname, Store.resolve_of_plain hname hdir⟩
          cases hfound : tree.locate (dir.child r.name) with
          | error fault =>
            by_cases hfault : fault = .notFound
            · exact .inr ⟨_, .missing hasks (hfault ▸ hfound)⟩
            · exact .inr ⟨_, .unreachable hasks hfound hfault⟩
          | ok found =>
            obtain ⟨place, node⟩ := found
            cases node with
            | directory => exact .inr ⟨_, .directory hasks hfound⟩
            | file content =>
              by_cases hempty : content.length = 0
              · exact .inr ⟨_, .empty hasks hfound hempty⟩
              · by_cases hlong : content.length > Store.maxLength
                · exact .inr ⟨_, .tooLong hasks hfound hlong⟩
                · exact .inl ⟨r, content, _, place, hasks, hfound, by omega, by omega⟩
    · exact .inr ⟨_, .kind hparse hkind⟩

/-- A request that asks for a file is taken for what it is. -/
theorem Asks.request_eq (h : Asks service p r path) (hrequest : p.request = .fileRequest) :
    request p = .ok (p.header.kind, r) :=
  request_eq_ok hrequest h.parsed ((FileKind.isStored_iff _).mpr h.kind) h.user

/-- What looking for the file that is asked for comes to. -/
theorem Asks.locate_eq (h : Asks service p r path) (scene : Scene) :
    locate service scene p.header.kind r =
      match scene.tree.locate path with
      | .error .notFound => .error .fileNotFound
      | .error fault => .error (.io fault.message)
      | .ok (_, .directory) => .error .fileNotFound
      | .ok (place, .file content) =>
          if content.length > Store.maxLength then
            .error (.argument s!"file of {content.length} bytes")
          else if UInt32.ofNat content.length = 0 then .error .emptyFile
          else .ok
            { place, kind := p.header.kind
              descriptor := ⟨UInt32.ofNat content.length, r.user, r.name⟩ } := by
  simp only [locate, Store.openFile, bind, Except.bind, h.path]
  -- By what the path leads to.
  cases scene.tree.locate path with
  | error fault => cases fault <;> rfl
  | ok found =>
    obtain ⟨place, node⟩ := found
    cases node with
    | directory => rfl
    | file content =>
      by_cases hlong : content.length > Store.maxLength
      · simp only [if_pos hlong]
        rfl
      · simp only [if_neg hlong]
        rfl

/-- Whatever is wrong with a request is found when it is read or when the file is looked for. -/
theorem Refused.exists_failure {scene : Scene} {code : ErrorCode}
    (h : Refused service scene.tree p code) (hrequest : p.request = .fileRequest) :
    ∃ failure, failure.code? = some code ∧
      (request p = .error failure ∨ ∃ r, request p = .ok (p.header.kind, r) ∧
        locate service scene p.header.kind r = .error failure) := by
  -- In the order in which the checks are made: the first three by the request alone, the others in the store.
  cases h with
  | @malformed e h =>
    refine ⟨.ofPayload e, rfl, .inl ?_⟩
    simp only [request, bind, Except.bind, hrequest, h, ne_eq, not_true_eq_false, ↓reduceIte]
    rfl
  | @kind r hparse h =>
    have hkind : p.header.kind.isStored = false := by
      rwa [← FileKind.isStored_iff, Bool.not_eq_true] at h
    refine ⟨.argument ("file kind " ++ p.header.kind.label), rfl, .inl ?_⟩
    simp only [request, bind, Except.bind, hrequest, hparse, hkind, mapError_ok, ne_eq,
      not_true_eq_false, Bool.not_false, ↓reduceIte]
    rfl
  | @user r hparse hkind h =>
    have hstored := (FileKind.isStored_iff _).mpr hkind
    refine ⟨.argument "user id 0", rfl, .inl ?_⟩
    simp only [request, bind, Except.bind, hrequest, hparse, hstored, h, mapError_ok, ne_eq,
      not_true_eq_false, Bool.not_true, Bool.false_eq_true, ↓reduceIte]
    rfl
  | @name r hparse hkind huser h =>
    have hstored := (FileKind.isStored_iff _).mpr hkind
    refine ⟨.argument ("file name " ++ Text.Quoted.encode r.name), rfl,
      .inr ⟨r, request_eq_ok hrequest hparse hstored huser, ?_⟩⟩
    simp only [locate, Store.openFile, Store.resolve, bind, Except.bind, h]
    rfl
  | missing hasks h =>
    exact ⟨.fileNotFound, rfl, .inr ⟨_, hasks.request_eq hrequest, by rw [hasks.locate_eq, h]⟩⟩
  | directory hasks h =>
    exact ⟨.fileNotFound, rfl, .inr ⟨_, hasks.request_eq hrequest, by rw [hasks.locate_eq, h]⟩⟩
  | @unreachable r path fault hasks h hfault =>
    refine ⟨.io fault.message, rfl, .inr ⟨r, hasks.request_eq hrequest, ?_⟩⟩
    rw [hasks.locate_eq, h]
    cases fault with
    | notFound => exact absurd rfl hfault
    | _ => rfl
  | @tooLong r path place content hasks h hlength =>
    refine ⟨.argument s!"file of {content.length} bytes", rfl, .inr ⟨r, hasks.request_eq hrequest, ?_⟩⟩
    rw [hasks.locate_eq, h]
    exact if_pos hlength
  | @empty r path place content hasks h hlength =>
    refine ⟨.emptyFile, rfl, .inr ⟨r, hasks.request_eq hrequest, ?_⟩⟩
    rw [hasks.locate_eq, h]
    simp only [hlength]
    rfl

/-- A file that was just found is sent from its beginning. -/
theorem offset_of_locate {scene : Scene} {kind : FileKind} {t : Transfer}
    (h : locate service scene kind r = .ok t) : t.offset = 0 := by
  simp only [locate, bind, Except.bind] at h
  split at h
  · cases h
  · split at h
    · cases h
    · cases h
      rfl

end

/-! ### Running -/

section

variable {service : Service} {op : Operation} {scene : Scene} {p : Packet} {rest : List Packet}

/-- A download of a file that can be sent describes it and sends its blocks, number by number. -/
theorem Granted.run_eq {r : FileRequest} {content : Content}
    (h : Granted service scene.tree p r content) (hkind : op.kind = .download)
    (hstage : op.stage = .opening) (hreaches : scene.reachesPeer = true)
    (hpackets : op.inbox.waiting = p :: rest) (hrequest : p.request = .fileRequest)
    (hrest : ∀ q ∈ rest, q.request.endsOperation = false) (hchunk : 0 < service.limits.downloadChunk) :
    ∃ description,
      Client.fileInfo (UInt32.ofNat content.length) r.user p.header.kind r.name op.id =
        .ok description ∧
      op.run service scene = (none, op.conclude (.ok ()) (scene.postAll (description ::
        allNumbered op.id p.header.kind service.limits.downloadChunk content.toList))) := by
  obtain ⟨path, place, hasks, hlocate, hpos, hlength⟩ := h
  obtain ⟨t, ht⟩ : ∃ t : Transfer, t =
      { place, kind := p.header.kind
        descriptor := ⟨UInt32.ofNat content.length, r.user, r.name⟩ } := ⟨_, rfl⟩
  -- A name that came in a request is short enough for a description.
  obtain ⟨payload, hencode⟩ := FileRequest.exists_description_of_parse hasks.parsed (UInt32.ofNat content.length)
  have hinfo : infoPacket t =
      .ok (((Packet.new .fileInfo payload).withKind p.header.kind).withMore true) := by
    simp only [infoPacket, ht, hencode]
    rfl
  have hsent : HasSent service.limits.downloadChunk content.toList.length 0 t := by
    rw [content.length_toList, ht]
    exact ⟨Store.toNat_ofNat_length hlength, by simp only [Nat.zero_mul, Nat.zero_min], rfl⟩
  -- The blocks are those of a download that has sent none yet.
  have hblocks := blockPackets_blocks hchunk op.id hsent
  rw [Nat.zero_mul, List.drop_zero, Nat.zero_add, Nat.sub_zero, ht] at hblocks
  refine ⟨(((Packet.new .fileInfo payload).withKind p.header.kind).withOperation op.id).withMore true,
    ?_, ?_⟩
  · simp only [Client.fileInfo, hencode]
    rfl
  · rw [run_download hkind hstage hreaches hpackets (by rw [hrequest]; rfl) hrest
      (hasks.request_eq hrequest) hasks.path hlocate hpos hlength hchunk ht hinfo, ht, hblocks]
    rfl

/-- A download whose request is refused ends with the failure. -/
theorem run_refused {failure : Failure} (hkind : op.kind = .download) (hstage : op.stage = .opening)
    (hpackets : op.inbox.waiting = p :: rest) (hp : p.request.endsOperation = false)
    (h : request p = .error failure ∨ ∃ r, request p = .ok (p.header.kind, r) ∧
      locate service scene p.header.kind r = .error failure) :
    op.run service scene = (none, op.conclude (.error failure) scene) := by
  obtain ⟨inbox, -, -, -, hread⟩ := Turn.read_cons hpackets
  have hbudget : op.budget = Store.maxLength + op.inbox.waiting.length + 2 + 1 + 1 := by
    simp only [budget, hstage]
  rw [run, hbudget]
  -- The failure comes in the first step or in the second.
  rcases h with hrequest | ⟨r, hrequest, hlocate⟩
  · -- The request itself is wrong.
    have hturn : op.turn service scene = .done (.error failure) scene := by
      simp only [turn, hstage, hkind, hread, hp, hrequest]
      rfl
    exact runFor_done hturn
  · have hopening : op.turn service scene = .next (.locating p.header.kind r) inbox scene := by
      simp only [turn, hstage, hkind, hread, hp, hrequest]
      rfl
    have hlocating : turn service { op with stage := .locating p.header.kind r, inbox } scene =
        .done (.error failure) scene := by
      simp only [turn, hlocate]
      rfl
    rw [runFor_next hopening]
    exact runFor_done hlocating

end

end Download

/-! ### What is left to send -/

/-- Whether a download has sent no more than the length that it announced. -/
def Stage.Measures : Stage → Prop
  | .sending t => t.offset ≤ t.descriptor.size.toNat
  | _ => True

section

variable {service : Service} {op : Operation} {t : Transfer}

/-- No step takes a download beyond the end of its file. -/
private theorem turn_measures (h : op.stage.Measures) (scene : Scene) :
    Turn.Ensures True (fun stage _ _ => stage.Measures) (fun _ _ => True) (op.turn service scene) := by
  cases hstage : op.stage with
  | opening =>
    simp only [turn, hstage]
    refine Turn.ensures_read (fun _ => trivial) trivial fun p rest _ _ _ => ?_
    cases op.kind <;> exact Turn.ensures_proceed (fun _ _ => trivial) fun _ _ => trivial
  | locating kind r =>
    simp only [turn, hstage]
    refine Turn.ensures_proceed (fun _ _ => trivial) fun t ht => ?_
    show t.offset ≤ _
    rw [Download.offset_of_locate ht]
    exact Nat.zero_le _
  | sending t =>
    rw [hstage] at h
    simp only [turn, hstage, Download.sendBlock]
    refine Turn.ensures_proceed (fun _ _ => trivial) fun block _ => ?_
    refine Turn.ensures_proceed (fun _ _ => trivial) fun scene₁ _ => ?_
    split
    · trivial
    · split
      · trivial
      · split
        · trivial
        · -- No more is read for a block than what is left.
          have hoffset : t.offset ≤ t.descriptor.size.toNat := h
          show t.offset + min t.remaining service.limits.downloadChunk ≤ t.descriptor.size.toNat
          rw [Transfer.remaining]
          omega
  | collecting u =>
    simp only [turn, hstage]
    refine Turn.ensures_read (fun _ => trivial) trivial fun p rest _ _ _ => ?_
    refine Turn.ensures_proceed (fun _ _ => trivial) fun u' _ => ?_
    cases p.more <;> trivial
  | saving u =>
    simp only [turn, hstage, Upload.save]
    refine Turn.ensures_proceed (fun _ _ => trivial) fun tree _ => ?_
    split <;> trivial
  | allocating =>
    simp only [turn, hstage, Allocation.allocate]
    split
    · trivial
    · split <;> trivial

/-- Whatever happens between its steps, a download has sent no more than the length of its file. -/
theorem Arises.offset_le (h : op.Arises service) (hstage : op.stage = .sending t) :
    t.offset ≤ t.descriptor.size.toNat := by
  suffices hmeasures : op.stage.Measures by rwa [hstage] at hmeasures
  clear hstage
  -- By induction on how the operation came about; what is put into its inbox does not move it.
  induction h with
  | opened id kind => trivial
  | given _ inbox ih => exact ih
  | @stepped op op' scene scene' _ hstep ih =>
    have hturn := @turn_measures service op ih scene
    obtain ⟨stage, inbox, hnext, rfl⟩ := exists_next_of_running hstep
    rwa [hnext] at hturn

/-- What is left to send counts down by the lengths of the blocks, and never below nothing. -/
theorem Arises.remaining_exact (h : op.Arises service) (hstage : op.stage = .sending t) :
    t.offset + t.remaining = t.descriptor.size.toNat ∧
      ∀ tree block, Download.readBlock tree t.place t.offset
        (min t.remaining service.limits.downloadChunk) = .ok block →
          (Download.advance t block.length).remaining + block.length = t.remaining := by
  have hoffset := h.offset_le hstage
  refine ⟨by rw [Transfer.remaining]; omega, fun tree block hblock => ?_⟩
  have hlength := Download.length_readBlock hblock
  simp only [Transfer.remaining, Download.advance] at hlength ⊢
  omega

/-- A file that can be sent is described and then sent in its blocks, number by number, and whatever else
is asked for is answered with one error under the code of the first thing that is wrong. Packets that do
not end the download may wait behind the request. What is left to send is counted exactly, whatever
happens between the steps of a download. -/
theorem answer_to_request {p : Packet} {strays : List Packet} {scene : Scene}
    (hchunk : 1 ≤ service.limits.downloadChunk) (hkind : op.kind = .download)
    (hstage : op.stage = .opening) (hinbox : op.inbox.waiting = p :: strays)
    (hrequest : p.request = .fileRequest)
    (hstrays : ∀ q ∈ strays, q.request ≠ .suspend ∧ q.request ≠ .error)
    (hreaches : scene.reachesPeer = true) :
    let left := op.run service scene
    left.1 = none ∧ left.2.tree = scene.tree ∧
    (∀ r content, Download.Granted service scene.tree p r content →
      ∃ description,
        Client.fileInfo (UInt32.ofNat content.length) r.user p.header.kind r.name op.id =
          .ok description ∧
        left.2.session = scene.session.postAll (description ::
          Download.allNumbered op.id p.header.kind service.limits.downloadChunk content.toList)) ∧
    (∀ code, Download.Refused service scene.tree p code →
      left.2.session = scene.session.postAll [.error .fileRequest code op.id]) ∧
    ((∃ r content, Download.Granted service scene.tree p r content) ∨
      ∃ code, Download.Refused service scene.tree p code) ∧
    ∀ (op' : Operation) (t : Transfer), op'.Arises service → op'.stage = .sending t →
      t.offset + t.remaining = t.descriptor.size.toNat ∧
        ∀ tree block, Download.readBlock tree t.place t.offset
          (min t.remaining service.limits.downloadChunk) = .ok block →
            (Download.advance t block.length).remaining + block.length = t.remaining := by
  intro left
  have hends : ∀ q ∈ strays, q.request.endsOperation = false := by
    intro q hq
    obtain ⟨hsuspend, herror⟩ := hstrays q hq
    cases hpurpose : q.request with
    | suspend => exact absurd hpurpose hsuspend
    | error => exact absurd hpurpose herror
    | _ => rfl
  -- Every request is granted or refused, and by one reason.
  have hone := Download.granted_or_refused service scene.tree p
  have hgranted {r : FileRequest} {content : Content}
      (h : Download.Granted service scene.tree p r content) :=
    h.run_eq hkind hstage hreaches hinbox hrequest hends hchunk
  have hrefused {code : ErrorCode} (h : Download.Refused service scene.tree p code) :
      left.1 = none ∧ left.2.tree = scene.tree ∧
        left.2.session = scene.session.postAll [.error .fileRequest code op.id] := by
    obtain ⟨failure, hcode, hfails⟩ := h.exists_failure hrequest
    have hrun : left = (none, _) :=
      Download.run_refused hkind hstage hinbox (by rw [hrequest]; rfl) hfails
    obtain ⟨htree, hsession⟩ := conclude_eq hreaches op (.error failure)
    rw [hrun]
    refine ⟨rfl, htree, hsession.trans ?_⟩
    simp only [lastReplies, failureReplies, hcode, hkind]
    rfl
  -- In either case the download is over and has left the tree alone.
  have hover : left.1 = none ∧ left.2.tree = scene.tree := by
    rcases hone with ⟨r, content, h⟩ | ⟨code, h⟩
    · obtain ⟨description, -, hrun⟩ := hgranted h
      have hleft : left = (none, _) := hrun
      rw [hleft]
      exact ⟨rfl, rfl⟩
    · obtain ⟨hdone, htree, -⟩ := hrefused h
      exact ⟨hdone, htree⟩
  refine ⟨hover.1, hover.2, fun r content h => ?_, fun code h => (hrefused h).2.2, hone,
    fun op' t h hsending => h.remaining_exact hsending⟩
  obtain ⟨description, hdescription, hrun⟩ := hgranted h
  have hleft : left = (none, _) := hrun
  exact ⟨description, hdescription, by rw [hleft]; rfl⟩

/-- A file of three bytes is sent in two blocks, though a probe waits behind the request. -/
theorem answer_to_request_for_three_bytes :
    let service : Service := { store := ⟨⟨["dlc"]⟩, ⟨["user"]⟩⟩, limits := ⟨2, 10⟩ }
    let scene : Scene :=
      { tree := ⟨[(["dlc"], .directory), (["dlc", "a"], .file { bytes := [1, 2, 3] })]⟩ }
    let request : Packet :=
      ((Packet.new .fileRequest [7, 0, 0, 0, 1, 97]).withKind .dlc).withOperation 2
    let op : Operation :=
      { id := 2, kind := .download, inbox := { front := [request, .connectionCheck] } }
    ∃ description blocks,
      (op.run service scene).2.session = scene.session.postAll (description :: blocks) ∧
      Client.fileInfo 3 7 .dlc "a" 2 = .ok description ∧
      blocks.map (fun p => (p.header.sequence, p.payload, p.more)) =
        [(1, [1, 2], true), (2, [3], false)] := by
  intro service scene request op
  have hgranted : Download.Granted service scene.tree request ⟨7, "a"⟩ { bytes := [1, 2, 3] } :=
    ⟨⟨["dlc", "a"]⟩, ["dlc", "a"], ⟨rfl, .inl rfl, by decide, by decide, rfl⟩, rfl,
      by decide, by decide⟩
  have hstrays : ∀ q ∈ [Packet.connectionCheck], q.request ≠ .suspend ∧ q.request ≠ .error := by decide
  obtain ⟨-, -, hanswered, -⟩ : (op.run service scene).1 = none ∧ _ ∧ _ ∧ _ :=
    answer_to_request (by decide) rfl rfl (show op.inbox.waiting = request :: _ from rfl) rfl hstrays rfl
  obtain ⟨description, hdescription, hsession⟩ := hanswered _ _ hgranted
  exact ⟨description, _, hsession, hdescription, by decide⟩

end

end Operation

end Depot
