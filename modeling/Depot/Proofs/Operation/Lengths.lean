import Depot.Proofs.Operation.Doomed
import Depot.Proofs.Operation.Moves
import Depot.Proofs.Operation.Transfers
import Depot.Proofs.Storage.Confinement

/-!
# How long replies are

An operation is given packets whose payloads are not longer than a limit. The blocks that it sends are no
longer either, if its service cuts them so, but the other replies are as long as they are: an error takes
two bytes, a user id four, and the description of a file four bytes more than the request for the file,
because of the length that stands in front. `Packet.Measured` lists these lengths.

Whether every reply keeps to the limit is then a matter of the limit alone, and `Roomy` says when. Without
room there is a file that can be asked for while the description of it is too long.

## Key results

- `FileRequest.length_of_parse`, `FileDescriptor.length_encode`: what a name takes in a payload
- `Packet.Measured.length_le`: where there is room, every reply keeps to the limit
- `exceeds_of_not_roomy`: where there is none, some download does not
- `within_step_running`, `within_step_ended`: what an operation says in a step
-/

namespace Depot

/-! ### Names in payloads -/

/-- A request for a file takes five bytes beside the name. -/
theorem FileRequest.length_of_parse {payload : List UInt8} {r : FileRequest}
    (h : parse payload = .ok r) : r.name.toList.length + 5 ≤ payload.length := by
  obtain ⟨hlength, hwritten⟩ := Payload.writeName_of_readName (parse_eq_ok h).2
  rw [Payload.utf8ByteSize_of_ascii (Payload.writeName_eq_ok hwritten).1] at hlength
  omega

/-- A description of a file takes nine bytes beside the name. -/
theorem FileDescriptor.length_encode {d : FileDescriptor} {payload : List UInt8}
    (h : d.encode = .ok payload) :
    d.name.toList.length ≤ Payload.maxName ∧ payload.length = d.name.toList.length + 9 := by
  simp only [encode, bind, Except.bind] at h
  split at h
  · cases h
  · next name hname =>
    cases h
    obtain ⟨-, hlength, rfl⟩ := Payload.writeName_eq_ok hname
    refine ⟨hlength, ?_⟩
    rw [List.length_append, List.length_append, Wire.length_bytes32, Wire.length_bytes32,
      List.length_cons, List.length_map]
    omega

/-! ### The lengths of replies -/

/-- How long a packet for the peer may be where no longer payload than a limit is taken from it. -/
inductive Packet.Sized (limit : Nat) (p : Packet) : Prop
  | fits (h : p.payload.length ≤ limit)
  /-- An error tells the request and the code. -/
  | error (hrequest : p.request = .error) (h : p.payload.length = 2)
  | id (hrequest : p.request = .id) (h : p.payload.length = 4)
  /-- The description of a file whose name was not too long for the request. -/
  | info {name : String} (hrequest : p.request = .fileInfo) (hname : name ≠ "")
      (hshort : name.toList.length ≤ Payload.maxName) (hasked : name.toList.length + 5 ≤ limit)
      (h : p.payload.length = name.toList.length + 9)

/-- A packet for the peer that announces its payload and is as long as it may be. -/
structure Packet.Measured (limit : Nat) (p : Packet) : Prop where
  announced : p.header.size.toNat = p.payload.length
  sized : p.Sized limit

/-- Whether a limit has room for all replies: there is room for a user id, and either no request for a
file fits or the longest description does. -/
def Roomy (limit : Nat) : Prop := 4 ≤ limit ∧ (limit < 6 ∨ Payload.maxName + 9 ≤ limit)

/-- Where a user id has room and the description of some file has none, there is a file that can be asked
for while every description of it is too long. -/
theorem exists_name_of_not_roomy {limit : Nat} (hid : 4 ≤ limit) (h : ¬Roomy limit) (user : UInt32) :
    ∃ name asked, Storage.isPlainName name = true ∧ FileRequest.encode ⟨user, name⟩ = .ok asked ∧
      asked.length ≤ limit ∧ ∀ size described,
        FileDescriptor.encode ⟨size, user, name⟩ = .ok described → limit < described.length := by
  have hlimit : 6 ≤ limit ∧ limit < Payload.maxName + 9 := by
    unfold Roomy at h
    omega
  -- The longest name with which the request fits.
  let count := min (limit - 5) Payload.maxName
  have hcount : 0 < count ∧ count ≤ Payload.maxName ∧ count + 5 ≤ limit ∧ limit < count + 9 := by
    simp only [count, Payload.maxName] at hlimit ⊢
    omega
  obtain ⟨hpos, hshort, hfits, hexceeds⟩ := hcount
  let letters : List Char := List.replicate count 'a'
  have hletters : (String.ofList letters).toList = letters := String.toList_ofList
  have hlength : letters.length = count := List.length_replicate
  have hletter : ∀ c ∈ letters, c = 'a' := fun c hc => List.eq_of_mem_replicate hc
  have hname : Payload.writeName (String.ofList letters) =
      .ok (UInt8.ofNat count :: letters.map fun c => UInt8.ofNat c.toNat) := by
    have hascii : letters.all (·.toNat < 128) = true :=
      List.all_eq_true.mpr fun c hc => by rw [hletter c hc]; rfl
    simp only [Payload.writeName, hletters, hascii, hlength, ↓reduceIte, if_neg (Nat.not_lt.mpr hshort)]
  -- A name of such letters is plain.
  have hdots (other : String) (hdot : '.' ∈ other.toList) : String.ofList letters ≠ other := by
    rintro rfl
    rw [hletters] at hdot
    exact absurd (hletter _ hdot) (by decide)
  have hempty : String.ofList letters ≠ "" := by
    intro hnone
    have hnil : letters = [] := hletters ▸ String.toList_eq_nil_iff.mpr hnone
    rw [hnil] at hlength
    exact Nat.ne_of_lt hpos hlength
  have hplain : Storage.isPlainName (String.ofList letters) = true := by
    refine Storage.Path.isPlainName_iff.mpr
      ⟨⟨hempty, hdots "." (by decide), hdots ".." (by decide)⟩, fun c hc => ?_⟩
    rw [hletter c (hletters ▸ hc)]
    decide
  refine ⟨String.ofList letters, _, hplain, by rw [FileRequest.encode, hname]; rfl, ?_,
    fun size described hdescribed => ?_⟩
  · rw [List.length_append, Wire.length_bytes32, List.length_cons, List.length_map, hlength]
    omega
  · rw [(FileDescriptor.length_encode hdescribed).2, hletters, hlength]
    exact hexceeds

namespace Packet

variable {limit : Nat} {p : Packet}

/-- Where there is room, whatever is sized fits. -/
theorem Sized.length_le (h : p.Sized limit) (hroomy : Roomy limit) : p.payload.length ≤ limit := by
  obtain ⟨hid, hinfo⟩ := hroomy
  cases h with
  | fits h => exact h
  | error _ h => omega
  | id _ h => omega
  | @info name _ hname hshort hasked h =>
    -- A name that could be asked for has a letter, so a request fits, and then the longest description does.
    have hpos : 0 < name.toList.length :=
      List.length_pos_iff.mpr fun hnil => hname (String.toList_eq_nil_iff.mp hnil)
    omega

/-- An error is two bytes long. -/
theorem measured_error (limit : Nat) (request : RequestType) (code : ErrorCode) (operation : UInt8) :
    (error request code operation).Measured limit :=
  ⟨(reply_error request code operation).announced, .error rfl rfl⟩

end Packet

namespace Operation

section

variable {service : Service} {op op' : Operation} {scene scene' : Scene} {limit : Nat}

/-- Where there is no room for a description, some client that asks for a file within the limit is answered
by one that is longer, wherever the file lies and whatever is in it. -/
theorem exceeds_of_not_roomy {kind : FileKind} {user : UInt32} (hid : 4 ≤ limit) (h : ¬Roomy limit)
    (hkind : kind = .dlc ∨ kind = .user) (huser : user ≠ 0) (id : UInt8) :
    ∃ name request, Storage.isPlainName name = true ∧
      Client.fileRequest user kind name id = .ok request ∧ request.payload.length ≤ limit ∧
      ∀ (service : Service) (scene : Scene) (path : Storage.Path) (place : Storage.Place)
        (content : Storage.Content), service.store.resolve kind user name = .ok path →
        scene.tree.locate path = .ok (place, .file content) → 0 < content.length →
        content.length ≤ Storage.Store.maxLength → 0 < service.limits.downloadChunk →
        scene.reachesPeer = true →
        let op : Operation := { id, kind := .download, inbox := { front := [request] } }
        ∃ p ∈ scene.queued (op.run service scene).2, p.request = .fileInfo ∧ limit < p.payload.length := by
  obtain ⟨name, asked, hplain, hasked, hfits, hexceeds⟩ := exists_name_of_not_roomy hid h user
  have hrequest : Client.fileRequest user kind name id =
      .ok (((Packet.new .fileRequest asked).withKind kind).withOperation id) := by
    rw [Client.fileRequest, hasked]
    rfl
  refine ⟨name, _, hplain, hrequest, hfits, ?_⟩
  intro service scene path place content hpath hlocate hpos hlen hchunk hreaches
  have hinbox (request : Packet) : ({ front := [request] } : Queue Packet).waiting = [request] := rfl
  -- The file is there and can be read, so the download describes it before it sends the blocks.
  obtain ⟨description, blocks, last, -, hsession, hdescription, -⟩ :=
    download_file hkind huser hrequest (hinbox _) hreaches hpath hlocate hpos hlen hchunk
  have hposted : scene.Posted (description :: (blocks ++ [last])) _ := ⟨_, hsession⟩
  obtain ⟨payload, hencode, rfl⟩ := Client.fileInfo_eq_ok hdescription
  refine ⟨(((Packet.new .fileInfo payload).withKind kind).withOperation id).withMore true, ?_, rfl,
    hexceeds _ payload hencode⟩
  rw [hposted.queued_eq hreaches]
  exact List.mem_cons_self

/-! ### Stages -/

/-- The name of the file that was found is the one that was asked for, and it is not empty. -/
theorem Download.name_of_locate {kind : FileKind} {r : FileRequest} {t : Transfer}
    (h : locate service scene kind r = .ok t) : t.descriptor.name = r.name ∧ r.name ≠ "" := by
  obtain ⟨path, content, hpath, -⟩ := locate_eq_ok h
  refine ⟨?_, (Storage.Path.isPlainName_iff.mp (Storage.Store.resolve_eq_ok hpath).1).1.1⟩
  simp only [locate, bind, Except.bind] at h
  split at h
  · cases h
  · split at h
    · cases h
    · cases h
      rfl

/-- The request of a download is what its payload says. -/
theorem Download.parse_of_request {p : Packet} {kind : FileKind} {r : FileRequest}
    (h : request p = .ok (kind, r)) : FileRequest.parse p.payload = .ok r := by
  simp only [request, bind, Except.bind, throw, throwThe, MonadExceptOf.throw] at h
  split at h
  · cases h
  · cases hparse : FileRequest.parse p.payload with
    | error e => rw [hparse] at h; cases h
    | ok found =>
      rw [hparse] at h
      simp only [mapError_ok] at h
      split at h
      · cases h
      · split at h
        · cases h
        · cases h
          rfl

/-- Whether the file of a stage has a name that was short enough to be asked for. -/
def Stage.Within (limit : Nat) : Stage → Prop
  | locating _ r => r.name.toList.length + 5 ≤ limit
  | sending t => t.descriptor.name ≠ "" ∧ t.descriptor.name.toList.length + 5 ≤ limit
  | _ => True

/-- What an operation is about to be given, and what it was given, keeps to a limit. -/
structure Within (limit : Nat) (op : Operation) : Prop where
  stage : op.stage.Within limit
  inbox : ∀ p ∈ op.inbox.waiting, p.payload.length ≤ limit

/-! ### What is said in a step -/

/-- The description of a file keeps to what the name allows. -/
theorem Download.measured_announcement {id : UInt8} {t : Transfer} {opening : List Packet}
    (h : announcement id t = .ok opening) (hstage : (Stage.sending t).Within limit) :
    ∀ p ∈ opening, p.Measured limit := by
  intro p hp
  unfold announcement at h
  split at h
  · cases h
    cases hp
  · cases hinfo : infoPacket t with
    | error failure => rw [hinfo] at h; cases h
    | ok info =>
      rw [hinfo] at h
      cases h
      rw [List.mem_singleton.mp hp]
      obtain ⟨payload, hencode, rfl⟩ := infoPacket_eq_ok hinfo
      obtain ⟨hshort, hlength⟩ := FileDescriptor.length_encode hencode
      exact ⟨(reply_infoPacket hinfo).announced, .info rfl hstage.1 hshort hstage.2 hlength⟩

/-- A block keeps to the limit if the service cuts blocks so. -/
theorem Download.measured_block {id : UInt8} {t : Transfer} {block : List UInt8}
    (hblock : readBlock scene.tree t.place t.offset (min t.remaining service.limits.downloadChunk) =
      .ok block)
    (hchunk : service.limits.downloadChunk ≤ limit) (t' : Transfer) :
    ((blockPacket t' block).withOperation id).Measured limit := by
  have hlength := length_readBlock hblock
  have hremaining := t.remaining_le
  have hannounced : block.length ≤ maxAnnounced := by
    rw [hlength]
    exact Nat.le_trans (Nat.min_le_left _ _) hremaining
  refine ⟨(@reply_blockPacket id t' block hannounced).announced, .fits ?_⟩
  show block.length ≤ limit
  omega

/-- An operation that is over says nothing but an error. -/
theorem measured_lastReplies (op : Operation) (result : Except Failure Unit) (limit : Nat) :
    ∀ p ∈ op.lastReplies result, p.Measured limit := by
  intro p hp
  cases result with
  | ok _ => cases hp
  | error failure =>
    obtain ⟨code, -, rfl⟩ := Option.map_eq_some_iff.mp (Option.mem_toList.mp hp)
    exact Packet.measured_error limit _ code _

/-- What a step of an operation within a limit comes to: it stays within the limit if it goes on, and what
it says is measured. -/
def Turn.Modest (limit : Nat) (op : Operation) (scene : Scene) : Turn → Prop
  | .wait => True
  | .next stage inbox scene' => Within limit { op with stage, inbox } ∧
      ∃ posts, scene.Posted posts scene' ∧ ∀ p ∈ posts, p.Measured limit
  | .done _ scene' => ∃ posts, scene.Posted posts scene' ∧ ∀ p ∈ posts, p.Measured limit

/-- One case for each move: what is read keeps to the limit, and what is said is one of the sized replies. -/
theorem Moves.modest {turn : Turn} (hmoves : Moves service op scene turn) (h : op.Within limit)
    (hlimit : 0 < limit) (hchunk : service.limits.downloadChunk ≤ limit) : turn.Modest limit op scene := by
  -- A step that reads, or looks for the file, says nothing.
  have hquiet : ∃ posts, scene.Posted posts scene ∧ ∀ p ∈ posts, p.Measured limit :=
    ⟨[], .refl scene, List.forall_mem_nil _⟩
  have hrest {p : Packet} {inbox : Queue Packet} (hnext : op.inbox.waiting = p :: inbox.waiting) :
      ∀ q ∈ inbox.waiting, q.payload.length ≤ limit :=
    fun q hq => h.inbox q (by rw [hnext]; exact List.mem_cons_of_mem p hq)
  have hblocks {t t' : Transfer} {opening : List Packet} {block : List UInt8}
      (hstage : op.stage = .sending t)
      (hblock : Download.readBlock scene.tree t.place t.offset
        (min t.remaining service.limits.downloadChunk) = .ok block)
      (hopening : Download.announcement op.id t = .ok opening) :
      ∀ p ∈ opening ++ [(Download.blockPacket t' block).withOperation op.id], p.Measured limit := by
    intro p hp
    rcases List.mem_append.mp hp with hp | hp
    · exact Download.measured_announcement hopening (hstage ▸ h.stage) p hp
    · rw [List.mem_singleton.mp hp]
      exact Download.measured_block hblock hchunk t'
  cases hmoves with
  | waits => trivial
  | runsOut => exact hquiet
  | breaksOff => exact hquiet
  | fails => exact hquiet
  | @requested p inbox kind r hstage hkind hnext hrequest =>
    have hname := FileRequest.length_of_parse (Download.parse_of_request hrequest)
    have hp := h.inbox p (by rw [hnext]; exact List.mem_cons_self)
    exact ⟨⟨Nat.le_trans hname hp, hrest hnext⟩, hquiet⟩
  | offered hstage hkind hnext => exact ⟨⟨trivial, hrest hnext⟩, hquiet⟩
  | asked hstage hkind hnext => exact ⟨⟨trivial, hrest hnext⟩, hquiet⟩
  | @located kind r t hstage hfound =>
    obtain ⟨hname, hne⟩ := Download.name_of_locate hfound
    have hshort : r.name.toList.length + 5 ≤ limit := by
      have := h.stage
      rwa [hstage] at this
    exact ⟨⟨⟨hname ▸ hne, hname ▸ hshort⟩, h.inbox⟩, hquiet⟩
  | @collected p inbox u u' hstage hnext hblock =>
    refine ⟨⟨?_, hrest hnext⟩, hquiet⟩
    cases p.more <;> trivial
  | @cut t opening p hstage hopening =>
    exact ⟨opening, .postAll scene opening,
      Download.measured_announcement hopening (hstage ▸ h.stage)⟩
  | @sends t opening block hstage hblock hopening hmore =>
    have hname : (Stage.sending t).Within limit := hstage ▸ h.stage
    refine ⟨⟨hname, ?_⟩, _, .postAll scene _, hblocks hstage hblock hopening⟩
    show ∀ p ∈ op.inbox.drained.waiting, _
    rw [Queue.waiting_drained]
    exact List.forall_mem_nil _
  | completes hstage hblock hopening =>
    exact ⟨_, .postAll scene _, hblocks hstage hblock hopening⟩
  | @saved u tree hstage hsaved =>
    have hstored : scene.Posted [] { scene with tree } := ⟨scene.session.user, rfl⟩
    refine ⟨_, hstored.trans (.postAll _ _), fun p hp => ?_⟩
    rw [List.mem_singleton.mp hp]
    exact ⟨(Upload.reply_confirmation op.id).announced, .fits hlimit⟩
  | @allocated user tree hstage hallocated =>
    have hnamed : scene.Posted [] { scene with tree, session := { scene.session with user } } :=
      ⟨user, rfl⟩
    refine ⟨_, hnamed.trans (.postAll _ _), fun p hp => ?_⟩
    rw [List.mem_singleton.mp hp]
    exact ⟨(Allocation.reply_id user op.id).announced, .id rfl rfl⟩

end

end Operation

/-- Whether whatever was queued for the peer since an earlier scene is measured. -/
def Scene.Speaks (limit : Nat) (s s' : Scene) : Prop :=
  ∀ p ∈ s'.session.outbound.waiting, p ∈ s.session.outbound.waiting ∨ p.Measured limit

/-- Whatever was posted is measured. -/
theorem Scene.Posted.speaks {limit : Nat} {s s' : Scene} {posts : List Packet} (h : s.Posted posts s')
    (hposts : ∀ p ∈ posts, p.Measured limit) : s.Speaks limit s' := by
  obtain ⟨user, hsession⟩ := h
  intro p hp
  rw [hsession, Session.postAll_eq] at hp
  exact (Queue.mem_waiting_foldl_push hp).imp_right (hposts p)

namespace Operation

section

variable {service : Service} {op op' : Operation} {scene scene' : Scene} {limit : Nat}
  {outcome : Outcome}

/-- An operation that goes on stays within the limit. -/
theorem within_step_running (h : op.Within limit) (hlimit : 0 < limit)
    (hchunk : service.limits.downloadChunk ≤ limit) (hreaches : scene.reachesPeer = true)
    (hstep : op.step service scene = .running op' scene') :
    op'.Within limit ∧ scene.Speaks limit scene' := by
  have hmodest := (moves_of_turn service op hreaches).modest h hlimit hchunk
  obtain ⟨stage, inbox, hnext, rfl⟩ := exists_next_of_running hstep
  rw [hnext] at hmodest
  obtain ⟨hwithin, posts, hposted, hposts⟩ := hmodest
  exact ⟨hwithin, hposted.speaks hposts⟩

/-- What an operation says with its last step is measured too. -/
theorem within_step_ended (h : op.Within limit) (hlimit : 0 < limit)
    (hchunk : service.limits.downloadChunk ≤ limit) (hreaches : scene.reachesPeer = true)
    (hstep : op.step service scene = .ended outcome scene') : scene.Speaks limit scene' := by
  have hmodest := (moves_of_turn service op hreaches).modest h hlimit hchunk
  obtain ⟨result, scene₁, hdone, -, rfl⟩ := exists_done_of_ended hstep
  rw [hdone] at hmodest
  obtain ⟨posts, hposted, hposts⟩ := hmodest
  -- First what the turn says, and then the report of a failure.
  have hconcluded : scene₁.Posted (op.lastReplies result) (op.conclude result scene₁) :=
    ⟨_, (conclude_eq (hposted.reachesPeer.trans hreaches) op result).2⟩
  refine (hposted.trans hconcluded).speaks fun p hp => ?_
  rcases List.mem_append.mp hp with hp | hp
  · exact hposts p hp
  · exact measured_lastReplies op result limit p hp

end

end Operation

end Depot
