import Depot.Proofs.Operation.Downloads
import Depot.Proofs.Operation.Uploads

/-!
# There and back

A client that announces a file and sends it in blocks of any length carries the file, in the sense of
`Upload.Carries`. Once the store has it, a download gives the same bytes back, in blocks of another
length.

## Key results

- `Client.carries_fileChunks`: what a client sends carries the file
- `upload_then_download`: what was uploaded is what is downloaded
-/

namespace Depot

open Operation

namespace Client

variable {size user : UInt32} {kind : FileKind} {name : String} {id : UInt8} {p : Packet}

/-- What a client says of a file it is about to send. -/
theorem fileInfo_eq_ok (h : fileInfo size user kind name id = .ok p) :
    ∃ payload, FileDescriptor.encode ⟨size, user, name⟩ = .ok payload ∧
      p = (((Packet.new .fileInfo payload).withKind kind).withOperation id).withMore true := by
  cases hencode : FileDescriptor.encode ⟨size, user, name⟩ with
  | error e => simp only [fileInfo, hencode] at h; cases h
  | ok payload =>
    simp only [fileInfo, hencode] at h
    cases h
    exact ⟨payload, rfl, rfl⟩

/-- What a client says of a file it asks for. -/
theorem fileRequest_eq_ok (h : fileRequest user kind name id = .ok p) :
    ∃ payload, FileRequest.encode ⟨user, name⟩ = .ok payload ∧
      p = ((Packet.new .fileRequest payload).withKind kind).withOperation id := by
  cases hencode : FileRequest.encode ⟨user, name⟩ with
  | error e => simp only [fileRequest, hencode] at h; cases h
  | ok payload =>
    simp only [fileRequest, hencode] at h
    cases h
    exact ⟨payload, rfl, rfl⟩

/-- A file that can be asked for can be described. -/
theorem exists_description (h : fileRequest user kind name id = .ok p) (size : UInt32) :
    ∃ payload, FileDescriptor.encode ⟨size, user, name⟩ = .ok payload := by
  obtain ⟨payload, hencode, -⟩ := fileRequest_eq_ok h
  cases hname : Payload.writeName name with
  | error e => simp only [FileRequest.encode, hname] at hencode; cases hencode
  | ok written => exact ⟨_, by simp only [FileDescriptor.encode, hname]; rfl⟩

/-- A name that can be written is no longer than the system lets names be. -/
theorem utf8ByteSize_le_of_fileInfo (h : fileInfo size user kind name id = .ok p) :
    name.utf8ByteSize ≤ Storage.Tree.maxName := by
  obtain ⟨payload, hencode, -⟩ := fileInfo_eq_ok h
  cases hname : Payload.writeName name with
  | error e => simp only [FileDescriptor.encode, hname] at hencode; cases hencode
  | ok bytes =>
    obtain ⟨hascii, hlen, -⟩ := Payload.writeName_eq_ok hname
    rw [Payload.utf8ByteSize_of_ascii hascii]
    exact hlen

/-- The packets of some blocks carry them, and the last of them says that it is the last. -/
theorem blockPackets_eq (id : UInt8) (index : Nat) {blocks : List (List UInt8)} (hne : blocks ≠ []) :
    ∃ before last, blockPackets id index blocks = before ++ [last] ∧ Upload.AllBlocks before ∧
      last.request = .file ∧ last.more = false ∧
      Upload.content (before ++ [last]) = blocks.flatten := by
  induction blocks generalizing index with
  | nil => exact absurd rfl hne
  | cons block rest ih =>
    -- Only the last block is marked otherwise, so there are two cases besides the empty list.
    cases rest with
    | nil =>
      refine ⟨[], blockPacket id index block false, rfl, List.forall_mem_nil _, rfl, rfl,
        ?_⟩
      rfl
    | cons next rest =>
      obtain ⟨before, last, hpackets, hbefore, hlast, hend, hcontent⟩ :=
        ih (index + 1) (List.cons_ne_nil next rest)
      refine ⟨blockPacket id index block true :: before, last, ?_, fun p hp => ?_, hlast, hend, ?_⟩
      · rw [blockPackets, hpackets, List.cons_append]
        exact fun h => List.cons_ne_nil next rest h
      · rcases List.mem_cons.mp hp with rfl | hp
        · exact ⟨rfl, rfl⟩
        · exact hbefore p hp
      · rw [List.cons_append, Upload.content_cons, hcontent]
        rfl

/-- The packet in which a client announces a file opens an upload. -/
theorem announces_fileInfo {limits : Limits} (hkind : kind = .dlc ∨ kind = .user) (huser : user ≠ 0)
    (hsize : size.toNat ≤ limits.maxUpload) (h : fileInfo size user kind name id = .ok p) :
    p.header.kind = kind ∧ Upload.Announces limits p ⟨size, user, name⟩ := by
  obtain ⟨payload, hencode, rfl⟩ := fileInfo_eq_ok h
  have hparse := FileDescriptor.parse_encode hencode []
  rw [List.append_nil] at hparse
  exact ⟨rfl, rfl, rfl, hparse, huser, hkind, hsize⟩

/-- A client that announces a file and sends its content carries the file. -/
theorem carries_fileChunks {limits : Limits} {data : List UInt8} (chunk : Nat)
    (hkind : kind = .dlc ∨ kind = .user) (huser : user ≠ 0) (hsize : size.toNat ≤ limits.maxUpload)
    (hdata : data ≠ []) (hlimit : data.length ≤ limits.maxUpload)
    (h : fileInfo size user kind name id = .ok p) :
    Upload.Carries limits (p :: fileChunks data chunk id) kind ⟨size, user, name⟩ data := by
  obtain ⟨hheader, hopening⟩ := announces_fileInfo hkind huser hsize h
  -- Blocks of nothing would put together nothing.
  have hblocks : blocks chunk data ≠ [] := by
    intro hnil
    have hflatten := flatten_blocks chunk data
    rw [hnil] at hflatten
    exact hdata hflatten.symm
  obtain ⟨before, last, hpackets, hbefore, hlast, hend, hcontent⟩ := blockPackets_eq id 0 hblocks
  rw [flatten_blocks] at hcontent
  have hcarries : Upload.Carries limits (p :: (before ++ last :: [])) p.header.kind
      ⟨size, user, name⟩ (Upload.content (before ++ [last])) :=
    .intro hopening hbefore hlast hend fun n =>
      Nat.le_trans (Upload.length_content_take_le _ n) (by rw [hcontent]; exact hlimit)
  rw [hcontent, hheader] at hcarries
  rw [fileChunks, if_neg (by simpa using hdata), hpackets]
  exact hcarries

/-- A download understands what a client asks for. -/
theorem request_fileRequest (hkind : kind = .dlc ∨ kind = .user) (huser : user ≠ 0)
    (h : fileRequest user kind name id = .ok p) :
    Download.request p = .ok (kind, ⟨user, name⟩) := by
  obtain ⟨payload, hencode, rfl⟩ := fileRequest_eq_ok h
  have hparse := FileRequest.parse_encode hencode []
  rw [List.append_nil] at hparse
  exact Download.request_eq_ok rfl hparse (by rcases hkind with rfl | rfl <;> rfl) huser

end Client

namespace Operation

/-- A client that asks for a file gets its description and then its content, in packets that say of all
blocks but the last that more follow. -/
theorem download_file {service : Service} {scene : Scene} {kind : FileKind} {user : UInt32}
    {name : String} {id : UInt8} {request : Packet} {inbox : Queue Packet} {path : Storage.Path}
    {place : Storage.Place} {content : Storage.Content} (hkind : kind = .dlc ∨ kind = .user)
    (huser : user ≠ 0) (hrequest : Client.fileRequest user kind name id = .ok request)
    (hinbox : inbox.waiting = [request]) (hreaches : scene.reachesPeer = true)
    (hpath : service.store.resolve kind user name = .ok path)
    (hlocate : scene.tree.locate path = .ok (place, .file content)) (hpos : 0 < content.length)
    (hlen : content.length ≤ Storage.Store.maxLength) (hchunk : 0 < service.limits.downloadChunk) :
    let downloaded := ({ id, kind := .download, inbox } : Operation).run service scene
    ∃ description blocks last, downloaded.1 = none ∧
      downloaded.2.session = scene.session.postAll (description :: (blocks ++ [last])) ∧
      Client.fileInfo (UInt32.ofNat content.length) user kind name id = .ok description ∧
      (∀ p ∈ blocks ++ [last], p.request = .file ∧ p.operation = id) ∧
      (∀ p ∈ blocks, p.more = true) ∧ last.more = false ∧
      Upload.content (blocks ++ [last]) = content.toList := by
  obtain ⟨bytes, -, hpacket⟩ := Client.fileRequest_eq_ok hrequest
  obtain ⟨t, ht⟩ : ∃ t : Transfer, t =
      { place, kind, descriptor := ⟨UInt32.ofNat content.length, user, name⟩ } := ⟨_, rfl⟩
  obtain ⟨payload, hencode⟩ :=
    Client.exists_description hrequest (UInt32.ofNat content.length)
  have hinfo : Download.infoPacket t =
      .ok (((Packet.new .fileInfo payload).withKind kind).withMore true) := by
    simp only [Download.infoPacket, ht, hencode]
    rfl
  have hrun : ({ id, kind := .download, inbox } : Operation).run service scene = (none, _) :=
    Download.run_download rfl rfl hreaches hinbox (by rw [hpacket]; rfl)
      (List.forall_mem_nil _) (Client.request_fileRequest hkind huser hrequest) hpath
      hlocate hpos hlen hchunk ht hinfo
  -- The blocks are all that there is to send.
  have htotal := content.length_toList
  have hflatten := Client.flatten_blocks service.limits.downloadChunk content.toList
  have hpayloads := Download.payloads_blockPackets id t
    (Client.blocks service.limits.downloadChunk content.toList)
  have hall := Download.blockPackets_all id t
    (Client.blocks service.limits.downloadChunk content.toList)
  obtain ⟨before, last, hblocks, hbefore, hlast⟩ := Download.blockPackets_more id
    (t := t) (fun hnil => by
      rw [← hflatten, hnil] at htotal
      exact absurd htotal (Nat.ne_of_lt hpos))
    (fun _ => Client.ne_nil_of_mem_blocks)
    (by rw [hflatten, htotal, ht]; exact Storage.Store.toNat_ofNat_length hlen)
  rw [hblocks] at hrun hpayloads hall
  refine ⟨_, before, last, by rw [hrun], by rw [hrun]; rfl, ?_,
    fun p hp => ⟨(hall p hp).1, (hall p hp).2.1⟩, hbefore, hlast, ?_⟩
  · simp only [Client.fileInfo, hencode]
    rfl
  · rw [Upload.content, List.flatMap_def, hpayloads, hflatten]

open Storage in
/-- What was uploaded is what is downloaded. A client that announces a file and sends its content, in
blocks of any length, gets one confirmation; whoever asks for the file afterwards gets its description
and then the same bytes, whatever the length of the blocks of a download. For that its directory has to
be there, the system has to take its path, and no directory may be in its place. -/
theorem upload_then_download {service : Service} {kind : FileKind} {user : UInt32} {name : String}
    {data : List UInt8} {chunk : Nat} {id id' : UInt8} {dir : Path} {info request : Packet}
    {inbox inbox' : Queue Packet} {scene : Scene} (hdata : data ≠ [])
    (hlimit : data.length ≤ min service.limits.maxUpload Store.maxLength)
    (hchunk : 1 ≤ service.limits.downloadChunk) (hkind : kind = .dlc ∨ kind = .user)
    (huser : user ≠ 0) (hdir : service.store.directory kind user = .ok dir)
    (hisdir : scene.tree.isDirectory dir = true) (hname : isPlainName name = true)
    (hnul : ∀ c ∈ name.toList, c.toNat ≠ 0)
    (hfits : (dir.child name).text.utf8ByteSize ≤ Tree.maxPath)
    (hfree : scene.tree.isDirectory (dir.child name) = false)
    (hinfo : Client.fileInfo (UInt32.ofNat data.length) user kind name id = .ok info)
    (hrequest : Client.fileRequest user kind name id' = .ok request)
    (hinbox : inbox.waiting = info :: Client.fileChunks data chunk id)
    (hinbox' : inbox'.waiting = [request]) (hreaches : scene.reachesPeer = true) :
    let uploaded := ({ id, kind := .upload, inbox } : Operation).run service scene
    uploaded.1 = none ∧
    uploaded.2.session = scene.session.postAll [Upload.confirmation.withOperation id] ∧
    ∀ scene', scene'.tree = uploaded.2.tree → scene'.reachesPeer = true →
      let downloaded :=
        ({ id := id', kind := .download, inbox := inbox' } : Operation).run service scene'
      ∃ description blocks last, downloaded.1 = none ∧
        downloaded.2.session = scene'.session.postAll (description :: (blocks ++ [last])) ∧
        Client.fileInfo (UInt32.ofNat data.length) user kind name id' = .ok description ∧
        (∀ p ∈ blocks ++ [last], p.request = .file ∧ p.operation = id') ∧
        (∀ p ∈ blocks, p.more = true) ∧ last.more = false ∧
        Upload.content (blocks ++ [last]) = data := by
  intro uploaded
  have hlen : data.length ≤ Store.maxLength := Nat.le_trans hlimit (Nat.min_le_right _ _)
  have hmax : data.length ≤ service.limits.maxUpload := Nat.le_trans hlimit (Nat.min_le_left _ _)
  have hpath := Store.resolve_of_plain hname hdir
  -- The packets carry the file, and the store takes it.
  have hcarries : Upload.Carries service.limits inbox.waiting kind
      ⟨UInt32.ofNat data.length, user, name⟩ data := by
    rw [hinbox]
    exact Client.carries_fileChunks chunk hkind huser
      (by rw [Store.toNat_ofNat_length hlen]; exact hmax) hdata hmax hinfo
  obtain ⟨tree, hsave⟩ := Store.exists_save hname hdir hisdir hnul hfits
    (Client.utf8ByteSize_le_of_fileInfo hinfo) hfree data
  obtain ⟨hdone, htree, hsession⟩ : uploaded.1 = none ∧ uploaded.2.tree = tree ∧ _ :=
    Upload.run_of_carries rfl rfl hcarries hsave
  refine ⟨hdone, by rw [hsession, if_pos hreaches], fun scene' htree' hreaches' => ?_⟩
  -- It is found where it was put.
  obtain ⟨path, hresolve, hstored⟩ := Store.stored_of_save hsave
  rw [hpath] at hresolve
  cases hresolve
  have hfound := hstored.found
  rw [← htree, ← htree'] at hfound
  have hdownload := download_file hkind huser hrequest hinbox' hreaches' hpath hfound
    (List.length_pos_iff.mpr hdata) hlen hchunk
  rwa [show Content.toList { bytes := data } = data from List.append_nil data] at hdownload

/-- A file of three bytes comes back whole, where a longer one was before. -/
theorem upload_then_download_over_longer :
    let service : Service := { store := ⟨⟨["dlc"]⟩, ⟨["user"]⟩⟩, limits := ⟨2, 10⟩ }
    let scene : Scene :=
      { tree := ⟨[(["dlc"], .directory), (["dlc", "a"], .file { bytes := [9, 9, 9, 9] })]⟩ }
    ∃ info request,
      Client.fileInfo 3 7 .dlc "a" 1 = .ok info ∧ Client.fileRequest 7 .dlc "a" 2 = .ok request ∧
      let inbox : Queue Packet := { front := info :: Client.fileChunks [1, 2, 3] 1 1 }
      let uploaded := ({ id := 1, kind := .upload, inbox } : Operation).run service scene
      let inbox' : Queue Packet := { front := [request] }
      let downloaded :=
        ({ id := 2, kind := .download, inbox := inbox' } : Operation).run service uploaded.2
      uploaded.2.session = scene.session.postAll [Upload.confirmation.withOperation 1] ∧
      ∃ description blocks last,
        downloaded.2.session = uploaded.2.session.postAll (description :: (blocks ++ [last])) ∧
        last.more = false ∧ Upload.content (blocks ++ [last]) = [1, 2, 3] := by
  intro service scene
  obtain ⟨info, hinfo⟩ : ∃ info, Client.fileInfo 3 7 .dlc "a" 1 = .ok info := ⟨_, rfl⟩
  obtain ⟨request, hrequest⟩ : ∃ request, Client.fileRequest 7 .dlc "a" 2 = .ok request := ⟨_, rfl⟩
  refine ⟨info, request, hinfo, hrequest, ?_⟩
  intro inbox uploaded inbox' downloaded
  have hnul : ∀ c ∈ "a".toList, c.toNat ≠ 0 := by
    intro c hc
    rw [List.mem_singleton.mp hc]
    decide
  obtain ⟨-, hconfirmed, hdownload⟩ : _ ∧ uploaded.2.session = _ ∧ _ :=
    upload_then_download (show ([1, 2, 3] : List UInt8) ≠ [] by decide) (by decide) (by decide)
      (.inl rfl) (by decide) rfl rfl rfl hnul (by decide) rfl hinfo hrequest
      (show inbox.waiting = info :: Client.fileChunks [1, 2, 3] 1 1 from List.append_nil _)
      (show inbox'.waiting = [request] from rfl) rfl
  have hreaches : uploaded.2.reachesPeer = true := by
    show (uploaded.2.session.live && !uploaded.2.session.outbound.isClosed) = true
    rw [hconfirmed]
    rfl
  obtain ⟨description, blocks, last, -, hsession, -, -, -, hend, hcontent⟩ :=
    hdownload uploaded.2 rfl hreaches
  exact ⟨hconfirmed, description, blocks, last, hsession, hend, hcontent⟩

end Operation

end Depot
