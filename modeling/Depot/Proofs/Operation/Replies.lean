import Depot.Operation.Run
import Depot.Proofs.Packet.Frames
import Depot.Proofs.Packet.Payloads
import Depot.Proofs.Queue.Receive
import Depot.Proofs.Storage.Files

/-!
# What operations say

An operation speaks to the peer by queueing packets, and all of them are replies: they carry its id,
announce their payload, and none is a suspend. `postAll` is a session after several packets were queued;
`Replied` says that this, and perhaps another user, is all that an operation changed of a session. Whoever
else works on the user and the outbound queue leaves the rest alone as well, which is `Worked`.

## Key results

- `Scene.send?_eq`: a packet is queued if it goes anywhere
- `Session.Replied`: what operations may change of a session
- `Download.reply_infoPacket`, `Download.reply_blockPacket`, `Upload.reply_confirmation`,
  `Allocation.reply_id`, `Packet.reply_error`: whatever operations say is a reply
-/

namespace Depot

namespace Session

/-- The session after packets were queued for the peer, one after another. -/
def postAll (s : Session) (packets : List Packet) : Session := packets.foldl post s

/-- Packets are queued in two goes as in one. -/
theorem postAll_append (s : Session) (packets packets' : List Packet) :
    s.postAll (packets ++ packets') = (s.postAll packets).postAll packets' := List.foldl_append

/-- Queueing for the peer touches the outbound queue alone. -/
theorem postAll_eq (s : Session) (packets : List Packet) :
    s.postAll packets = { s with outbound := packets.foldl Queue.push s.outbound } := by
  -- Each packet is pushed behind the ones before it.
  induction packets generalizing s with
  | nil => rfl
  | cons p packets ih =>
    show (s.post p).postAll packets = _
    rw [ih, post, List.foldl_cons]

end Session

namespace Scene

/-- The scene after packets were queued for the peer, one after another. -/
def postAll (s : Scene) (packets : List Packet) : Scene :=
  { s with session := s.session.postAll packets }

@[simp] theorem postAll_nil (s : Scene) : s.postAll [] = s := rfl

theorem postAll_append (s : Scene) (packets packets' : List Packet) :
    s.postAll (packets ++ packets') = (s.postAll packets).postAll packets' := by
  simp only [postAll, Session.postAll_append]

/-- What goes anywhere goes on to do so. -/
theorem reachesPeer_postAll (s : Scene) (packets : List Packet) :
    (s.postAll packets).reachesPeer = s.reachesPeer := by
  -- To push does nothing to either end of the queue.
  simp only [reachesPeer, postAll, Session.postAll_eq, Queue.isClosed,
    (Queue.ends_foldl_push s.session.outbound packets).1]

/-- So it is in a scene with the session that was spoken to. -/
theorem reachesPeer_of_session {s s' : Scene} {packets : List Packet}
    (h : s'.session = s.session.postAll packets) : s'.reachesPeer = s.reachesPeer := by
  rw [← s.reachesPeer_postAll packets]
  simp only [reachesPeer, postAll, h]

/-- Packets that go anywhere wait behind the ones before them. -/
theorem waiting_postAll {s : Scene} (h : s.reachesPeer = true) (packets : List Packet) :
    (s.postAll packets).session.outbound.waiting = s.session.outbound.waiting ++ packets := by
  simp only [reachesPeer, Queue.isClosed, Bool.and_eq_true, Bool.not_eq_true', bne_eq_false_iff_eq] at h
  simp only [postAll, Session.postAll_eq]
  exact Queue.waiting_foldl_push packets h.2

/-- A packet that goes anywhere is queued under the id of its operation. -/
theorem send?_eq (s : Scene) (operation : UInt8) (p : Packet) :
    s.send? operation p =
      if s.reachesPeer then some (s.postAll [p.withOperation operation]) else none := rfl

/-- Where the peer is reached it gets every packet. -/
theorem send?_of_reachesPeer {s : Scene} (h : s.reachesPeer = true) (operation : UInt8) (p : Packet) :
    s.send? operation p = some (s.postAll [p.withOperation operation]) := by
  rw [send?_eq, if_pos h]

end Scene

/-! ### What is left alone -/

/-- What those who work for the peer may change of a session. -/
def Session.Worked (s s' : Session) : Prop := ∃ user outbound, s' = { s with user, outbound }

namespace Session.Worked

theorem refl (s : Session) : s.Worked s := ⟨s.user, s.outbound, rfl⟩

theorem trans {s s' s'' : Session} (h : s.Worked s') (h' : s'.Worked s'') : s.Worked s'' := by
  obtain ⟨user, outbound, rfl⟩ := h
  obtain ⟨user', outbound', rfl⟩ := h'
  exact ⟨user', outbound', rfl⟩

theorem inbound {s s' : Session} (h : s.Worked s') : s'.inbound = s.inbound := by
  obtain ⟨user, outbound, rfl⟩ := h
  rfl

theorem live {s s' : Session} (h : s.Worked s') : s'.live = s.live := by
  obtain ⟨user, outbound, rfl⟩ := h
  rfl

theorem farewell {s s' : Session} (h : s.Worked s') : s'.farewell = s.farewell := by
  obtain ⟨user, outbound, rfl⟩ := h
  rfl

theorem post (s : Session) (p : Packet) : s.Worked (s.post p) := ⟨s.user, _, rfl⟩

end Session.Worked

/-- What those who work for the peer may change of the session of a scene. -/
def Scene.Worked (s s' : Scene) : Prop := s.session.Worked s'.session

namespace Scene.Worked

theorem refl (s : Scene) : s.Worked s := Session.Worked.refl s.session

theorem trans {s s' s'' : Scene} (h : s.Worked s') (h' : s'.Worked s'') : s.Worked s'' :=
  Session.Worked.trans h h'

theorem count (s : Scene) (series : Series) : s.Worked (s.count series) := refl s

end Scene.Worked

/-! ### Replies -/

/-- Whether an operation answers with it. -/
def RequestType.isReply : RequestType → Bool
  | fileInfo | file | id | error | fileSaveDone => true
  | _ => false

/-- What an operation with an id may say to the peer. -/
structure Packet.Reply (operation : UInt8) (p : Packet) : Prop where
  operation_eq : p.operation = operation
  announced : p.header.size.toNat = p.payload.length
  isReply : p.request.isReply = true

namespace Packet

/-- A payload that can be announced is announced. -/
theorem size_new (request : RequestType) {payload : List UInt8} (h : payload.length ≤ maxAnnounced) :
    (new request payload).header.size.toNat = payload.length := by
  show (UInt32.ofNat (min payload.length maxAnnounced)).toNat = payload.length
  rw [Nat.min_eq_left h]
  refine UInt32.toNat_ofNat_of_lt' ?_
  simp only [maxAnnounced] at h
  simp only [UInt32.size]
  omega

/-- A packet with a payload that can be announced is a reply of the operation that sends it. -/
theorem Reply.new {request : RequestType} {payload : List UInt8} (operation : UInt8)
    (hrequest : request.isReply = true) (h : payload.length ≤ maxAnnounced) :
    Reply operation ((Packet.new request payload).withOperation operation) :=
  ⟨rfl, size_new request h, hrequest⟩

theorem reply_error (request : RequestType) (code : ErrorCode) (operation : UInt8) :
    Reply operation (error request code operation) :=
  .new operation rfl (by show 2 ≤ maxAnnounced; decide)

end Packet

/-- What operations with an id may change of a session. -/
def Session.Replied (operation : UInt8) (s s' : Session) : Prop :=
  ∃ user packets, (∀ p ∈ packets, Packet.Reply operation p) ∧ s' = { s.postAll packets with user }

namespace Session.Replied

variable {operation : UInt8} {s s' s'' : Session}

theorem refl (operation : UInt8) (s : Session) : s.Replied operation s :=
  ⟨s.user, [], List.forall_mem_nil _, rfl⟩

theorem trans (h : s.Replied operation s') (h' : s'.Replied operation s'') :
    s.Replied operation s'' := by
  obtain ⟨user, packets, hreply, rfl⟩ := h
  obtain ⟨user', packets', hreply', rfl⟩ := h'
  refine ⟨user', packets ++ packets', fun p hp => ?_, ?_⟩
  · rcases List.mem_append.mp hp with hp | hp
    · exact hreply p hp
    · exact hreply' p hp
  · rw [postAll_append]
    simp only [postAll_eq]

theorem post {p : Packet} (h : Packet.Reply operation p) (s : Session) :
    s.Replied operation (s.post p) :=
  ⟨s.user, [p], fun _ hq => List.mem_singleton.mp hq ▸ h, rfl⟩

theorem worked (h : s.Replied operation s') : s.Worked s' := by
  obtain ⟨user, packets, -, rfl⟩ := h
  exact ⟨user, _, by rw [postAll_eq]⟩

end Session.Replied

/-- What operations with an id may change of the session of a scene. -/
def Scene.Replied (operation : UInt8) (s s' : Scene) : Prop :=
  s.session.Replied operation s'.session

namespace Scene.Replied

variable {operation : UInt8} {s s' s'' : Scene}

theorem refl (operation : UInt8) (s : Scene) : s.Replied operation s :=
  Session.Replied.refl operation s.session

theorem trans (h : s.Replied operation s') (h' : s'.Replied operation s'') :
    s.Replied operation s'' := Session.Replied.trans h h'

theorem count (operation : UInt8) (s : Scene) (series : Series) :
    s.Replied operation (s.count series) := refl operation s

theorem worked (h : s.Replied operation s') : s.Worked s' := Session.Replied.worked h

/-- A peer that is reached before a reply is reached after it. -/
theorem reachesPeer (h : s.Replied operation s') : s'.reachesPeer = s.reachesPeer := by
  obtain ⟨user, packets, -, hsession⟩ := h
  rw [← s.reachesPeer_postAll packets]
  simp only [Scene.reachesPeer, Scene.postAll, hsession]

/-- To send a reply is to reply. -/
theorem send? {p : Packet} (hp : Packet.Reply operation (p.withOperation operation))
    (h : s.send? operation p = some s') : s.Replied operation s' := by
  rw [Scene.send?_eq] at h
  split at h
  · cases h
    exact Session.Replied.post hp s.session
  · cases h

end Scene.Replied

/-! ### The packets of operations -/

/-- A name takes a byte for its length and one for each character. -/
theorem Payload.length_writeName_le {name : String} {payload : List UInt8}
    (h : writeName name = .ok payload) : payload.length ≤ maxName + 1 := by
  obtain ⟨-, hlen, rfl⟩ := writeName_eq_ok h
  rw [List.length_cons, List.length_map]
  omega

/-- A description is never longer than that of a file with the longest name. -/
theorem FileDescriptor.length_encode_le {d : FileDescriptor} {payload : List UInt8}
    (h : d.encode = .ok payload) : payload.length ≤ Payload.maxName + 9 := by
  simp only [encode, bind, Except.bind] at h
  split at h
  · cases h
  · next name hname =>
    cases h
    have := Payload.length_writeName_le hname
    simp only [List.length_append, Wire.bytes32, List.length_cons, List.length_nil]
    omega

namespace Operation

theorem mapError_ok {ε ε' α : Type} (f : ε → ε') (a : α) :
    Except.mapError f (.ok a : Except ε α) = .ok a := (rfl)

/-- No more is left than the longest file has. -/
theorem Transfer.remaining_le (t : Transfer) : t.remaining ≤ Storage.Store.maxLength := by
  have := t.descriptor.size.toNat_lt
  simp only [Transfer.remaining, Storage.Store.maxLength]
  omega

namespace Download

variable {id : UInt8} {t : Transfer}

/-- What describes a file carries its description. -/
theorem infoPacket_eq_ok {p : Packet} (h : infoPacket t = .ok p) :
    ∃ payload, t.descriptor.encode = .ok payload ∧
      p = ((Packet.new .fileInfo payload).withKind t.kind).withMore true := by
  simp only [infoPacket, bind, Except.bind] at h
  cases hencode : t.descriptor.encode with
  | error e =>
    rw [hencode] at h
    cases h
  | ok payload =>
    rw [hencode] at h
    cases h
    exact ⟨payload, rfl, rfl⟩

/-- The description of a file is a reply: it is short enough to be announced. -/
theorem reply_infoPacket {p : Packet} (h : infoPacket t = .ok p) :
    Packet.Reply id (p.withOperation id) := by
  obtain ⟨payload, hencode, rfl⟩ := infoPacket_eq_ok h
  have hlen := FileDescriptor.length_encode_le hencode
  exact ⟨rfl, Packet.size_new .fileInfo (Nat.le_trans hlen (by decide)), rfl⟩

/-- A block is read as a whole or not at all. -/
theorem readBlock_eq (tree : Storage.Tree) (place : Storage.Place) (offset count : Nat) :
    readBlock tree place offset count =
      if (tree.bytesAt place offset count).length < count then .error (.io "early eof")
      else .ok (tree.bytesAt place offset count) := rfl

/-- A block is read in one place and nowhere else. -/
theorem readBlock_congr {tree tree' : Storage.Tree} {place : Storage.Place}
    (h : tree'.get? place = tree.get? place) (offset count : Nat) :
    readBlock tree' place offset count = readBlock tree place offset count := by
  have hbytes : tree'.bytesAt place offset count = tree.bytesAt place offset count := by
    simp only [Storage.Tree.bytesAt, h]
  simp only [readBlock_eq, hbytes]

/-- A block that can be read has the length that was asked for. -/
theorem length_readBlock {tree : Storage.Tree} {place : Storage.Place} {offset count : Nat}
    {block : List UInt8} (h : readBlock tree place offset count = .ok block) :
    block.length = count := by
  rw [readBlock_eq] at h
  split at h
  · cases h
  · next hlen =>
    cases h
    exact Nat.le_antisymm (tree.length_bytesAt_le place offset count) (Nat.not_lt.mp hlen)

/-- A block that can be announced is a reply. -/
theorem reply_blockPacket {block : List UInt8} (h : block.length ≤ maxAnnounced) :
    Packet.Reply id ((blockPacket t block).withOperation id) :=
  ⟨rfl, Packet.size_new .file h, rfl⟩

end Download

theorem Upload.reply_confirmation (id : UInt8) :
    Packet.Reply id (confirmation.withOperation id) := .new id rfl (by show 1 ≤ maxAnnounced; decide)

theorem Allocation.reply_id (user : UInt32) (id : UInt8) :
    Packet.Reply id ((Packet.new .id (UserId.encode user)).withOperation id) :=
  .new id rfl (by show 4 ≤ maxAnnounced; decide)

/-! ### The end of an operation -/

/-- What an operation that fails says to the peer. -/
def failureReplies (op : Operation) (failure : Failure) : List Packet :=
  (failure.code?.map fun code => .error op.kind.request code op.id).toList

/-- A failure is reported where the peer is reached, if it has a code. -/
theorem report_eq (op : Operation) (failure : Failure) (scene : Scene) :
    op.report failure scene =
      if scene.reachesPeer then scene.postAll (op.failureReplies failure) else scene := by
  -- Only a suspended operation has no code, and nothing to report.
  cases hcode : failure.code? with
  | none =>
    simp only [report, failureReplies, hcode, Option.map_none, Option.toList_none, Scene.postAll_nil]
    split <;> rfl
  | some code =>
    simp only [report, failureReplies, hcode, Option.map_some, Option.toList_some, Scene.send?_eq]
    -- An error names its operation already.
    split <;> rfl

/-- What a failure leaves behind. -/
theorem conclude_error (op : Operation) (failure : Failure) (scene : Scene) :
    (op.conclude (.error failure) scene).tree = scene.tree ∧
      (op.conclude (.error failure) scene).session =
        if scene.reachesPeer then scene.session.postAll (op.failureReplies failure)
        else scene.session := by
  simp only [conclude, report_eq, Scene.count]
  split
  · exact ⟨rfl, rfl⟩
  · exact ⟨rfl, rfl⟩

/-- What an operation that is over says last. -/
def lastReplies (op : Operation) : Except Failure Unit → List Packet
  | .ok () => []
  | .error failure => op.failureReplies failure

/-- The last words of an operation carry its id. -/
theorem operation_of_lastReplies (op : Operation) (result : Except Failure Unit) :
    ∀ p ∈ op.lastReplies result, p.operation = op.id := by
  intro p hp
  cases result with
  | ok _ => cases hp
  | error failure =>
    simp only [lastReplies, failureReplies] at hp
    cases hcode : failure.code? with
    | none => rw [hcode] at hp; cases hp
    | some code =>
      rw [hcode] at hp
      rw [List.mem_singleton.mp hp]
      rfl

/-- What the end of an operation leaves behind where it is heard. -/
theorem conclude_eq {scene : Scene} (h : scene.reachesPeer = true) (op : Operation)
    (result : Except Failure Unit) :
    (op.conclude result scene).tree = scene.tree ∧
      (op.conclude result scene).session = scene.session.postAll (op.lastReplies result) := by
  -- Only a failure has anything left to say.
  cases result with
  | ok _ => exact ⟨rfl, rfl⟩
  | error failure =>
    obtain ⟨htree, hsession⟩ := conclude_error op failure scene
    rw [if_pos h] at hsession
    exact ⟨htree, hsession⟩

end Operation

end Depot
