import Depot.Proofs.Operation.Answers
import Depot.Proofs.Operation.Uploads

/-!
# What a step comes to

`Operation.turn` has many ways to go. `Moves` lists them for an operation that reaches the peer, each with
the checks that were passed on the way, what is said and what is left. Whatever holds of every step of an
operation is a case analysis of `Moves`.

## Key results

- `moves_of_turn`: a step is one of them
-/

namespace Depot.Operation

/-- Whether an operation at a stage waits for the next packet of its inbox. -/
def Stage.reads : Stage → Bool
  | opening | collecting _ => true
  | _ => false

/-- What a step of an operation comes to where the peer is reached. -/
inductive Moves (service : Service) (op : Operation) (scene : Scene) : Turn → Prop
  /-- Nothing is there to be read, and something may come. -/
  | waits (hreads : op.stage.reads = true) (hempty : op.inbox.waiting = [])
      (hopen : Upload.isOver op.inbox = false) : Moves service op scene .wait
  /-- Nothing is there to be read, and nothing will come. -/
  | runsOut (hreads : op.stage.reads = true) (hempty : op.inbox.waiting = [])
      (hover : Upload.isOver op.inbox = true) :
      Moves service op scene (.done (.error .suspended) scene)
  /-- The next packet ends the operation. -/
  | breaksOff {p : Packet} {rest : List Packet} (hreads : op.stage.reads = true)
      (hnext : op.inbox.waiting = p :: rest) (hends : p.request.endsOperation = true) :
      Moves service op scene (.done (.error .suspended) scene)
  /-- Something is wrong, and nothing was said in this step. -/
  | fails {failure : Failure} {code : ErrorCode} (hcode : failure.code? = some code) :
      Moves service op scene (.done (.error failure) scene)
  | requested {p : Packet} {inbox : Queue Packet} {kind : FileKind} {request : FileRequest}
      (hstage : op.stage = .opening) (hkind : op.kind = .download)
      (hnext : op.inbox.waiting = p :: inbox.waiting)
      (hrequest : Download.request p = .ok (kind, request)) :
      Moves service op scene (.next (.locating kind request) inbox scene)
  | offered {p : Packet} {inbox : Queue Packet} {u : Upload} (hstage : op.stage = .opening)
      (hkind : op.kind = .upload) (hnext : op.inbox.waiting = p :: inbox.waiting)
      (hrequest : Upload.request service.limits p = .ok u) :
      Moves service op scene (.next (.collecting u) inbox scene)
  | asked {p : Packet} {inbox : Queue Packet} (hstage : op.stage = .opening)
      (hkind : op.kind = .allocate) (hnext : op.inbox.waiting = p :: inbox.waiting)
      (hrequest : Allocation.request p = .ok ()) :
      Moves service op scene (.next .allocating inbox scene)
  | located {kind : FileKind} {request : FileRequest} {t : Transfer}
      (hstage : op.stage = .locating kind request)
      (hfound : Download.locate service scene kind request = .ok t) :
      Moves service op scene (.next (.sending t) op.inbox scene)
  | collected {p : Packet} {inbox : Queue Packet} {u u' : Upload} (hstage : op.stage = .collecting u)
      (hnext : op.inbox.waiting = p :: inbox.waiting)
      (hblock : Upload.collect service.limits u p = .ok u') :
      Moves service op scene (.next (if p.more then .collecting u' else .saving u') inbox scene)
  /-- A packet ends the download, which may have described the file before. -/
  | cut {t : Transfer} {opening : List Packet} {p : Packet} (hstage : op.stage = .sending t)
      (hopening : Download.announcement op.id t = .ok opening) (hp : p ∈ op.inbox.waiting)
      (hends : p.request.endsOperation = true) :
      Moves service op scene (.done (.error .suspended) (scene.postAll opening))
  | sends {t : Transfer} {opening : List Packet} {block : List UInt8} (hstage : op.stage = .sending t)
      (hblock : Download.readBlock scene.tree t.place t.offset
        (min t.remaining service.limits.downloadChunk) = .ok block)
      (hopening : Download.announcement op.id t = .ok opening)
      (hmore : (Download.advance t block.length).remaining ≠ 0) :
      Moves service op scene (.next (.sending (Download.advance t block.length)) op.inbox.drained
        (scene.postAll (opening ++
          [(Download.blockPacket (Download.advance t block.length) block).withOperation op.id])))
  | completes {t : Transfer} {opening : List Packet} {block : List UInt8}
      (hstage : op.stage = .sending t)
      (hblock : Download.readBlock scene.tree t.place t.offset
        (min t.remaining service.limits.downloadChunk) = .ok block)
      (hopening : Download.announcement op.id t = .ok opening)
      (hlast : (Download.advance t block.length).remaining = 0) :
      Moves service op scene (.done (.ok ())
        (scene.postAll (opening ++
          [(Download.blockPacket (Download.advance t block.length) block).withOperation op.id])))
  | saved {u : Upload} {tree : Storage.Tree} (hstage : op.stage = .saving u)
      (hsaved : service.store.save scene.tree u.kind u.descriptor.user u.descriptor.name u.data =
        .ok tree) :
      Moves service op scene (.done (.ok ())
        (({ scene with tree } : Scene).postAll [Upload.confirmation.withOperation op.id]))
  | allocated {user : UInt32} {tree : Storage.Tree} (hstage : op.stage = .allocating)
      (hallocated : service.store.allocate scene.tree = .ok (user, tree)) :
      Moves service op scene (.done (.ok ())
        (({ scene with tree, session := { scene.session with user } } : Scene).postAll
          [(Packet.new .id (UserId.encode user)).withOperation op.id]))

section

variable {service : Service} {op : Operation} {scene : Scene}

/-- What is not for want of packets has a code. -/
theorem Reported.exists_code {α : Type} {failure : Failure}
    (h : Reported (.error failure : Except Failure α)) : ∃ code, failure.code? = some code := by
  cases failure with
  | suspended => exact absurd rfl h
  | _ => exact ⟨_, rfl⟩

/-- What is checked fails with a code, so the peer will hear of it, or the turn goes on. -/
private theorem moves_proceed {α : Type} {result : Except Failure α} {go : α → Turn}
    (h : Reported result) (hgo : ∀ a, result = .ok a → Moves service op scene (go a)) :
    Moves service op scene (.proceed scene result go) := by
  cases hresult : result with
  | error failure =>
    rw [hresult] at h
    obtain ⟨code, hcode⟩ := h.exists_code
    exact .fails hcode
  | ok a => exact hgo a hresult

/-- A stage that reads waits, or finds that nothing will come, or is ended by the next packet, or takes it. -/
private theorem moves_read {go : Packet → Queue Packet → Turn} (hreads : op.stage.reads = true)
    (hgo : ∀ p inbox, op.inbox.waiting = p :: inbox.waiting → Moves service op scene (go p inbox)) :
    Moves service op scene (.read op.inbox scene go) := by
  -- Whether something waits decides what a stage that reads can do.
  cases hwaiting : op.inbox.waiting with
  | nil =>
    rw [Turn.read_nil hwaiting]
    cases hover : Upload.isOver op.inbox with
    | true =>
      rw [Upload.isOver] at hover
      rw [if_pos hover]
      exact .runsOut hreads hwaiting hover
    | false =>
      rw [Upload.isOver] at hover
      rw [if_neg (by rw [hover]; exact Bool.false_ne_true)]
      exact .waits hreads hwaiting hover
  | cons p rest =>
    obtain ⟨inbox, hrest, -, -, hread⟩ := Turn.read_cons hwaiting
    rw [hread]
    split
    · next hends => exact .breaksOff hreads hwaiting hends
    · exact hgo p inbox (by rw [hwaiting, hrest])

/-- A transfer fails, is ended by a packet in its inbox, or sends a block, which may be the last. -/
private theorem moves_sendBlock {t : Transfer} (hstage : op.stage = .sending t)
    (hreaches : scene.reachesPeer = true) :
    Moves service op scene (Download.sendBlock service op.id t op.inbox scene) := by
  refine moves_proceed (Download.reported_readBlock _ _ _ _) fun block hblock => ?_
  rw [Download.announce_eq hreaches, ← Download.length_readBlock hblock]
  have hreported := Download.reported_announcement op.id t
  -- The description comes first, if it was not sent before. It may be one that cannot be written.
  cases hopening : Download.announcement op.id t with
  | error failure =>
    rw [hopening] at hreported
    obtain ⟨code, hcode⟩ := hreported.exists_code
    exact .fails hcode
  | ok opening =>
    have hreaches' := (scene.reachesPeer_postAll opening).trans hreaches
    have hlive : (scene.postAll opening).session.live = true := by
      simp only [Scene.reachesPeer, Bool.and_eq_true] at hreaches'
      exact hreaches'.1
    simp only [Except.map, Turn.proceed, hlive, Bool.not_true, Bool.false_or,
      Scene.send?_of_reachesPeer hreaches', ← Scene.postAll_append]
    split
    · next hends =>
      obtain ⟨p, hp, hends⟩ := List.any_eq_true.mp hends
      exact .cut hstage hopening hp hends
    · split
      · next hlast => exact .completes hstage hblock hopening hlast
      · next hmore => exact .sends hstage hblock hopening hmore

/-- Every turn is one of the moves, where the peer is reached. -/
theorem moves_of_turn (service : Service) (op : Operation) (hreaches : scene.reachesPeer = true) :
    Moves service op scene (op.turn service scene) := by
  -- The stages in the order of the definition.
  unfold turn
  split
  · next hstage =>
    refine moves_read (by rw [hstage]; rfl) fun p inbox hnext => ?_
    cases hkind : op.kind with
    | download =>
      exact moves_proceed (Download.reported_request p) fun found hrequest =>
        .requested hstage hkind hnext hrequest
    | upload =>
      exact moves_proceed (Upload.reported_request _ p) fun u hrequest =>
        .offered hstage hkind hnext hrequest
    | allocate =>
      exact moves_proceed (Allocation.reported_request p) fun _ hrequest =>
        .asked hstage hkind hnext hrequest
  · next hstage =>
    exact moves_proceed (Download.reported_locate _ _ _ _) fun t hfound => .located hstage hfound
  · next hstage => exact moves_sendBlock hstage hreaches
  · next hstage =>
    refine moves_read (by rw [hstage]; rfl) fun p inbox hnext => ?_
    exact moves_proceed (Upload.reported_collect _ _ p) fun u' hblock =>
      .collected hstage hnext hblock
  · next u hstage =>
    refine moves_proceed (.mapError Failure.exists_code?_ofStore) fun tree htree => ?_
    have hstored : ({ scene with tree } : Scene).reachesPeer = true := hreaches
    simp only [Scene.send?_of_reachesPeer hstored]
    refine .saved hstage ?_
    cases hsaved : service.store.save scene.tree u.kind u.descriptor.user u.descriptor.name u.data with
    | error e => rw [hsaved] at htree; cases htree
    | ok stored => rw [hsaved] at htree; cases htree; rfl
  · next hstage =>
    unfold Allocation.allocate
    split
    · exact .fails rfl
    · next user tree hallocated =>
      have hnamed : ({ scene with tree, session := { scene.session with user } } : Scene).reachesPeer =
          true := hreaches
      simp only [Scene.send?_of_reachesPeer hnamed]
      exact .allocated hstage hallocated

end

end Depot.Operation
