import Depot.Proofs.Operation.Alone

/-!
# Last words

A request is answered by one packet that says that nothing follows: an error, the last block of a file,
the confirmation of an upload or a user id. An operation says it with its last step and not before. Only
one that is ended by a packet in its inbox is over without it.

`Posted` names the packets that were queued between two scenes. Those of a scene are read off the queue
with `queued`, and the two agree where the peer is reached.

## Key results

- `Reported`: no check fails as an operation does that was ended
- `step_running_answers`, `step_ended_answers`: what is said on the way, and what with the last step
-/

namespace Depot

/-- Whether it is the last word on a request. -/
def Packet.isTerminal (p : Packet) : Bool :=
  match p.request with
  | .error | .fileSaveDone | .id => true
  | .file => !p.more
  | _ => false

/-- The number of last words. -/
def Packet.terminals (packets : List Packet) : Nat := packets.countP isTerminal

namespace Packet

theorem terminals_append (packets packets' : List Packet) :
    terminals (packets ++ packets') = terminals packets + terminals packets' := List.countP_append

theorem terminals_singleton (p : Packet) : terminals [p] = if p.isTerminal then 1 else 0 :=
  List.countP_singleton

end Packet

namespace Scene

/-- The packets that were queued for the peer since an earlier scene. -/
def queued (s s' : Scene) : List Packet :=
  s'.session.outbound.waiting.drop s.session.outbound.waiting.length

/-- Whether packets were queued for the peer, and nothing else was done to the session than to name the
user. -/
def Posted (s : Scene) (posts : List Packet) (s' : Scene) : Prop :=
  ∃ user, s'.session = { s.session.postAll posts with user }

namespace Posted

variable {s s' s'' : Scene} {posts posts' : List Packet}

theorem refl (s : Scene) : s.Posted [] s := ⟨s.session.user, rfl⟩

theorem trans (h : s.Posted posts s') (h' : s'.Posted posts' s'') : s.Posted (posts ++ posts') s'' := by
  obtain ⟨user, hsession⟩ := h
  obtain ⟨user', hsession'⟩ := h'
  refine ⟨user', ?_⟩
  rw [hsession', hsession, Session.postAll_append]
  simp only [Session.postAll_eq]

/-- What is queued is posted. -/
theorem postAll (s : Scene) (posts : List Packet) : s.Posted posts (s.postAll posts) :=
  ⟨_, rfl⟩

/-- Posting does not change whether the peer is reached. -/
theorem reachesPeer (h : s.Posted posts s') : s'.reachesPeer = s.reachesPeer := by
  obtain ⟨user, hsession⟩ := h
  rw [← s.reachesPeer_postAll posts]
  simp only [Scene.reachesPeer, Scene.postAll, hsession]

/-- What was posted is what has come to the queue. -/
theorem queued_eq (h : s.Posted posts s') (hs : s.reachesPeer = true) : s.queued s' = posts := by
  obtain ⟨user, hsession⟩ := h
  have hwaiting : s'.session.outbound.waiting = s.session.outbound.waiting ++ posts := by
    rw [hsession]
    exact Scene.waiting_postAll hs posts
  rw [queued, hwaiting, List.drop_left]

end Posted

end Scene

namespace Operation

/-! ### Failures -/

/-- Whether what failed, if it did, is reported to the peer. -/
def Reported {α : Type} (result : Except Failure α) : Prop := result ≠ .error .suspended

namespace Reported

variable {α β ε : Type}

theorem ok (a : α) : Reported (.ok a : Except Failure α) := by
  intro hsuspended
  cases hsuspended

/-- A failure with a code is reported. -/
theorem error {failure : Failure} {code : ErrorCode} (h : failure.code? = some code) :
    Reported (.error failure : Except Failure α) := by
  intro hsuspended
  cases hsuspended
  cases h

/-- What follows a check is reported if the check is and everything behind it is. -/
theorem bind {result : Except Failure α} {go : α → Except Failure β} (h : Reported result)
    (hgo : ∀ a, Reported (go a)) : Reported (result >>= go) := by
  cases result with
  | error failure => exact fun hsuspended => h (by cases hsuspended; rfl)
  | ok a => exact hgo a

/-- A failure that is translated is reported if every translation has a code. -/
theorem mapError {result : Except ε α} {f : ε → Failure} (hf : ∀ e, ∃ code, (f e).code? = some code) :
    Reported (result.mapError f) := by
  cases result with
  | error e =>
    obtain ⟨code, hcode⟩ := hf e
    exact error hcode
  | ok a => exact ok a

/-- A check fails with a failure of its own, or what comes behind it decides. -/
theorem check {c : Prop} [Decidable c] {failure : Failure} {code : ErrorCode}
    {go : α → Except Failure β} {rest : Except Failure β} (h : failure.code? = some code)
    (hrest : ¬c → Reported rest) : Reported (if c then throw failure >>= go else rest) := by
  split
  · exact error h
  · next hc => exact hrest hc

end Reported

/-- Every error of the store has a code for the peer. -/
theorem Failure.exists_code?_ofStore (e : Storage.StoreError) :
    ∃ code, (Failure.ofStore e).code? = some code := by
  cases e <;> exact ⟨_, rfl⟩

/-- A payload that cannot be read has one, too. -/
theorem Failure.exists_code?_ofPayload (e : PayloadError) :
    ∃ code, (Failure.ofPayload e).code? = some code := ⟨_, rfl⟩

/-- A request that a download refuses is reported. -/
theorem Download.reported_request (p : Packet) : Reported (Download.request p) := by
  dsimp only [Download.request]
  refine .check rfl fun _ => .bind (.mapError Failure.exists_code?_ofPayload) fun r => ?_
  exact .check rfl fun _ => .check rfl fun _ => .ok _

/-- A file that cannot be opened is reported. -/
theorem Download.reported_locate (service : Service) (scene : Scene) (kind : FileKind) (r : FileRequest) :
    Reported (Download.locate service scene kind r) := by
  unfold Download.locate
  refine .bind (.mapError Failure.exists_code?_ofStore) fun found => ?_
  obtain ⟨place, size⟩ := found
  simp only
  split
  · exact .error rfl
  · exact .ok _

/-- A block that cannot be read is reported. -/
theorem Download.reported_readBlock (tree : Storage.Tree) (place : Storage.Place) (offset count : Nat) :
    Reported (Download.readBlock tree place offset count) := by
  rw [Download.readBlock_eq]
  split
  · exact .error rfl
  · exact .ok _

/-- A file that cannot be described is reported. -/
theorem Download.reported_announcement (id : UInt8) (t : Transfer) :
    Reported (Download.announcement id t) := by
  unfold Download.announcement
  split
  · exact .ok _
  · have hinfo : Reported (Download.infoPacket t) :=
      .bind (.mapError Failure.exists_code?_ofPayload) fun payload => .ok _
    cases h : Download.infoPacket t with
    | error failure =>
      rw [h] at hinfo
      exact fun hsuspended => hinfo (by cases hsuspended; rfl)
    | ok p => exact .ok _

/-- A file that an upload does not take is reported. -/
theorem Upload.reported_request (limits : Limits) (p : Packet) : Reported (Upload.request limits p) := by
  dsimp only [Upload.request]
  refine .check rfl fun _ => .check rfl fun _ => ?_
  refine .bind (.mapError Failure.exists_code?_ofPayload) fun descriptor => ?_
  exact .check rfl fun _ => .check rfl fun _ => .check rfl fun _ => .ok _

/-- A block that an upload does not take is reported. -/
theorem Upload.reported_collect (limits : Limits) (u : Upload) (p : Packet) :
    Reported (Upload.collect limits u p) := by
  unfold Upload.collect
  split
  · simp only
    split
    · exact .error rfl
    · exact .ok _
  · exact .error rfl
  · exact .error rfl

/-- A request that an allocation refuses is reported. -/
theorem Allocation.reported_request (p : Packet) : Reported (Allocation.request p) := by
  unfold Allocation.request
  split
  · exact .error rfl
  · exact .ok _

/-! ### Turns -/

/-- What is said between two scenes by an operation with an id. -/
structure Says (id : UInt8) (s : Scene) (posts : List Packet) (s' : Scene) : Prop where
  posted : s.Posted posts s'
  operation : ∀ p ∈ posts, p.operation = id

namespace Says

variable {id : UInt8} {s s' s'' : Scene} {posts posts' : List Packet}

theorem refl (id : UInt8) (s : Scene) : Says id s [] s := ⟨.refl s, List.forall_mem_nil _⟩

/-- Nothing is said by changing the files or naming the user. -/
theorem quiet (id : UInt8) {user : UInt32} (h : s'.session = { s.session with user }) : Says id s [] s' :=
  ⟨⟨user, h⟩, List.forall_mem_nil _⟩

theorem trans (h : Says id s posts s') (h' : Says id s' posts' s'') : Says id s (posts ++ posts') s'' where
  posted := h.posted.trans h'.posted
  operation := fun p hp => by
    rcases List.mem_append.mp hp with hp | hp
    · exact h.operation p hp
    · exact h'.operation p hp

/-- To queue a packet under an id is to say it for the operation with the id. -/
theorem packet (id : UInt8) (s : Scene) (p : Packet) :
    Says id s [p.withOperation id] (s.postAll [p.withOperation id]) where
  posted := .postAll s _
  operation := fun q hq => by
    rw [List.mem_singleton.mp hq]
    rfl

end Says

/-- What a turn may come to where the peer is reached. As long as the operation goes on it says no last
word; when it has done its work it has said one, and when it fails it has not. It is not over for want of
packets, but only because one of them ends it. -/
abbrev Answers (op : Operation) (scene : Scene) : Turn → Prop :=
  Turn.Ensures True
    (fun _ inbox scene' => (∃ posts, Says op.id scene posts scene' ∧ Packet.terminals posts = 0) ∧
      Receptive inbox ∧ ∀ p ∈ inbox.waiting, p ∈ op.inbox.waiting)
    (fun result scene' => ∃ posts, Says op.id scene posts scene' ∧
      match result with
      | .ok () => Packet.terminals posts = 1
      | .error failure => Packet.terminals posts = 0 ∧ (failure = .suspended → op.Doomed))

section

variable {service : Service} {op op' : Operation} {scene scene' : Scene} {outcome : Outcome}

/-- A check that fails ends the turn without a last word. -/
private theorem answers_proceed {α : Type} {result : Except Failure α} {go : α → Turn}
    (h : Reported result) (hgo : ∀ a, result = .ok a → op.Answers scene (go a)) :
    op.Answers scene (.proceed scene result go) := by
  refine Turn.ensures_proceed (fun failure hfailure => ⟨[], .refl op.id scene, rfl, ?_⟩) hgo
  rintro rfl
  exact absurd hfailure h

/-- What has been read is one packet less to read. -/
private theorem answers_read {go : Packet → Queue Packet → Turn} (hinbox : Receptive op.inbox)
    (hgo : ∀ p rest, (∀ stage, op.Answers scene (.next stage rest scene)) →
      op.Answers scene (go p rest)) : op.Answers scene (.read op.inbox scene go) := by
  -- An inbox that may still be sent to is waited for.
  cases hwaiting : op.inbox.waiting with
  | nil =>
    rw [hinbox.read_nil hwaiting]
    trivial
  | cons p rest =>
    obtain ⟨inbox, hrest, hreceiver, hsenders, hread⟩ := Turn.read_cons hwaiting
    rw [hread]
    split
    · next hends =>
      refine ⟨[], .refl op.id scene, rfl, fun _ => ⟨p, ?_, hends⟩⟩
      rw [hwaiting]
      exact List.mem_cons_self
    · refine hgo p inbox fun stage => ⟨⟨[], .refl op.id scene, rfl⟩,
        ⟨hreceiver.trans hinbox.1, hsenders ▸ hinbox.2⟩, fun q hq => ?_⟩
      rw [hwaiting, ← hrest]
      exact List.mem_cons_of_mem p hq

/-- The description of a file is not the last word on a request. -/
theorem Download.terminals_announcement {id : UInt8} {t : Transfer} {opening : List Packet}
    (h : announcement id t = .ok opening) : Packet.terminals opening = 0 := by
  unfold announcement at h
  split at h
  · cases h
    rfl
  · cases hinfo : infoPacket t with
    | error failure =>
      rw [hinfo] at h
      cases h
    | ok info =>
      rw [hinfo] at h
      cases h
      -- The description of a file is never the last packet of a download.
      have hrequest : info.request = .fileInfo := by
        simp only [infoPacket, bind, Except.bind] at hinfo
        split at hinfo
        · cases hinfo
        · cases hinfo
          rfl
      have hterminal : (info.withOperation id).isTerminal = false := by
        have hsame : (info.withOperation id).request = .fileInfo := hrequest
        simp only [Packet.isTerminal, hsame]
      rw [Packet.terminals_singleton, hterminal]
      rfl

/-- A block is the last word if it is the last block. -/
private theorem answers_sendBlock {t : Transfer} (hinbox : Receptive op.inbox)
    (hreaches : scene.reachesPeer = true) :
    op.Answers scene (Download.sendBlock service op.id t op.inbox scene) := by
  refine answers_proceed (Download.reported_readBlock _ _ _ _) fun block _ => ?_
  rw [Download.announce_eq hreaches]
  have hreported := Download.reported_announcement op.id t
  -- The description is sent in front of the first block, in the same turn, and is no last word either.
  cases hopening : Download.announcement op.id t with
  | error failure =>
    rw [hopening] at hreported
    refine ⟨[], .refl op.id scene, rfl, ?_⟩
    rintro rfl
    exact absurd rfl hreported
  | ok opening =>
    have hzero := Download.terminals_announcement hopening
    have hsaid : Says op.id scene opening (scene.postAll opening) :=
      ⟨.postAll scene opening, Download.operation_of_announcement hopening⟩
    have hreaches' := (scene.reachesPeer_postAll opening).trans hreaches
    have hlive : (scene.postAll opening).session.live = true := by
      simp only [Scene.reachesPeer, Bool.and_eq_true] at hreaches'
      exact hreaches'.1
    simp only [Except.map, Turn.proceed, hlive, Bool.not_true, Bool.false_or,
      Scene.send?_of_reachesPeer hreaches']
    split
    · next hends => exact ⟨opening, hsaid, hzero, fun _ => List.any_eq_true.mp hends⟩
    · -- The block is the last word if nothing is left behind it.
      have hboth := hsaid.trans (.packet op.id (scene.postAll opening)
        (Download.blockPacket (Download.advance t (min t.remaining service.limits.downloadChunk)) block))
      split
      · next hlast =>
        refine ⟨_, hboth, ?_⟩
        rw [Packet.terminals_append, hzero, Packet.terminals_singleton, if_pos]
        show (!decide (_ > 0)) = true
        rw [hlast]
        rfl
      · next hmore =>
        refine ⟨⟨_, hboth, ?_⟩, ⟨hinbox.1, hinbox.2⟩, fun p hp => ?_⟩
        · rw [Packet.terminals_append, hzero, Packet.terminals_singleton, if_neg]
          show ¬(!decide (_ > 0)) = true
          rw [decide_eq_true (Nat.pos_of_ne_zero hmore)]
          exact Bool.false_ne_true
        · rw [Queue.waiting_drained] at hp
          cases hp

/-- Where the peer is reached every turn answers as it should. -/
private theorem turn_answers (service : Service) (hinbox : Receptive op.inbox)
    (hreaches : scene.reachesPeer = true) : op.Answers scene (op.turn service scene) := by
  -- The stages in the order of the definition. Those that send, save or allocate are the ones that speak.
  unfold turn
  split
  · refine answers_read hinbox fun p rest hnext => ?_
    split
    · exact answers_proceed (Download.reported_request p) fun _ _ => hnext _
    · exact answers_proceed (Upload.reported_request _ p) fun _ _ => hnext _
    · exact answers_proceed (Allocation.reported_request p) fun _ _ => hnext _
  · refine answers_proceed (Download.reported_locate _ _ _ _) fun _ _ => ?_
    exact ⟨⟨[], .refl op.id scene, rfl⟩, hinbox, fun p hp => hp⟩
  · exact answers_sendBlock hinbox hreaches
  · refine answers_read hinbox fun p rest hnext => ?_
    exact answers_proceed (Upload.reported_collect _ _ p) fun _ _ => hnext _
  · next u _ =>
    refine answers_proceed (.mapError Failure.exists_code?_ofStore) fun tree _ => ?_
    have hstored : ({ scene with tree } : Scene).reachesPeer = true := hreaches
    simp only [Scene.send?_of_reachesPeer hstored]
    have hquiet : Says op.id scene [] { scene with tree } := .quiet op.id rfl
    exact ⟨_, hquiet.trans (.packet op.id _ Upload.confirmation), rfl⟩
  · unfold Allocation.allocate
    split
    · exact ⟨[], .refl op.id scene, rfl, Failure.noConfusion⟩
    · next user tree _ =>
      have hnamed : ({ scene with tree, session := { scene.session with user } } : Scene).reachesPeer =
          true := hreaches
      simp only [Scene.send?_of_reachesPeer hnamed]
      have hquiet : Says op.id scene [] { scene with tree, session := { scene.session with user } } :=
        .quiet op.id rfl
      exact ⟨_, hquiet.trans (.packet op.id _ (.new .id (UserId.encode user))), rfl⟩

/-! ### Steps -/

/-- An operation that goes on has said no last word. -/
theorem step_running_answers (hinbox : Receptive op.inbox) (hreaches : scene.reachesPeer = true)
    (h : op.step service scene = .running op' scene') :
    (∃ posts, Says op.id scene posts scene' ∧ Packet.terminals posts = 0) ∧ Receptive op'.inbox ∧
      ∀ p ∈ op'.inbox.waiting, p ∈ op.inbox.waiting := by
  have hturn := turn_answers service hinbox hreaches
  obtain ⟨stage, inbox, hnext, rfl⟩ := exists_next_of_running h
  rwa [hnext] at hturn

/-- What an operation says at the end of it. -/
private theorem says_conclude (op : Operation) (result : Except Failure Unit)
    (hreaches : scene.reachesPeer = true) :
    Says op.id scene (op.lastReplies result) (op.conclude result scene) :=
  ⟨⟨_, (conclude_eq hreaches op result).2⟩, op.operation_of_lastReplies result⟩

theorem terminals_lastReplies (op : Operation) (failure : Failure) :
    Packet.terminals (op.lastReplies (.error failure)) = if failure = .suspended then 0 else 1 := by
  cases failure <;> rfl

theorem outcome_error (failure : Failure) :
    Operation.outcome (.error failure) = .aborted ↔ failure = .suspended := by
  cases failure <;> simp [Operation.outcome]

/-- An operation that is over has said one last word, or it was ended by a packet and has said none. -/
theorem step_ended_answers (hinbox : Receptive op.inbox) (hreaches : scene.reachesPeer = true)
    (h : op.step service scene = .ended outcome scene') :
    ∃ posts, Says op.id scene posts scene' ∧
      Packet.terminals posts = (if outcome = .aborted then 0 else 1) ∧
      (outcome = .aborted → op.Doomed) := by
  have hturn := turn_answers service hinbox hreaches
  obtain ⟨result, scene₁, hdone, rfl, rfl⟩ := exists_done_of_ended h
  rw [hdone] at hturn
  obtain ⟨posts, hsaid, hcount⟩ := hturn
  have hreaches₁ : scene₁.reachesPeer = true := hsaid.posted.reachesPeer.trans hreaches
  refine ⟨posts ++ op.lastReplies result, hsaid.trans (says_conclude op result hreaches₁), ?_⟩
  rw [Packet.terminals_append]
  -- A success was the last word already. A failure is one now, if it is reported at all.
  cases result with
  | ok _ =>
    rw [hcount]
    exact ⟨rfl, Outcome.noConfusion⟩
  | error failure =>
    obtain ⟨hzero, hdoomed⟩ := hcount
    rw [hzero, terminals_lastReplies, Nat.zero_add]
    simp only [outcome_error]
    exact ⟨trivial, hdoomed⟩

end

end Operation

end Depot
