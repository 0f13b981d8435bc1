import Depot.Proofs.Operation.Steps

/-!
# What comes of an upload

What an upload comes to is decided by the packets in its inbox before anything is stored: it goes on
waiting, fails, or has the whole content. `Upload.fate` says which, and `run_upload` that running the
operation comes to just that. Then the file is stored, as a whole or not at all.

`Announces` and `Carries` say in terms of the packets alone which inboxes have a whole file.

## Key results

- `run_upload`: running an upload does to the tree and the session what its fate says
- `fate_eq_complete_iff`: the fate is a file if the packets carry it, and only then
- `upload_all_or_nothing`: a file is stored if the packets carry it and the store takes it; otherwise
  the tree stays as it is
-/

namespace Depot.Operation.Upload

/-! ### The fate of an upload -/

/-- What the packets in an inbox make of an upload. -/
inductive Fate
  /-- It waits for more of them. -/
  | pending
  | failed (failure : Failure)
  /-- The content is there, and is to be stored. -/
  | complete (u : Upload)
  deriving DecidableEq, Repr

/-- What is behind the packets of an inbox. -/
def Fate.behind (ended : Bool) : Fate := if ended then .failed .suspended else .pending

/-- The fate behind a packet that was read and checked. -/
def Fate.proceed {α : Type} (p : Packet) (checked : Except Failure α) (go : α → Fate) : Fate :=
  if p.request.endsOperation then .failed .suspended
  else match checked with
    | .error failure => .failed failure
    | .ok a => go a

/-- The fate of an upload that is under way, with the packets that it has not read. -/
def gather (limits : Limits) (ended : Bool) (u : Upload) : List Packet → Fate
  | [] => .behind ended
  | p :: rest =>
      .proceed p (collect limits u p) fun u =>
      if p.more then gather limits ended u rest else .complete u

/-- The fate of an upload. -/
def fate (limits : Limits) (ended : Bool) : List Packet → Fate
  | [] => .behind ended
  | p :: rest => .proceed p (request limits p) fun u => gather limits ended u rest

/-- What a fate makes of the tree, with what the upload says to the peer. -/
def Fate.effect (service : Service) (op : Operation) (tree : Storage.Tree) :
    Fate → Storage.Tree × List Packet
  | .pending => (tree, [])
  | .failed failure => (tree, op.failureReplies failure)
  | .complete u =>
      match service.store.save tree u.kind u.descriptor.user u.descriptor.name u.data with
      | .error e => (tree, op.failureReplies (.ofStore e))
      | .ok tree => (tree, [confirmation.withOperation op.id])

/-- What is left of an upload after its fate: the tree and the replies are those of the fate, and the
operation is over unless it waits. -/
structure Fate.Leaves (service : Service) (op : Operation) (scene : Scene) (fate : Fate)
    (left : Option Operation × Scene) : Prop where
  waits : left.1.isSome = decide (fate = .pending)
  tree : left.2.tree = (fate.effect service op scene.tree).1
  session : left.2.session =
    if scene.reachesPeer then scene.session.postAll (fate.effect service op scene.tree).2
    else scene.session

/-- Whether nothing comes behind what waits in an inbox. -/
def isOver (inbox : Queue Packet) : Bool := inbox.isClosed || inbox.senders == 0

/-! ### Running -/

section

variable {service : Service} {op : Operation} {scene : Scene} {fuel : Nat}

/-- An upload that waits has done nothing so far. -/
private theorem leaves_pending : Fate.pending.Leaves service op scene (some op, scene) := by
  refine ⟨rfl, rfl, ?_⟩
  show scene.session = if scene.reachesPeer then scene.session.postAll [] else scene.session
  split <;> rfl

/-- An upload that has failed is concluded with its failure. -/
private theorem leaves_failed (failure : Failure) :
    (Fate.failed failure).Leaves service op scene
      (none, op.conclude (.error failure) scene) :=
  ⟨rfl, (conclude_error op failure scene).1, (conclude_error op failure scene).2⟩

/-- What an operation comes to does not depend on what it has read. -/
theorem Fate.Leaves.congr {op' : Operation} {fate : Fate} {left : Option Operation × Scene}
    (h : fate.Leaves service op' scene left) (hid : op'.id = op.id) (hkind : op'.kind = op.kind) :
    fate.Leaves service op scene left := by
  have heffect : fate.effect service op scene.tree = fate.effect service op' scene.tree := by
    cases fate <;> simp only [effect, failureReplies, hid, hkind]
  exact ⟨h.waits, heffect ▸ h.tree, heffect ▸ h.session⟩

/-- The end of an inbox. -/
private theorem leaves_behind {go : Packet → Queue Packet → Turn}
    (hempty : op.inbox.waiting = []) (h : op.turn service scene = .read op.inbox scene go) :
    (Fate.behind (isOver op.inbox)).Leaves service op scene (runFor service (fuel + 1) op scene) := by
  rw [Turn.read_nil hempty] at h
  unfold Fate.behind
  split
  · next hover =>
    -- The end of the inbox counts as a suspend, and there is nothing to report.
    rw [isOver] at hover
    rw [if_pos hover] at h
    rw [runFor_done h]
    exact leaves_failed .suspended
  · next hopen =>
    rw [isOver] at hopen
    rw [if_neg hopen] at h
    rw [runFor_wait h]
    exact leaves_pending

/-- Storing is the last step of an upload. -/
private theorem leaves_saving {u : Upload} (hstage : op.stage = .saving u) :
    (Fate.complete u).Leaves service op scene (runFor service (fuel + 1) op scene) := by
  have hturn : op.turn service scene = save service op.id u scene := by
    simp only [turn, hstage]
  simp only [save] at hturn
  cases hsave : service.store.save scene.tree u.kind u.descriptor.user u.descriptor.name u.data with
  | error e =>
    rw [hsave] at hturn
    rw [runFor_done hturn]
    refine ⟨rfl, ?_, ?_⟩
    · simp only [Fate.effect, hsave, (conclude_error op (.ofStore e) scene).1]
    · simp only [Fate.effect, hsave, (conclude_error op (.ofStore e) scene).2]
  | ok tree =>
    simp only [hsave, Turn.proceed, mapError_ok, Scene.send?_eq] at hturn
    have hsame : ({ scene with tree } : Scene).reachesPeer = scene.reachesPeer := rfl
    -- The file is stored, whether or not the peer can still be told.
    cases hreaches : scene.reachesPeer with
    | true =>
      rw [hsame, hreaches] at hturn
      rw [runFor_done hturn]
      refine ⟨rfl, ?_, ?_⟩
      · simp only [Fate.effect, hsave]
        rfl
      · simp only [Fate.effect, hsave, hreaches]
        rfl
    | false =>
      rw [hsame, hreaches] at hturn
      rw [runFor_done hturn]
      refine ⟨rfl, ?_, ?_⟩
      · simp only [Fate.effect, hsave]
        rfl
      · rw [hreaches]
        rfl

/-- A packet that is read fails the upload or takes it to another stage. -/
private theorem leaves_proceed {α : Type} {check : Packet → Except Failure α} {next : α → Fate}
    {p : Packet} {rest : List Packet} (stage : Packet → α → Stage)
    (hpackets : op.inbox.waiting = p :: rest)
    (hturn : op.turn service scene = .read op.inbox scene fun p inbox =>
      .proceed scene (check p) fun a => .next (stage p a) inbox scene)
    (hnext : ∀ a inbox, inbox.waiting = rest → isOver inbox = isOver op.inbox →
      (next a).Leaves service { op with stage := stage p a, inbox } scene
        (runFor service fuel { op with stage := stage p a, inbox } scene)) :
    (Fate.proceed p (check p) next).Leaves service op scene (runFor service (fuel + 1) op scene) := by
  obtain ⟨inbox, hrest, hreceiver, hsenders, hread⟩ := Turn.read_cons hpackets
  rw [hread] at hturn
  unfold Fate.proceed
  -- The packet ends the upload, or it fails it, or the upload goes on.
  cases hends : p.request.endsOperation with
  | true =>
    rw [hends] at hturn
    rw [runFor_done hturn]
    exact leaves_failed .suspended
  | false =>
    rw [hends] at hturn
    simp only [Bool.false_eq_true, ↓reduceIte] at hturn ⊢
    cases hcheck : check p with
    | error failure =>
      rw [hcheck] at hturn
      rw [runFor_done hturn]
      exact leaves_failed failure
    | ok a =>
      rw [hcheck] at hturn
      rw [runFor_next hturn]
      have hover : isOver inbox = isOver op.inbox := by
        simp only [isOver, Queue.isClosed, hreceiver, hsenders]
      exact (hnext a inbox hrest hover).congr rfl rfl

/-- Reading goes on as the fate says, up to the end of the inbox or the last block. -/
theorem runFor_gather {u : Upload} {packets : List Packet} (hstage : op.stage = .collecting u)
    (hpackets : op.inbox.waiting = packets) (hfuel : packets.length + 2 ≤ fuel) :
    (gather service.limits (isOver op.inbox) u packets).Leaves service op scene
      (runFor service fuel op scene) := by
  have hturn : op.turn service scene = .read op.inbox scene fun p inbox =>
      .proceed scene (collect service.limits u p) fun upload =>
      .next (if p.more then .collecting upload else .saving upload) inbox scene := by
    simp only [turn, hstage]
  induction packets generalizing op u fuel with
  | nil =>
    obtain ⟨fuel, rfl⟩ : ∃ n, fuel = n + 1 := ⟨fuel - 1, by omega⟩
    exact leaves_behind hpackets hturn
  | cons p rest ih =>
    -- One step reads the packet, and one more is left to store what may then be complete.
    obtain ⟨fuel, rfl⟩ : ∃ n, fuel = n + 1 + 1 := ⟨fuel - 2, by omega⟩
    rw [List.length_cons] at hfuel
    refine leaves_proceed (fun p upload => if p.more then .collecting upload else .saving upload)
      hpackets hturn fun u' inbox hrest hover => ?_
    cases p.more with
    | true =>
      rw [← hover]
      exact ih rfl hrest (by omega) rfl
    | false => exact leaves_saving rfl

/-- Running an upload comes to what its fate says. -/
theorem run_upload (hkind : op.kind = .upload) (hstage : op.stage = .opening) :
    (fate service.limits (isOver op.inbox) op.inbox.waiting).Leaves service op scene
      (op.run service scene) := by
  -- The first step reads the description. What follows is gathering.
  have hturn : op.turn service scene = .read op.inbox scene fun p inbox =>
      .proceed scene (request service.limits p) fun upload =>
      .next (.collecting upload) inbox scene := by
    simp only [turn, hstage, hkind]
  have hbudget : op.budget = Storage.Store.maxLength + op.inbox.waiting.length + 3 + 1 := by
    simp only [budget, hstage]
  rw [run, hbudget]
  cases hpackets : op.inbox.waiting with
  | nil => exact leaves_behind hpackets hturn
  | cons p rest =>
    refine leaves_proceed (fun _ => .collecting) hpackets hturn fun u inbox hrest hover => ?_
    rw [← hover]
    exact runFor_gather rfl hrest (by rw [List.length_cons]; omega)

end

/-! ### Packets that carry a file -/

/-- A packet that opens an upload. -/
structure Announces (limits : Limits) (p : Packet) (d : FileDescriptor) : Prop where
  request_eq : p.request = .fileInfo
  more_eq : p.more = true
  parse_eq : FileDescriptor.parse p.payload = .ok d
  user_ne : d.user ≠ 0
  kind_eq : p.header.kind = .dlc ∨ p.header.kind = .user
  size_le : d.size.toNat ≤ limits.maxUpload

/-- The bytes in packets. -/
def content (packets : List Packet) : List UInt8 := packets.flatMap (·.payload)

/-- Whether packets are blocks of a file that goes on behind them. -/
def AllBlocks (packets : List Packet) : Prop := ∀ p ∈ packets, p.request = .file ∧ p.more = true

/-- Packets that carry a file: its description, and its blocks up to the one that says that it is the
last. Whatever is behind does not matter, and at no time is there more than the limit. -/
inductive Carries (limits : Limits) : List Packet → FileKind → FileDescriptor → List UInt8 → Prop
  | intro {opening last : Packet} {blocks rest : List Packet} {d : FileDescriptor}
      (hopening : Announces limits opening d) (hblocks : AllBlocks blocks)
      (hlast : last.request = .file) (hend : last.more = false)
      (hlimit : ∀ n, (content ((blocks ++ [last]).take n)).length ≤ limits.maxUpload) :
      Carries limits (opening :: (blocks ++ last :: rest)) opening.header.kind d
        (content (blocks ++ [last]))

/-- Packets that begin a file and do not end it. -/
inductive Begins (limits : Limits) : List Packet → Prop
  | nothing : Begins limits []
  | blocks {opening : Packet} {blocks : List Packet} {d : FileDescriptor}
      (hopening : Announces limits opening d) (hblocks : AllBlocks blocks)
      (hlimit : (content blocks).length ≤ limits.maxUpload) : Begins limits (opening :: blocks)

/-- What cuts an upload off: a packet that says so, or the end of the inbox. -/
inductive Cut (ended : Bool) : List Packet → Prop
  | closed (h : ended = true) : Cut ended []
  | packet {p : Packet} {rest : List Packet} (hp : p.request = .suspend ∨ p.request = .error) :
      Cut ended (p :: rest)

/-- Whether an upload is cut off before its last block. -/
def Interrupted (limits : Limits) (inbox : Queue Packet) : Prop :=
  ∃ begun after, inbox.waiting = begun ++ after ∧ Begins limits begun ∧ Cut (isOver inbox) after

section

variable {limits : Limits} {ended : Bool} {u u' : Upload} {p : Packet} {d : FileDescriptor}
  {packets blocks : List Packet}

/-- The content of some blocks is that of the first and of the others. -/
theorem content_cons (p : Packet) (packets : List Packet) :
    content (p :: packets) = p.payload ++ content packets := List.flatMap_cons

/-- At no time is there more than at the end. -/
theorem length_content_take_le (packets : List Packet) (n : Nat) :
    (content (packets.take n)).length ≤ (content packets).length := by
  conv => rhs; rw [← List.take_append_drop n packets, content, List.flatMap_append, List.length_append]
  exact Nat.le_add_right _ _

/-- An upload begins just when its first packet announces a file. -/
theorem request_eq_ok_iff : request limits p = .ok u ↔
    ∃ d, Announces limits p d ∧ u = { kind := p.header.kind, descriptor := d } := by
  simp only [request, bind, Except.bind, throw, throwThe, MonadExceptOf.throw]
  constructor
  · intro h
    -- Each check that is passed gives one of the conditions.
    split at h
    · cases h
    · next hrequest =>
      split at h
      · cases h
      · next hmore =>
        cases hparse : FileDescriptor.parse p.payload with
        | error e => rw [hparse] at h; cases h
        | ok d =>
          simp only [hparse, mapError_ok] at h
          split at h
          · cases h
          · next huser =>
            split at h
            · cases h
            · next hkind =>
              split at h
              · cases h
              · next hsize =>
                cases h
                exact ⟨d, {
                  request_eq := Decidable.not_not.mp hrequest
                  more_eq := by simpa using hmore
                  parse_eq := hparse
                  user_ne := huser
                  kind_eq := (FileKind.isStored_iff _).mp (by simpa using hkind)
                  size_le := Nat.not_lt.mp hsize }, rfl⟩
  · rintro ⟨d, h, rfl⟩
    have hkind := (FileKind.isStored_iff _).mpr h.kind_eq
    have hsize := Nat.not_lt.mpr h.size_le
    simp only [h.request_eq, h.more_eq, h.parse_eq, h.user_ne, hkind, hsize, mapError_ok, ne_eq,
      not_true_eq_false, Bool.not_true, Bool.false_eq_true, ↓reduceIte]
    rfl

/-- A packet is collected just when it is a block and there is room for it. -/
theorem collect_eq_ok_iff :
    collect limits u p = .ok u' ↔ p.request = .file ∧
      u.data.length + p.payload.length ≤ limits.maxUpload ∧
      u' = { u with data := u.data ++ p.payload } := by
  simp only [collect, bind, Except.bind, throw, throwThe, MonadExceptOf.throw]
  -- A block, a second description, or anything else.
  split
  · next hrequest =>
    split
    · next hlong =>
      constructor
      · intro h; cases h
      · rintro ⟨-, hle, -⟩
        omega
    · next hle =>
      constructor
      · intro h
        cases h
        exact ⟨hrequest, Nat.not_lt.mp hle, rfl⟩
      · rintro ⟨-, -, rfl⟩
        rfl
  · next hrequest =>
    constructor
    · intro h; cases h
    · rintro ⟨hfile, -⟩
      rw [hrequest] at hfile
      cases hfile
  · next hother _ =>
    constructor
    · intro h; cases h
    · rintro ⟨hfile, -⟩
      exact absurd hfile hother

/-- An upload that runs out of packets is not complete. -/
theorem Fate.behind_ne_complete (ended : Bool) (u : Upload) : behind ended ≠ .complete u := by
  unfold behind
  split <;> intro h <;> cases h

/-- A packet makes an upload complete if it goes on to be so behind it. -/
theorem Fate.proceed_eq_complete_iff {α : Type} {checked : Except Failure α} {go : α → Fate} :
    Fate.proceed p checked go = .complete u ↔
      p.request.endsOperation = false ∧ ∃ a, checked = .ok a ∧ go a = .complete u := by
  unfold Fate.proceed
  cases p.request.endsOperation with
  | true => simp
  | false =>
    cases checked with
    | error failure => simp
    | ok a => simp

/-- Blocks that do not exceed the limit are put together. -/
theorem gather_append (hblocks : AllBlocks blocks)
    (hlimit : u.data.length + (content blocks).length ≤ limits.maxUpload) (packets : List Packet) :
    gather limits ended u (blocks ++ packets) =
      gather limits ended { u with data := u.data ++ content blocks } packets := by
  -- By induction on the blocks, with what is collected so far.
  induction blocks generalizing u with
  | nil =>
    show _ = gather limits ended { u with data := u.data ++ [] } packets
    rw [List.append_nil]
    rfl
  | cons p blocks ih =>
    obtain ⟨hfile, hmore⟩ := hblocks p List.mem_cons_self
    rw [content_cons, List.length_append] at hlimit
    have hcollect : collect limits u p = .ok { u with data := u.data ++ p.payload } :=
      collect_eq_ok_iff.mpr ⟨hfile, by omega, rfl⟩
    have hrest := ih (u := { u with data := u.data ++ p.payload })
      (fun q hq => hblocks q (List.mem_cons_of_mem p hq))
      (by simp only [List.length_append]; omega)
    simp only [List.cons_append, gather, Fate.proceed, hcollect, hfile, hmore]
    rw [content_cons, ← List.append_assoc]
    exact hrest

/-- An upload that is under way becomes complete with the last of its blocks. -/
theorem gather_eq_complete_iff : gather limits ended u packets = .complete u' ↔
    ∃ blocks last rest, packets = blocks ++ last :: rest ∧ AllBlocks blocks ∧
      last.request = .file ∧ last.more = false ∧
      u.data.length + (content (blocks ++ [last])).length ≤ limits.maxUpload ∧
      u' = { u with data := u.data ++ content (blocks ++ [last]) } := by
  have hcontent (p : Packet) : content [p] = p.payload := List.append_nil p.payload
  constructor
  · intro h
    -- By induction on what waits, with what was gathered so far as the upload under way.
    induction packets generalizing u with
    | nil => exact absurd h (Fate.behind_ne_complete ended u')
    | cons p packets ih =>
      obtain ⟨-, u₁, hcollect, hrest⟩ := Fate.proceed_eq_complete_iff.mp h
      obtain ⟨hfile, hle, rfl⟩ := collect_eq_ok_iff.mp hcollect
      cases hmore : p.more with
      | false =>
        -- It is the last block, and whatever is behind it is not read.
        rw [hmore] at hrest
        cases hrest
        refine ⟨[], p, packets, rfl, List.forall_mem_nil _, hfile, hmore, ?_, ?_⟩
        · rw [List.nil_append, hcontent]
          exact hle
        · rw [List.nil_append, hcontent]
      | true =>
        rw [hmore] at hrest
        obtain ⟨blocks, last, rest, rfl, hblocks, hlast, hend, hlimit, rfl⟩ := ih hrest
        refine ⟨p :: blocks, last, rest, rfl, fun q hq => ?_, hlast, hend, ?_, ?_⟩
        · rcases List.mem_cons.mp hq with rfl | hq
          · exact ⟨hfile, hmore⟩
          · exact hblocks q hq
        · rw [List.cons_append, content_cons, List.length_append, ← Nat.add_assoc,
            ← List.length_append]
          exact hlimit
        · rw [List.cons_append, content_cons, ← List.append_assoc]
  · rintro ⟨blocks, last, rest, rfl, hblocks, hlast, hend, hlimit, rfl⟩
    have hsplit : content (blocks ++ [last]) = content blocks ++ last.payload := by
      rw [content, List.flatMap_append, ← content, ← content, hcontent]
    rw [hsplit, List.length_append] at hlimit
    rw [gather_append hblocks (by omega)]
    refine Fate.proceed_eq_complete_iff.mpr ⟨by rw [hlast]; rfl, _, collect_eq_ok_iff.mpr
      ⟨hlast, by rw [List.length_append]; omega, rfl⟩, ?_⟩
    rw [hend, hsplit, ← List.append_assoc]
    rfl

/-- The fate of an upload is a file if the packets carry it, and only then. -/
theorem fate_eq_complete_iff : fate limits ended packets = .complete u ↔
    Carries limits packets u.kind u.descriptor u.data := by
  constructor
  · intro h
    cases packets with
    | nil => exact absurd h (Fate.behind_ne_complete ended u)
    | cons p packets =>
      obtain ⟨-, u₁, hrequest, hgather⟩ := Fate.proceed_eq_complete_iff.mp h
      obtain ⟨d, hopening, rfl⟩ := request_eq_ok_iff.mp hrequest
      obtain ⟨blocks, last, rest, rfl, hblocks, hlast, hend, hlimit, rfl⟩ :=
        gather_eq_complete_iff.mp hgather
      -- The total at the end bounds every total before it.
      rw [List.length_nil, Nat.zero_add] at hlimit
      exact .intro hopening hblocks hlast hend
        fun n => Nat.le_trans (length_content_take_le _ n) hlimit
  · obtain ⟨kind, d, data⟩ := u
    intro h
    cases h with
    | @intro opening last blocks rest _ hopening hblocks hlast hend hlimit =>
      have htotal := hlimit (blocks ++ [last]).length
      rw [List.take_length] at htotal
      refine Fate.proceed_eq_complete_iff.mpr ⟨by rw [hopening.request_eq]; rfl, _,
        request_eq_ok_iff.mpr ⟨d, hopening, rfl⟩, ?_⟩
      refine gather_eq_complete_iff.mpr ⟨blocks, last, rest, rfl, hblocks, hlast, hend, ?_, rfl⟩
      rw [List.length_nil, Nat.zero_add]
      exact htotal

/-- What is carried does not exceed the limit. -/
theorem Carries.length_le {kind : FileKind} {data : List UInt8}
    (h : Carries limits packets kind d data) : data.length ≤ limits.maxUpload := by
  cases h with
  | @intro opening last blocks rest _ hopening hblocks hlast hend hlimit =>
    have htotal := hlimit (blocks ++ [last]).length
    rwa [List.take_length] at htotal

/-- A suspend and an error end the upload, whatever they are checked for. -/
private theorem Fate.proceed_ended {α : Type} (checked : Except Failure α) (go : α → Fate)
    (hp : p.request = .suspend ∨ p.request = .error) :
    Fate.proceed p checked go = .failed .suspended := by
  unfold Fate.proceed
  rw [if_pos]
  rcases hp with hp | hp <;> rw [hp] <;> rfl

/-- An upload that is cut off has failed, and there is nothing to report. -/
theorem fate_of_interrupted {inbox : Queue Packet} (h : Interrupted limits inbox) :
    fate limits (isOver inbox) inbox.waiting = .failed .suspended := by
  obtain ⟨begun, after, hwaiting, hbegun, hcut⟩ := h
  rw [hwaiting]
  cases hbegun with
  | nothing =>
    cases hcut with
    | closed hover => simp only [List.append_nil, fate, Fate.behind, hover, ↓reduceIte]
    | packet hp => exact Fate.proceed_ended _ _ hp
  | @blocks opening blocks d hopening hblocks hlimit =>
    -- The description and the blocks are read, and then there is what cuts it off.
    have hrequest := request_eq_ok_iff.mpr ⟨d, hopening, rfl⟩
    simp only [List.cons_append, fate, Fate.proceed, hrequest, hopening.request_eq]
    show gather limits (isOver inbox) _ (blocks ++ after) = _
    rw [gather_append hblocks (by rw [List.length_nil, Nat.zero_add]; exact hlimit)]
    cases hcut with
    | closed hover => simp only [gather, Fate.behind, hover, ↓reduceIte]
    | packet hp => exact Fate.proceed_ended _ _ hp

end

/-! ### All or nothing -/

/-- An upload whose packets carry a file that the store takes is stored, and the client is told. -/
theorem run_of_carries {service : Service} {op : Operation} {scene : Scene} {kind : FileKind}
    {d : FileDescriptor} {data : List UInt8} {tree : Storage.Tree} (hkind : op.kind = .upload)
    (hstage : op.stage = .opening) (hcarries : Carries service.limits op.inbox.waiting kind d data)
    (hsave : service.store.save scene.tree kind d.user d.name data = .ok tree) :
    (op.run service scene).1 = none ∧ (op.run service scene).2.tree = tree ∧
      (op.run service scene).2.session =
        if scene.reachesPeer then scene.session.postAll [confirmation.withOperation op.id]
        else scene.session := by
  have hfate : fate service.limits (isOver op.inbox) op.inbox.waiting =
      .complete { kind, descriptor := d, data } := fate_eq_complete_iff.mpr hcarries
  have hleft : (fate service.limits (isOver op.inbox) op.inbox.waiting).Leaves service op scene
      (op.run service scene) := run_upload hkind hstage
  rw [hfate] at hleft
  obtain ⟨hwaits, htree, hsession⟩ := hleft
  simp only [Fate.effect, hsave] at htree hsession
  exact ⟨by simpa using hwaits, htree, hsession⟩

/-- A fate without a file that is stored leaves the tree alone, and an error is all that is said. -/
private theorem effect_of_not_stored (service : Service) (op : Operation) {tree : Storage.Tree}
    {fate : Fate} (h : ∀ u, fate = .complete u → ∀ tree',
      service.store.save tree u.kind u.descriptor.user u.descriptor.name u.data ≠ .ok tree') :
    (fate.effect service op tree).1 = tree ∧
      ((fate.effect service op tree).2 = [] ∨
        ∃ code, (fate.effect service op tree).2 = [.error op.kind.request code op.id]) := by
  have hreplies (failure : Failure) : op.failureReplies failure = [] ∨
      ∃ code, op.failureReplies failure = [.error op.kind.request code op.id] := by
    unfold failureReplies
    cases failure.code? with
    | none => exact .inl rfl
    | some code => exact .inr ⟨code, rfl⟩
  -- Only a complete upload comes to the store, and there it fails.
  cases fate with
  | pending => exact ⟨rfl, .inl rfl⟩
  | failed failure => exact ⟨rfl, hreplies failure⟩
  | complete u =>
    cases hsave : service.store.save tree u.kind u.descriptor.user u.descriptor.name u.data with
    | ok tree' => exact absurd hsave (h u rfl tree')
    | error e =>
      simp only [Fate.effect, hsave]
      exact ⟨trivial, hreplies (.ofStore e)⟩

/-- An upload is all or nothing. If its packets carry a file and the store takes it, the file has
exactly the content that came, nothing else in the tree changes, and the client is told; there is never
more than the limit. In every other case the tree stays as it is, and an error may be reported. An
upload that is cut off before its last block changes nothing and says nothing. -/
theorem upload_all_or_nothing (service : Service) (id : UInt8) (inbox : Queue Packet) (scene : Scene) :
    let left := ({ id, kind := .upload, inbox } : Operation).run service scene
    (∀ kind d data tree, Carries service.limits inbox.waiting kind d data →
      service.store.save scene.tree kind d.user d.name data = .ok tree →
        (∃ path, service.store.resolve kind d.user d.name = .ok path ∧
          scene.tree.Stored path { bytes := data } left.2.tree) ∧
        data.length ≤ service.limits.maxUpload ∧
        left.2.session =
          if scene.reachesPeer then scene.session.postAll [confirmation.withOperation id]
          else scene.session) ∧
    ((∀ kind d data tree, Carries service.limits inbox.waiting kind d data →
        service.store.save scene.tree kind d.user d.name data ≠ .ok tree) →
      left.2.tree = scene.tree ∧
        (left.2.session = scene.session ∨
          scene.reachesPeer = true ∧
            ∃ code, left.2.session = scene.session.postAll [.error .fileInfo code id])) ∧
    (Interrupted service.limits inbox →
      left.2.tree = scene.tree ∧ left.2.session = scene.session) := by
  intro left
  have hleft : (fate service.limits (isOver inbox) inbox.waiting).Leaves service
      { id, kind := .upload, inbox } scene left := run_upload rfl rfl
  -- Three times the same: the fate of the packets, and what it leaves.
  refine ⟨fun kind d data tree hcarries hsave => ?_, fun hnone => ?_, fun hinterrupted => ?_⟩
  · obtain ⟨-, htree, hsession⟩ : _ ∧ left.2.tree = tree ∧ left.2.session = _ :=
      run_of_carries rfl rfl hcarries hsave
    exact ⟨htree ▸ Storage.Store.stored_of_save hsave, hcarries.length_le, hsession⟩
  · obtain ⟨htree, hreplies⟩ := effect_of_not_stored service { id, kind := .upload, inbox }
      fun u hfate tree => hnone _ _ _ tree (fate_eq_complete_iff.mp hfate)
    refine ⟨hleft.tree.trans htree, ?_⟩
    rw [hleft.session]
    cases scene.reachesPeer with
    | false => exact .inl rfl
    | true =>
      rcases hreplies with hnothing | ⟨code, herror⟩
      · rw [hnothing]
        exact .inl rfl
      · rw [herror]
        exact .inr ⟨rfl, code, rfl⟩
  · rw [fate_of_interrupted hinterrupted] at hleft
    refine ⟨hleft.tree, hleft.session.trans ?_⟩
    show (if scene.reachesPeer then scene.session.postAll [] else scene.session) = scene.session
    split <;> rfl

end Depot.Operation.Upload
