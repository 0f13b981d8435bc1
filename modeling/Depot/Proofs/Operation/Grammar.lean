import Depot.Client.Requests
import Depot.Proofs.Diagnostics.Metrics
import Depot.Proofs.Operation.Doomed
import Depot.Proofs.Operation.Moves

/-!
# The grammar of replies

What an operation says to its client is a sentence of a small language. A download describes the file and
sends blocks, each of which says whether more of them follow; an upload is confirmed and an allocation
answered in one packet; and whatever an operation is about, it may break off with one error, or without a
word if it was ended from outside.

A `Life` is what an operation goes through with everything around it: packets come into its inbox at any
time, its inbox is closed, and from one of its steps to the next others may do anything to the storage, to
the session and to the metrics, as long as the peer is reached.

## Key results

- `reached_step`: what an operation has said fits its stage, and a step keeps it so
- `replies_follow_grammar`: what has been said at any moment of a life, and how it is counted
- `exists_life_of_run`: running an operation is a part of its life
-/

namespace Depot.Operation

/-! ### The language -/

/-- The packet that describes the file of a download. -/
structure IsInfo (id : UInt8) (p : Packet) : Prop where
  request : p.request = .fileInfo
  operation : p.operation = id
  sequence : p.header.sequence = 0
  more : p.more = true

/-- A block of a download, which says whether more of them follow. -/
structure IsBlock (id : UInt8) (more : Bool) (p : Packet) : Prop where
  request : p.request = .file
  operation : p.operation = id
  more : p.more = more

/-- The beginning of a download: the description of the file and blocks with more to follow. -/
inductive Begun (id : UInt8) : List Packet → Prop
  | info {p : Packet} (h : IsInfo id p) : Begun id [p]
  | block {said : List Packet} {p : Packet} (h : Begun id said) (hp : IsBlock id true p) :
      Begun id (said ++ [p])

/-- What an operation may have said before its last word. -/
inductive Unfinished (id : UInt8) : OperationKind → List Packet → Prop
  | silent (kind : OperationKind) : Unfinished id kind []
  | download {said : List Packet} (h : Begun id said) : Unfinished id .download said

/-- What an operation has said when it is over with a result. -/
inductive Utterance (id : UInt8) : OperationKind → Except Failure Unit → List Packet → Prop
  | aborted {kind : OperationKind} {said : List Packet} (h : Unfinished id kind said) :
      Utterance id kind (.error .suspended) said
  | failed {kind : OperationKind} {said : List Packet} {failure : Failure} {code : ErrorCode}
      (h : Unfinished id kind said) (hcode : failure.code? = some code) :
      Utterance id kind (.error failure) (said ++ [.error kind.request code id])
  | downloaded {said : List Packet} {p : Packet} (h : Begun id said) (hp : IsBlock id false p) :
      Utterance id .download (.ok ()) (said ++ [p])
  | uploaded : Utterance id .upload (.ok ()) [Upload.confirmation.withOperation id]
  | allocated (user : UInt32) :
      Utterance id .allocate (.ok ()) [(Packet.new .id (UserId.encode user)).withOperation id]

section

variable {id : UInt8} {kind : OperationKind} {said : List Packet} {result : Except Failure Unit}

/-- Nothing of a download that has only begun is a last word. -/
theorem Begun.spec (h : Begun id said) :
    ∀ p ∈ said, p.operation = id ∧ p.isTerminal = false ∧ p.request ≠ .error := by
  have hinfo {p : Packet} (h : IsInfo id p) :
      p.operation = id ∧ p.isTerminal = false ∧ p.request ≠ .error := by
    refine ⟨h.operation, ?_, ?_⟩
    · simp only [Packet.isTerminal, h.request]
    · rw [h.request]
      decide
  have hblock {p : Packet} (h : IsBlock id true p) :
      p.operation = id ∧ p.isTerminal = false ∧ p.request ≠ .error := by
    refine ⟨h.operation, ?_, ?_⟩
    · simp only [Packet.isTerminal, h.request, h.more, Bool.not_true]
    · rw [h.request]
      decide
  -- By induction on the blocks: every one of them says that there is more.
  induction h with
  | info h =>
    intro p hp
    rw [List.mem_singleton.mp hp]
    exact hinfo h
  | block _ hlast ih =>
    intro p hp
    rcases List.mem_append.mp hp with hp | hp
    · exact ih p hp
    · rw [List.mem_singleton.mp hp]
      exact hblock hlast

/-- Nothing of an unfinished sentence is a last word. -/
theorem Unfinished.spec (h : Unfinished id kind said) :
    ∀ p ∈ said, p.operation = id ∧ p.isTerminal = false ∧ p.request ≠ .error := by
  cases h with
  | silent => exact List.forall_mem_nil _
  | download h => exact h.spec

/-- A failure that has a code is told, and counts as an error. -/
theorem outcome_of_code {failure : Failure} {code : ErrorCode} (h : failure.code? = some code) :
    outcome (.error failure) = .error := by
  cases failure with
  | suspended => cases h
  | _ => rfl

/-- A sentence that is finished is unfinished without its last word, if it has one. The last word tells
the outcome. -/
theorem Utterance.cases_last (h : Utterance id kind result said) :
    (outcome result = .aborted ∧ Unfinished id kind said) ∨
      ∃ opening p, said = opening ++ [p] ∧ Unfinished id kind opening ∧ p.operation = id ∧
        p.isTerminal = true ∧
        (outcome result = .error ∧ p.request = .error ∨ outcome result = .ok ∧ p.request ≠ .error) := by
  -- By how the sentence ends.
  cases h with
  | aborted h => exact .inl ⟨rfl, h⟩
  | failed h hcode => exact .inr ⟨_, _, rfl, h, rfl, rfl, .inl ⟨outcome_of_code hcode, rfl⟩⟩
  | downloaded h hp =>
    refine .inr ⟨_, _, rfl, .download h, hp.operation, ?_, .inr ⟨rfl, ?_⟩⟩
    · simp only [Packet.isTerminal, hp.request, hp.more, Bool.not_false]
    · rw [hp.request]
      decide
  | uploaded => exact .inr ⟨[], _, rfl, .silent _, rfl, rfl, .inr ⟨rfl, RequestType.noConfusion⟩⟩
  | allocated user => exact .inr ⟨[], _, rfl, .silent _, rfl, rfl, .inr ⟨rfl, RequestType.noConfusion⟩⟩

/-- All of a sentence is said under one id. -/
theorem Utterance.operation (h : Utterance id kind result said) : ∀ p ∈ said, p.operation = id := by
  intro p hp
  rcases h.cases_last with ⟨-, hopening⟩ | ⟨opening, last, rfl, hopening, hid, -⟩
  · exact (hopening.spec p hp).1
  · rcases List.mem_append.mp hp with hp | hp
    · exact (hopening.spec p hp).1
    · rw [List.mem_singleton.mp hp]
      exact hid

/-- Nothing follows a last word. -/
theorem Utterance.not_terminal (h : Utterance id kind result said) :
    ∀ p ∈ said.dropLast, p.isTerminal = false := by
  intro p hp
  rcases h.cases_last with ⟨-, hopening⟩ | ⟨opening, last, rfl, hopening, -⟩
  · exact (hopening.spec p ((List.dropLast_sublist said).subset hp)).2.1
  · rw [List.dropLast_concat] at hp
    exact (hopening.spec p hp).2.1

/-- An operation has failed just when it said an error. -/
theorem Utterance.outcome_error_iff (h : Utterance id kind result said) :
    outcome result = .error ↔ ∃ p ∈ said, p.request = .error := by
  -- What comes before the last word is no error, so it is the last word that counts, if there is one.
  rcases h.cases_last with ⟨houtcome, hopening⟩ | ⟨opening, last, rfl, hopening, -, -, hlast⟩
  · rw [houtcome]
    refine iff_of_false Outcome.noConfusion ?_
    rintro ⟨p, hp, herror⟩
    exact (hopening.spec p hp).2.2 herror
  · have hmem : last ∈ opening ++ [last] := List.mem_append_right _ List.mem_cons_self
    rcases hlast with ⟨houtcome, herror⟩ | ⟨houtcome, hother⟩
    · exact iff_of_true houtcome ⟨last, hmem, herror⟩
    · rw [houtcome]
      refine iff_of_false Outcome.noConfusion ?_
      rintro ⟨p, hp, herror⟩
      rcases List.mem_append.mp hp with hp | hp
      · exact (hopening.spec p hp).2.2 herror
      · exact hother (List.mem_singleton.mp hp ▸ herror)

/-- An operation has succeeded just when it said a last word that is no error. -/
theorem Utterance.outcome_ok_iff (h : Utterance id kind result said) :
    outcome result = .ok ↔ ∃ p ∈ said, p.isTerminal = true ∧ p.request ≠ .error := by
  -- Again only the last word counts.
  rcases h.cases_last with ⟨houtcome, hopening⟩ | ⟨opening, last, rfl, hopening, -, hterminal, hlast⟩
  · rw [houtcome]
    refine iff_of_false Outcome.noConfusion ?_
    rintro ⟨p, hp, hword, -⟩
    rw [(hopening.spec p hp).2.1] at hword
    cases hword
  · have hmem : last ∈ opening ++ [last] := List.mem_append_right _ List.mem_cons_self
    rcases hlast with ⟨houtcome, herror⟩ | ⟨houtcome, hother⟩
    · rw [houtcome]
      refine iff_of_false Outcome.noConfusion ?_
      rintro ⟨p, hp, hword, hne⟩
      rcases List.mem_append.mp hp with hp | hp
      · rw [(hopening.spec p hp).2.1] at hword
        cases hword
      · exact hne (List.mem_singleton.mp hp ▸ herror)
    · exact iff_of_true houtcome ⟨last, hmem, hterminal, hother⟩

/-- A sentence without a last word is that of an operation that was ended. -/
theorem Utterance.outcome_of_unfinished (h : Utterance id kind result said)
    (hunfinished : Unfinished id kind said) : outcome result = .aborted := by
  rcases h.cases_last with ⟨houtcome, -⟩ | ⟨opening, last, rfl, -, -, hterminal, -⟩
  · exact houtcome
  · rw [(hunfinished.spec last (List.mem_append_right _ List.mem_cons_self)).2.1] at hterminal
    cases hterminal

end

/-! ### Stages -/

/-- What an operation has said when it has come to a stage. -/
inductive Reached (id : UInt8) : OperationKind → List Packet → Stage → Prop
  | opening (kind : OperationKind) : Reached id kind [] .opening
  | locating (kind : FileKind) (request : FileRequest) :
      Reached id .download [] (.locating kind request)
  | located {t : Transfer} (h : t.announced = false) : Reached id .download [] (.sending t)
  | sending {t : Transfer} {said : List Packet} (h : t.announced = true) (hsaid : Begun id said) :
      Reached id .download said (.sending t)
  | collecting (u : Upload) : Reached id .upload [] (.collecting u)
  | saving (u : Upload) : Reached id .upload [] (.saving u)
  | allocating : Reached id .allocate [] .allocating

/-- At every stage what was said is an unfinished sentence. -/
theorem Reached.unfinished {id : UInt8} {kind : OperationKind} {said : List Packet} {stage : Stage}
    (h : Reached id kind said stage) : Unfinished id kind said := by
  cases h with
  | sending _ hsaid => exact .download hsaid
  | _ => exact .silent _

/-- A file that was just found is not announced. -/
theorem Download.announced_of_locate {service : Service} {scene : Scene} {kind : FileKind}
    {r : FileRequest} {t : Transfer} (h : locate service scene kind r = .ok t) :
    t.announced = false := by
  simp only [locate, bind, Except.bind] at h
  split at h
  · cases h
  · split at h
    · cases h
    · cases h
      rfl

/-- The packet that describes a file is the one that a download begins with. -/
theorem Download.isInfo_infoPacket {t : Transfer} {p : Packet} (id : UInt8)
    (h : infoPacket t = .ok p) : IsInfo id (p.withOperation id) := by
  simp only [infoPacket, bind, Except.bind] at h
  split at h
  · cases h
  · cases h
    exact ⟨rfl, rfl, rfl, rfl⟩

/-- Before its next block a download has begun: it describes the file now, if it has not done so. -/
theorem Reached.begun {id : UInt8} {kind : OperationKind} {said opening : List Packet} {t : Transfer}
    (h : Reached id kind said (.sending t)) (hopening : Download.announcement id t = .ok opening) :
    kind = .download ∧ Begun id (said ++ opening) := by
  unfold Download.announcement at hopening
  -- The description was sent with the first block, or it is sent now.
  cases h with
  | located hsilent =>
    rw [if_neg (by rw [hsilent]; exact Bool.false_ne_true)] at hopening
    cases hinfo : Download.infoPacket t with
    | error failure => rw [hinfo] at hopening; cases hopening
    | ok p =>
      rw [hinfo] at hopening
      cases hopening
      exact ⟨rfl, .info (Download.isInfo_infoPacket id hinfo)⟩
  | sending hannounced hsaid =>
    rw [if_pos hannounced] at hopening
    cases hopening
    rw [List.append_nil]
    exact ⟨rfl, hsaid⟩

section

variable {service : Service} {op : Operation} {scene : Scene} {said : List Packet} {turn : Turn}

/-- What an operation has said fits its stage after a step, and if the step ends it, it is a sentence
with what is reported in the end. -/
theorem reached_step (h : Reached op.id op.kind said op.stage) (hmoves : Moves service op scene turn) :
    turn.Ensures True
      (fun stage _ scene' => ∃ posts, scene.Posted posts scene' ∧ scene'.metrics = scene.metrics ∧
        Reached op.id op.kind (said ++ posts) stage)
      (fun result scene' => ∃ posts, scene.Posted posts scene' ∧ scene'.metrics = scene.metrics ∧
        Utterance op.id op.kind result (said ++ (posts ++ op.lastReplies result))) := by
  have hunfinished := h.unfinished
  have hquiet := Scene.Posted.refl scene
  -- In a step that says nothing an operation is ended, or breaks off with an error.
  have haborted : Utterance op.id op.kind (.error .suspended)
      (said ++ ([] ++ op.lastReplies (.error .suspended))) := by
    show Utterance op.id op.kind (.error .suspended) (said ++ [])
    rw [List.append_nil]
    exact .aborted hunfinished
  cases hmoves with
  | waits => trivial
  | runsOut => exact ⟨[], hquiet, rfl, haborted⟩
  | breaksOff => exact ⟨[], hquiet, rfl, haborted⟩
  | @fails failure code hcode =>
    have hlast : op.lastReplies (.error failure) = [.error op.kind.request code op.id] := by
      simp only [lastReplies, failureReplies, hcode, Option.map_some, Option.toList_some]
    exact ⟨[], hquiet, rfl, by rw [hlast]; exact .failed hunfinished hcode⟩
  | requested hstage hkind =>
    rw [hstage, hkind] at h
    cases h
    exact ⟨[], hquiet, rfl, by rw [hkind]; exact .locating _ _⟩
  | offered hstage hkind =>
    rw [hstage, hkind] at h
    cases h
    exact ⟨[], hquiet, rfl, by rw [hkind]; exact .collecting _⟩
  | asked hstage hkind =>
    rw [hstage, hkind] at h
    cases h
    exact ⟨[], hquiet, rfl, by rw [hkind]; exact .allocating⟩
  | located hstage hfound =>
    rw [hstage] at h
    generalize op.kind = kind at h
    cases h
    exact ⟨[], hquiet, rfl, .located (Download.announced_of_locate hfound)⟩
  | @collected p inbox u u' hstage hnext hblock =>
    rw [hstage] at h
    generalize op.kind = kind at h
    cases h
    refine ⟨[], hquiet, rfl, ?_⟩
    cases p.more with
    | true => exact .collecting u'
    | false => exact .saving u'
  | @cut t opening p hstage hopening hp hends =>
    rw [hstage] at h
    obtain ⟨hkind, hbegun⟩ := h.begun hopening
    refine ⟨opening, .postAll scene opening, rfl, ?_⟩
    rw [hkind]
    show Utterance op.id .download (.error .suspended) (said ++ (opening ++ []))
    rw [List.append_nil]
    exact .aborted (.download hbegun)
  | @sends t opening block hstage hblock hopening hmore =>
    rw [hstage] at h
    obtain ⟨hkind, hbegun⟩ := h.begun hopening
    refine ⟨_, .postAll scene _, rfl, ?_⟩
    rw [hkind, ← List.append_assoc]
    have hfollows : decide ((Download.advance t block.length).remaining > 0) = true :=
      decide_eq_true (Nat.pos_of_ne_zero hmore)
    exact .sending rfl (.block hbegun ⟨rfl, rfl, hfollows⟩)
  | @completes t opening block hstage hblock hopening hlast =>
    rw [hstage] at h
    obtain ⟨hkind, hbegun⟩ := h.begun hopening
    refine ⟨_, .postAll scene _, rfl, ?_⟩
    rw [hkind]
    show Utterance op.id .download (.ok ()) (said ++ (opening ++ [_] ++ []))
    rw [List.append_nil, ← List.append_assoc]
    have hnone : decide ((Download.advance t block.length).remaining > 0) = false := by
      rw [hlast]
      rfl
    exact .downloaded hbegun ⟨rfl, rfl, hnone⟩
  | @saved u tree hstage hsaved =>
    rw [hstage] at h
    generalize op.kind = kind at h
    cases h
    have hstored : scene.Posted [] { scene with tree } := ⟨scene.session.user, rfl⟩
    exact ⟨_, hstored.trans (.postAll _ _), rfl, .uploaded⟩
  | @allocated user tree hstage hallocated =>
    rw [hstage] at h
    generalize op.kind = kind at h
    cases h
    have hnamed : scene.Posted [] { scene with tree, session := { scene.session with user } } :=
      ⟨user, rfl⟩
    exact ⟨_, hnamed.trans (.postAll _ _), rfl, .allocated user⟩

end

/-! ### Lives -/

/-- What is remembered of an operation. -/
structure Transcript where
  /-- The packets that it has queued for the peer. -/
  said : List Packet := []
  /-- How often it was counted, by outcome. -/
  tally : Outcome → Int := fun _ => 0

/-- What is remembered after a step from one scene to another. -/
def Transcript.note (t : Transcript) (kind : OperationKind) (scene scene' : Scene) : Transcript where
  said := t.said ++ scene.queued scene'
  tally outcome := t.tally outcome +
    (scene'.metrics.value (.handlers kind outcome) - scene.metrics.value (.handlers kind outcome))

/-- Where an operation stands. -/
inductive Standing
  | running (op : Operation)
  /-- It is over with a result. This is the operation before its last step. -/
  | ended (result : Except Failure Unit) (last : Operation)

/-- What may become of an operation in a session that stays alive. Between two steps its inbox and the
whole scene may change in any way. -/
inductive Life (service : Service) (id : UInt8) (kind : OperationKind) : Transcript → Standing → Prop
  | opens : Life service id kind {} (.running { id, kind })
  | given {t : Transcript} {op : Operation} (h : Life service id kind t (.running op))
      (inbox : Queue Packet) : Life service id kind t (.running { op with inbox })
  | goes {t : Transcript} {op op' : Operation} {scene scene' : Scene}
      (h : Life service id kind t (.running op)) (hreaches : scene.reachesPeer = true)
      (hstep : op.step service scene = .running op' scene') :
      Life service id kind (t.note kind scene scene') (.running op')
  | ends {t : Transcript} {op : Operation} {scene scene' : Scene} {result : Except Failure Unit}
      (h : Life service id kind t (.running op)) (hreaches : scene.reachesPeer = true)
      (hturn : op.turn service scene = .done result scene') :
      Life service id kind (t.note kind scene (op.conclude result scene')) (.ended result op)

/-- The packets that the next step of an operation reads from its inbox. A download that is being sent
reads all of them before its next block. -/
def looksAt (op : Operation) : List Packet :=
  match op.stage with
  | .opening | .collecting _ => op.inbox.waiting.take 1
  | .sending _ => op.inbox.waiting
  | _ => []

/-- What holds of an operation that is not over. -/
structure Ongoing (service : Service) (id : UInt8) (kind : OperationKind) (t : Transcript)
    (op : Operation) : Prop where
  unfinished : Unfinished id kind t.said
  tally : ∀ outcome, t.tally outcome = 0
  /-- It waits for nothing but packets that may still come, and a step brings it nearer to its end. -/
  progress : ∀ scene : Scene, scene.reachesPeer = true →
    (op.step service scene = .waiting → op.inbox.waiting = [] ∧ Upload.isOver op.inbox = false) ∧
      ∀ op' scene', op.step service scene = .running op' scene' → op'.budget < op.budget

/-- What holds of an operation that is over. -/
structure Concluded (id : UInt8) (kind : OperationKind) (t : Transcript)
    (result : Except Failure Unit) (last : Operation) : Prop where
  utterance : Utterance id kind result t.said
  operation : ∀ p ∈ t.said, p.operation = id
  /-- Nothing follows a last word. -/
  last_word : ∀ p ∈ t.said.dropLast, p.isTerminal = false
  /-- It is counted once. -/
  tally : ∀ o, t.tally o = if o = outcome result then 1 else 0
  ok_iff : outcome result = .ok ↔ ∃ p ∈ t.said, p.isTerminal = true ∧ p.request ≠ .error
  error_iff : outcome result = .error ↔ ∃ p ∈ t.said, p.request = .error
  /-- It is over without a last word only if its inbox was, or if it has read a packet that ends it. -/
  unfinished : Unfinished id kind t.said →
    (last.inbox.waiting = [] ∧ Upload.isOver last.inbox = true) ∨
      ∃ p ∈ last.looksAt, p.request.endsOperation = true

/-- What holds of an operation, wherever it stands. -/
def Conforms (service : Service) (id : UInt8) (kind : OperationKind) (t : Transcript) : Standing → Prop
  | .running op => Ongoing service id kind t op
  | .ended result last => Concluded id kind t result last

section

variable {service : Service} {id : UInt8} {kind : OperationKind} {t : Transcript} {op : Operation}
  {standing : Standing}

/-- What is kept of an operation that is not over. -/
private structure Kept (id : UInt8) (kind : OperationKind) (t : Transcript) (op : Operation) : Prop where
  id_eq : op.id = id
  kind_eq : op.kind = kind
  reached : Reached id kind t.said op.stage
  tally : ∀ outcome, t.tally outcome = 0

/-- At every moment of its life an operation has said what its stage tells, and nothing of it is counted. -/
private theorem Life.kept (h : Life service id kind t (.running op)) : Kept id kind t op := by
  generalize hstanding : Standing.running op = standing at h
  -- By induction on the life. Only a step of the operation says anything.
  induction h generalizing op with
  | opens =>
    cases hstanding
    exact ⟨rfl, rfl, .opening kind, fun _ => rfl⟩
  | given _ inbox ih =>
    cases hstanding
    have hkept := ih rfl
    exact ⟨hkept.id_eq, hkept.kind_eq, hkept.reached, hkept.tally⟩
  | @goes t op₀ _ scene scene' _ hreaches hstep ih =>
    cases hstanding
    obtain ⟨hid, hkind, hreached, htally⟩ := ih rfl
    subst hid hkind
    have hmoves := moves_of_turn service op₀ hreaches
    obtain ⟨stage, inbox, hnext, rfl⟩ := exists_next_of_running hstep
    rw [hnext] at hmoves
    obtain ⟨posts, hposted, hmetrics, hreached'⟩ := reached_step hreached hmoves
    refine ⟨rfl, rfl, ?_, fun outcome => ?_⟩
    · show Reached _ _ (t.said ++ scene.queued scene') stage
      rw [hposted.queued_eq hreaches]
      exact hreached'
    · show t.tally outcome + (_ - _) = 0
      rw [htally outcome, hmetrics]
      omega
  | ends => cases hstanding

/-- An operation is ended without a word only by its inbox. -/
private theorem Moves.aborted {scene scene' : Scene}
    (h : Moves service op scene (.done (.error .suspended) scene')) :
    (op.inbox.waiting = [] ∧ Upload.isOver op.inbox = true) ∨
      ∃ p ∈ op.looksAt, p.request.endsOperation = true := by
  -- The two ways of reading and the look before a block: in each of them the inbox says so.
  cases h with
  | runsOut _ hempty hover => exact .inl ⟨hempty, hover⟩
  | @breaksOff p rest hreads hnext hends =>
    refine .inr ⟨p, ?_, hends⟩
    cases hstage : op.stage with
    | opening => rw [looksAt, hstage, hnext]; exact List.mem_cons_self
    | collecting u => rw [looksAt, hstage, hnext]; exact List.mem_cons_self
    | _ => rw [hstage] at hreads; cases hreads
  | fails hcode => cases hcode
  | cut hstage _ hp hends => exact .inr ⟨_, by rw [looksAt, hstage]; exact hp, hends⟩

/-- Whatever is reported, concluding counts the outcome once. -/
private theorem metrics_conclude (op : Operation) (result : Except Failure Unit) (scene : Scene) :
    (op.conclude result scene).metrics =
      scene.metrics.count (.handlers op.kind (outcome result)) := by
  cases result with
  | ok _ => rfl
  | error failure =>
    simp only [conclude, report_eq, Scene.count]
    split <;> rfl

/-- At any moment of its life an operation has said the beginning of a sentence of its kind, and it goes
on to the end of it. When it is over it has said the whole, of which the last word tells how it went,
and it is counted once, under the outcome that the last word tells. -/
theorem replies_follow_grammar (hchunk : 0 < service.limits.downloadChunk)
    (h : Life service id kind t standing) : Conforms service id kind t standing := by
  -- An operation that is running has an unfinished sentence. One that is over has its last step behind it,
  -- which finished the sentence.
  cases standing with
  | running op =>
    obtain ⟨-, -, hreached, htally⟩ := h.kept
    refine ⟨hreached.unfinished, htally, fun scene hreaches => ⟨fun hwaits => ?_, fun op' scene' hruns => ?_⟩⟩
    · have hmoves := moves_of_turn service op hreaches
      have hwait : op.turn service scene = .wait := by
        unfold step at hwaits
        split at hwaits
        · assumption
        · cases hwaits
        · cases hwaits
      rw [hwait] at hmoves
      cases hmoves with
      | waits _ hempty hopen => exact ⟨hempty, hopen⟩
    · exact (step_running hruns).budget (.inl hchunk)
  | ended result last =>
    cases h with
    | @ends t _ scene scene' _ h hreaches hturn =>
      obtain ⟨hid, hkind, hreached, htally⟩ := h.kept
      subst hid hkind
      have hmoves := moves_of_turn service last hreaches
      rw [hturn] at hmoves
      obtain ⟨posts, hposted, hmetrics, hutterance⟩ := reached_step hreached hmoves
      have hreaches' : scene'.reachesPeer = true := hposted.reachesPeer.trans hreaches
      have hconcluded : scene'.Posted (last.lastReplies result) (last.conclude result scene') :=
        ⟨_, (conclude_eq hreaches' last result).2⟩
      have hsaid : Utterance last.id last.kind result
          (t.said ++ scene.queued (last.conclude result scene')) := by
        rw [(hposted.trans hconcluded).queued_eq hreaches]
        exact hutterance
      exact {
        utterance := hsaid
        operation := hsaid.operation
        last_word := hsaid.not_terminal
        tally := fun o => by
          show t.tally o + (_ - _) = _
          rw [htally o, metrics_conclude, Metrics.value_count, hmetrics]
          simp only [Series.handlers.injEq, true_and]
          omega
        ok_iff := hsaid.outcome_ok_iff
        error_iff := hsaid.outcome_error_iff
        unfinished := fun hunfinished => by
          have houtcome := hsaid.outcome_of_unfinished hunfinished
          cases result with
          | ok _ => cases houtcome
          | error failure =>
            rw [outcome_error] at houtcome
            subst houtcome
            exact hmoves.aborted }

/-! ### Runs -/

/-- With enough fuel a run is a life, up to where the operation waits or is over. -/
private theorem exists_life_of_runFor {fuel : Nat} {scene : Scene}
    (hchunk : 0 < service.limits.downloadChunk) (h : Life service id kind t (.running op))
    (hreaches : scene.reachesPeer = true) (hfuel : op.budget ≤ fuel) :
    ∃ posts t', scene.Posted posts (runFor service fuel op scene).2 ∧ t'.said = t.said ++ posts ∧
      match (runFor service fuel op scene).1 with
      | some op' => Life service id kind t' (.running op') ∧
          op'.step service (runFor service fuel op scene).2 = .waiting
      | none => ∃ result last, Life service id kind t' (.ended result last) := by
  -- By induction on the fuel. Every step costs some of the budget, so the fuel does not run out first.
  induction fuel generalizing t op scene with
  | zero => exact absurd hfuel (Nat.not_le.mpr op.budget_pos)
  | succ fuel ih =>
    obtain ⟨hid, hkind, hreached, -⟩ := h.kept
    subst hid hkind
    have hmoves := moves_of_turn service op hreaches
    cases hturn : op.turn service scene with
    | wait =>
      rw [runFor_wait hturn]
      exact ⟨[], t, .refl scene, (List.append_nil _).symm, h, by simp only [step, hturn]⟩
    | next stage inbox scene₁ =>
      have hstep : op.step service scene = .running { op with stage, inbox } scene₁ := by
        simp only [step, hturn]
      rw [hturn] at hmoves
      obtain ⟨posts, hposted, -, -⟩ := reached_step hreached hmoves
      have hbudget := (step_running hstep).budget (.inl hchunk)
      rw [runFor_next hturn]
      obtain ⟨more, t', hmore, hsaid, hends⟩ :=
        ih (h.goes hreaches hstep) (hposted.reachesPeer.trans hreaches) (by omega)
      refine ⟨posts ++ more, t', hposted.trans hmore, ?_, hends⟩
      rw [hsaid, ← List.append_assoc, Transcript.note, hposted.queued_eq hreaches]
    | done result scene₁ =>
      rw [hturn] at hmoves
      obtain ⟨posts, hposted, -, -⟩ := reached_step hreached hmoves
      have hconcluded : scene₁.Posted (op.lastReplies result) (op.conclude result scene₁) :=
        ⟨_, (conclude_eq (hposted.reachesPeer.trans hreaches) op result).2⟩
      have hboth := hposted.trans hconcluded
      rw [runFor_done hturn]
      refine ⟨_, _, hboth, ?_, result, op, h.ends hreaches hturn⟩
      rw [Transcript.note, hboth.queued_eq hreaches]

/-- Running an operation on what its inbox holds is a part of its life, and it comes to the end of it
unless the operation has to wait for packets. -/
theorem exists_life_of_run {scene : Scene} (hchunk : 0 < service.limits.downloadChunk)
    (h : Life service id kind t (.running op)) (hreaches : scene.reachesPeer = true) :
    ∃ posts t', scene.Posted posts (op.run service scene).2 ∧ t'.said = t.said ++ posts ∧
      match (op.run service scene).1 with
      | some op' => Life service id kind t' (.running op') ∧
          op'.step service (op.run service scene).2 = .waiting
      | none => ∃ result last, Life service id kind t' (.ended result last) :=
  exists_life_of_runFor hchunk h hreaches (Nat.le_refl _)

/-- A file of three bytes is sent in two blocks, and that is counted as a success. -/
theorem replies_follow_grammar_of_download :
    let service : Service := { store := ⟨⟨["dlc"]⟩, ⟨["user"]⟩⟩, limits := ⟨2, 10⟩ }
    ∃ t result last, Life service 2 .download t (.ended result last) ∧
      t.said.map Packet.request = [.fileInfo, .file, .file] ∧ (∀ p ∈ t.said, p.operation = 2) ∧
      outcome result = .ok ∧ t.tally .ok = 1 := by
  intro service
  let scene : Scene :=
    { tree := ⟨[(["dlc"], .directory), (["dlc", "a"], .file { bytes := [1, 2, 3] })]⟩ }
  let request : Packet := (Client.fileRequest 7 .dlc "a" 2).toOption.get rfl
  let op : Operation := { id := 2, kind := .download, inbox := { front := [request] } }
  have hasked : Life service 2 .download {} (.running op) := .given .opens _
  have hreaches : scene.reachesPeer = true := rfl
  obtain ⟨posts, t, hposted, hsaid, hlife⟩ :=
    exists_life_of_run (by decide) hasked hreaches
  have hover : (op.run service scene).1 = none := by decide +kernel
  rw [hover] at hlife
  obtain ⟨result, last, hlife⟩ := hlife
  have hposts : posts.map Packet.request = [.fileInfo, .file, .file] := by
    rw [← hposted.queued_eq rfl]
    decide +kernel
  have hlast : ∃ p ∈ posts, p.isTerminal = true ∧ p.request ≠ .error := by
    rw [← hposted.queued_eq rfl]
    decide +kernel
  have hconcluded : Concluded 2 .download t result last :=
    replies_follow_grammar (by decide) hlife
  have hsame : t.said = posts := hsaid
  have hok : outcome result = .ok := hconcluded.ok_iff.mpr (hsame ▸ hlast)
  have hcounted := hconcluded.tally .ok
  rw [if_pos hok.symm] at hcounted
  exact ⟨t, result, last, hlife, hsame ▸ hposts, hconcluded.operation, hok, hcounted⟩

end

end Depot.Operation
