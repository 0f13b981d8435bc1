import Depot.Proofs.Operation.Answers
import Depot.Proofs.Switchboard.Dispatch

/-!
# Every request is answered once

A `Ledger` lists what happens on a switchboard as long as the session lives: packets that are dispatched,
and steps of operations, in whatever order they come. With each of them it lists the packets that were
queued for the peer by it.

The books balance (`Booked`). Under every operation id there are as many requests as there are last words
and operations that were ended by the peer, and one more if an operation is running. Operations are told
apart by their numbers, for an id can be used again: one that is over has said one last word, or none if
an error of the peer came for it while it was running. One deed after another keeps the books
(`booked_ledger`).

## Key results

- `dispatch_opening`: a request starts an operation or is refused
- `Booked.forward`, `Booked.enroll`, `Booked.refuse`, `Booked.move`, `Booked.finish`: what a deed adds
- `answered_once`: what the books say
-/

namespace Depot

/-- Whether a packet is a request that an operation can answer. -/
def Packet.opens (p : Packet) : Bool := (OperationKind.ofRequest? p.request).isSome

/-- Every kind of operation is opened by one request, its own. -/
theorem OperationKind.request_of_ofRequest? {request : RequestType} {kind : OperationKind}
    (h : ofRequest? request = some kind) : kind.request = request := by
  cases request <;> cases h <;> rfl

namespace Switchboard

/-! ### Deeds -/

/-- What happens on a switchboard, with the packets that are queued for the peer by it. -/
inductive Deed
  /-- A packet is dispatched, and an operation is started or not. -/
  | given (p : Packet) (begins : Bool) (posts : List Packet)
  /-- The operation with a number and an id takes a step and goes on. -/
  | moved (number : Nat) (id : UInt8) (posts : List Packet)
  /-- The operation with a number and an id takes its last step. -/
  | ended (number : Nat) (id : UInt8) (outcome : Outcome) (posts : List Packet)
  deriving DecidableEq, Repr

namespace Deed

/-- The packets that are queued for the peer. -/
def posts : Deed → List Packet
  | given _ _ posts | moved _ _ posts | ended _ _ _ posts => posts

/-- The number of the operation that does it. -/
def number? : Deed → Option Nat
  | given _ _ _ => none
  | moved number _ _ | ended number _ _ _ => some number

/-- Whether it is a request with an operation id. -/
def requests (id : UInt8) : Deed → Bool
  | given p _ _ => p.opens && p.operation == id
  | _ => false

/-- Whether an operation is started by it. -/
def begins : Deed → Bool
  | given _ begins _ => begins
  | _ => false

/-- Whether an operation with an id ends with it that was ended by the peer. -/
def withdraws (id : UInt8) : Deed → Bool
  | ended _ id' .aborted _ => id' == id
  | _ => false

end Deed

/-- The requests with an operation id. -/
def requests (deeds : List Deed) (id : UInt8) : Nat := deeds.countP (·.requests id)

/-- The operations that were started. -/
def begun (deeds : List Deed) : Nat := deeds.countP (·.begins)

/-- The operations with an id that were ended by the peer. -/
def withdrawn (deeds : List Deed) (id : UInt8) : Nat := deeds.countP (·.withdraws id)

/-- The last words that were said under an id. -/
def answers (deeds : List Deed) (id : UInt8) : Nat :=
  Packet.terminals ((deeds.flatMap (·.posts)).filter (·.operation == id))

/-- The last words that the operation with a number said. -/
def words (deeds : List Deed) (number : Nat) : Nat :=
  Packet.terminals ((deeds.filter (·.number? == some number)).flatMap (·.posts))

/-- What may have happened since a switchboard was empty, and what has become of it. The scene of each
deed is one that reaches the peer; besides that it is whatever it is by then. -/
inductive Ledger (service : Service) : List Deed → Switchboard → Prop
  | start : Ledger service [] {}
  | dispatch {deeds : List Deed} {b b' : Switchboard} {s s' : Scene} {p : Packet} {flow : Flow}
      (hledger : Ledger service deeds b) (hs : s.reachesPeer = true) (hp : p.request ≠ .suspend)
      (h : b.dispatch p s = (flow, b', s')) :
      Ledger service (deeds ++ [.given p (b'.started != b.started) (s.queued s')]) b'
  | move {deeds : List Deed} {b : Switchboard} {s s' : Scene} {id : UInt8} {e : Entry} {op : Operation}
      (hledger : Ledger service deeds b) (hs : s.reachesPeer = true)
      (hfind : b.entries.find? id = some e) (h : e.operation.step service s = .running op s') :
      Ledger service (deeds ++ [.moved e.number id (s.queued s')]) (b.store id (some op))
  | finish {deeds : List Deed} {b : Switchboard} {s s' : Scene} {id : UInt8} {e : Entry}
      {outcome : Outcome} (hledger : Ledger service deeds b) (hs : s.reachesPeer = true)
      (hfind : b.entries.find? id = some e) (h : e.operation.step service s = .ended outcome s') :
      Ledger service (deeds ++ [.ended e.number id outcome (s.queued s')]) (b.store id none)

/-- What has happened, and the switchboard and the scene that it led to. -/
structure Account where
  deeds : List Deed := []
  board : Switchboard := {}
  scene : Scene

namespace Account

/-- Dispatches a packet. -/
def give (a : Account) (p : Packet) : Account :=
  let (_, board, scene) := a.board.dispatch p a.scene
  { deeds := a.deeds ++ [.given p (board.started != a.board.started) (a.scene.queued scene)], board, scene }

/-- Takes a step of the operation with an id, if it can take one. -/
def walk (service : Service) (a : Account) (id : UInt8) : Account :=
  match a.board.entries.find? id with
  | none => a
  | some e =>
      match e.operation.step service a.scene with
      | .waiting => a
      | .running op scene =>
          { deeds := a.deeds ++ [.moved e.number id (a.scene.queued scene)]
            board := a.board.store id (some op), scene }
      | .ended outcome scene =>
          { deeds := a.deeds ++ [.ended e.number id outcome (a.scene.queued scene)]
            board := a.board.store id none, scene }

/-- Dispatches packets and takes steps in a given order. -/
def play (service : Service) (a : Account) : List (Packet ⊕ UInt8) → Account
  | [] => a
  | .inl p :: rest => (a.give p).play service rest
  | .inr id :: rest => (a.walk service id).play service rest

end Account

/-! ### Sums -/

section

variable (deeds : List Deed) (d : Deed) (id : UInt8) (number : Nat)

/-- One more deed is one more request if it is one. -/
theorem requests_append : requests (deeds ++ [d]) id = requests deeds id + if d.requests id then 1 else 0 := by
  rw [requests, List.countP_append, List.countP_singleton]
  rfl

/-- The last words of one operation are said under its id. -/
theorem terminals_filter {posts : List Packet} {id : UInt8} (h : ∀ p ∈ posts, p.operation = id)
    (other : UInt8) : Packet.terminals (posts.filter (·.operation == other)) =
      if id = other then Packet.terminals posts else 0 := by
  -- All of the posts have that id, so all of them pass or none does.
  split
  · next hid =>
    have hall : posts.filter (·.operation == other) = posts := by
      rw [List.filter_eq_self]
      intro p hp
      rw [h p hp, hid]
      exact BEq.rfl
    rw [hall]
  · next hid =>
    have hnone : posts.filter (·.operation == other) = [] := by
      rw [List.filter_eq_nil_iff]
      intro p hp
      rw [h p hp, beq_iff_eq]
      exact hid
    rw [hnone]
    rfl

/-- One more deed is one more beginning if it is one. -/
theorem begun_append : begun (deeds ++ [d]) = begun deeds + if d.begins then 1 else 0 := by
  rw [begun, List.countP_append, List.countP_singleton]
  rfl

/-- One more deed is one more withdrawal if it is one. -/
theorem withdrawn_append :
    withdrawn (deeds ++ [d]) id = withdrawn deeds id + if d.withdraws id then 1 else 0 := by
  rw [withdrawn, List.countP_append, List.countP_singleton]
  rfl

/-- One more deed adds the last words that it says under the id. -/
theorem answers_append :
    answers (deeds ++ [d]) id =
      answers deeds id + Packet.terminals (d.posts.filter (·.operation == id)) := by
  simp only [answers, List.flatMap_append, List.flatMap_singleton, List.filter_append,
    Packet.terminals_append]

/-- One more deed adds its last words to those of the operation that did it. -/
theorem words_append :
    words (deeds ++ [d]) number =
      words deeds number + if d.number? = some number then Packet.terminals d.posts else 0 := by
  simp only [words, List.filter_append, List.flatMap_append, Packet.terminals_append]
  congr 1
  by_cases h : d.number? = some number
  · rw [List.filter_cons_of_pos (by simpa using h), if_pos h, List.filter_nil, List.flatMap_singleton]
  · rw [List.filter_cons_of_neg (by simpa using h), if_neg h]
    rfl

end

/-! ### The books -/

/-- Whether an error of the peer was dispatched to the operation with a number and an id after it was
started and before it was over. -/
def Revoked (deeds : List Deed) (number : Nat) (id : UInt8) : Prop :=
  ∃ before p after, deeds = before ++ .given p false [] :: after ∧ p.request = .error ∧
    p.operation = id ∧ number < begun before ∧ ∀ outcome posts, .ended number id outcome posts ∉ before

/-- What is known of an operation that is running. -/
structure Running (deeds : List Deed) (id : UInt8) (e : Entry) : Prop where
  named : e.operation.id = id
  receptive : Operation.Receptive e.operation.inbox
  /-- It was started. -/
  begun : e.number < begun deeds
  asked : 0 < requests deeds id
  /-- It has not said a last word. -/
  silent : words deeds e.number = 0
  unended : ∀ id' outcome posts, .ended e.number id' outcome posts ∉ deeds
  /-- What ends it is an error of the peer that was dispatched to it. -/
  revoked : ∀ p ∈ e.operation.inbox.waiting, p.request.endsOperation = true → Revoked deeds e.number id

/-- What is known of everything that has happened. -/
structure Booked (deeds : List Deed) (b : Switchboard) : Prop where
  started : b.started = begun deeds
  running : ∀ id e, b.entries.find? id = some e → Running deeds id e
  distinct : ∀ id e id' e', b.entries.find? id = some e → b.entries.find? id' = some e' →
    e.number = e'.number → id = id'
  numbered : ∀ d ∈ deeds, ∀ number, d.number? = some number → number < begun deeds
  balance : ∀ id, requests deeds id = answers deeds id + withdrawn deeds id +
    if (b.entries.find? id).isSome then 1 else 0
  settled : ∀ number id outcome posts, .ended number id outcome posts ∈ deeds →
    words deeds number = (if outcome = .aborted then 0 else 1) ∧
      (outcome = .aborted → Revoked deeds number id)
  asked : ∀ d ∈ deeds, ∀ p ∈ d.posts, 0 < requests deeds p.operation

section

variable {deeds : List Deed} {d : Deed} {b b' : Switchboard} {id : UInt8} {e : Entry} {number : Nat}
  {p : Packet} {posts : List Packet}

/-- Only an operation that was broken off withdraws, and only the request under its own id. -/
theorem withdraws_ended (number : Nat) (id other : UInt8) (outcome : Outcome) (posts : List Packet) :
    (Deed.ended number id outcome posts).withdraws other =
      (decide (outcome = .aborted) && id == other) := by
  cases outcome <;> rfl

/-- A revocation that came stays one, whatever is done later. -/
theorem Revoked.append (h : Revoked deeds number id) (d : Deed) : Revoked (deeds ++ [d]) number id := by
  obtain ⟨before, p, after, rfl, hp⟩ := h
  exact ⟨before, p, after ++ [d], by rw [List.append_assoc, List.cons_append], hp⟩

/-- What others do is nothing to an operation. -/
theorem Running.append (h : Running deeds id e) (hd : d.number? ≠ some e.number) :
    Running (deeds ++ [d]) id e where
  -- The deed is one of somebody else, so it cannot be a last word or an end of this operation.
  named := h.named
  receptive := h.receptive
  begun := by
    have := h.begun
    rw [begun_append]
    omega
  asked := by
    have := h.asked
    rw [requests_append]
    omega
  silent := by rw [words_append, h.silent, if_neg hd]
  unended := fun id' outcome posts hmem => by
    rcases List.mem_append.mp hmem with hmem | hmem
    · exact h.unended id' outcome posts hmem
    · cases List.mem_singleton.mp hmem
      exact hd rfl
  revoked := fun q hq hends => (h.revoked q hq hends).append d

/-- What is given to the switchboard is a deed of no operation. -/
theorem Running.given (h : Running deeds id e) (p : Packet) (begins : Bool) (posts : List Packet) :
    Running (deeds ++ [.given p begins posts]) id e :=
  h.append fun hnumber => by cases hnumber

/-- At the beginning there is nothing to account for. -/
theorem booked_empty : Booked [] {} where
  started := rfl
  running := fun _ _ h => by cases h
  distinct := fun _ _ _ _ h => by cases h
  numbered := List.forall_mem_nil _
  balance := fun _ => rfl
  settled := fun _ _ _ _ h => by cases h
  asked := List.forall_mem_nil _

/-- One more deed. If it is that of an operation, the operation was running. -/
private theorem Booked.append (h : Booked deeds b) (hstarted : b'.started = begun (deeds ++ [d]))
    (hrunning : ∀ id e, b'.entries.find? id = some e → Running (deeds ++ [d]) id e)
    (hdistinct : ∀ id e id' e', b'.entries.find? id = some e → b'.entries.find? id' = some e' →
      e.number = e'.number → id = id')
    (hactor : ∀ number, d.number? = some number → ∃ id e, b.entries.find? id = some e ∧ e.number = number)
    (hbalance : ∀ id, requests (deeds ++ [d]) id = answers (deeds ++ [d]) id +
      withdrawn (deeds ++ [d]) id + if (b'.entries.find? id).isSome then 1 else 0)
    (hsettled : ∀ number id outcome posts, d = .ended number id outcome posts →
      words (deeds ++ [d]) number = (if outcome = .aborted then 0 else 1) ∧
        (outcome = .aborted → Revoked (deeds ++ [d]) number id))
    (hasked : ∀ p ∈ d.posts, 0 < requests (deeds ++ [d]) p.operation) : Booked (deeds ++ [d]) b' where
  started := hstarted
  running := hrunning
  distinct := hdistinct
  numbered := fun d' hd' number hnumber => by
    rw [begun_append]
    rcases List.mem_append.mp hd' with hd' | hd'
    · have := h.numbered d' hd' number hnumber
      omega
    · cases List.mem_singleton.mp hd'
      obtain ⟨id, e, hfind, rfl⟩ := hactor number hnumber
      have := (h.running id e hfind).begun
      omega
  balance := hbalance
  settled := fun number id outcome posts hmem => by
    rcases List.mem_append.mp hmem with hmem | hmem
    · obtain ⟨hwords, hrevoked⟩ := h.settled number id outcome posts hmem
      refine ⟨?_, fun haborted => (hrevoked haborted).append d⟩
      -- Who is over does nothing more.
      have hnot : d.number? ≠ some number := by
        intro hnumber
        obtain ⟨id', e, hfind, rfl⟩ := hactor number hnumber
        exact (h.running id' e hfind).unended id outcome posts hmem
      rw [words_append, hwords, if_neg hnot, Nat.add_zero]
    · exact hsettled number id outcome posts (List.mem_singleton.mp hmem).symm
  asked := fun d' hd' q hq => by
    rcases List.mem_append.mp hd' with hd' | hd'
    · have := h.asked d' hd' q hq
      rw [requests_append]
      omega
    · cases List.mem_singleton.mp hd'
      exact hasked q hq

/-- The numbers of the operations tell them apart as long as no new one comes. -/
private theorem Booked.distinct_of (h : Booked deeds b)
    (hold : ∀ id e, b'.entries.find? id = some e →
      ∃ e₀, b.entries.find? id = some e₀ ∧ e₀.number = e.number) :
    ∀ id e id' e', b'.entries.find? id = some e → b'.entries.find? id' = some e' →
      e.number = e'.number → id = id' := by
  intro id e id' e' hfind hfind' hnumber
  obtain ⟨e₀, hfind₀, hsame⟩ := hold id e hfind
  obtain ⟨e₀', hfind₀', hsame'⟩ := hold id' e' hfind'
  exact h.distinct id e₀ id' e₀' hfind₀ hfind₀' (by omega)

/-- A deed that begins nothing leaves the number of beginnings. -/
private theorem begun_of_not_begins (hd : d.begins = false) : begun (deeds ++ [d]) = begun deeds := by
  rw [begun_append, hd]
  rfl

/-- A packet that is no request changes no sum. -/
private theorem Booked.balance_quiet (h : Booked deeds b) (hp : p.opens = false)
    (hsome : ∀ id, (b'.entries.find? id).isSome = (b.entries.find? id).isSome) (id : UInt8) :
    requests (deeds ++ [.given p false []]) id = answers (deeds ++ [.given p false []]) id +
      withdrawn (deeds ++ [.given p false []]) id + if (b'.entries.find? id).isSome then 1 else 0 := by
  rw [requests_append, answers_append, withdrawn_append, hsome]
  simp only [Deed.requests, hp, Bool.false_and]
  exact h.balance id

/-- A request counts for the id that it names. -/
private theorem requests_given (hp : p.opens = true) (begins : Bool) (posts : List Packet) (id : UInt8) :
    requests (deeds ++ [.given p begins posts]) id =
      requests deeds id + if p.operation = id then 1 else 0 := by
  rw [requests_append]
  simp only [Deed.requests, hp, Bool.true_and, beq_iff_eq]

/-- A packet that comes to nothing. -/
theorem Booked.ignore (h : Booked deeds b) (hp : p.opens = false) :
    Booked (deeds ++ [.given p false []]) b :=
  h.append (h.started.trans (begun_of_not_begins rfl).symm)
    (fun id e hfind => (h.running id e hfind).given p false []) h.distinct
    (fun _ hnumber => by cases hnumber) (h.balance_quiet hp fun _ => rfl)
    (fun _ _ _ _ hd => by cases hd) (List.forall_mem_nil _)

/-- A block or an error is put into the inbox of the operation that it names. -/
theorem Booked.forward (h : Booked deeds b) (hp : p.request = .file ∨ p.request = .error) :
    Booked (deeds ++ [.given p false []]) (b.forward p) := by
  have hopens : p.opens = false := by
    rcases hp with hp | hp <;> simp only [Packet.opens, hp] <;> rfl
  -- An entry is as it was, or it is the one that the packet names.
  have hold (id : UInt8) (e : Entry) (hfind : (b.forward p).entries.find? id = some e) :
      ∃ e₀, b.entries.find? id = some e₀ ∧ (e = e₀ ∨ id = p.operation ∧ e = e₀.put p) := by
    rw [Switchboard.forward, Roster.find?_amend] at hfind
    split at hfind
    · next hid =>
      obtain ⟨e₀, hfind₀, rfl⟩ := Option.map_eq_some_iff.mp hfind
      exact ⟨e₀, hfind₀, .inr ⟨hid, rfl⟩⟩
    · exact ⟨e, hfind, .inl rfl⟩
  refine h.append (h.started.trans (begun_of_not_begins rfl).symm) (fun id e hfind => ?_) ?_
    (fun _ hnumber => by cases hnumber) (h.balance_quiet hopens fun id => ?_)
    (fun _ _ _ _ hd => by cases hd) (List.forall_mem_nil _)
  · obtain ⟨e₀, hfind₀, rfl | ⟨rfl, rfl⟩⟩ := hold id e hfind
    · exact (h.running id _ hfind₀).given p false []
    · have hrunning := h.running _ e₀ hfind₀
      have hlater := hrunning.given p false []
      obtain ⟨hreceiver, hsenders⟩ := Queue.ends_push e₀.operation.inbox p
      refine ⟨hlater.named, ⟨hreceiver.trans hrunning.receptive.1, fun hnone => ?_⟩, hlater.begun,
        hlater.asked, hlater.silent, hlater.unended, fun q hq hends => ?_⟩
      · exact hrunning.receptive.2 (hsenders.symm.trans hnone)
      · rcases Queue.mem_waiting_push hq with hq | rfl
        · exact hlater.revoked q hq hends
        · -- A block does not end an operation, so it is an error that came.
          have herror : q.request = .error := by
            rcases hp with hfile | herror
            · rw [hfile] at hends
              cases hends
            · exact herror
          exact ⟨deeds, q, [], rfl, herror, rfl, hrunning.begun, hrunning.unended _⟩
  · refine h.distinct_of fun id e hfind => ?_
    obtain ⟨e₀, hfind₀, rfl | ⟨-, rfl⟩⟩ := hold id e hfind
    · exact ⟨_, hfind₀, rfl⟩
    · exact ⟨e₀, hfind₀, rfl⟩
  · rw [Switchboard.forward, Roster.find?_amend]
    split
    · rw [Option.isSome_map]
    · rfl

/-- A request under the id of a running operation is answered at once. -/
theorem Booked.refuse {kind : OperationKind} (h : Booked deeds b) (hp : p.opens = true) :
    Booked (deeds ++ [.given p false [.error kind.request .invalidPacket p.operation]]) b := by
  refine h.append (h.started.trans (begun_of_not_begins rfl).symm)
    (fun id e hfind => (h.running id e hfind).given p false _) h.distinct
    (fun _ hnumber => by cases hnumber) (fun id => ?_) (fun _ _ _ _ hd => by cases hd) fun q hq => ?_
  · -- One more request, and one more last word.
    have hbalance := h.balance id
    have hword : Packet.terminals ((Deed.posts (.given p false
        [.error kind.request .invalidPacket p.operation])).filter (·.operation == id)) =
        if p.operation = id then 1 else 0 := by
      refine terminals_filter (fun q hq => ?_) id
      rw [List.mem_singleton.mp hq]
      rfl
    rw [requests_given hp, answers_append, withdrawn_append, hword]
    simp only [Deed.withdraws, Bool.false_eq_true, ↓reduceIte]
    omega
  · have hsame : q.operation = p.operation := by
      rw [List.mem_singleton.mp hq]
      rfl
    rw [hsame, requests_given hp, if_pos rfl]
    omega

/-- Nothing is said by an operation without deeds. -/
theorem words_eq_zero (h : ∀ d ∈ deeds, d.number? ≠ some number) : words deeds number = 0 := by
  have hnone : deeds.filter (·.number? == some number) = [] := by
    rw [List.filter_eq_nil_iff]
    intro d hd
    simpa using h d hd
  rw [words, hnone]
  rfl

/-- Numbers are given out in ascending order. -/
theorem Booked.number_lt (h : Booked deeds b) (hfind : b.entries.find? id = some e) :
    e.number < b.started := by
  have hbegun := (h.running id e hfind).begun
  rwa [h.started]

/-- An operation that was just started has done nothing yet. Nobody before it had its number. -/
private theorem Booked.running_opened {kind : OperationKind} (h : Booked deeds b)
    (hp : OperationKind.ofRequest? p.request = some kind) :
    Running (deeds ++ [.given p true []]) p.operation (.opened b.started kind p) := by
  have hopens : p.opens = true := by
    rw [Packet.opens, hp]
    rfl
  have hends : p.request.endsOperation = false := by
    cases hrequest : p.request <;> rw [hrequest] at hp <;> cases hp <;> rfl
  -- Operations are numbered as they begin, so every number in the list is smaller.
  have hnew : ∀ d ∈ deeds ++ [.given p true []], d.number? ≠ some b.started := by
    intro d hd hnumber
    rcases List.mem_append.mp hd with hd | hd
    · have := h.numbered d hd b.started hnumber
      have := h.started
      omega
    · cases List.mem_singleton.mp hd
      cases hnumber
  refine ⟨rfl, ⟨rfl, Nat.one_ne_zero⟩, ?_, ?_, words_eq_zero hnew, fun _ _ _ hmem => hnew _ hmem rfl,
    fun q hq hq' => ?_⟩
  · rw [begun_append, ← h.started]
    exact Nat.lt_succ_self b.started
  · rw [requests_given hopens, if_pos rfl]
    exact Nat.succ_pos _
  · -- Only the request itself is there, and that ends nothing.
    cases List.mem_singleton.mp (show q ∈ [p] from hq)
    rw [hends] at hq'
    cases hq'

/-- A request under a free id starts an operation. Its number is new. -/
theorem Booked.enroll {kind : OperationKind} {entries : Roster Entry} (h : Booked deeds b)
    (hp : OperationKind.ofRequest? p.request = some kind) (hid : b.entries.find? p.operation = none)
    (henroll : b.entries.enroll? p.operation (.opened b.started kind p) = some entries) :
    Booked (deeds ++ [.given p true []]) { b with entries, started := b.started + 1 } := by
  have hopens : p.opens = true := by rw [Packet.opens, hp]; rfl
  have hbegun : begun (deeds ++ [.given p true []]) = begun deeds + 1 := begun_append deeds _
  -- The new operation has the id of the request, and nobody else has it.
  have hold (id : UInt8) (e : Entry) (hfind : entries.find? id = some e) :
      id = p.operation ∧ e = .opened b.started kind p ∨
        id ≠ p.operation ∧ b.entries.find? id = some e := by
    rw [Roster.find?_enroll? henroll] at hfind
    split at hfind
    · next hsame =>
      cases hfind
      exact .inl ⟨hsame, rfl⟩
    · next hother => exact .inr ⟨hother, hfind⟩
  refine h.append (congrArg (· + 1) h.started |>.trans hbegun.symm) (fun id e hfind => ?_) ?_
    (fun _ hnumber => by cases hnumber) (fun id => ?_) (fun _ _ _ _ hd => by cases hd)
    (List.forall_mem_nil _)
  · rcases hold id e hfind with ⟨rfl, rfl⟩ | ⟨-, hfind₀⟩
    · exact h.running_opened hp
    · exact (h.running id e hfind₀).given p true []
  · -- The number of the new operation is above all others.
    intro id e id' e' hfind hfind' hnumber
    rcases hold id e hfind with ⟨rfl, rfl⟩ | ⟨-, hfind₀⟩
    · rcases hold id' e' hfind' with ⟨rfl, -⟩ | ⟨-, hfind₀'⟩
      · rfl
      · exact absurd (h.number_lt hfind₀') (Nat.not_lt.mpr (Nat.le_of_eq hnumber))
    · rcases hold id' e' hfind' with ⟨-, rfl⟩ | ⟨-, hfind₀'⟩
      · exact absurd (h.number_lt hfind₀) (Nat.not_lt.mpr (Nat.le_of_eq hnumber.symm))
      · exact h.distinct id e id' e' hfind₀ hfind₀' hnumber
  · -- One more request, and one more operation that is running.
    have hbalance := h.balance id
    have hquiet : answers (deeds ++ [.given p true []]) id = answers deeds id := answers_append _ _ _
    have hsame : withdrawn (deeds ++ [.given p true []]) id = withdrawn deeds id := withdrawn_append _ _ _
    rw [requests_given hopens, hquiet, hsame, Roster.find?_enroll? henroll]
    by_cases hpid : id = p.operation
    · subst hpid
      rw [hid] at hbalance
      simp only [↓reduceIte, Option.isSome_some, Option.isSome_none, Bool.false_eq_true] at hbalance ⊢
      omega
    · rw [if_neg hpid, if_neg (Ne.symm hpid)]
      omega

section

variable {service : Service} {s s' : Scene} {op : Operation} {outcome : Outcome}

/-- Whoever is asked for something goes on to be. -/
private theorem Running.asked_of_posts (h : Running deeds id e) (d : Deed)
    (hposts : ∀ p ∈ posts, p.operation = e.operation.id) :
    ∀ p ∈ posts, 0 < requests (deeds ++ [d]) p.operation := by
  intro p hp
  have := h.asked
  rw [hposts p hp, h.named, requests_append]
  omega

/-- An operation goes on, and says no last word. -/
theorem Booked.move (h : Booked deeds b) (hs : s.reachesPeer = true)
    (hfind : b.entries.find? id = some e) (hstep : e.operation.step service s = .running op s') :
    Booked (deeds ++ [.moved e.number id (s.queued s')]) (b.store id (some op)) := by
  have hrunning := h.running id e hfind
  obtain ⟨⟨posts, hsaid, hzero⟩, hreceptive, hwaiting⟩ :=
    Operation.step_running_answers hrunning.receptive hs hstep
  rw [hsaid.posted.queued_eq hs]
  -- What it says is no last word, so no sum changes.
  have hwords (number : Nat) : words (deeds ++ [.moved e.number id posts]) number = words deeds number := by
    rw [words_append]
    split
    · exact congrArg (words deeds number + ·) hzero
    · rfl
  refine h.append (h.started.trans (begun_of_not_begins rfl).symm) (fun id' e' hfind' => ?_) ?_
    (fun number hnumber => ⟨id, e, hfind, Option.some.inj hnumber⟩) (fun id' => ?_)
    (fun _ _ _ _ hd => by cases hd) (hrunning.asked_of_posts _ hsaid.operation)
  · rcases find?_store_some hfind hfind' with ⟨rfl, rfl⟩ | ⟨hid, hfind₀⟩
    · refine ⟨(Operation.step_running_same hstep).1.trans hrunning.named, hreceptive, ?_, ?_,
        (hwords _).trans hrunning.silent, fun _ _ _ hmem => ?_, fun q hq hends => ?_⟩
      · rw [begun_append]
        exact Nat.lt_add_right _ hrunning.begun
      · rw [requests_append]
        exact Nat.lt_add_right _ hrunning.asked
      · rcases List.mem_append.mp hmem with hmem | hmem
        · exact hrunning.unended _ _ _ hmem
        · cases List.mem_singleton.mp hmem
      · exact (hrunning.revoked q (hwaiting q hq) hends).append _
    · refine (h.running id' e' hfind₀).append fun hnumber => hid ?_
      exact h.distinct id' e' id e hfind₀ hfind (Option.some.inj hnumber).symm
  · refine h.distinct_of fun id' e' hfind' => ?_
    rcases find?_store_some hfind hfind' with ⟨rfl, rfl⟩ | ⟨-, hfind₀⟩
    · exact ⟨e, hfind, rfl⟩
    · exact ⟨e', hfind₀, rfl⟩
  · have hquiet : Packet.terminals (posts.filter (·.operation == id')) = 0 := by
      rw [terminals_filter hsaid.operation, hzero, ite_self]
    have hsome : ((b.store id (some op)).entries.find? id').isSome = (b.entries.find? id').isSome := by
      rw [store, Roster.find?_amend]
      split
      · rw [Option.isSome_map]
      · rfl
    rw [requests_append, answers_append, withdrawn_append, hsome]
    simp only [Deed.posts, hquiet]
    exact h.balance id'

/-- An operation is over. It has said its last word, or it was ended by the peer. -/
theorem Booked.finish (h : Booked deeds b) (hs : s.reachesPeer = true)
    (hfind : b.entries.find? id = some e) (hstep : e.operation.step service s = .ended outcome s') :
    Booked (deeds ++ [.ended e.number id outcome (s.queued s')]) (b.store id none) := by
  have hrunning := h.running id e hfind
  obtain ⟨posts, hsaid, hcount, hdoomed⟩ := Operation.step_ended_answers hrunning.receptive hs hstep
  rw [hsaid.posted.queued_eq hs]
  refine h.append (h.started.trans (begun_of_not_begins rfl).symm) (fun id' e' hfind' => ?_)
    (h.distinct_of fun id' e' hfind' => ⟨e', (find?_store_none hfind').2, rfl⟩)
    (fun number hnumber => ⟨id, e, hfind, Option.some.inj hnumber⟩) (fun id' => ?_)
    (fun number id' outcome' posts' hd => ?_) (hrunning.asked_of_posts _ hsaid.operation)
  · obtain ⟨hid, hfind₀⟩ := find?_store_none hfind'
    refine (h.running id' e' hfind₀).append fun hnumber => hid ?_
    exact h.distinct id' e' id e hfind₀ hfind (Option.some.inj hnumber).symm
  · -- What was running is now answered or withdrawn.
    have hbalance := h.balance id'
    have hword : Packet.terminals (posts.filter (·.operation == id')) =
        if id = id' then Packet.terminals posts else 0 := by
      rw [terminals_filter hsaid.operation, hrunning.named]
    have hrequests : requests (deeds ++ [.ended e.number id outcome posts]) id' = requests deeds id' :=
      requests_append _ _ _
    rw [hrequests, answers_append, withdrawn_append, store, Roster.find?_dismiss]
    simp only [Deed.posts, hword, hcount, withdraws_ended, Bool.and_eq_true, decide_eq_true_eq, beq_iff_eq]
    by_cases hid : id' = id
    · subst hid
      rw [hfind] at hbalance
      by_cases haborted : outcome = .aborted
      · simp only [haborted, true_and, ↓reduceIte, Option.isSome_some, Option.isSome_none,
          Bool.false_eq_true] at hbalance ⊢
        omega
      · simp only [haborted, false_and, ↓reduceIte, Option.isSome_some, Option.isSome_none,
          Bool.false_eq_true] at hbalance ⊢
        omega
    · rw [if_neg (Ne.symm hid), if_neg fun hboth => hid hboth.2.symm, if_neg hid]
      exact hbalance
  · cases hd
    rw [words_append, hrunning.silent]
    simp only [Deed.number?, Deed.posts, ↓reduceIte, Nat.zero_add]
    refine ⟨hcount, fun haborted => ?_⟩
    -- What ended it was in its inbox, so it was dispatched before.
    obtain ⟨q, hq, hends⟩ := hdoomed haborted
    exact (hrunning.revoked q hq hends).append _

end

end

/-! ### Keeping the books -/

section

variable {service : Service} {deeds : List Deed} {b : Switchboard} {s : Scene} {p : Packet}

/-- A request under the id of a running operation is refused, and any other one starts an operation. -/
theorem dispatch_opening {kind : OperationKind} (hb : b.Sound)
    (hp : OperationKind.ofRequest? p.request = some kind) (hs : s.reachesPeer = true) :
    (p.operation ∈ b.activeIds → ∃ s', b.dispatch p s = (.go, b, s') ∧
        s.queued s' = [.error kind.request .invalidPacket p.operation]) ∧
      (p.operation ∉ b.activeIds → ∃ entries,
        b.entries.enroll? p.operation (.opened b.started kind p) = some entries ∧
        b.dispatch p s = (.go, { b with entries, started := b.started + 1 }, s)) := by
  rw [dispatch_of_request hp]
  -- The table decides: an id that is in it is taken.
  constructor
  · intro hactive
    rw [start_of_taken hb hactive]
    refine ⟨_, rfl, ?_⟩
    have hposted : (s.count (.errors .operationInUse)).Posted
        [.error kind.request .invalidPacket p.operation] _ := .postAll _ _
    exact hposted.queued_eq hs
  · intro hfree
    obtain ⟨entries, henroll, hstart⟩ := start_of_free hfree kind s
    exact ⟨entries, henroll, by rw [hstart]⟩

/-- A switchboard that came about by a list of deeds has an operation for every entry of its table. -/
theorem sound_ledger (h : Ledger service deeds b) : b.Sound := by
  -- By induction on the list. A step of an operation is one that `advance?` takes.
  induction h with
  | start => exact sound_empty
  | dispatch _ _ hp h ih =>
    obtain ⟨_, _, hdispatch, -, -, hsound⟩ := dispatch_other hp _ _
    rw [hdispatch] at h
    cases h
    exact hsound ih
  | @move _ b s s' id _ op _ _ hfind h ih =>
    have hadvance : b.advance? service id s = some (b.store id (some op), s') := by
      simp only [advance?, hfind, h]
    exact (advance?_onward ih hadvance).sound
  | @finish _ b s s' id _ _ _ _ hfind h ih =>
    have hadvance : b.advance? service id s = some (b.store id none, s') := by
      simp only [advance?, hfind, h]
    exact (advance?_onward ih hadvance).sound

/-- The books are right at the end of every list of deeds. -/
theorem booked_ledger (h : Ledger service deeds b) : Booked deeds b := by
  induction h with
  | start => exact booked_empty
  | @dispatch deeds b b' s s' p flow hledger hs hp h ih =>
    cases hkind : OperationKind.ofRequest? p.request with
    | none =>
      -- What is no request is forwarded or dropped.
      have hopens : p.opens = false := by rw [Packet.opens, hkind]; rfl
      rcases dispatch_cases h with ⟨hsuspend, -⟩ | ⟨hrequest, -, rfl, rfl⟩ | ⟨kind, hsome, -⟩ |
        ⟨-, -, -, rfl, rfl⟩
      · exact absurd hsuspend hp
      · rw [(Scene.Posted.refl _).queued_eq hs]
        have hquiet : ((b.forward p).started != b.started) = false := bne_self_eq_false _
        rw [hquiet]
        exact ih.forward hrequest
      · rw [hkind] at hsome
        cases hsome
      · rw [(Scene.Posted.refl _).queued_eq hs, bne_self_eq_false]
        exact ih.ignore hopens
    | some kind =>
      -- A request is refused, or it starts an operation.
      have hopens : p.opens = true := by rw [Packet.opens, hkind]; rfl
      obtain ⟨hrefused, hstarted⟩ := dispatch_opening (sound_ledger hledger) hkind hs
      by_cases hactive : p.operation ∈ b.activeIds
      · obtain ⟨s₁, hdispatch, hqueued⟩ := hrefused hactive
        rw [hdispatch] at h
        cases h
        rw [hqueued, bne_self_eq_false]
        exact ih.refuse hopens
      · obtain ⟨entries, henroll, hdispatch⟩ := hstarted hactive
        rw [hdispatch] at h
        cases h
        rw [(Scene.Posted.refl _).queued_eq hs]
        have hbegins : (b.started + 1 != b.started) = true := by simp
        rw [hbegins]
        exact ih.enroll hkind (Roster.find?_of_enroll? (sound_ledger hledger).ascending henroll) henroll
  | move _ hs hfind h ih => exact ih.move hs hfind h
  | finish _ hs hfind h ih => exact ih.finish hs hfind h

/-- Whatever is dispatched, and whichever operations take steps in between, it can be listed. -/
theorem ledger_play {a : Account} (h : Ledger service a.deeds a.board) (hs : a.scene.reachesPeer = true)
    (order : List (Packet ⊕ UInt8)) (horder : ∀ p, .inl p ∈ order → p.request ≠ .suspend) :
    Ledger service (a.play service order).deeds (a.play service order).board := by
  -- By induction on the order, from every account that can be listed.
  induction order generalizing a with
  | nil => exact h
  | cons first rest ih =>
    have hrest : ∀ p, .inl p ∈ rest → p.request ≠ .suspend :=
      fun p hp => horder p (List.mem_cons_of_mem first hp)
    cases first with
    | inl p =>
      have hp := horder p List.mem_cons_self
      obtain ⟨b', s', hdispatch, hreplied, -⟩ := dispatch_other hp a.board a.scene
      have hgive : a.give p =
          ⟨a.deeds ++ [.given p (b'.started != a.board.started) (a.scene.queued s')], b', s'⟩ := by
        simp only [Account.give, hdispatch]
      rw [Account.play, hgive]
      exact ih (.dispatch h hs hp hdispatch) (hreplied.reachesPeer.trans hs) hrest
    | inr id =>
      rw [Account.play]
      refine ih ?_ ?_ hrest
      · unfold Account.walk
        split
        · exact h
        · next e hfind =>
          split
          · exact h
          · next hstep => exact .move h hs hfind hstep
          · next hstep => exact .finish h hs hfind hstep
      · unfold Account.walk
        split
        · exact hs
        · next e hfind =>
          split
          · exact hs
          · next hstep => exact (Operation.step_running hstep).replied.reachesPeer.trans hs
          · next hstep => exact (Operation.step_ended hstep).reachesPeer.trans hs

/-- Every request is answered once. One that comes under the id of a running operation is refused at once,
and any other one starts an operation. At every time there are as many requests with an id as last words
and operations that an error of the peer ended, and one more if an operation is running. An operation that
is over has said one last word, or none if it was ended by an error that came for it while it was running.
Nothing is said under an id that no request had. -/
theorem answered_once (h : Ledger service deeds b) :
    (∀ p kind s, OperationKind.ofRequest? p.request = some kind → s.reachesPeer = true →
      (p.operation ∈ b.activeIds → ∃ s', b.dispatch p s = (.go, b, s') ∧
        s.queued s' = [.error p.request .invalidPacket p.operation]) ∧
      (p.operation ∉ b.activeIds → ∃ entries,
        b.dispatch p s = (.go, { b with entries, started := b.started + 1 }, s) ∧
        ∀ id, entries.find? id =
          if id = p.operation then some (.opened b.started kind p) else b.entries.find? id)) ∧
      (∀ id, answers deeds id ≤ requests deeds id ∧
        requests deeds id = answers deeds id + withdrawn deeds id + if id ∈ b.activeIds then 1 else 0) ∧
      (∀ number id outcome posts, .ended number id outcome posts ∈ deeds →
        words deeds number = (if outcome = .aborted then 0 else 1) ∧
        (outcome = .aborted → Revoked deeds number id)) ∧
      ∀ d ∈ deeds, ∀ q ∈ d.posts, ∃ p begins posts,
        .given p begins posts ∈ deeds ∧ p.opens = true ∧ p.operation = q.operation := by
  -- All four parts are read off the books.
  have hbooked := booked_ledger h
  refine ⟨fun p kind s hp hs => ?_, fun id => ?_, hbooked.settled, fun d hd q hq => ?_⟩
  · obtain ⟨hrefused, hstarted⟩ := dispatch_opening (sound_ledger h) hp hs
    rw [OperationKind.request_of_ofRequest? hp] at hrefused
    refine ⟨hrefused, fun hfree => ?_⟩
    obtain ⟨entries, henroll, hdispatch⟩ := hstarted hfree
    exact ⟨entries, hdispatch, Roster.find?_enroll? henroll⟩
  · have hbalance := hbooked.balance id
    have hactive : id ∈ b.activeIds ↔ (b.entries.find? id).isSome = true := by
      rw [Option.isSome_iff_exists]
      exact Roster.mem_ids_iff
    simp only [hactive]
    exact ⟨by omega, hbalance⟩
  · obtain ⟨d', hd', hrequest⟩ := List.countP_pos_iff.mp (hbooked.asked d hd q hq)
    cases d' with
    | given p begins posts =>
      simp only [Deed.requests, Bool.and_eq_true, beq_iff_eq] at hrequest
      exact ⟨p, begins, posts, hd', hrequest⟩
    | moved number id posts => cases hrequest
    | ended number id outcome posts => cases hrequest

end

/-- An id is used three times: for a download, for a request that is refused while the download is
running, and for an allocation that fails. An upload is ended by the peer, and another allocation goes
on. -/
theorem answered_once_under_one_id :
    let service : Service := { store := ⟨⟨["dlc"]⟩, ⟨["user"]⟩⟩, limits := ⟨2, 10⟩ }
    let scene : Scene :=
      { tree := ⟨[(["dlc"], .directory), (["dlc", "a"], .file { bytes := [1, 2, 3] })]⟩ }
    let request := ((Packet.new .fileRequest [7, 0, 0, 0, 1, 97]).withKind .dlc).withOperation 1
    let description := (Packet.new .fileInfo [2, 0, 0, 0, 7, 0, 0, 0, 1, 98]).withKind .dlc
    let info := (description.withOperation 2).withMore true
    let idRequest := fun id => (Packet.new .idRequest []).withOperation id
    let revocation := Packet.error .file .unknown 2
    let a := Account.play service { scene } [.inl request, .inr 1, .inr 1, .inl info, .inr 1,
      .inl request, .inr 2, .inr 1, .inl (idRequest 1), .inl (idRequest 3), .inl revocation, .inr 1,
      .inr 2, .inr 1]
    a.board.activeIds = [3] ∧ [1, 2, 3].map (requests a.deeds) = [3, 1, 1] ∧
      [1, 2, 3].map (answers a.deeds) = [3, 0, 0] ∧ [1, 2, 3].map (withdrawn a.deeds) = [0, 1, 0] ∧
      words a.deeds 0 = 1 ∧ words a.deeds 1 = 0 ∧ words a.deeds 2 = 1 ∧ Revoked a.deeds 1 2 := by
  intro service scene request description info idRequest revocation a
  have hledger : Ledger service a.deeds a.board := by
    refine ledger_play .start rfl _ fun p hp => ?_
    simp only [List.mem_cons, Sum.inl.injEq, reduceCtorEq, List.not_mem_nil, or_false, false_or] at hp
    rcases hp with rfl | rfl | rfl | rfl | rfl | rfl <;> decide
  obtain ⟨-, -, hsettled, -⟩ := answered_once hledger
  have hdownload : .ended 0 1 .ok [(Packet.new .file [3]).withSequence 2 |>.withKind .dlc
      |>.withOperation 1] ∈ a.deeds := by decide +kernel
  have hupload : .ended 1 2 .aborted [] ∈ a.deeds := by decide +kernel
  have hfailed : .ended 2 1 .error [.error .idRequest .noMoreId 1] ∈ a.deeds := by decide +kernel
  obtain ⟨hwithdrawn, hrevoked⟩ := hsettled 1 2 .aborted [] hupload
  exact ⟨by decide +kernel, by decide +kernel, by decide +kernel, by decide +kernel,
    (hsettled 0 1 .ok _ hdownload).1, hwithdrawn, (hsettled 2 1 .error _ hfailed).1, hrevoked rfl⟩

end Switchboard

end Depot
