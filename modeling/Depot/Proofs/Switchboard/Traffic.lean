import Depot.Proofs.Switchboard.Courses
import Depot.Proofs.Switchboard.Ledger

/-!
# The traffic on a switchboard

What has happened on a switchboard since it was empty is a list of `Traffic`: packets that were
dispatched, each with what came into the inboxes by it, steps by which operations took packets from their
inboxes, and operations that left. Operations are told apart by their numbers, for an id can be used
again. An operation may leave at any time, whether it is over or not.

A packet that is dispatched does one thing to all entries: it starts an operation, or it is put into the
inboxes of those that it reaches, which are the operation it names or, for a suspend, all of them.

## Key results

- `dispatch_routes`: what a packet does to the entry of every id
- `registered_dispatch`, `waitingFor_dispatch`: who is registered after it, and what waits in his inbox
- `arrivals_dispatch`: what a packet brings to an operation
-/

namespace Depot

/-- Whether a packet is for the operation with an id that is running. -/
def Packet.isFor (id : UInt8) (p : Packet) : Bool :=
  (p.request == .file || p.request == .error) && p.operation == id

/-- Whether a packet comes to the operation with an id that is running. -/
def Packet.reaches (id : UInt8) (p : Packet) : Bool := p.isFor id || p.request == .suspend

namespace Switchboard

/-! ### Histories -/

/-- What happens on a switchboard. -/
inductive Traffic
  /-- A packet is dispatched. It may start the operation with a number, and something may come into the
  inbox of every operation. -/
  | given (p : Packet) (starts : Option Nat) (arrivals : Nat → List Packet)
  /-- The operation with a number takes a step, and packets from its inbox. -/
  | took (number : Nat) (packets : List Packet)
  /-- The operation with a number is not registered any more. -/
  | left (number : Nat)

namespace Traffic

/-- The packet that is dispatched. -/
def packet? : Traffic → Option Packet
  | given p _ _ => some p
  | _ => none

/-- The number of the operation that is started. -/
def starts? : Traffic → Option Nat
  | given _ starts _ => starts
  | _ => none

/-- What comes into the inbox of the operation with a number. -/
def came (number : Nat) : Traffic → List Packet
  | given _ _ arrivals => arrivals number
  | _ => []

/-- What the operation with a number takes from its inbox. -/
def went (number : Nat) : Traffic → List Packet
  | took number' packets => if number' = number then packets else []
  | _ => []

/-- Whether the operation with a number leaves. -/
def ends (number : Nat) : Traffic → Bool
  | left number' => number' == number
  | _ => false

end Traffic

/-- The packets that were dispatched. -/
def dispatched (log : List Traffic) : List Packet := log.filterMap (·.packet?)

/-- What came into the inbox of the operation with a number. -/
def received (log : List Traffic) (number : Nat) : List Packet := log.flatMap (·.came number)

/-- What the operation with a number took from its inbox. -/
def taken (log : List Traffic) (number : Nat) : List Packet := log.flatMap (·.went number)

/-- What happened as long as the operation with a number was registered. -/
def stay (number : Nat) (log : List Traffic) : List Traffic := log.takeWhile fun d => !d.ends number

/-- The packets in the inbox of the operation with a number. Where there is no such operation there are
none. -/
def waitingFor (b : Switchboard) (number : Nat) : List Packet :=
  match b.entries.values.find? fun e => e.number == number with
  | some e => e.operation.inbox.waiting
  | none => []

/-- What stands in the inboxes behind that which was there before. -/
def arrivals (b b' : Switchboard) (number : Nat) : List Packet :=
  (b'.waitingFor number).drop (b.waitingFor number).length

/-- The number of the operation that was started. -/
def newcomer? (b b' : Switchboard) : Option Nat :=
  if b'.started = b.started then none else some b.started

/-- What may have happened since a switchboard was empty, and what has become of it. Every packet and
every step finds the scene in whatever state it is by then. -/
inductive Routing (service : Service) : List Traffic → Switchboard → Prop
  | start : Routing service [] {}
  | dispatch {log : List Traffic} {b b' : Switchboard} {s s' : Scene} {p : Packet} {flow : Flow}
      (hrouting : Routing service log b) (h : b.dispatch p s = (flow, b', s')) :
      Routing service (log ++ [.given p (b.newcomer? b') (b.arrivals b')]) b'
  | step {log : List Traffic} {b : Switchboard} {s s' : Scene} {id : UInt8} {e : Entry} {op : Operation}
      (hrouting : Routing service log b) (hfind : b.entries.find? id = some e)
      (h : e.operation.step service s = .running op s') :
      Routing service (log ++ [.took e.number (e.operation.inbox.waiting.take
        (e.operation.inbox.waiting.length - op.inbox.waiting.length))]) (b.store id (some op))
  | leave {log : List Traffic} {b : Switchboard} {id : UInt8} {e : Entry}
      (hrouting : Routing service log b) (hfind : b.entries.find? id = some e) :
      Routing service (log ++ [.left e.number]) (b.store id none)

/-- Whether the operation with a number is registered under an id. -/
def Registered (b : Switchboard) (number : Nat) (id : UInt8) : Prop :=
  ∃ e, b.entries.find? id = some e ∧ e.number = number

/-- Whether no suspend is among some packets but at the end. -/
def SuspendsLast (packets : List Packet) : Prop :=
  ∀ before q after, packets = before ++ q :: after → q.request = .suspend → after = []

/-! ### Packets -/

section

variable {p : Packet}

/-- A request comes to no operation that is running. -/
theorem not_reaches_of_opens (h : p.opens = true) (id : UInt8) : p.reaches id = false := by
  simp only [Packet.opens] at h
  simp only [Packet.reaches, Packet.isFor]
  cases hrequest : p.request with
  | file => rw [hrequest] at h; cases h
  | error => rw [hrequest] at h; cases h
  | suspend => rw [hrequest] at h; cases h
  | _ => rfl

theorem SuspendsLast.tail {packets : List Packet} (h : SuspendsLast (p :: packets)) :
    SuspendsLast packets := by
  intro before q after hpackets
  exact h (p :: before) q after (by rw [hpackets, List.cons_append])

/-- What comes to an operation, if a suspend can only be the last of it. -/
theorem filter_reaches {packets : List Packet} (h : SuspendsLast packets) (id : UInt8) :
    packets.filter (·.reaches id) =
      packets.filter (·.isFor id) ++ packets.filter (·.request == .suspend) := by
  -- Packet by packet, as long as none is a suspend. At the suspend there is nothing left.
  induction packets with
  | nil => rfl
  | cons p packets ih =>
    by_cases hsuspend : p.request = .suspend
    · -- Nothing is behind a suspend.
      rw [h [] p packets rfl hsuspend]
      simp [Packet.reaches, Packet.isFor, hsuspend]
    · have hreaches : p.reaches id = p.isFor id := by simp [Packet.reaches, hsuspend]
      rw [List.filter_cons, List.filter_cons, List.filter_cons_of_neg (by simpa using hsuspend),
        ih h.tail, hreaches]
      split <;> rfl

/-- What is known of suspends among packets is known of any that follow one another among them. -/
theorem SuspendsLast.infix {before packets after : List Packet}
    (h : SuspendsLast (before ++ (packets ++ after))) : SuspendsLast packets := by
  intro first q rest hpackets hsuspend
  have hnone := h (before ++ first) q (rest ++ after) (by simp [hpackets]) hsuspend
  exact (List.append_eq_nil_iff.mp hnone).1

end

/-! ### Dispatching -/

section

variable {b b' : Switchboard} {p : Packet} {flow : Flow} {s s' : Scene}

/-- What a packet does to the entry of every id. A request may start an operation, and any other packet
is put into the inboxes that it reaches. -/
theorem dispatch_routes (hb : b.Sound) (h : b.dispatch p s = (flow, b', s')) :
    (b'.started = b.started ∧ ∀ id, b'.entries.find? id =
        (b.entries.find? id).map fun e => if p.reaches id then e.put p else e) ∨
      (p.opens = true ∧ b.entries.find? p.operation = none ∧ b'.started = b.started + 1 ∧
        ∃ kind, ∀ id, b'.entries.find? id =
          if id = p.operation then some (.opened b.started kind p) else b.entries.find? id) := by
  -- The four things that a packet may come to, and a request that is refused reaches nobody either.
  rcases dispatch_cases h with ⟨hsuspend, -, rfl, -⟩ | ⟨hrequest, -, rfl, -⟩ | ⟨kind, hkind, -, hstart⟩ |
    ⟨hnone, ⟨hsuspend, hfile, herror⟩, -, rfl, -⟩
  · refine .inl ⟨rfl, fun id => ?_⟩
    have hreaches : p.reaches id = true := by simp [Packet.reaches, hsuspend]
    simp only [suspend, Roster.find?_map, hreaches, ↓reduceIte]
  · refine .inl ⟨rfl, fun id => ?_⟩
    by_cases hid : id = p.operation
    · have hreaches : p.reaches id = true := by
        rcases hrequest with hrequest | hrequest <;> simp [Packet.reaches, Packet.isFor, hrequest, hid]
      simp only [forward, Roster.find?_amend, if_pos hid, hreaches, ↓reduceIte]
    · have hreaches : p.reaches id = false := by
        rcases hrequest with hrequest | hrequest <;>
          simp [Packet.reaches, Packet.isFor, hrequest, Ne.symm hid]
      simp [forward, Roster.find?_amend, hid, hreaches]
  · have hopens : p.opens = true := by rw [Packet.opens, hkind]; rfl
    unfold start at hstart
    split at hstart
    · next entries henroll =>
      cases hstart
      exact .inr ⟨hopens, Roster.find?_of_enroll? hb.ascending henroll, rfl, kind,
        Roster.find?_enroll? henroll⟩
    · cases hstart
      refine .inl ⟨rfl, fun id => ?_⟩
      simp [not_reaches_of_opens hopens]
  · refine .inl ⟨rfl, fun id => ?_⟩
    have hreaches : p.reaches id = false := by simp [Packet.reaches, Packet.isFor, hsuspend, hfile, herror]
    simp [hreaches]

/-- Whether the numbers of the operations tell them apart, and from those that are still to come. -/
structure Numbered (b : Switchboard) : Prop where
  below : ∀ id e, b.entries.find? id = some e → e.number < b.started
  distinct : ∀ id e id' e', b.entries.find? id = some e → b.entries.find? id' = some e' →
    e.number = e'.number → id = id'

/-- What waits for a number waits in the inbox of the operation that has it. -/
theorem waitingFor_of_find? {id : UInt8} {e : Entry} (hb : b.Sound) (hnumbered : b.Numbered)
    (h : b.entries.find? id = some e) : b.waitingFor e.number = e.operation.inbox.waiting := by
  unfold waitingFor
  split
  · next e' hfirst =>
    -- Whatever is found under the number is the entry itself.
    have hnumber : e'.number = e.number := by simpa using List.find?_some hfirst
    obtain ⟨⟨id', e''⟩, hmem, rfl⟩ := List.mem_map.mp (List.mem_of_find?_eq_some hfirst)
    have hfind' := Roster.find?_of_mem hb.ascending hmem
    have hid := hnumbered.distinct id' e'' id e hfind' h hnumber
    rw [hid, h] at hfind'
    cases hfind'
    rfl
  · next hnone =>
    exact absurd (List.find?_eq_none.mp hnone e (Roster.mem_values_of_find? h)) (by simp)

/-- Nothing waits for a number that nobody has. -/
theorem waitingFor_of_unregistered {number : Nat} (hb : b.Sound)
    (h : ∀ id, ¬b.Registered number id) : b.waitingFor number = [] := by
  unfold waitingFor
  split
  · next e hfirst =>
    obtain ⟨⟨id, e'⟩, hmem, rfl⟩ := List.mem_map.mp (List.mem_of_find?_eq_some hfirst)
    exact absurd ⟨e', Roster.find?_of_mem hb.ascending hmem, by simpa using List.find?_some hfirst⟩ (h id)
  · rfl

/-- What stands behind what was there before is what has arrived. -/
theorem arrivals_of_append {number : Nat} {packets : List Packet}
    (h : b'.waitingFor number = b.waitingFor number ++ packets) : b.arrivals b' number = packets := by
  rw [arrivals, h, List.drop_left]

/-- What keeps the numbers of the entries keeps them apart. -/
theorem Numbered.of_find? (hnumbered : b.Numbered) (hstarted : b.started ≤ b'.started)
    (h : ∀ id e', b'.entries.find? id = some e' →
      ∃ e, b.entries.find? id = some e ∧ e.number = e'.number) : b'.Numbered where
  below := fun id e' hfind' => by
    obtain ⟨e, hfind, hnumber⟩ := h id e' hfind'
    have := hnumbered.below id e hfind
    omega
  distinct := fun id e₁ id' e₂ hfind₁ hfind₂ hnumber => by
    obtain ⟨e, hfind, hsame⟩ := h id e₁ hfind₁
    obtain ⟨e', hfind', hsame'⟩ := h id' e₂ hfind₂
    exact hnumbered.distinct id e id' e' hfind hfind' (by omega)

/-- A dispatch gives nobody a number that another one has or had. -/
theorem numbered_dispatch (hb : b.Sound) (hnumbered : b.Numbered)
    (h : b.dispatch p s = (flow, b', s')) : b'.Numbered := by
  rcases dispatch_routes hb h with ⟨hstarted, hroutes⟩ | ⟨-, -, hstarted, kind, hroutes⟩
  · refine hnumbered.of_find? (Nat.le_of_eq hstarted.symm) fun id e' hfind' => ?_
    rw [hroutes] at hfind'
    obtain ⟨e, hfind, rfl⟩ := Option.map_eq_some_iff.mp hfind'
    refine ⟨e, hfind, ?_⟩
    split <;> rfl
  · -- The number of the new operation is larger than all that were given out.
    have hold {id : UInt8} {e : Entry} (hfind : b'.entries.find? id = some e) :
        id = p.operation ∧ e.number = b.started ∨
          b.entries.find? id = some e ∧ e.number < b.started := by
      rw [hroutes] at hfind
      split at hfind
      · next hid =>
        cases hfind
        exact .inl ⟨hid, rfl⟩
      · exact .inr ⟨hfind, hnumbered.below id e hfind⟩
    constructor
    · intro id e hfind
      rcases hold hfind with ⟨-, hnumber⟩ | ⟨-, hnumber⟩ <;> omega
    · intro id e id' e' hfind hfind' hsame
      rcases hold hfind with ⟨rfl, hnumber⟩ | ⟨hold₁, hnumber⟩ <;>
        rcases hold hfind' with ⟨rfl, hnumber'⟩ | ⟨hold₂, hnumber'⟩
      · rfl
      · omega
      · omega
      · exact hnumbered.distinct id e id' e' hold₁ hold₂ hsame

/-- Dispatching takes nobody off the switchboard, and adds at most one operation with a new number. -/
theorem registered_dispatch {number : Nat} (hb : b.Sound) (h : b.dispatch p s = (flow, b', s'))
    (hnumber : number < b.started) (id : UInt8) :
    b'.Registered number id ↔ b.Registered number id := by
  -- Either every entry stays under its id, or there is one more, whose number is not below the count.
  rcases dispatch_routes hb h with ⟨-, hroutes⟩ | ⟨-, hfree, -, kind, hroutes⟩
  · simp only [Registered, hroutes, Option.map_eq_some_iff]
    constructor
    · rintro ⟨-, ⟨e, hfind, rfl⟩, rfl⟩
      refine ⟨e, hfind, ?_⟩
      split <;> rfl
    · rintro ⟨e, hfind, rfl⟩
      refine ⟨_, ⟨e, hfind, rfl⟩, ?_⟩
      split <;> rfl
  · simp only [Registered, hroutes]
    constructor
    · rintro ⟨e, hfind, rfl⟩
      split at hfind
      · cases hfind
        exact absurd hnumber (Nat.lt_irrefl _)
      · exact ⟨e, hfind, rfl⟩
    · rintro ⟨e, hfind, rfl⟩
      refine ⟨e, ?_, rfl⟩
      rw [if_neg, hfind]
      rintro rfl
      rw [hfree] at hfind
      cases hfind

/-- What a packet adds to the inbox of an operation that is registered. -/
theorem waitingFor_dispatch {number : Nat} {id : UInt8} (hb : b.Sound) (hnumbered : b.Numbered)
    (h : b.dispatch p s = (flow, b', s')) (hregistered : b.Registered number id) :
    b'.waitingFor number = b.waitingFor number ++ [p].filter (·.reaches id) := by
  obtain ⟨e, hfind, rfl⟩ := hregistered
  have hb' := sound_dispatch hb h
  have hnumbered' := numbered_dispatch hb hnumbered h
  rw [waitingFor_of_find? hb hnumbered hfind]
  rcases dispatch_routes hb h with ⟨-, hroutes⟩ | ⟨hopens, hfree, -, kind, hroutes⟩
  · have hfind' := hroutes id
    rw [hfind, Option.map_some] at hfind'
    have hwaiting := waitingFor_of_find? hb' hnumbered' hfind'
    cases hreaches : p.reaches id with
    | true =>
      simp only [hreaches, ↓reduceIte] at hwaiting
      rw [List.filter_cons_of_pos hreaches]
      exact hwaiting.trans (Queue.waiting_push p (hb.listening.of_find? hfind))
    | false =>
      simp only [hreaches, Bool.false_eq_true, ↓reduceIte] at hwaiting
      rw [List.filter_cons_of_neg (by simp [hreaches]), List.filter_nil, List.append_nil]
      exact hwaiting
  · -- The new operation has another id.
    have hfind' := hroutes id
    rw [if_neg, hfind] at hfind'
    · rw [waitingFor_of_find? hb' hnumbered' hfind',
        List.filter_cons_of_neg (by simp [not_reaches_of_opens hopens]), List.filter_nil, List.append_nil]
    · rintro rfl
      rw [hfree] at hfind
      cases hfind

/-- A number that was not given out is nobody's. -/
theorem not_registered_of_le {number : Nat} (hnumbered : b.Numbered) (h : b.started ≤ number)
    (id : UInt8) : ¬b.Registered number id := by
  rintro ⟨e, hfind, rfl⟩
  exact absurd (hnumbered.below id e hfind) (Nat.not_lt.mpr h)

/-- The new operation has the packet that opened it in its inbox, and nothing else. -/
theorem waitingFor_opened (hb : b.Sound) (hnumbered : b.Numbered) (h : b.dispatch p s = (flow, b', s'))
    (hstarted : b'.started ≠ b.started) :
    p.opens = true ∧ b'.started = b.started + 1 ∧ b'.Registered b.started p.operation ∧
      b'.waitingFor b.started = [p] := by
  rcases dispatch_routes hb h with ⟨hsame, -⟩ | ⟨hopens, -, hmore, kind, hroutes⟩
  · exact absurd hsame hstarted
  · have hfind' := hroutes p.operation
    rw [if_pos rfl] at hfind'
    exact ⟨hopens, hmore, ⟨_, hfind', rfl⟩,
      waitingFor_of_find? (sound_dispatch hb h) (numbered_dispatch hb hnumbered h) hfind'⟩

/-- What a packet brings to an operation: nothing, or itself, if it reaches the operation or opens it. -/
theorem arrivals_dispatch (hb : b.Sound) (hnumbered : b.Numbered) (h : b.dispatch p s = (flow, b', s'))
    (number : Nat) :
    b.arrivals b' number = [] ∨ b.arrivals b' number = [p] ∧
      ((∃ id, b.Registered number id ∧ p.reaches id = true) ∨
        number = b.started ∧ b'.started ≠ b.started ∧ p.opens = true) := by
  -- Whether somebody had the number before, or has it now, or nobody has it at all.
  by_cases hregistered : ∃ id, b.Registered number id
  · obtain ⟨id, hregistered⟩ := hregistered
    rw [arrivals_of_append (waitingFor_dispatch hb hnumbered h hregistered)]
    cases hreaches : p.reaches id with
    | true => exact .inr ⟨List.filter_cons_of_pos hreaches, .inl ⟨id, hregistered, hreaches⟩⟩
    | false => exact .inl (List.filter_cons_of_neg (by simp [hreaches]))
  · have hnone : ∀ id, ¬b.Registered number id := fun id hid => hregistered ⟨id, hid⟩
    have hempty := waitingFor_of_unregistered hb hnone
    by_cases hregistered' : ∃ id, b'.Registered number id
    · -- Who was not there before is the operation that was started.
      have hnew : number = b.started ∧ b'.started ≠ b.started := by
        obtain ⟨id, e, hfind, rfl⟩ := hregistered'
        have hbelow := (numbered_dispatch hb hnumbered h).below id e hfind
        have hnot : ¬e.number < b.started := fun hlt =>
          hnone id ((registered_dispatch hb h hlt id).mp ⟨e, hfind, rfl⟩)
        rcases dispatch_routes hb h with ⟨hsame, -⟩ | ⟨-, -, hmore, -⟩ <;> omega
      obtain ⟨rfl, hstarted⟩ := hnew
      obtain ⟨hopens, -, -, hwaiting⟩ := waitingFor_opened hb hnumbered h hstarted
      refine .inr ⟨arrivals_of_append (by rw [hempty, hwaiting]; rfl), .inr ⟨rfl, hstarted, hopens⟩⟩
    · have hnone' : ∀ id, ¬b'.Registered number id := fun id hid => hregistered' ⟨id, hid⟩
      refine .inl (arrivals_of_append ?_)
      rw [hempty, waitingFor_of_unregistered (sound_dispatch hb h) hnone']
      rfl

end

end Switchboard

end Depot
