import Depot.Proofs.Switchboard.Traffic

/-!
# Where packets go

To every operation comes the packet that opens it and then, in the order in which they are dispatched,
what is for its id while it is registered: blocks, errors, and every suspend. Nothing else comes to it.

## Key results

- `Tenure.append`: what one more event is to an operation
- `Course.exists_routing`: whatever is dispatched and however the operations run, it is such a history
- `exact_routing`: what comes to every operation
-/

namespace Depot.Switchboard

/-! ### What comes to one operation -/

/-- What is known of an operation with a number, which was started by a packet, and of what happened
since then. -/
structure Tenure (b : Switchboard) (log : List Traffic) (number : Nat) (p : Packet)
    (rest : List Traffic) : Prop where
  opens : p.opens = true
  received : received log number = p :: (dispatched (stay number rest)).filter (·.reaches p.operation)
  registered : b.Registered number p.operation ↔ ∀ d ∈ rest, d.ends number = false
  only : ∀ id, b.Registered number id → id = p.operation
  waiting : b.Registered number p.operation → Switchboard.received log number =
    taken log number ++ b.waitingFor number

/-- What one more event is to an operation with a number that is registered under no id but one. -/
structure Delivered (b b' : Switchboard) (d : Traffic) (number : Nat) (id : UInt8) : Prop where
  came : b.Registered number id → d.came number = (dispatched [d]).filter (·.reaches id)
  late : ¬b.Registered number id → d.came number = []
  registered : ∀ id', b'.Registered number id' ↔ b.Registered number id' ∧ d.ends number = false
  waiting : b'.Registered number id →
    b.waitingFor number ++ d.came number = d.went number ++ b'.waitingFor number

section

variable {log rest : List Traffic} {d : Traffic} {b b' : Switchboard} {number : Nat} {p : Packet}

/-- One more event adds what came to the operation in it. -/
theorem received_append : received (log ++ [d]) number = received log number ++ d.came number := by
  rw [received, List.flatMap_append, List.flatMap_singleton]
  rfl

/-- One more event adds what the operation took in it. -/
theorem taken_append : taken (log ++ [d]) number = taken log number ++ d.went number := by
  rw [taken, List.flatMap_append, List.flatMap_singleton]
  rfl

/-- What is dispatched in two parts of a history is dispatched in the whole. -/
theorem dispatched_append (log log' : List Traffic) :
    dispatched (log ++ log') = dispatched log ++ dispatched log' := List.filterMap_append

/-- As long as the operation is registered its stay goes on. -/
theorem stay_append_of_registered (h : ∀ d ∈ rest, d.ends number = false) (log : List Traffic) :
    stay number (rest ++ log) = rest ++ stay number log := by
  refine List.takeWhile_append_of_pos fun d hd => ?_
  rw [h d hd]
  rfl

/-- An operation that does not end stays to the end. -/
theorem stay_of_registered (h : ∀ d ∈ rest, d.ends number = false) : stay number rest = rest := by
  have hstay := stay_append_of_registered h []
  rw [List.append_nil] at hstay
  exact hstay.trans (List.append_nil rest)

/-- Nothing that happens later belongs to a stay that is over. -/
theorem stay_append_of_ended (h : ¬∀ d ∈ rest, d.ends number = false) (log : List Traffic) :
    stay number (rest ++ log) = stay number rest := by
  -- By induction up to the event that ends the stay.
  induction rest with
  | nil => exact absurd (List.forall_mem_nil _) h
  | cons first rest ih =>
    cases hfirst : first.ends number with
    | true => simp [stay, hfirst]
    | false =>
      have hrest := ih fun hall => h (List.forall_mem_cons.mpr ⟨hfirst, hall⟩)
      simp only [stay, List.cons_append, List.takeWhile_cons, hfirst] at hrest ⊢
      simp only [hrest]

/-- What is known of an operation goes on to hold with every event that is delivered. -/
theorem Tenure.append (h : Tenure b log number p rest) (hd : Delivered b b' d number p.operation) :
    Tenure b' (log ++ [d]) number p (rest ++ [d]) := by
  -- The operation is still there just when neither what happened before nor this event ended it.
  have hall : (∀ d' ∈ rest ++ [d], d'.ends number = false) ↔
      (∀ d' ∈ rest, d'.ends number = false) ∧ d.ends number = false := by
    simp only [List.mem_append, List.mem_singleton, or_imp, forall_and, forall_eq]
  refine ⟨h.opens, ?_, ?_, fun id hid => h.only id ((hd.registered id).mp hid).1, fun hregistered => ?_⟩
  · rw [received_append, h.received]
    by_cases hregistered : b.Registered number p.operation
    · -- What is dispatched now belongs to the stay.
      have hstays := h.registered.mp hregistered
      have hone : dispatched (stay number [d]) = dispatched [d] := by
        cases d with
        | given q starts arrivals => rfl
        | took number' packets => rfl
        | left number' =>
          simp only [stay, List.takeWhile_cons]
          split <;> rfl
      rw [hd.came hregistered, stay_append_of_registered hstays, stay_of_registered hstays,
        dispatched_append, hone, List.filter_append]
      rfl
    · rw [hd.late hregistered, stay_append_of_ended (mt h.registered.mpr hregistered), List.append_nil]
  · rw [hd.registered, h.registered, hall]
  · have hbefore := ((hd.registered _).mp hregistered).1
    rw [received_append, taken_append, h.waiting hbefore, List.append_assoc, hd.waiting hregistered,
      List.append_assoc]

end

/-! ### Events -/

section

variable {service : Service} {b b' : Switchboard} {p : Packet} {flow : Flow} {s s' : Scene} {number : Nat}
  {id : UInt8} {e : Entry} {op : Operation}

/-- A packet is delivered to an operation that is there already. -/
theorem delivered_dispatch (hb : b.Sound) (hnumbered : b.Numbered) (h : b.dispatch p s = (flow, b', s'))
    (hnumber : number < b.started) (honly : ∀ id', b.Registered number id' → id' = id) :
    Delivered b b' (.given p (b.newcomer? b') (b.arrivals b')) number id where
  came := fun hregistered => arrivals_of_append (waitingFor_dispatch hb hnumbered h hregistered)
  late := fun hregistered => by
    -- Who is not registered under this id is not registered at all, now and then.
    have hnone : ∀ id', ¬b.Registered number id' := fun id' hid' => hregistered (honly id' hid' ▸ hid')
    have hnone' : ∀ id', ¬b'.Registered number id' := fun id' hid' =>
      hnone id' ((registered_dispatch hb h hnumber id').mp hid')
    refine arrivals_of_append ?_
    rw [waitingFor_of_unregistered hb hnone, waitingFor_of_unregistered (sound_dispatch hb h) hnone']
    rfl
  registered := fun id' => by
    rw [registered_dispatch hb h hnumber id']
    exact (and_iff_left rfl).symm
  waiting := fun hregistered => by
    have hwaiting := waitingFor_dispatch hb hnumbered h ((registered_dispatch hb h hnumber id).mp hregistered)
    show _ ++ b.arrivals b' number = [] ++ _
    rw [arrivals_of_append hwaiting, hwaiting, List.nil_append]

/-- A step of an operation leaves the switchboard sound. -/
theorem sound_store_some (hb : b.Sound) (hfind : b.entries.find? id = some e)
    (hstep : e.operation.step service s = .running op s') : (b.store id (some op)).Sound := by
  have hadvance : b.advance? service id s = some (b.store id (some op), s') := by
    simp only [advance?, hfind, hstep]
  exact (advance?_onward hb hadvance).sound

/-- So does its end. -/
theorem sound_store_none (hb : b.Sound) (id : UInt8) : (b.store id none).Sound :=
  ⟨Roster.ascending_dismiss _ hb.ascending, hb.listening.dismiss _⟩

/-- A step leaves the numbers as they are. -/
theorem numbered_store_some (hnumbered : b.Numbered) (hfind : b.entries.find? id = some e)
    (op : Operation) : (b.store id (some op)).Numbered := by
  refine hnumbered.of_find? (Nat.le_refl _) fun id' e' hfind' => ?_
  rcases find?_store_some hfind hfind' with ⟨rfl, rfl⟩ | ⟨-, hfind₀⟩
  · exact ⟨e, hfind, rfl⟩
  · exact ⟨e', hfind₀, rfl⟩

/-- The end of an operation takes its number away. -/
theorem numbered_store_none (hnumbered : b.Numbered) (id : UInt8) : (b.store id none).Numbered :=
  hnumbered.of_find? (Nat.le_refl _) fun _ e' hfind' => ⟨e', (find?_store_none hfind').2, rfl⟩

/-- A step is nothing to the other operations, and takes packets from the inbox of its own. -/
theorem delivered_step (hb : b.Sound) (hnumbered : b.Numbered) (hfind : b.entries.find? id = some e)
    (hstep : e.operation.step service s = .running op s') (number : Nat) (id' : UInt8) :
    Delivered b (b.store id (some op)) (.took e.number (e.operation.inbox.waiting.take
      (e.operation.inbox.waiting.length - op.inbox.waiting.length))) number id' where
  came := fun _ => rfl
  late := fun _ => rfl
  -- The table has the same ids and numbers as before.
  registered := fun id' => by
    refine Iff.trans ?_ (and_iff_left rfl).symm
    by_cases hid : id' = id
    · subst hid
      simp only [Registered, find?_store_self hfind, hfind, Option.some.injEq, exists_eq_left']
    · simp only [Registered, find?_store_of_ne hid]
  waiting := fun hregistered => by
    obtain ⟨read, hread⟩ := Operation.exists_read_of_running hstep
    have hb' := sound_store_some hb hfind hstep
    have hnumbered' := numbered_store_some hnumbered hfind op
    obtain ⟨e', hfind', rfl⟩ := hregistered
    show b.waitingFor e'.number ++ [] = _
    rw [List.append_nil]
    by_cases hid : id' = id
    · -- The operation itself: what it took is what is missing.
      subst hid
      rw [find?_store_self hfind] at hfind'
      cases hfind'
      have hself := waitingFor_of_find? hb' hnumbered' (find?_store_self hfind op)
      rw [waitingFor_of_find? hb hnumbered hfind, hself]
      simp only [Traffic.went, ↓reduceIte, hread, List.length_append, Nat.add_sub_cancel, List.take_left]
    · have hold := hfind'
      rw [find?_store_of_ne hid] at hold
      have hne : e.number ≠ e'.number := fun hsame =>
        hid (hnumbered.distinct id e id' e' hfind hold hsame).symm
      rw [waitingFor_of_find? hb hnumbered hold, waitingFor_of_find? hb' hnumbered' hfind']
      simp only [Traffic.went, if_neg hne, List.nil_append]

/-- Who leaves is nothing to the other operations. -/
theorem delivered_leave (hb : b.Sound) (hnumbered : b.Numbered) (hfind : b.entries.find? id = some e)
    (number : Nat) (id' : UInt8) :
    Delivered b (b.store id none) (.left e.number) number id' where
  came := fun _ => rfl
  late := fun _ => rfl
  -- Only the one that leaves is not in the table any more. Numbers are not used twice.
  registered := fun id' => by
    simp only [Registered, Traffic.ends, beq_eq_false_iff_ne, ne_eq]
    constructor
    · rintro ⟨e', hfind', rfl⟩
      obtain ⟨hid, hold⟩ := find?_store_none hfind'
      exact ⟨⟨e', hold, rfl⟩, fun hsame => hid (hnumbered.distinct id' e' id e hold hfind hsame.symm)⟩
    · rintro ⟨⟨e', hold, rfl⟩, hne⟩
      refine ⟨e', ?_, rfl⟩
      rw [find?_store_of_ne]
      · exact hold
      · rintro rfl
        rw [hfind] at hold
        cases hold
        exact hne rfl
  waiting := fun hregistered => by
    obtain ⟨e', hfind', rfl⟩ := hregistered
    rw [waitingFor_of_find? hb hnumbered (find?_store_none hfind').2,
      waitingFor_of_find? (sound_store_none hb id) (numbered_store_none hnumbered id) hfind']
    exact List.append_nil _

end

/-! ### All operations -/

/-- Whether a packet comes to nobody but as itself, and to one operation at most if it is no suspend. -/
def Alone (p : Packet) (arrivals : Nat → List Packet) : Prop :=
  (∀ number, arrivals number = [] ∨ arrivals number = [p]) ∧
    (p.request ≠ .suspend → ∀ m n, arrivals m ≠ [] → arrivals n ≠ [] → m = n)

/-- What is known of all that has happened. -/
structure WellRouted (log : List Traffic) (b : Switchboard) : Prop where
  sound : b.Sound
  numbered : b.Numbered
  starts : log.filterMap (·.starts?) = List.range b.started
  tenure : ∀ number < b.started, ∃ before p arrivals rest,
    log = before ++ .given p (some number) arrivals :: rest ∧ Tenure b log number p rest
  fresh : ∀ number, b.started ≤ number → received log number = [] ∧ taken log number = []
  alone : ∀ p starts arrivals, .given p starts arrivals ∈ log → Alone p arrivals

section

variable {service : Service} {log : List Traffic} {d : Traffic} {b b' : Switchboard} {p : Packet}
  {flow : Flow} {s s' : Scene}

/-- Nothing has happened yet. -/
theorem wellRouted_empty : WellRouted [] {} where
  sound := sound_empty
  numbered := { below := fun _ _ h => by cases h
                distinct := fun _ _ _ _ h => by cases h }
  starts := rfl
  tenure := fun number h => absurd h (Nat.not_lt_zero number)
  fresh := fun _ _ => ⟨rfl, rfl⟩
  alone := fun _ _ _ h => by cases h

/-- Dispatching a packet leaves it alone. -/
theorem alone_dispatch (hb : b.Sound) (hnumbered : b.Numbered) (h : b.dispatch p s = (flow, b', s')) :
    Alone p (b.arrivals b') := by
  constructor
  · intro number
    rcases arrivals_dispatch hb hnumbered h number with hnone | ⟨hone, -⟩
    · exact .inl hnone
    · exact .inr hone
  · intro hp m n hm hn
    have hreached := (arrivals_dispatch hb hnumbered h m).resolve_left hm
    have hreached' := (arrivals_dispatch hb hnumbered h n).resolve_left hn
    -- What is no suspend reaches the id that it names only.
    have hnames {id : UInt8} (hreaches : p.reaches id = true) : p.operation = id := by
      simp only [Packet.reaches, Packet.isFor, Bool.or_eq_true, Bool.and_eq_true, beq_iff_eq] at hreaches
      rcases hreaches with ⟨-, hid⟩ | hsuspend
      · exact hid
      · exact absurd hsuspend hp
    rcases hreached with ⟨-, ⟨id, ⟨e, hfind, rfl⟩, hreaches⟩ | ⟨rfl, -, hopens⟩⟩ <;>
      rcases hreached' with ⟨-, ⟨id', ⟨e', hfind', rfl⟩, hreaches'⟩ | ⟨rfl, -, hopens'⟩⟩
    · rw [← hnames hreaches] at hfind
      rw [← hnames hreaches', hfind] at hfind'
      cases hfind'
      rfl
    · rw [not_reaches_of_opens hopens'] at hreaches
      cases hreaches
    · rw [not_reaches_of_opens hopens] at hreaches'
      cases hreaches'
    · rfl

/-- With one more event, every packet still came to one operation at most. -/
theorem WellRouted.alone_append (h : WellRouted log b)
    (hd : ∀ p starts arrivals, d = .given p starts arrivals → Alone p arrivals) :
    ∀ p starts arrivals, .given p starts arrivals ∈ log ++ [d] → Alone p arrivals := by
  intro p starts arrivals hmem
  rcases List.mem_append.mp hmem with hmem | hmem
  · exact h.alone p starts arrivals hmem
  · exact hd p starts arrivals (List.mem_singleton.mp hmem).symm

/-- What is known of the operations that were there before goes on to hold. -/
theorem WellRouted.tenure_append (h : WellRouted log b)
    (hd : ∀ number < b.started, ∀ id, (∀ id', b.Registered number id' → id' = id) →
      Delivered b b' d number id) :
    ∀ number < b.started, ∃ before p arrivals rest,
      log ++ [d] = before ++ .given p (some number) arrivals :: rest ∧
        Tenure b' (log ++ [d]) number p rest := by
  intro number hnumber
  obtain ⟨before, p, arrivals, rest, hlog, htenure⟩ := h.tenure number hnumber
  refine ⟨before, p, arrivals, rest ++ [d], ?_, ?_⟩
  · rw [hlog, List.append_assoc, List.cons_append]
  · exact htenure.append (hd number hnumber p.operation htenure.only)

/-- One more event that starts no operation. -/
theorem WellRouted.append (h : WellRouted log b) (hsound : b'.Sound) (hnumbered : b'.Numbered)
    (hstarted : b'.started = b.started) (hstarts : d.starts? = none)
    (hdelivered : ∀ number < b.started, ∀ id, (∀ id', b.Registered number id' → id' = id) →
      Delivered b b' d number id)
    (hfresh : ∀ number, b.started ≤ number → d.came number = [] ∧ d.went number = [])
    (halone : ∀ p starts arrivals, d = .given p starts arrivals → Alone p arrivals) :
    WellRouted (log ++ [d]) b' where
  sound := hsound
  numbered := hnumbered
  -- No operation starts, so the numbers that were given out are the same.
  starts := by rw [List.filterMap_append, List.filterMap_cons_none hstarts, h.starts, hstarted,
    List.filterMap_nil, List.append_nil]
  tenure := by
    rw [hstarted]
    exact h.tenure_append hdelivered
  fresh := fun number hnumber => by
    rw [hstarted] at hnumber
    obtain ⟨hreceived, htaken⟩ := h.fresh number hnumber
    obtain ⟨hcame, hwent⟩ := hfresh number hnumber
    rw [received_append, taken_append, hreceived, htaken, hcame, hwent]
    exact ⟨rfl, rfl⟩
  alone := h.alone_append halone

/-- A packet is dispatched: it starts an operation, it comes to one, to all, or to none. -/
theorem WellRouted.dispatch (h : WellRouted log b) (hdispatch : b.dispatch p s = (flow, b', s')) :
    WellRouted (log ++ [.given p (b.newcomer? b') (b.arrivals b')]) b' := by
  have hsound := sound_dispatch h.sound hdispatch
  have hnumbered := numbered_dispatch h.sound h.numbered hdispatch
  have halone : ∀ q starts arrivals, Traffic.given p (b.newcomer? b') (b.arrivals b') =
      .given q starts arrivals → Alone q arrivals := by
    intro q starts arrivals hd
    cases hd
    exact alone_dispatch h.sound h.numbered hdispatch
  have hdelivered : ∀ number < b.started, ∀ id, (∀ id', b.Registered number id' → id' = id) →
      Delivered b b' (.given p (b.newcomer? b') (b.arrivals b')) number id :=
    fun _ hnumber _ honly => delivered_dispatch h.sound h.numbered hdispatch hnumber honly
  -- Nothing comes to who is neither registered nor started now.
  have hlater {number : Nat} (hle : b.started ≤ number)
      (hnew : number = b.started → b'.started = b.started) : b.arrivals b' number = [] := by
    rcases arrivals_dispatch h.sound h.numbered hdispatch number with hnone |
      ⟨-, ⟨id, hregistered, -⟩ | ⟨hsame, hstarted, -⟩⟩
    · exact hnone
    · exact absurd hregistered (not_registered_of_le h.numbered hle id)
    · exact absurd (hnew hsame) hstarted
  by_cases hstarted : b'.started = b.started
  · exact h.append hsound hnumbered hstarted (if_pos hstarted) hdelivered
      (fun number hle => ⟨hlater hle fun _ => hstarted, rfl⟩) halone
  · obtain ⟨hopens, hmore, hregistered, hwaiting⟩ :=
      waitingFor_opened h.sound h.numbered hdispatch hstarted
    have hnewcomer : b.newcomer? b' = some b.started := if_neg hstarted
    have hcame : b.arrivals b' b.started = [p] := by
      refine arrivals_of_append ?_
      rw [hwaiting, waitingFor_of_unregistered h.sound (not_registered_of_le h.numbered (Nat.le_refl _))]
      rfl
    obtain ⟨hnothing, huntaken⟩ := h.fresh b.started (Nat.le_refl _)
    refine ⟨hsound, hnumbered, ?_, fun number hnumber => ?_, fun number hle => ?_, h.alone_append halone⟩
    · rw [List.filterMap_append, h.starts, hmore, List.range_succ, hnewcomer]
      rfl
    · rw [hmore] at hnumber
      rcases Nat.lt_succ_iff_lt_or_eq.mp hnumber with hold | rfl
      · exact h.tenure_append hdelivered number hold
      · -- The new operation has the packet that opened it, and has taken nothing.
        have hreceived : received (log ++ [.given p (b.newcomer? b') (b.arrivals b')]) b.started = [p] := by
          rw [received_append, hnothing]
          exact hcame
        refine ⟨log, p, b.arrivals b', [], by rw [hnewcomer], hopens, hreceived,
          iff_of_true hregistered (List.forall_mem_nil _), fun id hid => ?_, fun _ => ?_⟩
        · obtain ⟨e, hfind, hsame⟩ := hregistered
          obtain ⟨e', hfind', hsame'⟩ := hid
          exact hnumbered.distinct id e' p.operation e hfind' hfind (hsame'.trans hsame.symm)
        · rw [hreceived, taken_append, huntaken, hwaiting]
          rfl
    · rw [hmore] at hle
      obtain ⟨hreceived, htaken⟩ := h.fresh number (by omega)
      rw [received_append, taken_append, hreceived, htaken]
      exact ⟨hlater (by omega) (by omega), rfl⟩

/-- Every history is routed well. -/
theorem wellRouted (h : Routing service log b) : WellRouted log b := by
  -- By induction on the history. Steps and ends deliver nothing, so only dispatching has a lemma of its own.
  induction h with
  | start => exact wellRouted_empty
  | dispatch _ hdispatch ih => exact ih.dispatch hdispatch
  | @step log b s s' id e op _ hfind hstep ih =>
    refine ih.append (sound_store_some ih.sound hfind hstep) (numbered_store_some ih.numbered hfind op) rfl
      rfl (fun number _ id' _ => delivered_step ih.sound ih.numbered hfind hstep number id')
      (fun number hle => ⟨rfl, if_neg ?_⟩) fun _ _ _ hd => by cases hd
    have := ih.numbered.below id e hfind
    omega
  | @leave log b id e _ hfind ih =>
    exact ih.append (sound_store_none ih.sound id) (numbered_store_none ih.numbered id) rfl rfl
      (fun number _ id' _ => delivered_leave ih.sound ih.numbered hfind number id')
      (fun _ _ => ⟨rfl, rfl⟩) fun _ _ _ hd => by cases hd

/-- Whatever is dispatched, and however the operations run in between, it is a history. -/
theorem Course.exists_routing {packets : List Packet} {s₀ : Scene}
    (h : Course service {} s₀ packets b s) : ∃ log, Routing service log b ∧ dispatched log = packets := by
  -- By induction on the course: every step of it is an event of the history.
  induction h with
  | start => exact ⟨[], .start, rfl⟩
  | dispatch _ hdispatch ih =>
    obtain ⟨log, hrouting, hpackets⟩ := ih
    exact ⟨_, hrouting.dispatch hdispatch, by rw [dispatched_append, hpackets]; rfl⟩
  | advance _ hadvance ih =>
    obtain ⟨log, hrouting, hpackets⟩ := ih
    obtain ⟨e, hfind, ⟨op, hstep, rfl⟩ | ⟨outcome, hstep, rfl⟩⟩ := advance?_cases hadvance
    · exact ⟨_, hrouting.step hfind hstep, by
        rw [dispatched_append, hpackets]; exact List.append_nil _⟩
    · exact ⟨_, hrouting.leave hfind, by rw [dispatched_append, hpackets]; exact List.append_nil _⟩

/-- What names no running operation, and what is no request, changes nothing at all. -/
theorem dispatch_ignored {scene : Scene}
    (h : ((p.request = .file ∨ p.request = .error) ∧ p.operation ∉ b.activeIds) ∨
      (p.opens = false ∧ p.request ≠ .file ∧ p.request ≠ .error ∧ p.request ≠ .suspend)) :
    b.dispatch p scene = (.go, b, scene) := by
  cases hdispatch : b.dispatch p scene with
  | mk flow rest =>
    obtain ⟨b', scene'⟩ := rest
    -- By what dispatching does with the packet; in three of the four cases it would have to be another one.
    rcases dispatch_cases hdispatch with ⟨hsuspend, -⟩ | ⟨hrequest, rfl, rfl, rfl⟩ |
      ⟨kind, hkind, -⟩ | ⟨-, -, rfl, rfl, rfl⟩
    · rcases h with ⟨hrequest | hrequest, -⟩ | ⟨-, -, -, hother⟩
      · rw [hsuspend] at hrequest; cases hrequest
      · rw [hsuspend] at hrequest; cases hrequest
      · exact absurd hsuspend hother
    · rcases h with ⟨-, hfree⟩ | ⟨-, hfile, herror, -⟩
      · have hnone : b.entries.find? p.operation = none := by
          rw [Option.eq_none_iff_forall_ne_some]
          exact fun e hfind => hfree (Roster.mem_ids_iff.mpr ⟨e, hfind⟩)
        rw [forward, Roster.amend_of_find?_none hnone]
      · exact absurd hrequest (not_or.mpr ⟨hfile, herror⟩)
    · rcases h with ⟨hrequest | hrequest, -⟩ | ⟨hopens, -⟩
      · rw [hrequest] at hkind; cases hkind
      · rw [hrequest] at hkind; cases hkind
      · rw [Packet.opens, hkind] at hopens; cases hopens
    · rfl

end

/-- Operations are numbered as they start. To each of them comes the packet that opened it and then, in the
order in which they were dispatched, the blocks and the errors with its id that were dispatched while it was
registered, and the suspends; if a suspend can only be the last packet of all, it comes behind the rest.
As long as it is registered, what came to it is what it took and what waits in its inbox. Nothing comes to
others, and no packet but a suspend comes to two. Blocks and errors that name no running operation and
packets that are no requests change nothing. -/
theorem exact_routing {service : Service} {log : List Traffic} {b : Switchboard}
    (h : Routing service log b) :
    log.filterMap (·.starts?) = List.range b.started ∧
    (∀ number < b.started, ∃ before p arrivals rest,
      log = before ++ .given p (some number) arrivals :: rest ∧ p.opens = true ∧
      received log number = p :: (dispatched (stay number rest)).filter (·.reaches p.operation) ∧
      (SuspendsLast (dispatched log) →
        received log number = p :: ((dispatched (stay number rest)).filter (·.isFor p.operation) ++
          (dispatched (stay number rest)).filter (·.request == .suspend))) ∧
      (b.Registered number p.operation ↔ ∀ d ∈ rest, d.ends number = false) ∧
      (∀ id, b.Registered number id → id = p.operation ∧
        received log number = taken log number ++ b.waitingFor number)) ∧
    (∀ number, b.started ≤ number → received log number = []) ∧
    (∀ p starts arrivals, .given p starts arrivals ∈ log →
      (∀ number, arrivals number = [] ∨ arrivals number = [p]) ∧
      (p.request ≠ .suspend → ∀ m n, arrivals m ≠ [] → arrivals n ≠ [] → m = n)) ∧
    ∀ (p : Packet) (scene : Scene),
      ((p.request = .file ∨ p.request = .error) ∧ p.operation ∉ b.activeIds) ∨
        (p.opens = false ∧ p.request ≠ .file ∧ p.request ≠ .error ∧ p.request ≠ .suspend) →
      b.dispatch p scene = (.go, b, scene) := by
  have hrouted := wellRouted h
  refine ⟨hrouted.starts, fun number hnumber => ?_, fun number hle => (hrouted.fresh number hle).1,
    hrouted.alone, fun p scene => dispatch_ignored⟩
  obtain ⟨before, p, arrivals, rest, hlog, htenure⟩ := hrouted.tenure number hnumber
  refine ⟨before, p, arrivals, rest, hlog, htenure.opens, htenure.received, fun hlast => ?_,
    htenure.registered, fun id hid => ?_⟩
  · rw [htenure.received, filter_reaches]
    -- What was dispatched during the stay is a part of all that was dispatched.
    obtain ⟨after, hstay⟩ : ∃ after, stay number rest ++ after = rest :=
      ⟨_, List.takeWhile_append_dropWhile⟩
    rw [hlog, ← hstay, List.append_cons, dispatched_append, dispatched_append (stay number rest)]
      at hlast
    exact hlast.infix
  · obtain rfl := htenure.only id hid
    exact ⟨rfl, htenure.waiting hid⟩

/-- An id is used by one upload and then by another. Each has its own block, a block with another id and a
request that is refused come to nobody, and the suspend comes to the second only. -/
theorem exact_routing_under_one_id :
    let service : Service := { store := ⟨⟨["dlc"]⟩, ⟨["user"]⟩⟩, limits := ⟨2, 10⟩ }
    let info := (Packet.new .fileInfo []).withOperation 1
    let block := fun (id : UInt8) (n : UInt8) => (Packet.new .file [n]).withOperation id
    let request := (Packet.new .fileRequest []).withOperation 1
    ∃ log b, Routing service log b ∧
      dispatched log = [info, block 1 7, block 2 8, request, info, block 1 9, .suspend .manualShutdown] ∧
      received log 0 = [info, block 1 7] ∧
      (b.Registered 1 1 ∧ received log 1 = taken log 1 ++ b.waitingFor 1) ∧
      received log 1 = [info, block 1 9, .suspend .manualShutdown] := by
  intro service info block request
  have hrouting := (Routing.start : Routing service [] {})
    |>.dispatch (p := info) (s := {}) rfl
    |>.dispatch (p := block 1 7) (s := {}) rfl
    |>.dispatch (p := block 2 8) (s := {}) rfl
    |>.dispatch (p := request) (s := {}) rfl
    |>.leave (show Roster.find? _ 1 = some _ from rfl)
    |>.dispatch (p := info) (s := {}) rfl
    |>.dispatch (p := block 1 9) (s := {}) rfl
    |>.dispatch (p := .suspend .manualShutdown) (s := {}) rfl
  obtain ⟨-, hstays, -⟩ := exact_routing hrouting
  obtain ⟨_, _, _, _, -, -, -, -, -, hheld⟩ := hstays 1 (by decide)
  exact ⟨_, _, hrouting, rfl, rfl, ⟨⟨_, rfl, rfl⟩, (hheld 1 ⟨_, rfl, rfl⟩).2⟩, rfl⟩

end Depot.Switchboard
