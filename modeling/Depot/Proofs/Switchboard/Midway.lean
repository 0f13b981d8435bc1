import Depot.Proofs.Operation.Sentenced
import Depot.Proofs.Switchboard.Draining
import Depot.Switchboard.Midway

/-!
# The switchboard in parts

Whatever is dispatched and whoever does a part, each operation of a `Midway` switchboard is registered under
its own id and `Placed`: at work with a guarded script, or over and about to leave. A step of the switchboard
is made of the parts of one operation with nothing in between.

## Key results

- `sound_reachable`: what holds at all times
- `exists_partFor_of_advance?`: steps are made of parts
- `reachable_of_whole`: whoever takes whole steps only is among those who do parts
- `part?_own`, `part?_other`: what a part comes to
-/

namespace Depot

namespace Queue

variable {α : Type}

/-- To take all from nothing changes nothing. -/
theorem drained_of_nothing {q : Queue α} (h : q.waiting = []) : q.drained = q := by
  obtain ⟨hfront, hback⟩ := List.append_eq_nil_iff.mp h
  rw [List.reverse_eq_nil_iff] at hback
  obtain ⟨front, back, count, senders, receiver⟩ := q
  subst hfront hback
  rfl

/-- It makes no difference whether the first item is taken on its own. -/
theorem drained_tryReceive {q q' : Queue α} {a : α} (h : q.tryReceive = some (a, q')) :
    q'.drained = q.drained := by
  have hcount := count_tryReceive h
  have hwaiting := congrArg List.length (waiting_tryReceive h)
  obtain ⟨hreceiver, hsenders⟩ := ends_tryReceive h
  rw [List.length_cons] at hwaiting
  simp only [drained, hcount, hreceiver, hsenders, hwaiting, Queue.mk.injEq, true_and, and_true]
  omega

end Queue

namespace Switchboard.Midway

/-- What the switchboard of a session may be at any time. The scene of each event is whatever it is by
then, so it makes no difference that a suspend kills the session only later. -/
inductive Reachable (service : Service) : Midway → Prop
  | start : Reachable service {}
  | dispatch {m : Midway} {b' : Switchboard} {s s' : Scene} {p : Packet} {flow : Flow}
      (hm : Reachable service m) (h : m.board.dispatch p s = (flow, b', s')) :
      Reachable service { m with board := b' }
  | part {m m' : Midway} {s s' : Scene} {id : UInt8} (hm : Reachable service m)
      (h : m.part? service id s = some (m', s')) : Reachable service m'
  | close {m : Midway} {b' : Switchboard} (hm : Reachable service m) (h : m.board.close? = some b') :
      Reachable service { m with board := b' }

/-- What a switchboard comes to by parts of its operations alone. -/
inductive Parts (service : Service) (m₀ : Midway) : List Move → Midway → Prop
  | start : Parts service m₀ [] m₀
  | part {moves : List Move} {m m' : Midway} {x : Move} (hm : Parts service m₀ moves m)
      (h : m.part? service x.id x.found = some (m', x.left)) : Parts service m₀ (moves ++ [x]) m'

/-- What holds of a switchboard at all times. -/
structure Sound (m : Midway) : Prop where
  ascending : m.board.entries.Ascending
  placed : ∀ id e, m.board.entries.find? id = some e →
    e.operation.id = id ∧ e.operation.Placed (m.rest id)
  /-- Nothing is left to do under an id that is free. -/
  vacant : ∀ id, m.board.entries.find? id = none → m.rest id = none

section

variable {service : Service} {m m' : Midway} {id : UInt8} {s s' : Scene} {e : Entry} {op : Operation}
  {rest : Option Operation.Script}

/-! ### One part -/

/-- A part on the switchboard is a part of the operation that is registered under the id. -/
theorem part?_cases (h : m.part? service id s = some (m', s')) :
    ∃ e, m.board.entries.find? id = some e ∧
      ((∃ op rest, (m.script service id e.operation).Does e.operation s op rest s' ∧
          m' = m.store id (some op) rest) ∨
        (s' = s ∧ e.operation.inbox.receiver = .gone ∧ m' = m.store id none none)) := by
  unfold part? at h
  -- The script either does something and goes on, or its operation leaves.
  split at h
  · cases h
  · next e hfind =>
    refine ⟨e, hfind, ?_⟩
    split at h
    · cases h
    · next op rest s₁ hpart =>
      cases h
      exact .inl ⟨op, rest, Operation.Script.does_of_part hpart, rfl⟩
    · next s₁ hpart =>
      obtain ⟨hsame, hgone, -⟩ := Operation.left_of_part hpart
      cases h
      exact .inr ⟨hsame, hgone, rfl⟩

/-- Nobody else is moved by a part. -/
theorem part?_other {other : UInt8} (h : m.part? service id s = some (m', s')) (hother : other ≠ id) :
    m'.board.entries.find? other = m.board.entries.find? other ∧ m'.rest other = m.rest other := by
  obtain ⟨e, -, ⟨op, rest, -, rfl⟩ | ⟨-, -, rfl⟩⟩ := part?_cases h
  · exact ⟨find?_store_of_ne hother _, if_neg hother⟩
  · exact ⟨find?_store_of_ne hother _, if_neg hother⟩

/-- Whoever does a part goes on with what the part leaves, or was over and is gone. -/
theorem part?_own (h : m.part? service id s = some (m', s')) :
    ∃ e, m.board.entries.find? id = some e ∧
      ((∃ e', m'.board.entries.find? id = some e' ∧
          (m.script service id e.operation).Does e.operation s e'.operation (m'.rest id) s') ∨
        (s' = s ∧ e.operation.inbox.receiver = .gone ∧ m'.board.entries.find? id = none ∧
          m'.rest id = none)) := by
  obtain ⟨e, hfind, ⟨op, rest, hdoes, rfl⟩ | ⟨hsame, hgone, rfl⟩⟩ := part?_cases h
  · refine ⟨e, hfind, .inl ⟨{ e with operation := op }, find?_store_self hfind op, ?_⟩⟩
    have hrest : (m.store id (some op) rest).rest id = rest := if_pos rfl
    rw [hrest]
    exact hdoes
  · refine ⟨e, hfind, .inr ⟨hsame, hgone, ?_, if_pos rfl⟩⟩
    exact (Roster.find?_dismiss _ _ _).trans (if_pos rfl)

/-! ### At all times -/

/-- Nobody is registered. -/
theorem sound_empty : ({} : Midway).Sound where
  ascending := .nil
  placed _ _ h := by cases h
  vacant _ _ := rfl

/-- A part leaves everybody where they belong. -/
theorem Sound.part (hm : m.Sound) (h : m.part? service id s = some (m', s')) : m'.Sound := by
  obtain ⟨e, hfind, hown⟩ := part?_own h
  obtain ⟨hid, hplaced⟩ := hm.placed id e hfind
  -- The order of the ids first, then who is registered, then who is not. In each of the last two the one that
  -- does the part is apart.
  refine ⟨?_, fun id' e' hfind' => ?_, fun id' hnone => ?_⟩
  · obtain ⟨-, -, ⟨op, rest, -, rfl⟩ | ⟨-, -, rfl⟩⟩ := part?_cases h
    · exact Roster.ascending_amend _ _ hm.ascending
    · exact Roster.ascending_dismiss _ hm.ascending
  · by_cases hsame : id' = id
    · subst hsame
      rcases hown with ⟨e₁, hstored, hdoes⟩ | ⟨-, -, hgone, -⟩
      · rw [hstored] at hfind'
        cases hfind'
        exact ⟨hdoes.same.1.trans hid, hplaced.part hdoes⟩
      · rw [hgone] at hfind'
        cases hfind'
    · obtain ⟨hothers, hrest⟩ := part?_other h hsame
      rw [hrest]
      exact hm.placed id' e' (hothers ▸ hfind')
  · by_cases hsame : id' = id
    · subst hsame
      rcases hown with ⟨e₁, hstored, -⟩ | ⟨-, -, -, hleft⟩
      · rw [hstored] at hnone
        cases hnone
      · exact hleft
    · obtain ⟨hothers, hrest⟩ := part?_other h hsame
      rw [hrest]
      exact hm.vacant id' (hothers ▸ hnone)

/-- What is put into inboxes moves nobody. -/
private theorem Sound.put {b' : Switchboard} {p : Packet} (hm : m.Sound) (hascending : b'.entries.Ascending)
    (hfind : ∀ id, b'.entries.find? id = m.board.entries.find? id ∨
      b'.entries.find? id = (m.board.entries.find? id).map (.put p)) :
    Sound { m with board := b' } := by
  refine ⟨hascending, fun id e he => ?_, fun id hnone => ?_⟩
  -- An entry is the one from before or has one more packet, and that says nothing about where it stands.
  · rcases hfind id with hsame | hput
    · exact hm.placed id e (hsame ▸ he)
    · obtain ⟨e₀, he₀, rfl⟩ := Option.map_eq_some_iff.mp (hput ▸ he)
      obtain ⟨hid, hplaced⟩ := hm.placed id e₀ he₀
      exact ⟨hid, hplaced.put p⟩
  · rcases hfind id with hsame | hput
    · exact hm.vacant id (hsame ▸ hnone)
    · exact hm.vacant id (Option.map_eq_none_iff.mp (hput ▸ hnone))

/-- Whoever is registered anew has done nothing. -/
private theorem Sound.enrolled {entries : Roster Entry} {kind : OperationKind} {p : Packet} (hm : m.Sound)
    (henroll : m.board.entries.enroll? p.operation (.opened m.board.started kind p) = some entries) :
    Sound { m with board := { m.board with entries, started := m.board.started + 1 } } := by
  have hfree := Roster.find?_of_enroll? hm.ascending henroll
  refine ⟨Roster.ascending_enroll? hm.ascending henroll, fun id e he => ?_, fun id hnone => ?_⟩
  · rw [Roster.find?_enroll? henroll] at he
    -- The new entry stands at the beginning of its script; the others are as they were.
    split at he
    · next hid =>
      cases he
      have hrest : m.rest id = none := hid ▸ hm.vacant p.operation hfree
      refine ⟨hid.symm, ?_⟩
      rw [hrest]
      exact .working (Queue.ends_push {} p).1 fun _ h => by cases h
    · exact hm.placed id e he
  · rw [Roster.find?_enroll? henroll] at hnone
    split at hnone
    · cases hnone
    · exact hm.vacant id hnone

/-- Dispatching puts packets into inboxes or registers somebody. -/
theorem Sound.dispatch {b' : Switchboard} {p : Packet} {flow : Flow} (hm : m.Sound)
    (h : m.board.dispatch p s = (flow, b', s')) : Sound { m with board := b' } := by
  rcases dispatch_cases h with ⟨-, -, rfl, -⟩ | ⟨-, -, rfl, -⟩ | ⟨kind, -, -, hstart⟩ | ⟨-, -, -, rfl, -⟩
  · exact hm.put (Roster.ascending_map _ hm.ascending) fun id => .inr (Roster.find?_map _ _ id)
  · refine hm.put (p := p) (Roster.ascending_amend _ _ hm.ascending) fun id => ?_
    rw [forward, Roster.find?_amend]
    split
    · exact .inr rfl
    · exact .inl rfl
  · unfold start at hstart
    split at hstart
    · next henroll =>
      cases hstart
      exact hm.enrolled henroll
    · cases hstart
      exact hm
  · exact hm

/-- Everybody is where they belong in every state that can be reached. -/
theorem sound_reachable (h : m.Reachable service) : m.Sound := by
  induction h with
  | start => exact sound_empty
  | dispatch _ h ih => exact ih.dispatch h
  | part _ h ih => exact ih.part h
  | close _ h ih =>
    cases close?_eq_some h
    exact ⟨ih.ascending, ih.placed, ih.vacant⟩

/-! ### Steps are made of parts -/

/-- Whether the parts of the operation with an id lead to where a step does. -/
def Leads (service : Service) (m : Midway) (id : UInt8) (s : Scene) : Operation.Progress → Prop
  | .waiting => True
  | .running op s' => ∃ n, m.partFor service id n s = some (m.store id (some op) none, s')
  | .ended _ s' => ∃ n, m.partFor service id n s = some (m.store id none none, s')

/-- What is written down last counts. -/
theorem store_store (m : Midway) (id : UInt8) (op : Operation) (op' : Option Operation)
    (rest rest' : Option Operation.Script) :
    (m.store id (some op) rest).store id op' rest' = m.store id op' rest' := by
  simp only [store, Switchboard.store_store, Midway.mk.injEq, true_and]
  funext other
  split <;> rfl

/-- What a part comes to, told by the script. -/
private theorem part?_of_script {script : Operation.Script} (hfind : m.board.entries.find? id = some e)
    (hscript : m.script service id e.operation = script)
    (hpart : script.part e.operation s = .on op rest s') :
    m.part? service id s = some (m.store id (some op) rest, s') := by
  simp only [part?, hfind, hscript, hpart]

/-- Whether the parts of a script lead to where the script does, wherever an operation stands with it. -/
private def Reaches (service : Service) (id : UInt8) (script : Operation.Script) : Prop :=
  ∀ (m : Midway) (e : Entry) (s : Scene), m.board.entries.find? id = some e →
    e.operation.inbox.receiver = .listening → m.script service id e.operation = script →
    m.Leads service id s (script.run e.operation s)

/-- One part first, and then the others. -/
private theorem leads_of_part {script script₁ : Operation.Script} {s₁ : Scene}
    (hfind : m.board.entries.find? id = some e) (hscript : m.script service id e.operation = script)
    (hpart : script.part e.operation s = .on op (some script₁) s₁)
    (hrun : script.run e.operation s = script₁.run op s₁)
    (hrest : (m.store id (some op) (some script₁)).Leads service id s₁ (script₁.run op s₁)) :
    m.Leads service id s (script.run e.operation s) := by
  have hfirst := part?_of_script hfind hscript hpart
  rw [hrun]
  generalize script₁.run op s₁ = progress at hrest
  -- If the others lead to a result within some number of parts, then this one and they do within one more.
  cases progress with
  | waiting => trivial
  | running op' s' =>
    obtain ⟨n, hn⟩ := hrest
    rw [store_store] at hn
    exact ⟨n + 1, by simp only [partFor, hfirst, hn]⟩
  | ended outcome s' =>
    obtain ⟨n, hn⟩ := hrest
    rw [store_store] at hn
    exact ⟨n + 1, by simp only [partFor, hfirst, hn]⟩

/-- Whoever is registered after a part that is not the last one goes on with what it left. -/
private theorem script_store (op op' : Operation) (script : Operation.Script) :
    (m.store id (some op) (some script)).script service id op' = script := by
  simp only [Midway.script, store, ↓reduceIte, Option.getD_some]

/-- What the next part leads to leads on. -/
private theorem Reaches.of_part {script script₁ : Operation.Script} (h : Reaches service id script₁)
    (op : Operation) (s₁ : Scene) (hfind : m.board.entries.find? id = some e)
    (hscript : m.script service id e.operation = script)
    (hpart : script.part e.operation s = .on op (some script₁) s₁)
    (hrun : script.run e.operation s = script₁.run op s₁)
    (hlistening : op.inbox.receiver = .listening) :
    m.Leads service id s (script.run e.operation s) :=
  leads_of_part hfind hscript hpart hrun
    (h _ { e with operation := op } s₁ (find?_store_self hfind op) hlistening
      (script_store op op script₁))

/-- Whoever is over is counted, and then leaves. -/
private theorem reaches_finish (service : Service) (id : UInt8) (outcome : Outcome) :
    Reaches service id (.finish outcome) := by
  intro m e s hfind hlistening hscript
  have hthere : e.operation.inbox.receiver ≠ .gone := by
    rw [hlistening]
    decide
  obtain ⟨op, hgone, hcounted⟩ : ∃ op, op.inbox.receiver = .gone ∧ m.part? service id s =
      some (m.store id (some op) (some (.finish outcome)),
        s.count (.handlers e.operation.kind outcome)) :=
    ⟨_, rfl, part?_of_script hfind hscript (if_neg hthere)⟩
  -- The second part: an operation that has let go of its inbox is taken off the table.
  have hleaves (m : Midway) (e : Entry) (s : Scene) (hfind : m.board.entries.find? id = some e)
      (hscript : m.script service id e.operation = .finish outcome)
      (hgone : e.operation.inbox.receiver = .gone) :
      m.part? service id s = some (m.store id none none, s) := by
    simp only [part?, hfind, hscript, Operation.Script.part, hgone, ↓reduceIte]
  have hleft := hleaves _ { e with operation := op } (s.count (.handlers e.operation.kind outcome))
    (find?_store_self hfind op) (script_store op op _) hgone
  rw [store_store] at hleft
  exact ⟨2, by simp only [partFor, hcounted, hleft]⟩

/-- The packets in an inbox are looked through one by one, as far as one that ends the operation. -/
private theorem reaches_scan {go : Operation.Script} (ih : Reaches service id go) :
    Reaches service id (.scan go) := by
  intro m e s hfind hlistening hscript
  -- Every packet that is taken on its own is one less to look through.
  generalize hn : e.operation.inbox.waiting.length = n
  induction n generalizing m e with
  | zero =>
    have hnothing := List.eq_nil_of_length_eq_zero hn
    refine ih.of_part e.operation s hfind hscript ?_ ?_ hlistening
    · simp only [Operation.Script.part, Queue.tryReceive_eq_none_iff.mpr hnothing]
    · simp only [Operation.Script.run, hnothing, List.any_nil, Bool.false_eq_true, ↓reduceIte,
        Queue.drained_of_nothing hnothing]
  | succ n ihn =>
    cases htry : e.operation.inbox.tryReceive with
    | none =>
      rw [Queue.tryReceive_eq_none_iff.mp htry] at hn
      cases hn
    | some taken =>
      obtain ⟨p, inbox⟩ := taken
      have hwaiting := Queue.waiting_tryReceive htry
      have hreceiver := (Queue.ends_tryReceive htry).1.trans hlistening
      cases hends : p.request.endsOperation with
      | true =>
        have hover := reaches_finish service id .aborted
        refine hover.of_part { e.operation with inbox } s hfind hscript ?_ ?_ hreceiver
        · simp only [Operation.Script.part, htry, hends, ↓reduceIte]
        · simp only [Operation.Script.run, hwaiting, List.any_cons, hends, Bool.true_or, ↓reduceIte]
      | false =>
        have hpart : (Operation.Script.scan go).part e.operation s =
            .on { e.operation with inbox } (some (.scan go)) s := by
          simp only [Operation.Script.part, htry, hends, Bool.false_eq_true, ↓reduceIte]
        refine leads_of_part hfind hscript hpart ?_ ?_
        · simp only [Operation.Script.run, hwaiting, List.any_cons, hends, Bool.false_or,
            Queue.drained_tryReceive htry]
        · rw [hwaiting, List.length_cons] at hn
          exact ihn _ { e with operation := { e.operation with inbox } } (find?_store_self hfind _)
            hreceiver (script_store _ _ _) (Nat.succ.inj hn)

/-- The next packet is read, if there is one. -/
private theorem reaches_read {go : Packet → Operation.Script} (ih : ∀ p, Reaches service id (go p)) :
    Reaches service id (.read go) := by
  intro m e s hfind hlistening hscript
  have hover := reaches_finish service id .aborted
  -- The inbox answers in three ways. Only in the last is there anything more to do.
  cases hreceive : e.operation.inbox.receive with
  | mk received inbox =>
    cases received with
    | pending =>
      simp only [Operation.Script.run, hreceive]
      trivial
    | ended =>
      refine hover.of_part e.operation s hfind hscript ?_ ?_ hlistening
      · simp only [Operation.Script.part, hreceive]
      · simp only [Operation.Script.run, hreceive]
    | item p =>
      have hreceiver := (Queue.receive_item hreceive).2.1.trans hlistening
      cases hends : p.request.endsOperation with
      | true =>
        refine hover.of_part { e.operation with inbox } s hfind hscript ?_ ?_ hreceiver
        · simp only [Operation.Script.part, hreceive, hends, ↓reduceIte]
        · simp only [Operation.Script.run, hreceive, hends, ↓reduceIte]
      | false =>
        refine (ih p).of_part { e.operation with inbox } s hfind hscript ?_ ?_ hreceiver
        · simp only [Operation.Script.part, hreceive, hends, Bool.false_eq_true, ↓reduceIte]
        · simp only [Operation.Script.run, hreceive, hends, Bool.false_eq_true, ↓reduceIte]

/-- The parts of every script lead to where the script does. -/
private theorem reaches_script (service : Service) (id : UInt8) (script : Operation.Script) :
    Reaches service id script := by
  -- By induction on the script: one part for its node, and the induction hypothesis for what it goes on with.
  induction script with
  | next stage =>
    intro m e s hfind _ hscript
    exact ⟨1, by simp only [partFor, part?_of_script hfind hscript rfl]⟩
  | finish outcome => exact reaches_finish service id outcome
  | read go ih => exact reaches_read ih
  | scan go ih => exact reaches_scan ih
  | files write go ih =>
    intro m e s hfind hlistening hscript
    exact (ih s.tree).of_part _ _ hfind hscript rfl rfl hlistening
  | identify user go ih =>
    intro m e s hfind hlistening hscript
    exact ih.of_part _ _ hfind hscript rfl rfl hlistening
  | check live dead ihlive ihdead =>
    intro m e s hfind hlistening hscript
    by_cases hlive : s.session.live = true
    · refine ihlive.of_part e.operation s hfind hscript ?_ ?_ hlistening
      · simp only [Operation.Script.part, hlive, ↓reduceIte]
      · simp only [Operation.Script.run, hlive, ↓reduceIte]
    · refine ihdead.of_part e.operation s hfind hscript ?_ ?_ hlistening
      · simp only [Operation.Script.part, if_neg hlive]
      · simp only [Operation.Script.run, if_neg hlive]
  | put p taken refused ihtaken ihrefused =>
    intro m e s hfind hlistening hscript
    by_cases hclosed : s.session.outbound.isClosed = true
    · refine ihrefused.of_part e.operation s hfind hscript ?_ ?_ hlistening
      · simp only [Operation.Script.part, if_pos hclosed]
      · simp only [Operation.Script.run, if_pos hclosed]
    · refine ihtaken.of_part e.operation
        { s with session := s.session.post (p.withOperation e.operation.id) } hfind hscript ?_ ?_
        hlistening
      · simp only [Operation.Script.part, if_neg hclosed]
      · simp only [Operation.Script.run, if_neg hclosed]

/-- A step of the switchboard is made of the parts of one operation with nothing in between. -/
theorem exists_partFor_of_advance? {b' : Switchboard} (hm : m.Sound) (hrest : m.rest id = none)
    (h : m.board.advance? service id s = some (b', s')) :
    ∃ n, m.partFor service id n s = some ({ m with board := b' }, s') := by
  obtain ⟨e, hfind, hcases⟩ := advance?_cases h
  have hscript : m.script service id e.operation = e.operation.script service := by
    simp only [Midway.script, hrest, Option.getD_none]
  -- Between two steps an operation is at work.
  have hlistening : e.operation.inbox.receiver = .listening := by
    have hplaced := (hm.placed id e hfind).2
    rw [hrest] at hplaced
    cases hplaced with
    | working hlistening _ => exact hlistening
  have hleads := reaches_script service id _ m e s hfind hlistening hscript
  rw [← Operation.step_eq_run] at hleads
  have hkept (op : Option Operation) : m.store id op none = { m with board := m.board.store id op } := by
    simp only [store, Midway.mk.injEq, true_and]
    funext other
    split
    · next hother => rw [hother, hrest]
    · rfl
  rcases hcases with ⟨op, hstep, rfl⟩ | ⟨outcome, hstep, rfl⟩
  · rw [hstep] at hleads
    rwa [← hkept]
  · rw [hstep] at hleads
    rwa [← hkept]

/-- Whatever parts of one operation lead to may be reached. -/
theorem reachable_partFor {n : Nat} (hm : m.Reachable service)
    (h : m.partFor service id n s = some (m', s')) : m'.Reachable service := by
  -- By induction on the number of parts.
  induction n generalizing m s with
  | zero =>
    cases h
    exact hm
  | succ n ih =>
    simp only [partFor] at h
    split at h
    · cases h
    · next hpart => exact ih (.part hm hpart) h

/-- Whatever may be reached by whole steps may be reached by parts, with everybody between two steps. -/
theorem reachable_of_whole {b : Switchboard} (h : Switchboard.Reachable service b) :
    Reachable service { board := b } := by
  induction h with
  | start => exact .start
  | dispatch _ h ih => exact .dispatch ih h
  | advance _ h ih =>
    obtain ⟨n, hn⟩ := exists_partFor_of_advance? (sound_reachable ih) rfl h
    exact reachable_partFor ih hn
  | close _ h ih => exact .close ih h

end

end Switchboard.Midway

end Depot
