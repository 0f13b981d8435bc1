import Depot.Proofs.Operation.Doomed
import Depot.Proofs.Switchboard.Courses
import Depot.Switchboard.Attendance

/-!
# Draining

When all operations are to end, each of them has an `allowance` of steps: every step that it takes uses
one up, and with the last one it is over and leaves the switchboard. It can take them in any scene, so it
waits for nothing and nobody, and a step that finds the session dead says nothing.

The steps are those of `Moved`, in any order. Each one finds a scene of its own: between two steps the
connection may take what it likes from the queues, other sessions may change the files, and the session
may have been killed or not. Nothing comes in the middle of a step here, not even between a look at the
session and the packet that is queued then; `Midway` has steps in parts.

## Key results

- `sound_reachable`, `named_reachable`: what holds of a switchboard at all times
- `Moved.allowance`: the steps of an operation are counted
- `drain_doomed`: to let all operations run to their ends takes nothing but their steps
- `Kept.drains`: what is known after any steps of operations that are to end
-/

namespace Depot.Switchboard

/-- What the switchboard of a session may be at any time. The scene of each event is whatever it is
by then. -/
inductive Reachable (service : Service) : Switchboard → Prop
  | start : Reachable service {}
  | dispatch {b b' : Switchboard} {s s' : Scene} {p : Packet} {flow : Flow} (hb : Reachable service b)
      (h : b.dispatch p s = (flow, b', s')) : Reachable service b'
  | advance {b b' : Switchboard} {s s' : Scene} {id : UInt8} (hb : Reachable service b)
      (h : b.advance? service id s = some (b', s')) : Reachable service b'
  | close {b b' : Switchboard} (hb : Reachable service b) (h : b.close? = some b') :
      Reachable service b'

/-- A step of the operation with an id: the scene that it found, and the one that it left. -/
structure Move where
  id : UInt8
  found : Scene
  left : Scene

/-- What a switchboard comes to by steps of its operations alone. -/
inductive Moved (service : Service) (b₀ : Switchboard) : List Move → Switchboard → Prop
  | start : Moved service b₀ [] b₀
  | move {moves : List Move} {b b' : Switchboard} {m : Move} (hb : Moved service b₀ moves b)
      (h : b.advance? service m.id m.found = some (b', m.left)) : Moved service b₀ (moves ++ [m]) b'

/-- The steps that the operation with an id can take at most, if it is to end. -/
def allowance (b : Switchboard) (id : UInt8) : Nat :=
  match b.entries.find? id with
  | some e => e.operation.budget
  | none => 0

/-! ### At all times -/

section

variable {service : Service} {b b' : Switchboard} {id : UInt8} {s s' : Scene}

/-- A switchboard is sound at all times. -/
theorem sound_reachable (h : Reachable service b) : b.Sound := by
  induction h with
  | start => exact sound_empty
  | dispatch _ h ih => exact sound_dispatch ih h
  | advance _ h ih => exact (advance?_onward ih h).sound
  | close _ h ih =>
    simp only [close?] at h
    split at h
    · cases h
      exact ⟨ih.ascending, ih.listening⟩
    · cases h

/-- Operations are registered under their own ids at all times. -/
theorem named_reachable (h : Reachable service b) : b.Named := by
  induction h with
  | start => exact named_empty
  | dispatch _ h ih => exact named_dispatch ih h
  | advance _ h ih => exact named_advance? ih h
  | close _ h ih =>
    simp only [close?] at h
    split at h
    · cases h
      exact ih
    · cases h

/-- A course leads to what can be reached. -/
theorem Course.reachable {given : List Packet} (h : Course service b s given b' s')
    (hb : Reachable service b) : Reachable service b' := by
  induction h with
  | start => exact hb
  | dispatch _ h ih => exact .dispatch ih h
  | advance _ h ih => exact .advance ih h

/-! ### Steps -/

theorem allowance_of_find? {e : Entry} (h : b.entries.find? id = some e) :
    b.allowance id = e.operation.budget := by
  simp only [allowance, h]

/-- Whoever has no step left is gone. -/
theorem allowance_pos_iff : 0 < b.allowance id ↔ id ∈ b.activeIds := by
  rw [activeIds, Roster.mem_ids_iff]
  cases h : b.entries.find? id with
  | some e => exact iff_of_true (allowance_of_find? h ▸ e.operation.budget_pos) ⟨e, rfl⟩
  | none =>
    have hzero : b.allowance id = 0 := by simp only [allowance, h]
    refine iff_of_false (by omega) ?_
    rintro ⟨e, he⟩
    cases he

/-- A step is paid for by the operation that takes it, and by no other. -/
theorem allowance_advance? (hb : b.Doomed) (h : b.advance? service id s = some (b', s')) :
    b'.allowance id < b.allowance id ∧ ∀ other, other ≠ id → b'.allowance other = b.allowance other := by
  obtain ⟨e, hfind, ⟨op, hstep, rfl⟩ | ⟨outcome, -, rfl⟩⟩ := advance?_cases h
  · -- Every step of a doomed operation costs it one.
    constructor
    · have hfound : (b.store id (some op)).entries.find? id = some { e with operation := op } := by
        rw [store, Roster.find?_amend, if_pos rfl, hfind]
        rfl
      rw [allowance_of_find? hfound, allowance_of_find? hfind]
      exact Operation.budget_lt_of_doomed (hb.of_find? hfind) hstep
    · intro other hother
      simp only [allowance, store, Roster.find?_amend, if_neg hother]
  · -- Whoever is gone has nothing left, and had at least the step that was its last.
    constructor
    · rw [allowance_of_find? hfind]
      simp only [allowance, store, Roster.find?_dismiss, ↓reduceIte]
      exact e.operation.budget_pos
    · intro other hother
      simp only [allowance, store, Roster.find?_dismiss, if_neg hother]

/-- Nothing is said in a scene that does not reach the peer. -/
theorem advance?_silent (hs : s.reachesPeer = false) (h : b.advance? service id s = some (b', s')) :
    s.Silent s' := by
  obtain ⟨e, -, ⟨op, hstep, -⟩ | ⟨outcome, hstep, -⟩⟩ := advance?_cases h
  · exact Operation.step_running_silent hs hstep
  · exact Operation.step_ended_silent hs hstep

/-- What steps leave as it was. -/
structure Kept (b b' : Switchboard) : Prop where
  sound : b'.Sound
  named : b'.Named
  doomed : b'.Doomed
  halt : b'.halt = b.halt

theorem Kept.advance? {b₀ : Switchboard} (hb : Kept b₀ b)
    (h : b.advance? service id s = some (b', s')) : Kept b₀ b' :=
  have honward := advance?_onward hb.sound h
  ⟨honward.sound, named_advance? hb.named h, honward.doomed hb.doomed, honward.halt.trans hb.halt⟩

/-- Any number of steps keeps what steps keep. -/
theorem Moved.kept {moves : List Move} (h : Moved service b moves b') (hb : Kept b b) : Kept b b' := by
  induction h with
  | start => exact hb
  | move _ h ih => exact ih.advance? h

/-- The steps of an operation and those that it has left are no more than its allowance. -/
theorem Moved.allowance {moves : List Move} (h : Moved service b moves b') (hb : Kept b b) (id : UInt8) :
    moves.countP (·.id == id) + b'.allowance id ≤ b.allowance id := by
  -- Along the steps. The one who takes a step pays for it, and nobody else does.
  induction h with
  | start => exact Nat.le_of_eq (Nat.zero_add _)
  | @move moves b₁ b₂ m hmoved h ih =>
    obtain ⟨hown, hothers⟩ := allowance_advance? (hmoved.kept hb).doomed h
    rw [List.countP_append, List.countP_singleton]
    by_cases hid : m.id = id
    · subst hid
      rw [if_pos BEq.rfl]
      omega
    · rw [if_neg (by simpa using hid), hothers id (Ne.symm hid)]
      omega

/-- No step that finds a scene without a peer says anything. -/
theorem Moved.silent {moves : List Move} (h : Moved service b moves b') :
    ∀ m ∈ moves, m.found.reachesPeer = false → m.found.Silent m.left := by
  induction h with
  | start => exact List.forall_mem_nil _
  | move _ h ih =>
    intro m hm
    rcases List.mem_append.mp hm with hm | hm
    · exact ih m hm
    · cases List.mem_singleton.mp hm
      exact fun hs => advance?_silent hs h

/-! ### Running to the end -/

/-- Steps in a scene that does not reach the peer are not heard, and leave what comes in alone. -/
theorem Course.silent {given : List Packet} (h : Course service b s given b' s') (hgiven : given = [])
    (hs : s.reachesPeer = false) : s.Silent s' := by
  induction h with
  | start => exact .refl s
  | dispatch _ _ _ => exact absurd hgiven (by simp)
  | advance _ h ih =>
    have hsilent := ih hgiven
    exact hsilent.trans (advance?_silent (hsilent.reachesPeer.trans hs) h)

/-- Steps work for the peer and do nothing else to the session, and they do not halt the switchboard. -/
theorem Course.worked {given : List Packet} (h : Course service b s given b' s') (hgiven : given = [])
    (hb : b.Sound) : s.Worked s' ∧ b'.halt = b.halt := by
  induction h with
  | start => exact ⟨.refl s, rfl⟩
  | dispatch _ _ _ => exact absurd hgiven (by simp)
  | advance hcourse h ih =>
    have honward := advance?_onward (hcourse.sound hb) h
    obtain ⟨hworked, hhalt⟩ := ih hgiven
    exact ⟨hworked.trans honward.worked, honward.halt.trans hhalt⟩

/-- An operation that is to end is gone when it has been run. -/
theorem work_doomed (service : Service) (hb : b.Doomed) (id : UInt8) (s : Scene) :
    (b.work service id s).1.entries = b.entries.dismiss id := by
  unfold work
  split
  · next hnone =>
    -- There is nothing to take away.
    rw [Roster.find?, List.lookup_eq_none_iff] at hnone
    rw [Roster.dismiss, Roster.dismiss_of_forall_ne fun e he => (bne_iff_ne.mp (hnone e he)).symm]
  · next e hfind =>
    have hgone : (e.operation.run service s).1 = none :=
      Operation.runFor_doomed (hb.of_find? hfind) (Nat.le_refl _) s
    simp only [hgone]
    rfl

/-- Running some of the operations that are to end takes away these and no others. -/
private theorem find?_foldl_work (hb : b.Doomed) (order : List UInt8) (id : UInt8) (s : Scene) :
    (order.foldl (fun (b, s) id => b.work service id s) (b, s)).1.entries.find? id =
      if id ∈ order then none else b.entries.find? id := by
  -- In the order in which they are run.
  induction order generalizing b s with
  | nil => rfl
  | cons first order ih =>
    have hentries := work_doomed service hb first s
    have hrest : (b.work service first s).1.Doomed := by
      rw [Doomed, hentries]
      exact Roster.All.dismiss hb first
    -- Whoever is run first is gone, and the others are run as if it had never been there.
    rw [List.foldl_cons, ih hrest, hentries, Roster.find?_dismiss]
    by_cases hfirst : id = first
    · simp only [hfirst, List.mem_cons_self, ↓reduceIte, ite_self]
    · simp only [List.mem_cons, hfirst, false_or, ↓reduceIte]

/-- When all operations have been run that are to end, none is left. -/
theorem settle_doomed (service : Service) (hb : b.Doomed) (hnamed : b.Named) (s : Scene) :
    (b.settle service s).1.activeIds = [] := by
  rw [List.eq_nil_iff_forall_not_mem]
  -- Whoever was left would have been run, and then it would be gone.
  intro id hid
  obtain ⟨e, hfind⟩ := Roster.mem_ids_iff.mp hid
  rw [settle, find?_foldl_work hb] at hfind
  split at hfind
  · cases hfind
  · next hout =>
    -- Whoever is registered has a turn.
    apply hout
    rw [startOrder, List.mem_map]
    exact ⟨e, List.mem_mergeSort.mpr (Roster.mem_values_of_find? hfind), hnamed id e hfind⟩

/-- Closing changes nothing else. -/
theorem close?_eq_some (h : b.close? = some b') : b' = { b with halt := some .closed } := by
  unfold close? at h
  split at h
  · exact (Option.some.inj h).symm
  · cases h

/-- Nothing keeps an empty switchboard from being closed. -/
theorem close?_of_empty (h : b.activeIds = []) :
    b.close? = some { b with halt := some .closed } := by
  have hempty : b.entries.isEmpty = true := by
    rw [activeIds, Roster.ids, List.map_eq_nil_iff] at h
    rw [Roster.isEmpty, h]
    rfl
  simp only [close?, hempty, ↓reduceIte]

/-- To let operations run to the end that are to end takes nothing but their steps. -/
theorem drain_doomed (service : Service) (hb : Kept b b) (s : Scene) :
    ∃ b' s', b.drain service s = (true, b', s') ∧ b'.activeIds = [] ∧ b'.state = .closed ∧
      s.Worked s' ∧ (s.reachesPeer = false → s.Silent s') := by
  have hcourse : Course service b s [] _ _ := course_settle hb.sound s
  have hempty := settle_doomed service hb.doomed hb.named s
  refine ⟨{ (b.settle service s).1 with halt := some .closed }, (b.settle service s).2, ?_, hempty, rfl,
    (hcourse.worked rfl hb.sound).1, hcourse.silent rfl⟩
  simp only [drain, close?_of_empty hempty]

/-- In a dead session nothing is heard of that. -/
theorem drain_dead (service : Service) (hb : Kept b b) (hdead : s.session.live = false) :
    ∃ c s', b.drain service s = (true, c, s') ∧ c.activeIds = [] ∧ c.state = .closed ∧
      s'.session.live = false ∧ s'.session.outbound = s.session.outbound := by
  obtain ⟨c, s', hdrain, hempty, hclosed, -, hsilent⟩ := drain_doomed service hb s
  obtain ⟨hlive, houtbound⟩ := hsilent (Scene.reachesPeer_of_dead hdead)
  exact ⟨c, s', hdrain, hempty, hclosed, hlive.trans hdead, houtbound⟩

/-! ### The suspend -/

/-- What is known of a switchboard `b'` that came from the suspended switchboard `b` by some steps. -/
structure Drains (service : Service) (b : Switchboard) (moves : List Move) (b' : Switchboard) : Prop where
  /-- Every step of an operation is one of those that it had at the suspend. -/
  paid : ∀ id, moves.countP (·.id == id) + b'.allowance id ≤ b.allowance id
  /-- Who has none left is over. -/
  active_iff : ∀ id, id ∈ b'.activeIds ↔ 0 < b'.allowance id
  /-- Who is not over can go on, whatever the scene is. -/
  ready : ∀ id ∈ b'.activeIds, ∀ s, (b'.advance? service id s).isSome
  /-- Since the session is dead nothing more is said, and it stays dead. -/
  silent : ∀ m ∈ moves, m.found.session.live = false →
    m.left.session.live = false ∧ m.left.session.outbound = m.found.session.outbound
  state : b'.state = .draining
  /-- When all are over the switchboard can be closed. -/
  closes : b'.activeIds = [] → ∃ c, b'.close? = some c ∧ c.state = .closed
  /-- To wait for the rest of them comes to that. -/
  drains : ∀ s, s.session.live = false → ∃ c s', b'.drain service s = (true, c, s') ∧
    c.activeIds = [] ∧ c.state = .closed ∧ s'.session.live = false ∧
    s'.session.outbound = s.session.outbound

/-- All of it holds after any steps, in any order and in whatever scenes. -/
theorem Kept.drains {moves : List Move} (hb : Kept b b) (hhalt : b.halt = some .draining)
    (h : Moved service b moves b') : Drains service b moves b' := by
  -- What was doomed and named at the suspend is so after any steps, and the rest follows from that.
  have hkept := h.kept hb
  refine ⟨h.allowance hb, fun _ => allowance_pos_iff.symm, fun id hid s => ?_, fun m hm hdead => ?_, ?_,
    fun hempty => ⟨_, close?_of_empty hempty, rfl⟩, fun s hdead => ?_⟩
  · obtain ⟨e, hfind⟩ := Roster.mem_ids_iff.mp hid
    obtain ⟨b₁, s₁, hadvance⟩ := exists_advance?_of_find? service hkept.doomed hfind s
    rw [hadvance]
    rfl
  · obtain ⟨hlive, houtbound⟩ := h.silent m hm (Scene.reachesPeer_of_dead hdead)
    exact ⟨hlive.trans hdead, houtbound⟩
  · simp only [state, hkept.halt, hhalt]
  · exact drain_dead service ⟨hkept.sound, hkept.named, hkept.doomed, rfl⟩ hdead

/-- To attend to a suspend is to kill the session, with its code as the answer. -/
theorem attend_suspend {p : Packet} {rest : Queue Packet} (hp : p.request = .suspend)
    (h : s.session.inbound.receive = (.item p, rest)) :
    b.attend false s = (some (p.suspendCode?.getD .unknown), b.suspend p,
      Scene.kill { s with session := { s.session with inbound := rest } }) := by
  simp only [attend, attendFor, attend?, h, dispatch_suspend hp, Bool.false_eq_true, ↓reduceIte]

end

end Depot.Switchboard
