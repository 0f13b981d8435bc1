import Depot.Proofs.Switchboard.Midway

/-!
# Suspending

A suspend is handed to all operations, and only then is the session dead. By then each of them is anywhere
in a step, and the others go on with parts of their own all the time.

From the moment at which it is handed out every operation is sentenced. It never waits, whatever it finds,
and there is a bound to its parts. Once the session is dead nobody gets past a check any more, so the only
packets that still come are those for which somebody stands behind a check at that moment: one packet from
each of them at most. Whoever takes a check and what is sent behind it as one will find nobody standing
there, and nothing comes at all.

## Key results

- `Parts.sentenced`, `Parts.leavesWithin`: what parts keep after a suspend
- `Parts.quiet`, `Parts.last`: who is heard in a dead session
- `suspend_drains`: what a suspend comes to
-/

namespace Depot.Switchboard

namespace Midway

/-- Whether all operations are to end. -/
def Sentenced (m : Midway) : Prop :=
  ∀ id e, m.board.entries.find? id = some e → e.operation.Sentenced (m.rest id)

/-- Whether the operation with an id leaves within so many parts, if it is there. -/
def LeavesWithin (service : Service) (m : Midway) (id : UInt8) (k : Nat) : Prop :=
  ∀ e, m.board.entries.find? id = some e → e.operation.LeavesWithin service (m.rest id) k

/-- Whether the operation with an id needs another check before it says anything. -/
def Quiet (service : Service) (m : Midway) (id : UInt8) : Prop :=
  ∀ e, m.board.entries.find? id = some e → (m.script service id e.operation).Guarded false

section

variable {service : Service} {m m₀ m₁ m₂ m₃ m' : Midway} {id : UInt8} {s s' : Scene} {e : Entry}
  {x : Move} {moves before after : List Move} {p : Packet} {k : Nat}

/-! ### Parts after a suspend -/

/-- Parts leave a switchboard in parts sound. -/
theorem Parts.sound (h : Parts service m moves m') (hm : m.Sound) : m'.Sound := by
  induction h with
  | start => exact hm
  | part _ h ih => exact ih.part h

/-- Parts leave alone whether the switchboard drains. -/
theorem Parts.halt_eq (h : Parts service m moves m') : m'.board.halt = m.board.halt := by
  induction h with
  | start => rfl
  | part _ h ih =>
    obtain ⟨e, -, ⟨op, rest, -, rfl⟩ | ⟨-, -, rfl⟩⟩ := part?_cases h
    · exact ih
    · exact ih

/-- Parts register nobody, and only those who are registered do any. -/
theorem Parts.registered (h : Parts service m moves m') :
    (∀ id ∈ m'.board.activeIds, id ∈ m.board.activeIds) ∧ ∀ x ∈ moves, x.id ∈ m.board.activeIds := by
  -- By induction on the parts. Each of them is done by somebody who is registered, and registers nobody else.
  induction h with
  | start => exact ⟨fun _ hid => hid, List.forall_mem_nil _⟩
  | @part moves m₁ m₂ x _ h ih =>
    obtain ⟨hids, hmoves⟩ := ih
    obtain ⟨e, hfind, -⟩ := part?_own h
    have hx : x.id ∈ m.board.activeIds := hids x.id (Roster.mem_ids_iff.mpr ⟨e, hfind⟩)
    refine ⟨fun id hid => ?_, ?_⟩
    · by_cases hown : id = x.id
      · exact hown ▸ hx
      · obtain ⟨e', hfind'⟩ := Roster.mem_ids_iff.mp hid
        exact hids id (Roster.mem_ids_iff.mpr ⟨e', (part?_other h hown).1 ▸ hfind'⟩)
    · rw [List.forall_mem_append, List.forall_mem_singleton]
      exact ⟨hmoves, hx⟩

/-- A suspend reaches everybody: whoever is over already has nothing left to do but to leave. -/
theorem sentenced_signal (hm : m.Sound) (hp : p.request.endsOperation = true) :
    (m.signal p).Sentenced := by
  intro id e hfind
  rw [signal, suspend, Roster.find?_map] at hfind
  obtain ⟨e₀, hfind₀, rfl⟩ := Option.map_eq_some_iff.mp hfind
  show (e₀.put p).operation.Sentenced (m.rest id)
  have hplaced := (hm.placed id e₀ hfind₀).2
  generalize m.rest id = rest at hplaced
  -- Who is not over has an inbox that somebody listens to.
  cases hplaced with
  | working hlistening _ =>
    refine .inl ⟨p, ?_, hp⟩
    show p ∈ (e₀.operation.inbox.push p).waiting
    rw [Queue.waiting_push p hlistening]
    exact List.mem_append_right _ (List.mem_singleton_self p)
  | done outcome _ => exact .inr ⟨outcome, rfl⟩

/-- Nothing takes the sentence back from anybody. -/
theorem Sentenced.part (hm : m.Sentenced) (h : m.part? service id s = some (m', s')) :
    m'.Sentenced := by
  intro id' e' hfind'
  -- Who does the part goes on to end, by `Sentenced.part` of operations. The others are not touched.
  by_cases hown : id' = id
  · subst hown
    obtain ⟨e, hfind, ⟨e₁, hstored, hdoes⟩ | ⟨-, -, hgone, -⟩⟩ := part?_own h
    · rw [hstored] at hfind'
      cases hfind'
      exact (hm id' e hfind).part hdoes
    · rw [hgone] at hfind'
      cases hfind'
  · obtain ⟨hothers, hrest⟩ := part?_other h hown
    rw [hrest]
    exact hm id' e' (hothers ▸ hfind')

/-- Nor do many parts take it back. -/
theorem Parts.sentenced (h : Parts service m moves m') (hm : m.Sentenced) : m'.Sentenced := by
  induction h with
  | start => exact hm
  | part _ h ih => exact ih.part h

/-- Whoever is to end and is still there can do its next part, whatever it finds. -/
theorem Sentenced.isSome_part? (hm : m.Sentenced) (service : Service) (hid : id ∈ m.board.activeIds)
    (s : Scene) : (m.part? service id s).isSome = true := by
  obtain ⟨e, hfind⟩ := Roster.mem_ids_iff.mp hid
  have hgoes := (hm id e hfind).not_wait service s
  simp only [part?, hfind, Midway.script]
  split
  · next hwait => exact absurd hwait hgoes
  · rfl
  · rfl

/-! ### How long it takes -/

/-- There is a bound for everybody, by what waits in the inbox. -/
theorem leavesWithin_of_find? (hm : m.Sound) (service : Service)
    (hfind : m.board.entries.find? id = some e) :
    m.LeavesWithin service id (Operation.Script.longest * (e.operation.inbox.waiting.length + 1) + 1) := by
  intro e' hfind'
  rw [hfind] at hfind'
  cases hfind'
  exact (hm.placed id e hfind).2.leavesWithin service

/-- A part is paid for by the operation that does it, and by no other. -/
theorem LeavesWithin.part (hid : m.LeavesWithin service id k) (hm : m.Sentenced)
    (h : m.part? service x.id x.found = some (m', x.left)) :
    ∃ k', [x].countP (·.id == id) + k' ≤ k ∧ m'.LeavesWithin service id k' := by
  rw [List.countP_singleton]
  -- The bound gets less by a part of its own, and stays as it is with a part of somebody else.
  by_cases hown : x.id = id
  · subst hown
    rw [if_pos BEq.rfl]
    obtain ⟨e, hfind, ⟨e₁, hstored, hdoes⟩ | ⟨-, -, hgone, -⟩⟩ := part?_own h
    · obtain ⟨k', hlt, hleaves⟩ := (hid e hfind).part (hm _ e hfind) hdoes
      refine ⟨k', by omega, fun e' hfind' => ?_⟩
      rw [hstored] at hfind'
      cases hfind'
      exact hleaves
    · -- To leave is a part as well, and whoever has left has none to do.
      obtain ⟨n, hlasts, hk⟩ := hid e hfind
      have hpos := hlasts.pos
      refine ⟨0, by omega, fun e' hfind' => ?_⟩
      rw [hgone] at hfind'
      cases hfind'
  · obtain ⟨hothers, hrest⟩ := part?_other h (Ne.symm hown)
    refine ⟨k, by rw [if_neg (by simpa using hown)]; omega, ?_⟩
    unfold LeavesWithin
    rw [hothers, hrest]
    exact hid

/-- So all the parts that an operation does come out of its bound. -/
theorem Parts.leavesWithin (h : Parts service m moves m') (hm : m.Sentenced)
    (hid : m.LeavesWithin service id k) :
    ∃ k', moves.countP (·.id == id) + k' ≤ k ∧ m'.LeavesWithin service id k' := by
  induction h with
  | start => exact ⟨k, Nat.le_of_eq (Nat.zero_add k), hid⟩
  | @part moves m₁ m₂ x hparts h ih =>
    obtain ⟨k₁, hk₁, hleaves⟩ := ih
    obtain ⟨k₂, hk₂, hleaves'⟩ := hleaves.part (hparts.sentenced hm) h
    refine ⟨k₂, ?_, hleaves'⟩
    rw [List.countP_append]
    omega

/-! ### Who is heard -/

/-- Whoever does not stand behind a check needs one. -/
theorem quiet_of_pending?_eq_none (hm : m.Sound) (service : Service) (h : m.pending? id = none) :
    m.Quiet service id := by
  intro e hfind
  have hguarded := (hm.placed id e hfind).2.guarded service
  unfold pending? at h
  unfold Midway.script
  -- Between two steps the next part is the first of a script, and no script begins with a put.
  cases hrest : m.rest id with
  | none => exact e.operation.script_guarded service
  | some script =>
    rw [hrest] at hguarded h
    refine Operation.Script.Guarded.of_not_put hguarded ?_
    rintro q taken refused rfl
    cases h

/-- In a dead session no check is passed, so whoever needs one says nothing and goes on to need one. -/
theorem Quiet.part (hquiet : m.Quiet service id) (hdead : x.found.session.live = false)
    (h : m.part? service x.id x.found = some (m', x.left)) :
    m'.Quiet service id ∧ (x.id = id → x.found.Silent x.left) := by
  -- The session is dead, so a check that it comes to sends it another way than to a put.
  by_cases hown : x.id = id
  · subst hown
    obtain ⟨e, hfind, ⟨e₁, hstored, hdoes⟩ | ⟨hsame, -, hgone, -⟩⟩ := part?_own h
    · refine ⟨fun e' hfind' => ?_, fun _ => hdoes.silent (hquiet e hfind)⟩
      rw [hstored] at hfind'
      cases hfind'
      unfold Midway.script
      cases hrest : m'.rest x.id with
      | none => exact e₁.operation.script_guarded service
      | some script =>
        rcases hdoes.guarded (hquiet e hfind) script hrest with hguarded | ⟨hlive, -⟩
        · exact hguarded
        · rw [hdead] at hlive
          cases hlive
    · refine ⟨fun e' hfind' => ?_, fun _ => ?_⟩
      · rw [hgone] at hfind'
        cases hfind'
      · rw [hsame]
        exact .refl _
  · obtain ⟨hothers, hrest⟩ := part?_other h (Ne.symm hown)
    refine ⟨?_, fun hsame => absurd hsame hown⟩
    unfold Quiet Midway.script
    rw [hothers, hrest]
    exact hquiet

/-- So it says nothing in any of the parts that follow. -/
theorem Parts.quiet (h : Parts service m moves m') (hquiet : m.Quiet service id)
    (hdead : ∀ x ∈ moves, x.found.session.live = false) :
    m'.Quiet service id ∧ ∀ x ∈ moves, x.id = id → x.found.Silent x.left := by
  induction h with
  | start => exact ⟨hquiet, List.forall_mem_nil _⟩
  | part _ h ih =>
    rw [List.forall_mem_append, List.forall_mem_singleton] at hdead ⊢
    obtain ⟨hquiet', hsilent⟩ := ih hdead.1
    obtain ⟨hquiet'', hlast⟩ := hquiet'.part hdead.2 h
    exact ⟨hquiet'', hsilent, hlast⟩

/-- What an operation that stands behind a check has done since: nothing, or it has put the packet and
has said no more. -/
def Trailed (service : Service) (m : Midway) (id : UInt8) (p : Packet) (own : List Move) : Prop :=
  own = [] ∧ m.pending? id = some p ∨
    m.Quiet service id ∧ ∃ x rest, own = x :: rest ∧
      x.left.session.outbound = x.found.session.outbound.push (p.withOperation id) ∧
      ∀ y ∈ rest, y.found.Silent y.left

/-- The part with which a packet is put that has passed its check. -/
private theorem quiet_of_pending? (hm : m.Sound) (hpending : m.pending? id = some p)
    (hown : x.id = id) (h : m.part? service x.id x.found = some (m', x.left)) :
    m'.Quiet service id ∧
      x.left.session.outbound = x.found.session.outbound.push (p.withOperation id) := by
  subst hown
  obtain ⟨taken, refused, hrest⟩ : ∃ taken refused, m.rest x.id = some (.put p taken refused) := by
    unfold pending? at hpending
    split at hpending
    · next hrest =>
      cases hpending
      exact ⟨_, _, hrest⟩
    · cases hpending
  obtain ⟨e, hfind, hcases⟩ := part?_own h
  obtain ⟨hid, hplaced⟩ := hm.placed _ e hfind
  have hguarded := hplaced.guarded service
  rw [hrest, Option.getD_some] at hguarded
  -- The part is the put, and what follows a put needs a check again.
  rcases hcases with ⟨e₁, hstored, hdoes⟩ | ⟨-, hgone, -, -⟩
  · rw [Midway.script, hrest, Option.getD_some] at hdoes
    obtain ⟨hputs, script', hleft, hquiet⟩ := hdoes.puts hguarded
    rw [hid] at hputs
    refine ⟨fun e' _ => ?_, hputs⟩
    rw [Midway.script, hleft, Option.getD_some]
    exact hquiet
  · -- Whoever is over does not stand behind a check.
    rw [hrest] at hplaced
    cases hplaced with
    | working hlistening _ =>
      rw [hlistening] at hgone
      cases hgone

/-- A packet that passed its check is put in the first part that its operation does, and nothing is said after
it. -/
theorem Parts.trailed (h : Parts service m moves m') (hm : m.Sound) (hpending : m.pending? id = some p)
    (hdead : ∀ x ∈ moves, x.found.session.live = false) :
    m'.Trailed service id p (moves.filter (·.id == id)) := by
  induction h with
  | start => exact .inl ⟨rfl, hpending⟩
  | @part moves m₁ m₂ x hparts h ih =>
    rw [List.forall_mem_append, List.forall_mem_singleton] at hdead
    rw [List.filter_append, List.filter_cons, List.filter_nil]
    by_cases hown : x.id = id
    · rw [if_pos (by simpa using hown)]
      rcases ih hdead.1 with ⟨hnone, hstill⟩ | ⟨hquiet, first, rest, hfilter, hputs, hsilent⟩
      · obtain ⟨hquiet, hputs⟩ := quiet_of_pending? (hparts.sound hm) hstill hown h
        refine .inr ⟨hquiet, x, [], ?_, hputs, List.forall_mem_nil _⟩
        rw [hnone, List.nil_append]
      · obtain ⟨hquiet', hlast⟩ := hquiet.part hdead.2 h
        refine .inr ⟨hquiet', first, rest ++ [x], ?_, hputs, ?_⟩
        · rw [hfilter, List.cons_append]
        · rw [List.forall_mem_append, List.forall_mem_singleton]
          exact ⟨hsilent, hlast hown⟩
    · rw [if_neg (by simpa using hown), List.append_nil]
      rcases ih hdead.1 with ⟨hnone, hstill⟩ | ⟨hquiet, hsaid⟩
      · refine .inl ⟨hnone, ?_⟩
        -- Others do not move anybody from behind a check.
        rw [pending?, (part?_other h (Ne.symm hown)).2]
        exact hstill
      · exact .inr ⟨(hquiet.part hdead.2 h).1, hsaid⟩

/-- No part brings a session back, or ends it. -/
theorem Parts.live (h : Parts service m moves m') :
    ∀ x ∈ moves, x.left.session.live = x.found.session.live := by
  induction h with
  | start => exact List.forall_mem_nil _
  | part _ h ih =>
    rw [List.forall_mem_append, List.forall_mem_singleton]
    refine ⟨ih, ?_⟩
    obtain ⟨e, -, ⟨e', -, hdoes⟩ | ⟨hsame, -, -, -⟩⟩ := part?_own h
    · exact hdoes.live
    · rw [hsame]

/-! ### The suspend -/

/-- What is known of a switchboard `m₂`, when a suspend was handed out on `m₀`, parts of the operations led
to `m₁`, where the session was killed, and more of them led on to `m₂`. -/
structure Drains (service : Service) (m₀ : Midway) (before : List Move) (m₁ : Midway)
    (after : List Move) (m₂ : Midway) : Prop where
  /-- An operation has only so many parts left when the suspend comes, and is over when it has done
  them. -/
  few : ∀ id e, m₀.board.entries.find? id = some e → ∃ left,
    (before ++ after).countP (·.id == id) + left ≤
        Operation.Script.longest * (e.operation.inbox.waiting.length + 1) + 1 ∧
      (id ∈ m₂.board.activeIds ↔ 0 < left)
  /-- Nobody comes who was not there. -/
  known : (∀ x ∈ before ++ after, x.id ∈ m₀.board.activeIds) ∧
    ∀ id ∈ m₂.board.activeIds, id ∈ m₀.board.activeIds
  /-- Who is not over can go on, whatever the scene is. -/
  ready : ∀ id ∈ m₂.board.activeIds, ∀ s, (m₂.part? service id s).isSome = true
  dead : ∀ x ∈ after, x.left.session.live = false
  /-- Whoever did not stand behind a check when the session was killed says nothing more. -/
  quiet : ∀ x ∈ after, m₁.pending? x.id = none → x.left.session.outbound = x.found.session.outbound
  /-- Whoever did may still put that one packet, as the next thing it does, and says nothing after it. -/
  last : ∀ id q, m₁.pending? id = some q → ∀ x rest, after.filter (·.id == id) = x :: rest →
    x.left.session.outbound = x.found.session.outbound.push (q.withOperation id) ∧
      ∀ y ∈ rest, y.left.session.outbound = y.found.session.outbound
  state : m₂.board.state = .draining
  /-- When all are over the switchboard can be closed. -/
  closes : m₂.board.activeIds = [] → ∃ c, m₂.board.close? = some c ∧ c.state = .closed

/-- The parts that an operation has done of those that it had. -/
private theorem exists_left (hm : m₀.Sound) (hsentenced : m₀.Sentenced)
    (hbefore : Parts service m₀ before m₁) (hafter : Parts service m₁ after m₂)
    (hfind : m₀.board.entries.find? id = some e) :
    ∃ left, (before ++ after).countP (·.id == id) + left ≤
        Operation.Script.longest * (e.operation.inbox.waiting.length + 1) + 1 ∧
      (id ∈ m₂.board.activeIds ↔ 0 < left) := by
  obtain ⟨k₁, hk₁, hleaves⟩ := hbefore.leavesWithin hsentenced (leavesWithin_of_find? hm service hfind)
  obtain ⟨k₂, hk₂, hleaves'⟩ := hafter.leavesWithin (hbefore.sentenced hsentenced) hleaves
  rw [List.countP_append]
  -- By whether the operation is still there: if not, there is nothing left of its bound.
  cases hfound : m₂.board.entries.find? id with
  | none =>
    refine ⟨0, by omega, fun hid => ?_, fun hpos => absurd hpos (Nat.lt_irrefl 0)⟩
    obtain ⟨e', hfind'⟩ := Roster.mem_ids_iff.mp hid
    rw [hfound] at hfind'
    cases hfind'
  | some e' =>
    obtain ⟨n, hlasts, hk⟩ := hleaves' e' hfound
    have hpos := hlasts.pos
    exact ⟨k₂, by omega, iff_of_true (Roster.mem_ids_iff.mpr ⟨e', hfound⟩) (by omega)⟩

/-- What comes of it if a switchboard drains all of whose operations are to end. -/
theorem Sentenced.drains (hsentenced : m₀.Sentenced) (hm : m₀.Sound)
    (hhalt : m₀.board.halt = some .draining) (hbefore : Parts service m₀ before m₁)
    (hafter : Parts service m₁ after m₂) (hdead : ∀ x ∈ after, x.found.session.live = false) :
    Drains service m₀ before m₁ after m₂ := by
  -- What holds between the suspend and the kill is carried over to where the session dies.
  have hsound₁ := hbefore.sound hm
  have hsentenced₂ := hafter.sentenced (hbefore.sentenced hsentenced)
  obtain ⟨hids₁, hmoves₁⟩ := hbefore.registered
  obtain ⟨hids₂, hmoves₂⟩ := hafter.registered
  refine {
    few := fun id e hfind => exists_left hm hsentenced hbefore hafter hfind
    known := ⟨?_, fun id hid => hids₁ id (hids₂ id hid)⟩
    ready := fun id hid s => hsentenced₂.isSome_part? service hid s
    dead := fun x hx => (hafter.live x hx).trans (hdead x hx)
    quiet := fun x hx hnone => ?_
    last := fun id q hpending x rest hfilter => ?_
    state := ?_
    closes := fun hempty => ⟨_, close?_of_empty hempty, rfl⟩ }
  · rw [List.forall_mem_append]
    exact ⟨hmoves₁, fun x hx => hids₁ x.id (hmoves₂ x hx)⟩
  · have hquiet := quiet_of_pending?_eq_none hsound₁ service hnone
    exact ((hafter.quiet hquiet hdead).2 x hx rfl).2
  · rcases hafter.trailed hsound₁ hpending hdead with ⟨hnone, -⟩ | ⟨-, x', rest', hsome, hputs, hsilent⟩
    · rw [hnone] at hfilter
      cases hfilter
    · rw [hsome] at hfilter
      cases hfilter
      exact ⟨hputs, fun y hy => (hsilent y hy).2⟩
  · have hhalt₂ : m₂.board.halt = some .draining := hafter.halt_eq.trans (hbefore.halt_eq.trans hhalt)
    simp only [state, hhalt₂]

end

end Midway

section

variable {service : Service} {m : Midway}

/-- When everybody is between two steps, a switchboard in parts is one in steps. -/
private theorem kept_suspend {p : Packet} (hm : m.Sound) (hrest : ∀ id, m.rest id = none)
    (hends : p.request.endsOperation = true) : Kept (m.board.suspend p) (m.board.suspend p) := by
  -- An operation between two steps has not let go of its inbox.
  have hlistening : m.board.entries.All fun e => e.operation.inbox.receiver = .listening := by
    intro e he
    have hplaced := (hm.placed e.1 e.2 (Roster.find?_of_mem hm.ascending he)).2
    rw [hrest e.1] at hplaced
    cases hplaced with
    | working hlistening _ => exact hlistening
  have hsound : m.board.Sound := ⟨hm.ascending, hlistening⟩
  have hnamed : m.board.Named := fun id e hfind => (hm.placed id e hfind).1
  exact ⟨sound_suspend p hsound, named_suspend p hnamed, doomed_suspend hends hsound, rfl⟩

/-- A suspend drains. The packet comes to every operation that is registered and not over, and only then is
the session dead; the operations are anywhere in their steps, and go on in between. From then on, whatever
they find and in whatever order they do their parts, there is an end to them: they wait for nothing and
leave an empty switchboard behind, which closes. Nobody passes a check in the dead session, so nothing is
said any more but by those who had passed one and were about to queue a packet: that packet, and no other.

With each check and what is sent behind it in one step there are none of these. Then, whatever the order
of the steps, nothing at all is said after the suspend, and nothing that waited behind it is dispatched. -/
theorem suspend_drains (hm : m.Reachable service) {p : Packet} (hp : p.request = .suspend) (s : Scene) :
    let code := p.suspendCode?.getD .unknown
    let m₀ := m.signal p
    m.board.dispatch p s = (.stop code, m₀.board, s.kill) ∧
      m₀.board.activeIds = m.board.activeIds ∧
      (∀ id e, m.board.entries.find? id = some e → m₀.board.entries.find? id = some (e.put p) ∧
        (e.operation.inbox.receiver ≠ .gone →
          (e.put p).operation.inbox.waiting = e.operation.inbox.waiting ++ [p])) ∧
      (∀ before m₁ after m₂, m₀.Parts service before m₁ → m₁.Parts service after m₂ →
        (∀ x ∈ after, x.found.session.live = false) → Midway.Drains service m₀ before m₁ after m₂) ∧
      ((∀ id, m.rest id = none) →
        (∀ moves b', Moved service m₀.board moves b' → Drains service m₀.board moves b') ∧
        ∀ rest, s.session.inbound.receive = (.item p, rest) → ∀ later, ∃ c s',
          m.board.serve service false later s = (some code, c, s') ∧ c.activeIds = [] ∧
          c.state = .closed ∧ s'.session.inbound = rest ∧
          s'.session.outbound = s.session.outbound) := by
  intro code m₀
  have hsound := Midway.sound_reachable hm
  have hends : p.request.endsOperation = true := by
    rw [hp]
    rfl
  -- Everything about the operations follows from this: each has the packet, or is about to leave.
  have hsentenced := Midway.sentenced_signal hsound hends
  refine ⟨dispatch_suspend hp m.board s, Roster.ids_map _ _, fun id e hfind => ⟨?_, fun hthere => ?_⟩,
    fun before m₁ after m₂ hbefore hafter hdead =>
      hsentenced.drains (hsound.dispatch (dispatch_suspend hp m.board s)) rfl hbefore hafter hdead,
    fun hrest => ⟨fun moves b' h => ?_, fun rest hreceive later => ?_⟩⟩
  · show (m.board.entries.map (.put p)).find? id = some (e.put p)
    rw [Roster.find?_map, hfind]
    rfl
  · refine Queue.waiting_push p ?_
    have hplaced := (hsound.placed id e hfind).2
    generalize m.rest id = rest at hplaced
    cases hplaced with
    | working hlistening _ => exact hlistening
    | done _ hgone => exact absurd hgone hthere
  · exact (kept_suspend hsound hrest hends).drains rfl h
  · have hattend := attend_suspend (b := m.board) hp hreceive
    obtain ⟨c, s', hdrain, hempty, hclosed, hworked, hsilent⟩ := drain_doomed service
      (kept_suspend hsound hrest hends)
      (Scene.kill { s with session := { s.session with inbound := rest } })
    refine ⟨c, s', ?_, hempty, hclosed, hworked.inbound, (hsilent rfl).2⟩
    simp only [serve, hattend, hdrain]
    rfl

end

/-- A suspend finds a download that has seen the session alive and is about to queue its first block, an
upload that lacks its content and an allocation that has read nothing. The allocation reads its request
before the session is dead. After that the block is queued, and nothing else. -/
theorem suspend_drains_midway :
    let service : Service := { store := ⟨⟨["dlc"]⟩, ⟨["user"]⟩⟩, limits := ⟨2, 10⟩ }
    let scene : Scene :=
      { tree := ⟨[(["dlc"], .directory), (["dlc", "a"], .file { bytes := [1, 2, 3] })]⟩ }
    let request := ((Packet.new .fileRequest [7, 0, 0, 0, 1, 97]).withKind .dlc).withOperation 1
    let description := (Packet.new .fileInfo [2, 0, 0, 0, 7, 0, 0, 0, 1, 98]).withKind .dlc
    let info := (description.withOperation 2).withMore true
    let idRequest := (Packet.new .idRequest []).withOperation 3
    let suspend := Packet.suspend .manualShutdown
    let opened := ({} : Switchboard).dispatchAll scene [request, info, idRequest]
    let walk := fun (at' : Midway × Scene) (turn : UInt8 × Nat) =>
      (at'.1.partFor service turn.1 turn.2 at'.2).getD at'
    let midway := [(1, 10), (2, 2)].foldl walk ({ board := opened.2.1 }, opened.2.2)
    let signalled := midway.1.signal suspend
    [1, 2, 3].map (fun id => (midway.1.pending? id).map (·.payload)) = [some [1, 2], none, none] ∧
      midway.1.board.dispatch suspend midway.2 = (.stop .manualShutdown, signalled.board, midway.2.kill) ∧
      signalled.board.activeIds = [1, 2, 3] ∧
      (∀ before m₁ after m₂, signalled.Parts service before m₁ → m₁.Parts service after m₂ →
        (∀ x ∈ after, x.found.session.live = false) →
        Midway.Drains service signalled before m₁ after m₂) ∧
      let killed := walk (signalled, midway.2) (3, 1)
      let rest := [(1, 6), (2, 3), (3, 5)].foldl walk (killed.1, killed.2.kill)
      killed.2.session.outbound.waiting.map (·.payload) = [[3, 0, 0, 0, 7, 0, 0, 0, 1, 97]] ∧
        rest.1.board.activeIds = [] ∧ rest.2.tree = scene.tree ∧
        rest.2.session.outbound.waiting.map (·.payload) = [[3, 0, 0, 0, 7, 0, 0, 0, 1, 97], [1, 2]] := by
  intro service scene request description info idRequest suspend opened walk midway signalled
  -- Whoever does parts or cannot, the switchboard is one that may be reached.
  have hwalk (turns : List (UInt8 × Nat)) (at' : Midway × Scene) (h : at'.1.Reachable service) :
      (turns.foldl walk at').1.Reachable service := by
    induction turns generalizing at' with
    | nil => exact h
    | cons turn turns ih =>
      refine ih _ ?_
      cases hparts : at'.1.partFor service turn.1 turn.2 at'.2 with
      | none =>
        simp only [walk, hparts]
        exact h
      | some after =>
        simp only [walk, hparts]
        exact Midway.reachable_partFor h hparts
  have hopened : Midway.Reachable service { board := opened.2.1 } :=
    Midway.reachable_of_whole ((course_dispatchAll {} scene _).reachable .start)
  have hmidway : midway.1.Reachable service := hwalk _ ({ board := opened.2.1 }, opened.2.2) hopened
  have hcode : suspend.suspendCode?.getD .unknown = .manualShutdown := by decide
  obtain ⟨hdispatch, hids, -, hdrains, -⟩ := suspend_drains (p := suspend) hmidway rfl midway.2
  rw [hcode] at hdispatch
  refine ⟨by decide +kernel, hdispatch, hids.trans (by decide +kernel), hdrains, ?_⟩
  exact ⟨by decide +kernel, by decide +kernel, by decide +kernel, by decide +kernel⟩

end Depot.Switchboard
