import Depot.Proofs.Connection.Outcome
import Depot.Proofs.Connection.Schedule

/-!
# Connections are served

Two numbers say how far a connection is from being served. While dispatching goes on, `ahead` counts what
is still to be read and dispatched; behind the verdict, `toGo` counts what the parts of the connection
have to do before all of them have ended. No step raises them, and there is always a part that can go on
until it lowers them. So a connection is served in every fair schedule, and can be from every state.

## Key results

- `ahead_step`, `toGo_step`: what a step does to the two numbers
- `exists_enabled`, `exists_enabled_of_over`: a part that can go on
- `exists_passage_served`, `Schedule.served`: connections are served
- `passage_outcome`: what is dispatched without interference, and how a connection ends
-/

namespace Depot.Connection

variable {left bytes : List UInt8} {c c' : Connection} {e : Event} {packets : List Packet}
  {code : ErrorCode}

/-! ### Up to the verdict -/

/-- What is still to be read and dispatched before the verdict, at most. -/
def ahead (left : List UInt8) (c : Connection) : Nat :=
  (untilSuspend (coming left c)).length + if c.reading then left.length + 1 else 0

/-- Reading lowers what is still to be read. -/
private theorem reading_lt (hlive : c.scene.session.live = true)
    (hundisturbed : Undisturbed left c e) (hstep : c.step? e = some c')
    (htask : e.task? = some .reading) :
    c.reading = true ∧ (if c'.reading then (unread left e).length + 1 else 0) < left.length + 1 := by
  cases steps_of_step? hstep with
  | @read chunk _ _ hreading _ hchunk =>
    -- A chunk has a byte at least, so there is less left.
    have hpos : 0 < chunk.length := List.length_pos_iff.mpr hchunk
    have hle : chunk.length ≤ left.length := List.IsPrefix.length_le hundisturbed
    refine ⟨hreading, ?_⟩
    rw [unread, List.length_drop]
    split <;> omega
  | readEnd hreading => exact ⟨hreading, Nat.succ_pos _⟩
  | readFailure => exact hundisturbed.elim
  | readStop _ hdead =>
    -- The session lives as long as there is no verdict.
    rw [hlive] at hdead
    cases hdead
  | _ => cases htask

/-- Only reading has to do with whether bytes are read. -/
private theorem reading_eq (hstep : c.step? e = some c') (htask : e.task? ≠ some .reading) :
    c'.reading = c.reading ∧ unread left e = left := by
  refine ⟨?_, by cases e <;> first | rfl | exact absurd rfl htask⟩
  -- The four events of reading are excluded, and no other writes to that field.
  cases steps_of_step? hstep with
  | read => exact absurd rfl htask
  | readEnd => exact absurd rfl htask
  | readFailure => exact absurd rfl htask
  | readStop => exact absurd rfl htask
  | @dispatch p _ =>
    rcases c.board.dispatch p c.attended with ⟨flow, board, scene⟩
    cases flow <;> rfl
  | _ => rfl

/-- Only dispatching dispatches. -/
private theorem dispatched_eq_nil (hne : e ≠ .dispatch) : c.dispatched e = [] := by
  cases e <;> first | rfl | exact absurd rfl hne

/-- Up to the verdict no step raises what is ahead, and reading and dispatching lower it. -/
theorem ahead_step (h : c.Orderly) (hopen : c.verdict = none)
    (hundisturbed : Undisturbed left c e) (hstep : c.step? e = some c') :
    c'.verdict.isSome = true ∨ ahead (unread left e) c' < ahead left c ∨
      (ahead (unread left e) c' = ahead left c ∧ c'.verdict = none ∧ c'.reading = c.reading ∧
        e.task? ≠ some .reading ∧ e.task? ≠ some .dispatching) := by
  obtain ⟨-, hmoves⟩ := orderly_step h hundisturbed hstep
  cases hover : c'.verdict with
  | some code => exact .inl rfl
  | none =>
    refine .inr ?_
    rw [ahead, ahead]
    -- By the loop that moves: dispatching takes a packet, reading takes bytes, and no other has to do with
    -- either.
    by_cases hdispatch : e = .dispatch
    · -- What is dispatched is no suspend, so it was one more packet that was ahead.
      subst hdispatch
      obtain ⟨p, hp⟩ : ∃ p, c.upcoming? = some p := by
        cases steps_of_step? hstep with
        | dispatch hp => exact ⟨_, hp⟩
      obtain ⟨hreading, hleft⟩ := reading_eq hstep (by decide)
      rw [dispatched, hp, Option.toList_some, hleft] at hmoves
      cases hmoves with
      | dispatches _ hcoming hverdict =>
        have hother : p.request ≠ .suspend := by
          intro hsuspend
          rw [hover, if_pos hsuspend] at hverdict
          cases hverdict
        left
        rw [hcoming, untilSuspend, if_neg hother, List.length_cons, hreading, hleft]
        omega
    · rw [dispatched_eq_nil hdispatch] at hmoves
      cases hmoves with
      | aside _ hcoming =>
        rw [hcoming hopen]
        by_cases hread : e.task? = some .reading
        · -- Reading moves packets to the inbound queue, where they are coming as before.
          have hlive : c.scene.session.live = true := by rw [h.live, hopen]; rfl
          obtain ⟨hreading, hlt⟩ := reading_lt hlive hundisturbed hstep hread
          left
          rw [hreading, if_pos rfl]
          omega
        · obtain ⟨hreading, hleft⟩ := reading_eq hstep hread
          right
          rw [hreading, hleft]
          refine ⟨rfl, rfl, rfl, hread, ?_⟩
          intro htask
          cases e <;> first | exact hdispatch rfl | cases htask

/-- While there is no verdict bytes can be read, or a packet can be dispatched. -/
theorem exists_enabled (h : c.Orderly) (hd : Destined left c packets code) (hopen : c.verdict = none) :
    Enabled left c (if c.reading then .reading else .dispatching) := by
  cases hreading : c.reading with
  | true =>
    have hread : c.canRead = true := by
      simp only [canRead, hreading, h.live, hopen, Option.isNone_none, Bool.and_self]
    by_cases hleft : left = []
    · refine ⟨.readEnd, { c with buffer := [] }.endReading .socketClosed, rfl, hleft, ?_⟩
      rw [step?, hread]
      rfl
    · refine ⟨.read left, c.takeIn left, rfl, List.prefix_refl left, ?_⟩
      rw [step?, hread, List.isEmpty_eq_false_iff.mpr hleft]
      rfl
  | false =>
    cases hd with
    | ended hover => rw [hopen] at hover; cases hover
    | going _ hends =>
      -- Nothing comes from outside any more, so what is coming is there.
      rw [coming, hreading, if_neg Bool.false_ne_true, List.append_nil] at hends
      obtain ⟨p, rest, hwaiting⟩ := List.exists_cons_of_ne_nil hends.queue_ne_nil
      obtain ⟨inbound, hreceive, -⟩ := Queue.exists_receive hwaiting
      have hupcoming : c.upcoming? = some p := by
        simp only [upcoming?, hopen, h.shutdown, hreceive, Option.isSome_none, Bool.false_eq_true,
          ↓reduceIte]
      refine ⟨.dispatch, c.follow (c.board.dispatch p c.attended), rfl, trivial, ?_⟩
      rw [step?, dispatch?_eq, hupcoming, Option.map_some]

/-! ### Behind the verdict -/

/-- What the parts of a connection have to do before all of them have ended, at most, if the session is
over. -/
def toGo (c : Connection) : Nat :=
  (if c.reading then 1 else 0) + c.board.budget + (if c.board.halt = some .closed then 0 else 1) +
    c.sender.toGo + (if c.watch.ended then 0 else 1) + (if c.probe.ended then 0 else 1)

/-- After the verdict the session is dead. -/
private theorem live_of_over (h : c.Orderly) (hover : c.verdict.isSome = true) :
    c.scene.session.live = false := by
  rw [h.live, Option.isNone_eq_false_iff]
  exact hover

/-- The watch over a dead session ends in its next step. -/
private theorem watch_step?_of_over (times : Liveness.Times) (now : Liveness.Instant)
    (w : Liveness.Watch) :
    w.step? times now false = if w.ended then none else some ({ w with ended := true }, false) := by
  rw [Liveness.Watch.step?]
  split <;> rfl

/-- So does the probe. -/
private theorem probe_step?_of_over (now : Liveness.Instant) (p : Liveness.Probe) :
    p.step? now false = if p.ended then none else some ({ p with ended := true }, false) := by
  rw [Liveness.Probe.step?]
  split <;> rfl

/-- Behind the verdict every step but the passing of time comes nearer to the end. -/
theorem toGo_step (h : c.Orderly) (hover : c.verdict.isSome = true)
    (hundisturbed : Undisturbed left c e) (hstep : c.step? e = some c') :
    c'.toGo < c.toGo ∨ (e.task? = none ∧ ∃ now, c' = { c with now }) := by
  -- The session is over, so nothing is read any more.
  have hdead := live_of_over h hover
  cases steps_of_step? hstep with
  | read _ hlive => rw [hdead] at hlive; cases hlive
  | readEnd _ hlive => rw [hdead] at hlive; cases hlive
  | readFailure => exact hundisturbed.elim
  | readStop hreading =>
    left
    simp only [toGo, hreading, Bool.false_eq_true, ↓reduceIte]
    omega
  | dispatch hp =>
    rw [upcoming?, if_pos hover] at hp
    cases hp
  | operate hadvance =>
    have honward := Switchboard.advance?_onward h.board hadvance
    have hlt := honward.budget (.inr hdead)
    left
    simp only [toGo, honward.halt]
    omega
  | close _ hhalt =>
    left
    simp only [toGo, Switchboard.budget, hhalt, ↓reduceIte]
    omega
  | send hsent =>
    have hlt := Sender.toGo_step?_lt h.writer hundisturbed hdead hsent
    left
    simp only [toGo]
    omega
  | watch hwatch =>
    rw [hdead, watch_step?_of_over] at hwatch
    split at hwatch
    · cases hwatch
    · next hended =>
      cases hwatch
      left
      simp only [toGo, hended, Bool.false_eq_true, ↓reduceIte]
      omega
  | probe hprobe =>
    rw [hdead, probe_step?_of_over] at hprobe
    split at hprobe
    · cases hprobe
    · next hended =>
      cases hprobe
      left
      simp only [toGo, hended, Bool.false_eq_true, ↓reduceIte]
      omega
  | wait => exact .inr ⟨rfl, _, rfl⟩
  | shutdown => exact hundisturbed.elim

/-- Reading in a dead session can stop. -/
private theorem enabled_reading (left : List UInt8) (hdead : c.scene.session.live = false)
    (hreading : c.reading = true) : Enabled left c .reading := by
  refine ⟨.readStop, { c with reading := false, buffer := [] }, rfl, trivial, ?_⟩
  simp only [step?, hreading, hdead, Bool.not_false, Bool.and_self, ↓reduceIte]

/-- The operations are doomed, so one of them runs, or none is left. -/
private theorem exists_enabled_board (hover : c.verdict.isSome = true) (hdoomed : c.board.Doomed)
    (hhalt : c.board.halt ≠ some .closed) : ∃ t, ∀ left now, Enabled left { c with now } t := by
  -- With nobody left the switchboard can be closed.
  cases hidle : c.board.entries.isEmpty with
  | true =>
    refine ⟨.closing, fun left now =>
      ⟨.close, { c with now, board := { c.board with halt := some .closed } }, rfl, trivial, ?_⟩⟩
    simp only [step?, close?, Switchboard.close?, hover, hidle, Bool.true_and, bne_iff_ne, ne_eq,
      hhalt, not_false_eq_true, ↓reduceIte, Option.map_some]
  | false =>
    obtain ⟨id, board, scene, hadvance⟩ :=
      Switchboard.exists_advance? c.service c.scene hdoomed hidle
    refine ⟨.operating id, fun left now =>
      ⟨.operate id, { c with now, board, scene }, rfl, trivial, ?_⟩⟩
    rw [step?, hadvance, Option.map_some]

/-- Sending can go on until it stops, if the socket takes a byte. -/
private theorem enabled_sending (left : List UInt8) (hdead : c.scene.session.live = false)
    (hstopped : c.sender.isStopped = false) : Enabled left c .sending := by
  obtain ⟨sent, hsent⟩ := Sender.exists_step? c.linger c.now hdead hstopped
  have hstep : c.step? (.send (.accept 1)) = some
      { c with sender := sent.sender, scene := sent.scene, outgoing := c.outgoing ++ sent.bytes } := by
    rw [step?, send?, hsent, Option.map_some]
  exact ⟨.send (.accept 1), _, rfl, WriteAnswer.works_accept 0, hstep⟩

/-- The watch can end. -/
private theorem enabled_watching (left : List UInt8) (hdead : c.scene.session.live = false)
    (hwatch : c.watch.ended = false) : Enabled left c .watching := by
  have hstep : c.watch.step? c.times c.now c.scene.session.live =
      some ({ c.watch with ended := true }, false) := by
    rw [hdead, watch_step?_of_over, hwatch, if_neg Bool.false_ne_true]
  refine ⟨.watch, { c with watch := { c.watch with ended := true } }, rfl, fun w hsilent => ?_, ?_⟩
  · rw [hstep] at hsilent
    cases hsilent
  · rw [step?, Scene.watch?, hstep]
    rfl

/-- So can the probe. -/
private theorem enabled_probing (left : List UInt8) (hdead : c.scene.session.live = false)
    (hprobe : c.probe.ended = false) : Enabled left c .probing := by
  refine ⟨.probe, { c with probe := { c.probe with ended := true } }, rfl, trivial, ?_⟩
  rw [step?, Scene.probe?, hdead, probe_step?_of_over, hprobe]
  rfl

/-- As long as a connection with a verdict is not served, a part of it can go on, whatever time it is. -/
theorem exists_enabled_of_over (h : c.Orderly) (hover : c.verdict.isSome = true)
    (hserved : c.isServed = false) : ∃ t, ∀ left now, Enabled left { c with now } t := by
  have hdead := live_of_over h hover
  -- Some part has not ended, and the end of the session lets it go on.
  by_cases hreading : c.reading = true
  · exact ⟨.reading, fun left now => enabled_reading left hdead hreading⟩
  by_cases hhalt : c.board.halt = some .closed
  · by_cases hstopped : c.sender.isStopped = true
    · by_cases hwatch : c.watch.ended = true
      · by_cases hprobe : c.probe.ended = true
        · simp [isServed, hreading, hhalt, hstopped, hwatch, hprobe] at hserved
        · exact ⟨.probing, fun left now => enabled_probing left hdead (by simpa using hprobe)⟩
      · exact ⟨.watching, fun left now => enabled_watching left hdead (by simpa using hwatch)⟩
    · exact ⟨.sending, fun left now => enabled_sending left hdead (by simpa using hstopped)⟩
  · exact exists_enabled_board hover (h.doomed hover) hhalt

/-! ### Being served -/

/-- A passage can go on until there is a verdict. -/
theorem exists_passage_over (h : c.Orderly) (hd : Destined left c packets code) :
    ∃ now left' c', Passage left c now left' c' ∧ c'.Orderly ∧ c'.verdict.isSome = true := by
  induction hn : ahead left c using Nat.strongRecOn generalizing left c packets with
  | ind n ih =>
    cases hopen : c.verdict with
    | some verdict => exact ⟨[], left, c, .nil, h, by rw [hopen]; rfl⟩
    | none =>
      -- The step that can be taken is one that lowers what is ahead.
      obtain ⟨e, c₁, htask, hundisturbed, hstep⟩ := exists_enabled h hd hopen
      have hpassage := Passage.single hundisturbed hstep
      obtain ⟨h₁, _, -, hd₁⟩ := hpassage.destined h hd
      rcases ahead_step h hopen hundisturbed hstep with hover | hlt | ⟨-, -, -, hread, hdispatch⟩
      · exact ⟨_, _, c₁, hpassage, h₁, hover⟩
      · obtain ⟨now, left', c', hpassage', h', hover⟩ := ih _ (hn ▸ hlt) h₁ hd₁ rfl
        exact ⟨_, left', c', hpassage.trans hpassage', h', hover⟩
      · split at htask
        · exact absurd htask hread
        · exact absurd htask hdispatch

/-- However far a passage has come, it can go on until the connection is served. -/
theorem exists_passage_served (h : c.Orderly) (hd : Destined left c packets code) :
    ∃ now left' c', Passage left c now left' c' ∧ c'.isServed = true := by
  obtain ⟨now₁, left₁, c₁, hpassage₁, h₁, hover⟩ := exists_passage_over h hd
  suffices hrest : ∃ now left' c', Passage left₁ c₁ now left' c' ∧ c'.isServed = true by
    obtain ⟨now, left', c', hpassage, hserved⟩ := hrest
    exact ⟨_, left', c', hpassage₁.trans hpassage, hserved⟩
  clear hpassage₁
  -- After the verdict, by induction on what there is to do: some loop can do some of it.
  induction hn : c₁.toGo using Nat.strongRecOn generalizing left₁ c₁ with
  | ind n ih =>
    cases hserved : c₁.isServed with
    | true => exact ⟨[], left₁, c₁, .nil, hserved⟩
    | false =>
      obtain ⟨t, henabled⟩ := exists_enabled_of_over h₁ hover hserved
      obtain ⟨e, c₂, htask, hundisturbed, hstep⟩ := henabled left₁ c₁.now
      have hpassage := Passage.single hundisturbed hstep
      obtain ⟨h₂, hmoves⟩ := orderly_step h₁ hundisturbed hstep
      have hover₂ : c₂.verdict.isSome = true := by rwa [hmoves.verdict_eq hover]
      have hlt := (toGo_step h₁ hover hundisturbed hstep).resolve_right fun hwait => by
        rw [hwait.1] at htask
        cases htask
      obtain ⟨now, left', c', hpassage', hserved'⟩ := ih _ (hn ▸ hlt) _ _ h₂ hover₂ rfl
      exact ⟨_, left', c', hpassage.trans hpassage', hserved'⟩

namespace Schedule

variable {s : Schedule bytes c}

/-- What is ahead gets less: either bytes can be read until they are, or a packet can be dispatched until
it is. -/
private theorem exists_ahead_lt (hfair : s.Fair) (horderly : ∀ n, (s.state n).Orderly)
    (hdestined : ∀ n, ∃ packets, Destined (s.left n) (s.state n) packets code) {n : Nat}
    (hopen : (s.state n).verdict = none) :
    ∃ m, (s.state m).verdict.isSome = true ∨
      ahead (s.left m) (s.state m) < ahead (s.left n) (s.state n) := by
  have hstep (m : Nat) (hm : (s.state m).verdict = none) :=
    ahead_step (horderly m) hm (s.undisturbed m) (s.step m)
  simp only [← s.left_succ] at hstep
  -- While bytes are read it is reading that goes on, and then it is dispatching. Neither can be kept from it
  -- by another loop.
  refine leadsTo hfair (n := n) (if (s.state n).reading then .reading else .dispatching)
    (fun m => (s.state m).verdict = none ∧ (s.state m).reading = (s.state n).reading ∧
      ahead (s.left m) (s.state m) = ahead (s.left n) (s.state n))
    ⟨hopen, rfl, rfl⟩ ?_ ?_ ?_
  · rintro m ⟨hm, hreading, hahead⟩
    rcases hstep m hm with hover | hlt | ⟨heq, hm', hreading', -, -⟩
    · exact .inl (.inl hover)
    · exact .inl (.inr (hahead ▸ hlt))
    · exact .inr ⟨hm', hreading'.trans hreading, heq.trans hahead⟩
  · rintro m ⟨hm, hreading, -⟩
    obtain ⟨packets, hd⟩ := hdestined m
    rw [← hreading]
    exact exists_enabled (horderly m) hd hm
  · rintro m ⟨hm, -, hahead⟩ htask
    rcases hstep m hm with hover | hlt | ⟨-, -, -, hread, hdispatch⟩
    · exact .inl hover
    · exact .inr (hahead ▸ hlt)
    · split at htask
      · exact absurd htask hread
      · exact absurd htask hdispatch

/-- Behind the verdict there gets less to do: until the part that can go on does so, nothing but time
passes. -/
private theorem exists_toGo_lt (hfair : s.Fair) (horderly : ∀ n, (s.state n).Orderly) {n : Nat}
    (hover : (s.state n).verdict.isSome = true) (hserved : (s.state n).isServed = false) :
    ∃ m, (s.state m).verdict.isSome = true ∧ (s.state m).toGo < (s.state n).toGo := by
  obtain ⟨t, henabled⟩ := exists_enabled_of_over (horderly n) hover hserved
  have hstep (m : Nat) (hm : ∃ now, s.state m = { s.state n with now }) :
      (s.state (m + 1)).verdict.isSome = true ∧ ((s.state (m + 1)).toGo < (s.state n).toGo ∨
        ((s.event m).task? = none ∧ ∃ now, s.state (m + 1) = { s.state n with now })) := by
    obtain ⟨now, hm⟩ := hm
    have hover' : (s.state m).verdict.isSome = true := by rw [hm]; exact hover
    have hmoves := (orderly_step (horderly m) (s.undisturbed m) (s.step m)).2
    refine ⟨by rwa [hmoves.verdict_eq hover'], ?_⟩
    have hstep := toGo_step (horderly m) hover' (s.undisturbed m) (s.step m)
    rw [hm] at hstep
    exact hstep
  -- The loop that can go on stays able to, since nothing but the clock changes before somebody moves.
  refine leadsTo hfair (n := n) t (fun m => ∃ now, s.state m = { s.state n with now })
    ⟨_, rfl⟩ ?_ ?_ ?_
  · intro m hm
    obtain ⟨hover', hlt | ⟨-, hsame⟩⟩ := hstep m hm
    · exact .inl ⟨hover', hlt⟩
    · exact .inr hsame
  · rintro m ⟨now, hm⟩
    rw [hm]
    exact henabled _ now
  · intro m hm htask
    obtain ⟨hover', hlt | ⟨hwait, -⟩⟩ := hstep m hm
    · exact ⟨hover', hlt⟩
    · rw [hwait] at htask
      cases htask

/-- In a fair schedule a connection that is destined to end is served. -/
theorem served (hfair : s.Fair) (h : c.Orderly) (hd : Destined bytes c packets code) :
    ∃ n, (s.state n).isServed = true := by
  -- A schedule is a passage up to every state of it.
  have hinvariant (n : Nat) : (s.state n).Orderly ∧
      ∃ packets, Destined (s.left n) (s.state n) packets code := by
    obtain ⟨now, hpassage⟩ := s.passage n
    obtain ⟨h', packets', -, hd'⟩ := hpassage.destined h hd
    exact ⟨h', packets', hd'⟩
  have horderly (n : Nat) := (hinvariant n).1
  have hverdict (k n : Nat) (hk : ahead (s.left n) (s.state n) = k) :
      ∃ m, (s.state m).verdict.isSome = true := by
    induction k using Nat.strongRecOn generalizing n with
    | ind k ih =>
      cases hopen : (s.state n).verdict with
      | some verdict => exact ⟨n, by rw [hopen]; rfl⟩
      | none =>
        obtain ⟨m, hover | hlt⟩ :=
          exists_ahead_lt hfair horderly (fun n => (hinvariant n).2) hopen
        · exact ⟨m, hover⟩
        · exact ih _ (hk ▸ hlt) m rfl
  obtain ⟨n, hover⟩ := hverdict _ 0 rfl
  induction hk : (s.state n).toGo using Nat.strongRecOn generalizing n with
  | ind k ih =>
    cases hserved : (s.state n).isServed with
    | true => exact ⟨n, hserved⟩
    | false =>
      obtain ⟨m, hover', hlt⟩ := exists_toGo_lt hfair horderly hover hserved
      exact ih _ (hk ▸ hlt) m hover' rfl

end Schedule

/-- Without interference the bytes that the peer sends before it closes its end decide how a connection
ends, whatever is in the store and in whatever pieces they are read. They are a stream; its packets are
dispatched in their order, up to the first suspend, whose code is the verdict. Without a suspend all of
them are, and one more that says whether the stream had a faulty header. The connection is served when
no part of it is passed over for ever, and however far it has come it can be. -/
theorem passage_outcome {config : Config} {store : Storage.Store} {tree : Storage.Tree}
    {metrics : Metrics} {slot : Slot} (hslot : slot.Ready config)
    (hstart : start config store tree metrics false slot = .ok c) (bytes : List UInt8) :
    ∃ packets ending, Frame.Stream config.maxPayload bytes packets ending ∧
      (∀ now left c', Passage bytes c now left c' →
        now <+: heard packets ending ∧
        (c'.verdict.isSome = true →
          now = heard packets ending ∧ c'.verdict = some (outcome packets ending)) ∧
        (c'.isServed = true → c'.verdict.isSome = true) ∧
        ∃ now' left' c'', Passage left c' now' left' c'' ∧ c''.isServed = true) ∧
      ∀ s : Schedule bytes c, s.Fair → ∃ n, (s.state n).isServed = true := by
  -- Every byte string is a stream, and its packets and its ending decide everything else.
  obtain ⟨packets, ending, hstream⟩ := Frame.exists_stream config.maxPayload bytes
  obtain ⟨horderly, hdestined⟩ := destined_start hslot hstart hstream
  refine ⟨packets, ending, hstream, fun now left c' hpassage => ?_, fun s hfair =>
    s.served hfair horderly hdestined⟩
  obtain ⟨horderly', later, hheard, hdestined'⟩ := hpassage.destined horderly hdestined
  refine ⟨⟨later, hheard.symm⟩, fun hover => ?_, fun hserved => ?_,
    exists_passage_served horderly' hdestined'⟩
  · obtain ⟨rfl, hverdict⟩ := hdestined'.verdict_eq hover
    exact ⟨by rw [hheard, List.append_nil], hverdict⟩
  · -- The switchboard closes behind the verdict only.
    rw [Option.isSome_iff_ne_none]
    intro hopen
    simp [isServed, horderly'.halt hopen] at hserved

/-- A suspend that garbage follows in the same bytes ends the connection with its own code. -/
theorem passage_outcome_suspend_before_garbage :
    let bytes := (Packet.suspend .noMoreId).header.encode ++ (Packet.suspend .noMoreId).payload ++
      List.replicate 11 0
    let slot := (Slot.new {}).attach 1 (some "192.0.2.1:4000")
    ∃ c, start {} { dlcRoot := ⟨["dlc"]⟩, userRoot := ⟨["user"]⟩ } {} {} false slot = .ok c ∧
      ∃ left c', Passage bytes c [.suspend .noMoreId] left c' ∧ c'.isServed = true ∧
        c'.verdict = some .noMoreId := by
  intro bytes slot
  have hgarbage : Frame.Faulty 524288 (List.replicate 11 0) (.badMagic 0) :=
    .magic (by decide) rfl (by decide)
  have hstream : Frame.Stream 524288 bytes [.suspend .noMoreId] (.faulty (.badMagic 0)) :=
    .frame ⟨rfl, rfl⟩ (by decide) (.rest (.faulty hgarbage))
  obtain ⟨c, hstart⟩ :
      ∃ c, start {} { dlcRoot := ⟨["dlc"]⟩, userRoot := ⟨["user"]⟩ } {} {} false slot = .ok c :=
    ⟨_, rfl⟩
  have hslot : slot.Ready {} := (Slot.ready_new {}).attach 1 _
  obtain ⟨packets, ending, hstream', houtcome, -⟩ := passage_outcome hslot hstart bytes
  obtain ⟨rfl, rfl⟩ := hstream.unique hstream'
  -- The connection can be served from its beginning, and however it is, there is one way it ends.
  obtain ⟨-, -, -, now, left, c', hpassage, hserved⟩ := houtcome [] bytes c .nil
  obtain ⟨-, hend, hover, -⟩ := houtcome now left c' hpassage
  obtain ⟨rfl, hverdict⟩ := hend (hover hserved)
  exact ⟨c, hstart, left, c', hpassage, hserved, hverdict⟩

end Depot.Connection
