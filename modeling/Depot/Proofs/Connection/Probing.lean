import Depot.Proofs.Connection.Outcome
import Depot.Proofs.Connection.SendingSide
import Depot.Proofs.Operation.Answers
import Depot.Proofs.Server.Limits

/-!
# Peers that answer

Two timers look after the peer of a connection: the probe ticks at the multiples of the keepalive
interval, and the watch finds the peer silent when nothing has come for the window. A `Diary` is kept
beside a run, with the instants at which packets came, probes were queued and a silence was found.

That the window is longer than the interval is all that it takes. From the last packet to the next tick
it is at most an interval, so a peer is probed before its window expires, and one that answers at once
starts the window anew. The ticks may be late by less than the difference, as long as none is missed; the
watch may take its steps when it likes, since a packet that has come is seen before the time is looked at.

## Key results

- `guarded_step`: what a step keeps, if ticks are not late and find the outbound queue empty
- `kept_of_lag`: a peer that answers is not found silent
- `answering_peer_is_kept`: the same of every valid configuration if ticks are on time, and that a peer is
  probed before it is found silent
-/

namespace Depot.Connection

/-! ### The diary of a connection -/

/-- The instants of a run that matter to the liveness of the peer, in nanoseconds since it began. -/
structure Diary where
  /-- When packets of the peer came. -/
  heard : List Nat := []
  /-- When probes were queued. -/
  probes : List Nat := []
  /-- When the watch found the peer silent, and suspended the session. -/
  silences : List Nat := []
  deriving DecidableEq, Repr

namespace Diary

/-- What is written down of a step from one state to another. -/
def record (c c' : Connection) (d : Diary) : Event → Diary
  | .read chunk =>
      if (c.reader.feed chunk).packets.isEmpty then d else { d with heard := d.heard ++ [c.now] }
  | .probe => { d with probes := d.probes ++ (c.scene.queued c'.scene).map fun _ => c.now }
  | .watch =>
      if (c.watch.step? c.times c.now c.scene.session.live).any (·.2) then
        { d with silences := d.silences ++ [c.now] }
      else d
  | _ => d

/-- Whether the first packet came within the handshake time, and one at the instant of every probe. What
may still come at this instant is not asked for yet. -/
structure Answered (times : Liveness.Times) (now : Nat) (d : Diary) : Prop where
  greeting : times.handshake.nanos ≤ now → ∃ t ∈ d.heard, t < times.handshake.nanos
  answers : ∀ t ∈ d.probes, t < now → t ∈ d.heard

end Diary

/-- Whether a step lets no tick be late by more than `lag`, and finds the outbound queue empty if it is
one. -/
def isCalm (lag : Nat) (c : Connection) : Event → Bool
  | .wait duration => !c.scene.session.live || c.now + duration.nanos ≤ c.probe.next + lag
  | .probe =>
      !(c.probe.step? c.now c.scene.session.live).any (·.2) || c.scene.session.outbound.isEmpty
  | _ => true

/-- A run of such steps, with its diary. -/
inductive Watched (lag : Nat) (c₀ : Connection) : Diary → Connection → Prop
  | start : Watched lag c₀ {} c₀
  | step {d : Diary} {c c' : Connection} {e : Event} (h : Watched lag c₀ d c)
      (hcalm : c.isCalm lag e = true) (hstep : c.step? e = some c') :
      Watched lag c₀ (d.record c c' e) c'

/-- A run with its diary, if the steps can be taken one after another. -/
def Diary.trace? (lag : Nat) (d : Diary) (c : Connection) : List Event → Option (Diary × Connection)
  | [] => some (d, c)
  | e :: rest =>
      if c.isCalm lag e then (c.step? e).bind fun c' => (d.record c c' e).trace? lag c' rest else none

/-- A course of calm steps is watched, and the diary of it is the one that the trace writes. -/
theorem watched_of_trace? {lag : Nat} {c₀ c c' : Connection} {d d' : Diary} {events : List Event}
    (h : Watched lag c₀ d c) (htrace : d.trace? lag c events = some (d', c')) :
    Watched lag c₀ d' c' := by
  -- By induction on the events, from every state that is watched.
  induction events generalizing d c with
  | nil =>
    cases htrace
    exact h
  | cons e rest ih =>
    simp only [Diary.trace?] at htrace
    split at htrace
    · next hcalm =>
      obtain ⟨c₁, hstep, hrest⟩ := Option.bind_eq_some_iff.mp htrace
      exact ih (h.step hcalm hstep) hrest
    · cases htrace

/-! ### The two timers -/

/-- What a step of the watch comes to. -/
theorem watch_cases {times : Liveness.Times} {now : Liveness.Instant} {live silent : Bool}
    {w w' : Liveness.Watch} (h : w.step? times now live = some (w', silent)) :
    w.ended = false ∧
      (live = false ∧ silent = false ∧ w' = { w with ended := true } ∨
        live = true ∧ w.noticed = true ∧ silent = false ∧
          w' = { w with deadline := now + times.window.nanos, noticed := false } ∨
        live = true ∧ w.noticed = false ∧ w.deadline ≤ now ∧ silent = true ∧
          w' = { w with ended := true }) := by
  -- The cases are asked in this order: the end of the session, a packet, the time.
  unfold Liveness.Watch.step? at h
  cases hended : w.ended with
  | true =>
    rw [if_pos hended] at h
    cases h
  | false =>
    rw [if_neg (by rw [hended]; exact Bool.false_ne_true)] at h
    refine ⟨rfl, ?_⟩
    cases live with
    | false =>
      cases h
      exact .inl ⟨rfl, rfl, rfl⟩
    | true =>
      simp only [Bool.not_true, Bool.false_eq_true, ↓reduceIte] at h
      split at h
      · next hnoticed =>
        cases h
        exact .inr (.inl ⟨rfl, hnoticed, rfl, by rw [hended]⟩)
      · next hnoticed =>
        split at h
        · next hlate =>
          cases h
          exact .inr (.inr ⟨rfl, Bool.eq_false_iff.mpr hnoticed, hlate, rfl, rfl⟩)
        · cases h

/-- What a step of the probe comes to. -/
theorem probe_cases {now : Liveness.Instant} {live tick : Bool} {p p' : Liveness.Probe}
    (h : p.step? now live = some (p', tick)) :
    live = false ∧ tick = false ∧ p' = { p with ended := true } ∨
      live = true ∧ tick = true ∧ p.next ≤ now ∧ ∃ next, p' = { p with next } ∧
        p.next + p.interval.nanos ≤ next ∧
        (now ≤ p.next + Liveness.Probe.slack → next = p.next + p.interval.nanos) := by
  -- A probe that is over has no step, one whose session is dead ends, and one that is due ticks.
  unfold Liveness.Probe.step? at h
  split at h
  · cases h
  · cases live with
    | false =>
      cases h
      exact .inl ⟨rfl, rfl, rfl⟩
    | true =>
      simp only [Bool.not_true, Bool.false_eq_true, ↓reduceIte] at h
      split at h
      · next hdue =>
        cases h
        exact .inr ⟨rfl, rfl, hdue, _, rfl, p.le_after now, Liveness.Probe.after_of_le⟩
      · cases h

/-- What a probe begins as. -/
theorem probe_of_start? {interval : Duration} {now : Liveness.Instant} {p : Liveness.Probe}
    (h : Liveness.Probe.start? interval now = some p) :
    p = { interval := interval, next := now + interval.nanos } := by
  simp only [Liveness.Probe.start?] at h
  split at h
  · cases h
  · exact (Option.some.inj h).symm

/-- The clock and the timers of a connection. -/
def timers (c : Connection) :
    Liveness.Instant × Liveness.Times × Liveness.Watch × Liveness.Probe :=
  (c.now, c.times, c.watch, c.probe)

/-- Whether an event may have to do with them. -/
def Event.isTimed : Event → Bool
  | .read _ | .watch | .probe | .wait _ => true
  | _ => false

/-- A step that is not one of the timers leaves them as they are. -/
theorem timers_step {c c' : Connection} {e : Event} (htimed : e.isTimed = false)
    (h : c.step? e = some c') : c'.timers = c.timers := by
  -- Dispatching changes much, but no timer, whichever way it goes.
  cases steps_of_step? h with
  | read => cases htimed
  | watch => cases htimed
  | probe => cases htimed
  | wait => cases htimed
  | @dispatch p _ =>
    rcases c.board.dispatch p c.attended with ⟨flow, board, scene⟩
    cases flow <;> rfl
  | _ => rfl

/-- However many packets bytes bring, the watch notices that there are some. -/
private theorem watch_foldl_accept (c : Connection) (packets : List Packet) :
    (packets.foldl accept c).watch = if packets.isEmpty then c.watch else c.watch.notice := by
  induction packets generalizing c with
  | nil => rfl
  | cons p packets ih =>
    rw [List.foldl_cons, ih]
    -- Several packets count as one.
    cases packets <;> rfl

/-- The watch is told of the packets that bytes complete. -/
theorem watch_takeIn (c : Connection) (chunk : List UInt8) :
    (c.takeIn chunk).watch =
      if (c.reader.feed chunk).packets.isEmpty then c.watch else c.watch.notice := by
  have hfold := watch_foldl_accept
    { c with reader := (c.reader.feed chunk).reader, buffer := chunk } (c.reader.feed chunk).packets
  simp only [takeIn]
  cases (c.reader.feed chunk).fault <;> exact hfold

/-- A tick that finds the outbound queue empty queues a probe. -/
theorem queued_probe {s : Scene} (hempty : s.session.outbound.isEmpty = true)
    (hlistening : s.session.outbound.receiver = .listening) :
    s.queued s.probe = [.connectionCheck] := by
  rw [Scene.probe, if_pos hempty]
  simp only [Scene.queued, Session.post, Queue.waiting_push _ hlistening, List.drop_left]

/-! ### What is kept -/

/-- An interval after any instant at most there is a multiple of it. -/
private theorem exists_multiple {interval lag count t now : Nat} (hinterval : 0 < interval)
    (hlate : t + interval + lag < now) (hdue : now ≤ (count + 1) * interval + lag) :
    ∃ i < count, t < (i + 1) * interval ∧ (i + 1) * interval ≤ t + interval := by
  have hafter : t < (t / interval + 1) * interval :=
    Nat.lt_mul_of_div_lt (Nat.lt_succ_self _) hinterval
  have hsoon : (t / interval + 1) * interval ≤ t + interval := by
    rw [Nat.succ_mul]
    exact Nat.add_le_add_right (Nat.div_mul_le_self t _) _
  have hlt : (t / interval + 1) * interval < (count + 1) * interval := by omega
  exact ⟨t / interval, Nat.lt_of_succ_lt_succ (Nat.lt_of_mul_lt_mul_right hlt), hafter, hsoon⟩

/-- How a connection and its diary fit together. -/
structure Guarded (lag : Nat) (times : Liveness.Times) (d : Diary) (c : Connection) : Prop where
  timed : c.times = times
  interval : c.probe.interval = times.keepalive
  underway : c.Underway
  outlet : ∃ queued taken hindered, c.outlet.Ordered queued taken hindered
  /-- There was one probe for every tick. -/
  next : c.probe.next = (d.probes.length + 1) * times.keepalive.nanos
  due : c.scene.session.live = true → c.now ≤ c.probe.next + lag
  probes : ∀ i < d.probes.length, ∃ t ∈ d.probes,
    (i + 1) * times.keepalive.nanos ≤ t ∧ t ≤ (i + 1) * times.keepalive.nanos + lag
  past : ∀ t ∈ d.heard, t ≤ c.now
  /-- The watch has seen a packet or is about to, and gives the peer the window from then on. -/
  window : c.watch.ended = false →
    ∀ t ∈ d.heard, c.watch.noticed = true ∨ t + times.window.nanos ≤ c.watch.deadline
  handshake : c.watch.ended = false → d.heard = [] →
    c.watch.noticed = false ∧ c.watch.deadline = times.handshake.nanos
  silences : ∀ s ∈ d.silences, s ≤ c.now ∧ ∀ t ∈ d.heard, t < s →
    t + times.window.nanos ≤ s ∧ ∃ p ∈ d.probes, t < p ∧ p ≤ t + times.keepalive.nanos + lag

variable {lag : Nat} {times : Liveness.Times} {d : Diary} {c c' : Connection} {e : Event}

namespace Guarded

/-- After any instant there is a probe, an interval and the lag later at most. -/
theorem exists_probe (h : Guarded lag times d c) (hkeepalive : 0 < times.keepalive.nanos)
    (hlive : c.scene.session.live = true) {t : Nat}
    (hlate : t + times.keepalive.nanos + lag < c.now) :
    ∃ p ∈ d.probes, t < p ∧ p ≤ t + times.keepalive.nanos + lag := by
  have hdue : c.now ≤ (d.probes.length + 1) * times.keepalive.nanos + lag := h.next ▸ h.due hlive
  obtain ⟨i, hi, hafter, hsoon⟩ := exists_multiple hkeepalive hlate hdue
  obtain ⟨p, hp, hlow, hhigh⟩ := h.probes i hi
  exact ⟨p, hp, by omega, by omega⟩

/-- If every probe was answered, the window of some packet is still open. -/
theorem exists_recent (h : Guarded lag times d c) (hkeepalive : 0 < times.keepalive.nanos)
    (hwindow : times.keepalive.nanos + lag < times.window.nanos)
    (hlive : c.scene.session.live = true) (hanswers : ∀ t ∈ d.probes, t < c.now → t ∈ d.heard)
    (hheard : d.heard ≠ []) : ∃ t ∈ d.heard, ¬t + times.window.nanos ≤ c.now := by
  by_cases hlate : times.keepalive.nanos + lag < c.now
  · obtain ⟨t, ht, hafter, hbefore⟩ :=
      h.exists_probe hkeepalive hlive (t := c.now - times.keepalive.nanos - lag - 1) (by omega)
    exact ⟨t, hanswers t ht (by omega), by omega⟩
  · -- There need not have been a tick yet, but any packet is recent.
    obtain ⟨t, rest, hcons⟩ := List.exists_cons_of_ne_nil hheard
    exact ⟨t, hcons ▸ List.mem_cons_self, by omega⟩

/-- A step keeps what the sending side relies on, and the session does not come back to life. -/
private theorem sending (h : Guarded lag times d c) (hstep : c.step? e = some c') :
    c'.Underway ∧ (∃ queued taken hindered, c'.outlet.Ordered queued taken hindered) ∧
      (c'.scene.session.live = true → c.scene.session.live = true) := by
  obtain ⟨queued, taken, hindered, hordered⟩ := h.outlet
  obtain ⟨hunderway, events, hrun⟩ := h.underway.step hstep
  obtain ⟨more, hordered', -⟩ := Outlet.ordered_run hordered hrun
  exact ⟨hunderway, ⟨_, _, _, hordered'⟩, h.underway.live_of_step hstep⟩

/-- A step that has nothing to do with the timers. -/
private theorem beside (h : Guarded lag times d c) (hstep : c.step? e = some c')
    (htimed : e.isTimed = false) : Guarded lag times d c' := by
  obtain ⟨hunderway, houtlet, hlive⟩ := h.sending hstep
  -- Nothing was heard, probed or found, so the diary stays as it is.
  have hsame := timers_step htimed hstep
  simp only [timers, Prod.mk.injEq] at hsame
  obtain ⟨hnow, htimes, hwatch, hprobe⟩ := hsame
  exact {
    timed := htimes.trans h.timed
    interval := hprobe ▸ h.interval
    underway := hunderway
    outlet := houtlet
    next := hprobe ▸ h.next
    due := fun hlive' => by
      rw [hnow, hprobe]
      exact h.due (hlive hlive')
    probes := h.probes
    past := hnow ▸ h.past
    window := hwatch ▸ h.window
    handshake := hwatch ▸ h.handshake
    silences := hnow ▸ h.silences }

/-- Time that passes calmly does not pass the next tick by more than the lag. -/
private theorem wait {duration : Duration} (h : Guarded lag times d c)
    (hcalm : c.isCalm lag (.wait duration) = true) (hstep : c.step? (.wait duration) = some c') :
    Guarded lag times d c' := by
  obtain ⟨hunderway, houtlet, -⟩ := h.sending hstep
  cases hstep
  have hlater : c.now ≤ c.now + duration.nanos := Nat.le_add_right _ _
  exact { h with
    underway := hunderway
    outlet := houtlet
    due := fun hlive => by
      have hlive' : c.scene.session.live = true := hlive
      simpa only [isCalm, hlive', Bool.not_true, Bool.false_or, decide_eq_true_eq] using hcalm
    past := fun t ht => Nat.le_trans (h.past t ht) hlater
    silences := fun s hs => ⟨Nat.le_trans (h.silences s hs).1 hlater, (h.silences s hs).2⟩ }

/-- Packets that come are heard at this instant, and the watch has noticed them. -/
private theorem read {chunk : List UInt8} (h : Guarded lag times d c)
    (hstep : c.step? (.read chunk) = some c') :
    Guarded lag times (d.record c c' (.read chunk)) c' := by
  obtain ⟨hunderway, houtlet, -⟩ := h.sending hstep
  cases steps_of_step? hstep with
  | read _ _ _ hwatch =>
    rw [watch_takeIn] at hwatch
    simp only [Diary.record]
    -- Bytes without a packet are not heard.
    cases hnone : (c.reader.feed chunk).packets.isEmpty with
    | true =>
      simp only [hnone, ↓reduceIte] at hwatch ⊢
      subst hwatch
      exact { h with underway := hunderway, outlet := houtlet }
    | false =>
      simp only [hnone, Bool.false_eq_true, ↓reduceIte] at hwatch ⊢
      subst hwatch
      exact { h with
        underway := hunderway
        outlet := houtlet
        past := fun t ht => by
          rcases List.mem_append.mp ht with ht | ht
          · exact h.past t ht
          · exact Nat.le_of_eq (List.mem_singleton.mp ht)
        window := fun _ t _ => .inl rfl
        handshake := fun _ hheard => absurd hheard (List.append_ne_nil_of_right_ne_nil _ (List.cons_ne_nil _ _))
        silences := fun s hs => by
          refine ⟨(h.silences s hs).1, fun t ht hbefore => ?_⟩
          rcases List.mem_append.mp ht with ht | ht
          · exact (h.silences s hs).2 t ht hbefore
          · -- What comes now does not come before a silence that was found.
            rw [List.mem_singleton.mp ht] at hbefore
            exact absurd hbefore (Nat.not_lt.mpr (h.silences s hs).1) }

/-- The watch ends, starts its window anew, or finds silence, and then the window after every packet is over.
-/
private theorem watch (h : Guarded lag times d c) (hkeepalive : 0 < times.keepalive.nanos)
    (hwindow : times.keepalive.nanos + lag < times.window.nanos) (hstep : c.step? .watch = some c') :
    Guarded lag times (d.record c c' .watch) c' := by
  obtain ⟨hunderway, houtlet, -⟩ := h.sending hstep
  cases steps_of_step? hstep with
  | @watch watch silent hwatch =>
    simp only [Diary.record, hwatch, Option.any_some]
    -- Silence is found only when a window has closed after the last packet, and in a window there is room for
    -- a tick.
    obtain ⟨hended, hdead | hnotices | hsilent⟩ := watch_cases hwatch
    · obtain ⟨-, rfl, rfl⟩ := hdead
      exact { h with
        underway := hunderway
        outlet := houtlet
        window := fun hended => by cases hended
        handshake := fun hended => by cases hended }
    · obtain ⟨-, hnoticed, rfl, rfl⟩ := hnotices
      exact { h with
        underway := hunderway
        outlet := houtlet
        window := fun _ t ht => .inr (by rw [h.timed]; exact Nat.add_le_add_right (h.past t ht) _)
        handshake := fun _ hheard => by
          rw [(h.handshake hended hheard).1] at hnoticed
          cases hnoticed }
    · obtain ⟨hlive, hnoticed, hlate, rfl, rfl⟩ := hsilent
      exact { h with
        underway := hunderway
        outlet := houtlet
        window := fun hended => by cases hended
        handshake := fun hended => by cases hended
        silences := fun s hs => by
          rcases List.mem_append.mp hs with hs | hs
          · exact h.silences s hs
          · rw [List.mem_singleton.mp hs]
            refine ⟨Nat.le_refl _, fun t ht _ => ?_⟩
            have hclosed : t + times.window.nanos ≤ c.now := by
              rcases h.window hended t ht with hseen | hopen
              · rw [hnoticed] at hseen
                cases hseen
              · exact Nat.le_trans hopen hlate
            exact ⟨hclosed, h.exists_probe hkeepalive hlive (by omega)⟩ }

/-- A tick on time is the next multiple of the interval, and the one after it is due an interval later. -/
private theorem probe (h : Guarded lag times d c) (hlag : lag ≤ Liveness.Probe.slack)
    (hcalm : c.isCalm lag .probe = true) (hstep : c.step? .probe = some c') :
    Guarded lag times (d.record c c' .probe) c' := by
  obtain ⟨hunderway, houtlet, -⟩ := h.sending hstep
  cases steps_of_step? hstep with
  | @probe probe tick hprobe =>
    simp only [Diary.record]
    rcases probe_cases hprobe with ⟨hdead, rfl, rfl⟩ | ⟨hlive, rfl, hdue, next, rfl, hlater, hnext⟩
    · have hnone : c.scene.queued c.scene = [] := List.drop_length
      simp only [Bool.false_eq_true, ↓reduceIte, hnone, List.map_nil,
        List.append_nil]
      exact { h with underway := hunderway, outlet := houtlet }
    · have hempty : c.scene.session.outbound.isEmpty = true := by
        simpa only [isCalm, hprobe, Option.any_some, Bool.not_true, Bool.false_or] using hcalm
      obtain ⟨queued, taken, hindered, hordered⟩ := h.outlet
      have hprobes := queued_probe hempty hordered.listening
      simp only [↓reduceIte, hprobes, List.map_cons, List.map_nil]
      have hcount : (d.probes ++ [c.now]).length = d.probes.length + 1 := List.length_append
      have hlate : c.now ≤ c.probe.next + lag := h.due hlive
      exact { h with
        underway := hunderway
        outlet := houtlet
        next := by
          -- A tick that is as late as that was not missed.
          have hnext := hnext (Nat.le_trans hlate (Nat.add_le_add_left hlag _))
          rw [hcount, Nat.succ_mul _ times.keepalive.nanos, ← h.next, ← h.interval]
          exact hnext
        due := fun _ => by
          have hafter : c.probe.next ≤ next := Nat.le_trans (Nat.le_add_right _ _) hlater
          exact Nat.le_trans hlate (Nat.add_le_add_right hafter lag)
        probes := fun i hi => by
          rw [hcount] at hi
          rcases Nat.lt_succ_iff_lt_or_eq.mp hi with hi | rfl
          · obtain ⟨t, ht, hbounds⟩ := h.probes i hi
            exact ⟨t, List.mem_append_left _ ht, hbounds⟩
          · -- The tick itself is neither early nor late.
            rw [h.next] at hdue hlate
            exact ⟨c.now, List.mem_append_right _ List.mem_cons_self, hdue, hlate⟩
        silences := fun s hs => by
          refine ⟨(h.silences s hs).1, fun t ht hbefore => ?_⟩
          obtain ⟨hclosed, p, hp, hbounds⟩ := (h.silences s hs).2 t ht hbefore
          exact ⟨hclosed, p, List.mem_append_left _ hp, hbounds⟩ }

end Guarded

/-- Every step keeps the two timers in step, if no tick is late and each finds the outbound queue
empty. -/
theorem guarded_step (h : Guarded lag times d c) (hlag : lag ≤ Liveness.Probe.slack)
    (hkeepalive : 0 < times.keepalive.nanos)
    (hwindow : times.keepalive.nanos + lag < times.window.nanos) (hcalm : c.isCalm lag e = true)
    (hstep : c.step? e = some c') : Guarded lag times (d.record c c' e) c' := by
  cases e with
  | read chunk => exact h.read hstep
  | watch => exact h.watch hkeepalive hwindow hstep
  | probe => exact h.probe hlag hcalm hstep
  | wait duration => exact h.wait hcalm hstep
  | _ => exact h.beside hstep rfl

/-- A connection over a slot that is ready begins with its timers in step. -/
theorem guarded_start {config : Config} {store : Storage.Store} {tree : Storage.Tree}
    {metrics : Metrics} {shutdown : Bool} {slot : Slot} (lag : Nat) (hslot : slot.Ready config)
    (hstart : start config store tree metrics shutdown slot = .ok c) :
    Guarded lag config.liveness {} c := by
  obtain ⟨id, peer, probe, hprobe, rfl⟩ := start_eq_ok hslot hstart
  have hbegins := probe_of_start? hprobe
  -- Nothing was heard yet, and the first tick is due after one interval.
  exact {
    timed := rfl
    interval := by rw [hbegins]
    underway := ⟨fun _ => rfl, Switchboard.sound_empty⟩
    outlet := ⟨_, _, _, Outlet.ordered_start config.linger config.sendChunk rfl⟩
    next := by simp only [hbegins, List.length_nil, Nat.zero_add, Nat.one_mul]
    due := fun _ => Nat.zero_le _
    probes := fun i hi => absurd hi (Nat.not_lt_zero i)
    past := List.forall_mem_nil _
    window := fun _ => List.forall_mem_nil _
    handshake := fun _ _ => ⟨rfl, Nat.zero_add _⟩
    silences := List.forall_mem_nil _ }

/-! ### Whole runs -/

/-- The timers stay in step for as long as everything is calm. -/
theorem Watched.guarded {c₀ : Connection} (h : Watched lag c₀ d c) (h₀ : Guarded lag times {} c₀)
    (hlag : lag ≤ Liveness.Probe.slack) (hkeepalive : 0 < times.keepalive.nanos)
    (hwindow : times.keepalive.nanos + lag < times.window.nanos) : Guarded lag times d c := by
  induction h with
  | start => exact h₀
  | step _ hcalm hstep ih => exact guarded_step ih hlag hkeepalive hwindow hcalm hstep

/-- A step writes down nothing but what happens at its instant, and time does not run backwards. -/
private theorem record_cases (hstep : c.step? e = some c') :
    c.now ≤ c'.now ∧ (∀ t ∈ (d.record c c' e).heard, t ∈ d.heard ∨ t = c.now) ∧
      ∀ t ∈ d.probes, t ∈ (d.record c c' e).probes := by
  have hnow : c.now ≤ c'.now := by
    cases steps_of_step? hstep with
    | wait => exact Nat.le_add_right _ _
    | @dispatch p _ =>
      rcases c.board.dispatch p c.attended with ⟨flow, board, scene⟩
      cases flow <;> exact Nat.le_refl _
    | _ => exact Nat.le_refl _
  -- Whatever is written down is written at the end, with the instant of the step.
  refine ⟨hnow, ?_, ?_⟩
  · intro t ht
    unfold Diary.record at ht
    split at ht
    · split at ht
      · exact .inl ht
      · exact (List.mem_append.mp ht).imp id List.mem_singleton.mp
    · exact .inl ht
    · split at ht <;> exact .inl ht
    · exact .inl ht
  · intro t ht
    unfold Diary.record
    split
    · split <;> exact ht
    · exact List.mem_append_left _ ht
    · split <;> exact ht
    · exact ht

/-- A peer that has answered in time had done so before the last step. -/
private theorem answered_before (hstep : c.step? e = some c')
    (hanswered : (d.record c c' e).Answered times c'.now) : d.Answered times c.now := by
  -- What was heard in the last step came at its instant, too late to answer anything before it.
  obtain ⟨hnow, hheard, hprobes⟩ := record_cases (d := d) hstep
  constructor
  · intro hexpired
    obtain ⟨t, ht, hin⟩ := hanswered.greeting (Nat.le_trans hexpired hnow)
    rcases hheard t ht with ht | rfl
    · exact ⟨t, ht, hin⟩
    · exact absurd hexpired (Nat.not_le.mpr hin)
  · intro t ht hbefore
    rcases hheard t (hanswered.answers t (hprobes t ht) (Nat.lt_of_lt_of_le hbefore hnow)) with
      hheard | rfl
    · exact hheard
    · exact absurd hbefore (Nat.lt_irrefl _)

/-- A peer that answers is not found silent by the next step of the watch. -/
private theorem not_silent (h : Guarded lag times d c) (hkeepalive : 0 < times.keepalive.nanos)
    (hwindow : times.keepalive.nanos + lag < times.window.nanos)
    (hanswered : d.Answered times c.now) {w : Liveness.Watch} :
    c.watch.step? c.times c.now c.scene.session.live ≠ some (w, true) := by
  intro hsilent
  obtain ⟨hended, hdead | hnotices | ⟨hlive, hnoticed, hlate, -, -⟩⟩ := watch_cases hsilent
  · cases hdead.2.1
  · cases hnotices.2.2.1
  -- After the handshake time a peer that answers has been heard, so it is a window that would have closed.
  · have hheard : d.heard ≠ [] := by
      intro hnone
      rw [(h.handshake hended hnone).2] at hlate
      obtain ⟨t, ht, -⟩ := hanswered.greeting hlate
      rw [hnone] at ht
      cases ht
    obtain ⟨t, ht, hrecent⟩ :=
      h.exists_recent hkeepalive hwindow hlive hanswered.answers hheard
    rcases h.window hended t ht with hseen | hopen
    · rw [hnoticed] at hseen
      cases hseen
    · exact hrecent (Nat.le_trans hopen hlate)

/-- A peer that answers every probe at once is never found silent, if ticks are late by less than what
the window is longer than the interval. -/
theorem kept_of_lag {c₀ : Connection} (h : Watched lag c₀ d c) (h₀ : Guarded lag times {} c₀)
    (hlag : lag ≤ Liveness.Probe.slack) (hkeepalive : 0 < times.keepalive.nanos)
    (hwindow : times.keepalive.nanos + lag < times.window.nanos)
    (hanswered : d.Answered times c.now) : d.silences = [] := by
  -- By induction on the steps. Only one of the watch can find silence, and by then everything before it was
  -- answered.
  induction h with
  | start => rfl
  | @step d c c' e hwatched hcalm hstep ih =>
    have hguarded := hwatched.guarded h₀ hlag hkeepalive hwindow
    have hbefore := answered_before hstep hanswered
    have hnone := ih hbefore
    unfold Diary.record
    split
    · split <;> exact hnone
    · exact hnone
    · split
      · next hsilent =>
        obtain ⟨⟨w, silent⟩, hfound, hsilent⟩ := (Option.any_eq_true _ _).mp hsilent
        cases hsilent
        exact absurd hfound (not_silent hguarded hkeepalive hwindow hbefore)
      · exact hnone
    · exact hnone

/-- Under a valid configuration, with ticks that are on time and find the outbound queue empty, a peer
whose first packet comes within the handshake time and that answers every probe at its instant is never
found silent. Whatever the peer does, a probe is queued after each of its packets before the window of
that packet expires, and so before it is found silent.

That ticks are on time means that the clock is exact: none is late at all. `kept_of_lag` has ticks that are
late, as those of a clock that stands at whole milliseconds only may be. -/
theorem answering_peer_is_kept {config : Config} {store : Storage.Store} {tree : Storage.Tree}
    {metrics : Metrics} {shutdown : Bool} {slot : Slot} {c₀ : Connection}
    (hvalid : config.validate = .ok ()) (hslot : slot.Ready config)
    (hstart : start config store tree metrics shutdown slot = .ok c₀) (h : Watched 0 c₀ d c) :
    (d.Answered config.liveness c.now → d.silences = []) ∧
      (c.scene.session.live = true → ∀ t ∈ d.heard, t + config.liveness.window.nanos ≤ c.now →
        ∃ p ∈ d.probes, t < p ∧ p < t + config.liveness.window.nanos) ∧
      ∀ s ∈ d.silences, ∀ t ∈ d.heard, t < s → t + config.liveness.window.nanos ≤ s ∧
        ∃ p ∈ d.probes, t < p ∧ p < t + config.liveness.window.nanos := by
  have hsensible := Config.validate_eq_ok_iff.mp hvalid
  have hkeepalive := hsensible.keepalive
  have hwindow := hsensible.window
  -- A valid configuration leaves a window longer than the keepalive interval, so every window has a tick in
  -- it.
  have h₀ := guarded_start 0 hslot hstart
  have hguarded := h.guarded h₀ (Nat.zero_le _) hkeepalive hwindow
  refine ⟨kept_of_lag h h₀ (Nat.zero_le _) hkeepalive hwindow, fun hlive t ht hclosed => ?_,
    fun s hs t ht hbefore => ?_⟩
  · obtain ⟨p, hp, hafter, hsoon⟩ :=
      hguarded.exists_probe hkeepalive hlive (t := t) (Nat.lt_of_lt_of_le (by omega) hclosed)
    exact ⟨p, hp, hafter, by omega⟩
  · obtain ⟨hclosed, p, hp, hafter, hsoon⟩ := (hguarded.silences s hs).2 t ht hbefore
    exact ⟨hclosed, p, hp, hafter, by omega⟩

/-- A peer that is probed every two milliseconds and has a window of three: it is kept while it answers,
and when it stops it is probed once more before it is found silent. -/
theorem answering_peer_is_kept_until_it_stops :
    let times : Liveness.Times := { keepalive := .millis 2, window := .millis 3, handshake := .millis 1 }
    let config : Config := { liveness := times }
    let slot := (Slot.new config).attach 1 (some "192.0.2.1:4000")
    ∃ c₀, start config { dlcRoot := ⟨["dlc"]⟩, userRoot := ⟨["user"]⟩ } {} {} false slot = .ok c₀ ∧
      (∃ d c, Watched 0 c₀ d c ∧ d.Answered times c.now ∧ d.probes = [2000000, 4000000] ∧
        d.silences = []) ∧
      ∃ d c, Watched 0 c₀ d c ∧ d.silences = [7000000] ∧
        ∃ p ∈ d.probes, 4000000 < p ∧ p < 7000000 := by
  intro times config slot
  have hvalid : config.validate = .ok () := rfl
  have hslot : slot.Ready config := (Slot.ready_new config).attach 1 _
  let c₀ : Connection :=
    (start config { dlcRoot := ⟨["dlc"]⟩, userRoot := ⟨["user"]⟩ } {} {} false slot).toOption.get rfl
  have hstart : start config { dlcRoot := ⟨["dlc"]⟩, userRoot := ⟨["user"]⟩ } {} {} false slot =
    .ok c₀ := rfl
  let check := Packet.connectionCheck.header.encode ++ Packet.connectionCheck.payload
  let answering : List Event :=
    [.read check, .watch, .wait (.millis 2), .probe, .read check, .watch, .send (.accept 1),
      .send (.accept 12), .wait (.millis 2), .probe, .read check, .watch, .send (.accept 1),
      .send (.accept 12), .wait (.millis 1)]
  let silent : List Event := [.wait (.millis 1), .probe, .wait (.millis 1), .watch]
  obtain ⟨⟨d, c⟩, htrace, hchecks⟩ := (Option.any_eq_true _ _).mp
    (show (Diary.trace? 0 {} c₀ answering).any (fun result =>
        result.1 == { heard := [0, 2000000, 4000000], probes := [2000000, 4000000] } &&
          result.2.now == 5000000) = true by
      decide +kernel)
  obtain ⟨⟨d', c'⟩, htrace', hchecks'⟩ := (Option.any_eq_true _ _).mp
    (show (Diary.trace? 0 {} c₀ (answering ++ silent)).any (fun result =>
        result.1 ==
          { heard := [0, 2000000, 4000000]
            probes := [2000000, 4000000, 6000000]
            silences := [7000000] }) = true by
      decide +kernel)
  simp only [Bool.and_eq_true, beq_iff_eq] at hchecks hchecks'
  obtain ⟨rfl, hnow⟩ := hchecks
  subst hchecks'
  have hwatched := watched_of_trace? .start htrace
  have hwatched' := watched_of_trace? .start htrace'
  have hanswered : Diary.Answered times c.now { heard := [0, 2000000, 4000000], probes := [2000000, 4000000] } := by
    rw [hnow]
    exact ⟨fun _ => ⟨0, by decide, by decide⟩, by decide⟩
  have hkept := (answering_peer_is_kept hvalid hslot hstart hwatched).1 hanswered
  have hprobed := (answering_peer_is_kept hvalid hslot hstart hwatched').2.2
  obtain ⟨-, p, hp, hafter, hbefore⟩ := hprobed 7000000 (by decide) 4000000 (by decide) (by decide)
  have hwindow : config.liveness.window.nanos = 3000000 := rfl
  rw [hwindow] at hbefore
  exact ⟨c₀, hstart, ⟨_, c, hwatched, hanswered, rfl, hkept⟩, _, c', hwatched', rfl, p, hp, hafter,
    hbefore⟩

end Depot.Connection
