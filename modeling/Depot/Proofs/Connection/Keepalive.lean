import Depot.Proofs.Connection.Probing

/-!
# Probes and the queue

Three loops work on the queue of packets for the peer: operations answer into it, sending takes packets out
of it, and the probe puts a connection check into it when it is empty. Whatever the order of their steps, a
connection check is never behind anything (`Unclogged`): answers are no checks, what is taken is the first,
and a check is put where there is nothing in front of it. The probe only reads the count of the queue, so
the count has to be right.

The probe has a clock of its own. Ticks are never early, whenever its steps are taken, and the session has to
live for them (`Ticking`). If no tick is late, or late by so little that it does not count as missed, each is
as late as that at most and none is left out (`OnTime`).

## Key results

- `outbound_step`: what a step does to the queue
- `Unclogged.passes`: no step puts a connection check behind anything
- `ticking_step`, `onTime_step`: what a step does to the ticks
- `keepalives_never_queue`: all of it, of every run
-/

namespace Depot.Connection

/-! ### The queue -/

/-- The queue of packets for the peer. -/
def outbound (c : Connection) : Queue Packet := c.scene.session.outbound

/-- What a step can do to the queue. -/
inductive Passes (e : Event) (q q' : Queue Packet) : Prop
  /-- Operations answer, and so do requests that are refused. -/
  | answers {packets : List Packet} (hreply : ∀ p ∈ packets, p.request.isReply = true)
      (h : q' = packets.foldl Queue.push q)
  /-- Sending takes the first packet. -/
  | takes {p : Packet} (h : q.tryReceive = some (p, q'))
  /-- The probe finds the queue empty. -/
  | checks (hprobe : e = .probe) (hempty : q.isEmpty = true) (h : q' = q.push .connectionCheck)

variable {c c₀ c' : Connection} {e : Event} {q q' : Queue Packet}

/-- Every event may leave the queue alone. -/
theorem Passes.rests (e : Event) (q : Queue Packet) : Passes e q q :=
  .answers (List.forall_mem_nil _) rfl

/-- What an operation says is an answer, and no connection check. -/
theorem Passes.replied {s s' : Session} {operation : UInt8} (h : s.Replied operation s') :
    Passes e s.outbound s'.outbound := by
  obtain ⟨user, packets, hreply, rfl⟩ := h
  exact .answers (fun p hp => (hreply p hp).isReply) (by rw [Session.postAll_eq])

/-- Sending takes a packet, or leaves the queue alone. -/
theorem passes_send {linger : Duration} {now : Liveness.Instant} {answer : WriteAnswer} {s : Sender}
    {scene : Scene} {sent : Sent} (h : Sender.Moves linger now answer s scene sent) :
    Passes e scene.session.outbound sent.scene.session.outbound := by
  -- Of all moves two take a packet.
  cases h with
  | takes _ _ htake => exact .takes htake
  | drops _ _ htake => exact .takes htake
  | parts =>
    rw [Sender.scene_part]
    exact .rests e _
  | finishes =>
    show Passes e _ (Sender.part _ _ _ scene).scene.session.outbound
    rw [Sender.scene_part]
    exact .rests e _
  | _ => exact .rests e _

/-- What a step does to the queue. -/
theorem outbound_step (h : c.Underway) (hstep : c.step? e = some c') :
    Passes e c.outbound c'.outbound := by
  -- The steps that have to do with the queue are those of dispatching, of operations, of sending and of the
  -- probe.
  cases steps_of_step? hstep with
  | @dispatch p _ =>
    have hattended : c.attended.session.outbound = c.outbound := by
      unfold attended
      split <;> rfl
    rw [← hattended]
    by_cases hsuspend : p.request = .suspend
    · rw [Switchboard.dispatch_suspend hsuspend]
      exact .rests _ _
    · obtain ⟨board, scene, hdispatch, hreplied, -⟩ :=
        Switchboard.dispatch_other hsuspend c.board c.attended
      rw [hdispatch]
      exact .replied hreplied
  | operate hadvance =>
    obtain ⟨operation, hreplied⟩ := (Switchboard.advance?_onward h.board hadvance).replied
    exact .replied hreplied
  | send hsent => exact passes_send (Sender.moves_of_step? hsent)
  | @watch _ silent => cases silent <;> exact .rests _ _
  | @probe _ tick =>
    cases tick with
    | false => exact .rests _ _
    | true =>
      show Passes .probe c.outbound c.scene.probe.session.outbound
      unfold Scene.probe
      split
      · next hempty => exact .checks rfl hempty rfl
      · exact .rests _ _
  | _ => exact .rests _ _

/-- A queue in which no connection check is behind anything. -/
structure Unclogged (q : Queue Packet) : Prop where
  listening : q.receiver = .listening
  counted : q.Counted
  ahead : ∀ p ∈ q.waiting.tail, p.request ≠ .connectionCheck

/-- What is behind the front of two lists is behind that of the first or in the second. -/
private theorem mem_tail_append {l m : List Packet} {p : Packet} (h : p ∈ (l ++ m).tail) :
    p ∈ l.tail ∨ p ∈ m := by
  cases l with
  | nil => exact .inr (List.mem_of_mem_tail h)
  | cons a l => exact List.mem_append.mp h

/-- No step puts a connection check behind anything. -/
theorem Unclogged.passes (hq : Unclogged q) (h : Passes e q q') : Unclogged q' := by
  -- Answers go behind what waits, a packet that is taken was in front, and a check goes into an empty queue.
  cases h with
  | @answers packets hreply h =>
    subst h
    refine ⟨by rw [(Queue.ends_foldl_push q packets).1, hq.listening],
      Queue.counted_foldl_push packets hq.counted, fun p hp hcheck => ?_⟩
    rw [Queue.waiting_foldl_push packets hq.listening] at hp
    rcases mem_tail_append hp with hp | hp
    · exact hq.ahead p hp hcheck
    · -- A connection check is no answer.
      have := hreply p hp
      rw [hcheck] at this
      cases this
  | takes h =>
    have hwaiting := Queue.waiting_tryReceive h
    refine ⟨(Queue.ends_tryReceive h).1.trans hq.listening, Queue.counted_tryReceive hq.counted h,
      fun p hp => hq.ahead p ?_⟩
    rw [hwaiting]
    exact List.mem_of_mem_tail hp
  | checks _ hempty h =>
    subst h
    refine ⟨(Queue.ends_push q _).1.trans hq.listening, Queue.counted_push _ hq.counted, ?_⟩
    rw [Queue.waiting_push _ hq.listening,
      (Queue.isEmpty_iff hq.counted hq.listening).mp hempty]
    exact List.forall_mem_nil _

/-- Only the probe sends connection checks. -/
theorem Passes.origin (h : Passes e q q') (hprobe : e ≠ .probe) {p : Packet} (hp : p ∈ q'.waiting)
    (hcheck : p.request = .connectionCheck) : p ∈ q.waiting := by
  -- Among what waits now, only answers can be new.
  cases h with
  | answers hreply h =>
    subst h
    rcases Queue.mem_waiting_foldl_push hp with hp | hp
    · exact hp
    · have := hreply p hp
      rw [hcheck] at this
      cases this
  | takes h =>
    rw [Queue.waiting_tryReceive h]
    exact List.mem_cons_of_mem _ hp
  | checks hprobe' => exact absurd hprobe' hprobe

/-! ### The ticks -/

/-- Whether a step is a tick of the probe. -/
def isTick (c : Connection) : Event → Bool
  | .probe => (c.probe.step? c.now c.scene.session.live).any (·.2)
  | _ => false

/-- The instants of the ticks in a course of steps. -/
def ticks (c : Connection) : List Event → List Nat
  | [] => []
  | e :: rest =>
      (if c.isTick e then [c.now] else []) ++
        match c.step? e with
        | none => []
        | some c' => c'.ticks rest

/-- Whether a step lets no tick of a session that lives be late by more than `lag`. -/
def isTimely (lag : Nat) (c : Connection) : Event → Bool
  | .wait duration => !c.scene.session.live || c.now + duration.nanos ≤ c.probe.next + lag
  | _ => true

/-- Whether every step of a course is like that. -/
def keepsTime (lag : Nat) (c : Connection) : List Event → Bool
  | [] => true
  | e :: rest =>
      c.isTimely lag e &&
        match c.step? e with
        | none => true
        | some c' => c'.keepsTime lag rest

/-- What a step does to the clock and to the probe. -/
inductive ClockStep (c : Connection) (e : Event) (c' : Connection) : Prop
  | between (htick : c.isTick e = false) (hinterval : c'.probe.interval = c.probe.interval)
      (hnext : c'.probe.next = c.probe.next)
      (hended : c'.probe.ended = true → c.probe.ended = true ∨ c.scene.session.live = false)
      (hnow : c'.now = c.now ∨ ∃ duration, e = .wait duration ∧ c'.now = c.now + duration.nanos)
  | tick (htick : c.isTick e = true) (hprobe : e = .probe) (hlive : c.scene.session.live = true)
      (hdue : c.probe.next ≤ c.now) (hinterval : c'.probe.interval = c.probe.interval)
      (hended : c'.probe.ended = c.probe.ended) (hnow : c'.now = c.now)
      (hlater : c.probe.next + c.probe.interval.nanos ≤ c'.probe.next)
      (hnext : c.now ≤ c.probe.next + Liveness.Probe.slack →
        c'.probe.next = c.probe.next + c.probe.interval.nanos)

/-- Every step is a tick or comes between two ticks. -/
theorem clock_step (hstep : c.step? e = some c') : ClockStep c e c' := by
  -- Most steps leave all timers as they are.
  have hother (htick : c.isTick e = false) (hsame : c'.timers = c.timers) : ClockStep c e c' := by
    simp only [timers, Prod.mk.injEq] at hsame
    obtain ⟨hnow, -, -, hprobe⟩ := hsame
    exact .between htick (by rw [hprobe]) (by rw [hprobe]) (fun h => .inl (hprobe ▸ h)) (.inl hnow)
  cases steps_of_step? hstep with
  | read => exact .between rfl rfl rfl .inl (.inl rfl)
  | watch => exact .between rfl rfl rfl .inl (.inl rfl)
  | @probe probe tick hprobe =>
    have htick : c.isTick .probe = tick := by rw [isTick, hprobe, Option.any_some]
    rcases probe_cases hprobe with ⟨hdead, rfl, rfl⟩ | ⟨hlive, rfl, hdue, next, rfl, hlater, hnext⟩
    · exact .between htick rfl rfl (fun _ => .inr hdead) (.inl rfl)
    · exact .tick htick rfl hlive hdue rfl rfl rfl hlater hnext
  | wait duration => exact .between rfl rfl rfl .inl (.inr ⟨duration, rfl, rfl⟩)
  | _ => exact hother rfl (timers_step rfl hstep)

/-- The probe ticks just when the session lives and the instant has come. -/
theorem isTick_probe_iff (hgoing : c.scene.session.live = true → c.probe.ended = false) :
    c.isTick .probe = true ↔ c.scene.session.live = true ∧ c.probe.next ≤ c.now := by
  unfold isTick Liveness.Probe.step?
  cases hlive : c.scene.session.live with
  | false => cases c.probe.ended <;> simp
  | true => by_cases hdue : c.probe.next ≤ c.now <;> simp [hgoing hlive, hdue]

/-- A step of the probe is a tick if the session lives, and then puts a connection check into a queue that
is empty. -/
theorem probe_step (hq : Unclogged c.outbound) (hstep : c.step? .probe = some c') :
    c.isTick .probe = c.scene.session.live ∧
      c'.outbound.waiting = c.outbound.waiting ++
        if c.scene.session.live = true ∧ c.outbound.waiting = [] then [.connectionCheck] else [] := by
  cases steps_of_step? hstep with
  | @probe probe tick hprobe =>
    have htick : c.isTick .probe = tick := by rw [isTick, hprobe, Option.any_some]
    have hempty : c.scene.session.outbound.isEmpty = true ↔ c.outbound.waiting = [] :=
      Queue.isEmpty_iff hq.counted hq.listening
    -- A probe whose session is dead ends without a tick.
    rcases probe_cases hprobe with ⟨hdead, rfl, -⟩ | ⟨hlive, rfl, -⟩
    · have hnone : ¬(c.scene.session.live = true ∧ c.outbound.waiting = []) := by simp [hdead]
      refine ⟨htick.trans hdead.symm, ?_⟩
      rw [if_neg hnone, List.append_nil]
      rfl
    · refine ⟨htick.trans hlive.symm, ?_⟩
      show c.scene.probe.session.outbound.waiting = _
      unfold Scene.probe
      by_cases hnone : c.outbound.waiting = []
      · rw [if_pos (hempty.mpr hnone), if_pos ⟨hlive, hnone⟩]
        exact Queue.waiting_push _ hq.listening
      · rw [if_neg (mt hempty.mp hnone), if_neg (fun h => hnone h.2), List.append_nil]
        rfl

/-- How the ticks so far and the probe fit together, whenever the steps of the probe were taken. -/
structure Ticking (interval : Nat) (ticks : List Nat) (c : Connection) : Prop where
  paced : c.probe.interval.nanos = interval
  next : (ticks.length + 1) * interval ≤ c.probe.next
  early : ∀ i t, ticks[i]? = some t → (i + 1) * interval ≤ t
  /-- The probe goes on as long as the session lives. -/
  going : c.scene.session.live = true → c.probe.ended = false

/-- How they fit together if no tick was late by more than `lag`. -/
structure OnTime (lag interval : Nat) (ticks : List Nat) (c : Connection) : Prop where
  next : c.probe.next = (ticks.length + 1) * interval
  due : c.scene.session.live = true → c.now ≤ c.probe.next + lag
  late : ∀ i t, ticks[i]? = some t → t ≤ (i + 1) * interval + lag

variable {lag interval : Nat} {log : List Nat} {events : List Event}

/-- What holds of every tick so far and of the one that comes holds of all. -/
private theorem forall_concat {P : Nat → Nat → Prop} {now : Nat}
    (h : ∀ i t, log[i]? = some t → P i t) (hlast : P log.length now) :
    ∀ i t, (log ++ [now])[i]? = some t → P i t := by
  intro i t hget
  -- A number is that of a tick before, of the one that comes, or of none.
  rcases Nat.lt_trichotomy i log.length with hlt | rfl | hgt
  · rw [List.getElem?_append_left hlt] at hget
    exact h i t hget
  · rw [List.getElem?_concat_length] at hget
    cases hget
    exact hlast
  · rw [List.getElem?_eq_none (by rw [List.length_append]; exact hgt)] at hget
    cases hget

/-- A step keeps the ticks apart, with the one that it may be. -/
theorem ticking_step (h : Ticking interval log c) (hunderway : c.Underway)
    (hstep : c.step? e = some c') :
    Ticking interval (log ++ if c.isTick e then [c.now] else []) c' := by
  have hlives := hunderway.live_of_step hstep
  -- Between two ticks nothing is written down. A tick is written down, and the next one is due an interval
  -- later at the earliest.
  cases clock_step hstep with
  | between htick hinterval hnext hended _ =>
    rw [htick, if_neg Bool.false_ne_true, List.append_nil]
    refine ⟨hinterval ▸ h.paced, hnext ▸ h.next, h.early, fun hlive => ?_⟩
    cases hover : c'.probe.ended with
    | false => rfl
    | true =>
      rcases hended hover with hbefore | hdead
      · rw [h.going (hlives hlive)] at hbefore
        cases hbefore
      · rw [hlives hlive] at hdead
        cases hdead
  | tick htick _ hlive hdue hinterval hended hnow hlater _ =>
    rw [htick, if_pos rfl]
    rw [h.paced] at hlater
    refine ⟨hinterval ▸ h.paced, ?_, forall_concat h.early (Nat.le_trans h.next hdue),
      fun _ => hended.trans (h.going hlive)⟩
    rw [List.length_append, List.length_singleton, Nat.succ_mul]
    exact Nat.le_trans (Nat.add_le_add_right h.next _) hlater

/-- A step that is in time keeps the ticks on time. -/
theorem onTime_step (h : OnTime lag interval log c) (hticking : Ticking interval log c)
    (hunderway : c.Underway) (hlag : lag ≤ Liveness.Probe.slack)
    (htimely : c.isTimely lag e = true) (hstep : c.step? e = some c') :
    OnTime lag interval (log ++ if c.isTick e then [c.now] else []) c' := by
  have hlives := hunderway.live_of_step hstep
  -- A tick that is late by no more than the slack leaves the next one where it was due.
  cases clock_step hstep with
  | between htick _ hnext _ hnow =>
    rw [htick, if_neg Bool.false_ne_true, List.append_nil]
    refine ⟨hnext ▸ h.next, fun hlive => ?_, h.late⟩
    rw [hnext]
    rcases hnow with hnow | ⟨duration, rfl, hnow⟩
    · rw [hnow]
      exact h.due (hlives hlive)
    · rw [hnow]
      simpa [isTimely, hlives hlive] using htimely
  | tick htick _ hlive _ _ _ hnow hlater hnext =>
    rw [htick, if_pos rfl]
    have hlate := h.due hlive
    have hexact := hnext (Nat.le_trans hlate (Nat.add_le_add_left hlag _))
    refine ⟨?_, fun _ => ?_, forall_concat h.late (h.next ▸ hlate)⟩
    · rw [hexact, hticking.paced, h.next, List.length_append, List.length_singleton,
        Nat.succ_mul (log.length + 1)]
    · have hafter : c.probe.next ≤ c'.probe.next := Nat.le_trans (Nat.le_add_right _ _) hlater
      rw [hnow]
      exact Nat.le_trans hlate (Nat.add_le_add_right hafter lag)

/-! ### Whole runs -/

/-- What holds of a connection and its ticks in every run. -/
structure Steady (interval : Nat) (ticks : List Nat) (c : Connection) : Prop where
  underway : c.Underway
  queue : Unclogged c.outbound
  ticking : Ticking interval ticks c

/-- A step keeps the queue free and the ticks apart. -/
theorem steady_step (h : Steady interval log c) (hstep : c.step? e = some c') :
    Steady interval (log ++ if c.isTick e then [c.now] else []) c' where
  underway := (h.underway.step hstep).1
  queue := h.queue.passes (outbound_step h.underway hstep)
  ticking := ticking_step h.ticking h.underway hstep

/-- The ticks of a run are the one that its first step may be and those of the rest. -/
private theorem ticks_cons (log : List Nat) (rest : List Event) (hstep : c.step? e = some c') :
    log ++ c.ticks (e :: rest) = (log ++ if c.isTick e then [c.now] else []) ++ c'.ticks rest := by
  simp only [ticks, hstep, List.append_assoc]

/-- So does every run. -/
theorem steady_run (h : Steady interval log c) (hrun : Run c events c') :
    Steady interval (log ++ c.ticks events) c' := by
  induction events generalizing log c with
  | nil =>
    cases hrun
    rwa [ticks, List.append_nil]
  | cons e rest ih =>
    obtain ⟨c₁, hstep, hrest⟩ := Option.bind_eq_some_iff.mp hrun
    rw [ticks_cons log rest hstep]
    exact ih (steady_step h hstep) hrest

/-- A run that keeps time keeps the ticks on time. -/
theorem onTime_run (h : OnTime lag interval log c) (hsteady : Steady interval log c)
    (hlag : lag ≤ Liveness.Probe.slack) (hkeeps : c.keepsTime lag events = true)
    (hrun : Run c events c') : OnTime lag interval (log ++ c.ticks events) c' := by
  -- By induction on the events, with the ticks so far.
  induction events generalizing log c with
  | nil =>
    cases hrun
    rwa [ticks, List.append_nil]
  | cons e rest ih =>
    obtain ⟨c₁, hstep, hrest⟩ := Option.bind_eq_some_iff.mp hrun
    simp only [keepsTime, hstep, Bool.and_eq_true] at hkeeps
    rw [ticks_cons log rest hstep]
    exact ih (onTime_step h hsteady.ticking hsteady.underway hlag hkeeps.1 hstep)
      (steady_step hsteady hstep) hkeeps.2 hrest

/-- A connection over a slot that is ready begins with an empty queue and its first tick an interval away. -/
theorem steady_start {config : Config} {store : Storage.Store} {tree : Storage.Tree}
    {metrics : Metrics} {shutdown : Bool} {slot : Slot} (lag : Nat) (hslot : slot.Ready config)
    (hstart : start config store tree metrics shutdown slot = .ok c) :
    Steady config.liveness.keepalive.nanos [] c ∧
      OnTime lag config.liveness.keepalive.nanos [] c := by
  obtain ⟨id, peer, probe, hprobe, rfl⟩ := start_eq_ok hslot hstart
  have hbegins := probe_of_start? hprobe
  have hnext : probe.next = ([] : List Nat).length.succ * config.liveness.keepalive.nanos := by
    simp only [hbegins, List.length_nil, Nat.zero_add, Nat.one_mul]
  have hnone {P : Nat → Nat → Prop} : ∀ i t, ([] : List Nat)[i]? = some t → P i t := by
    intro i t hget
    cases hget
  refine ⟨⟨⟨fun _ => rfl, Switchboard.sound_empty⟩, ⟨rfl, fun _ => rfl, List.forall_mem_nil _⟩,
    ⟨by rw [hbegins], Nat.le_of_eq hnext.symm, hnone, fun _ => by rw [hbegins]⟩⟩,
    ⟨hnext, fun _ => Nat.zero_le _, hnone⟩⟩

/-- In every run, at most one connection check waits to be sent, and nothing is in front of it. A step of the
probe is a tick if the session lives, and only a tick that finds the queue empty sends a check. No tick comes
before its multiple of the keepalive interval. If none is late by more than a lag that does not count as
missed, each comes within the lag of its multiple, none is left out while the session lives, and the next one
takes place just if the session lives and its multiple is reached; without a lag the ticks are the
multiples. -/
theorem keepalives_never_queue {config : Config} {store : Storage.Store} {tree : Storage.Tree}
    {metrics : Metrics} {shutdown : Bool} {slot : Slot} (hslot : slot.Ready config)
    (hstart : start config store tree metrics shutdown slot = .ok c₀) (hrun : Run c₀ events c) :
    (∀ p ∈ c.outbound.waiting.tail, p.request ≠ .connectionCheck) ∧
      c.outbound.waiting.countP (·.request == .connectionCheck) ≤ 1 ∧
      (∀ c', c.step? .probe = some c' →
        c.isTick .probe = c.scene.session.live ∧
        c'.outbound.waiting = c.outbound.waiting ++
          if c.scene.session.live = true ∧ c.outbound.waiting = [] then [.connectionCheck] else []) ∧
      (∀ e c', e ≠ .probe → c.step? e = some c' → ∀ p ∈ c'.outbound.waiting,
        p.request = .connectionCheck → p ∈ c.outbound.waiting) ∧
      (∀ i t, (c₀.ticks events)[i]? = some t → (i + 1) * config.liveness.keepalive.nanos ≤ t) ∧
      ∀ lag ≤ Liveness.Probe.slack, c₀.keepsTime lag events = true →
        (∀ i t, (c₀.ticks events)[i]? = some t →
          t ≤ (i + 1) * config.liveness.keepalive.nanos + lag) ∧
        (c.scene.session.live = true →
          c.now ≤ ((c₀.ticks events).length + 1) * config.liveness.keepalive.nanos + lag) ∧
        (c.isTick .probe = true ↔ c.scene.session.live = true ∧
          ((c₀.ticks events).length + 1) * config.liveness.keepalive.nanos ≤ c.now) := by
  -- The queue and the early ticks hold of every run; to be on time is asked only of those that keep time.
  have hsteady := steady_run (steady_start 0 hslot hstart).1 hrun
  rw [List.nil_append] at hsteady
  have hqueue := hsteady.queue
  refine ⟨hqueue.ahead, ?_, fun c' => probe_step hqueue, fun e c' hprobe hstep p => ?_,
    hsteady.ticking.early, fun lag hlag hkeeps => ?_⟩
  · -- Only the packet in front can be one.
    have hahead := hqueue.ahead
    cases hwaiting : c.outbound.waiting with
    | nil => exact Nat.zero_le 1
    | cons p rest =>
      rw [hwaiting] at hahead
      have hrest : rest.countP (·.request == .connectionCheck) = 0 :=
        List.countP_eq_zero.mpr fun q hq => by simpa using hahead q hq
      rw [List.countP_cons, hrest]
      split <;> omega
  · exact (outbound_step hsteady.underway hstep).origin hprobe
  · obtain ⟨hsteady₀, honTime₀⟩ := steady_start lag hslot hstart
    have honTime := onTime_run honTime₀ hsteady₀ hlag hkeeps hrun
    rw [List.nil_append] at honTime
    refine ⟨honTime.late, fun hlive => ?_, ?_⟩
    · rw [← honTime.next]
      exact honTime.due hlive
    · rw [isTick_probe_iff hsteady.ticking.going, honTime.next]

/-- With a probe every two milliseconds and a socket that takes nothing, the second tick finds the first check
in the queue and sends none. -/
theorem keepalives_never_queue_behind_each_other :
    let config : Config :=
      { liveness := { keepalive := .millis 2, window := .millis 9, handshake := .millis 9 } }
    let slot := (Slot.new config).attach 1 (some "192.0.2.1:4000")
    let events : List Event := [.wait (.millis 2), .probe, .wait (.millis 2), .probe, .wait (.millis 1)]
    ∃ c₀ c, start config { dlcRoot := ⟨["dlc"]⟩, userRoot := ⟨["user"]⟩ } {} {} false slot = .ok c₀ ∧
      Run c₀ events c ∧ c₀.keepsTime 0 events = true ∧ c₀.ticks events = [2000000, 4000000] ∧
      c.outbound.waiting = [.connectionCheck] ∧ c.now ≤ 6000000 ∧ c.isTick .probe = false := by
  intro config slot events
  have hslot : slot.Ready config := (Slot.ready_new config).attach 1 _
  let c₀ : Connection :=
    (start config { dlcRoot := ⟨["dlc"]⟩, userRoot := ⟨["user"]⟩ } {} {} false slot).toOption.get rfl
  have hstart : start config { dlcRoot := ⟨["dlc"]⟩, userRoot := ⟨["user"]⟩ } {} {} false slot =
    .ok c₀ := rfl
  obtain ⟨c, hrun, hchecks⟩ := (Option.any_eq_true _ _).mp
    (show (c₀.run? events).any (fun c =>
        c.outbound.waiting == [.connectionCheck] && c.scene.session.live && c.now == 5000000) = true by
      decide +kernel)
  simp only [Bool.and_eq_true, beq_iff_eq] at hchecks
  obtain ⟨⟨hwaiting, hlive⟩, hnow⟩ := hchecks
  have hkeeps : c₀.keepsTime 0 events = true := by decide +kernel
  have hticks : c₀.ticks events = [2000000, 4000000] := by decide +kernel
  have htimes := (keepalives_never_queue hslot hstart hrun).2.2.2.2.2 0 (Nat.zero_le _) hkeeps
  have hkeepalive : config.liveness.keepalive.nanos = 2000000 := rfl
  have hthird : ([2000000, 4000000].length + 1) * 2000000 + 0 = 6000000 := rfl
  rw [hticks, hkeepalive] at htimes
  refine ⟨c₀, c, hstart, hrun, hkeeps, hticks, hwaiting, ?_, ?_⟩
  · rw [← hthird]
    exact htimes.2.1 hlive
  rw [Bool.eq_false_iff, Ne, htimes.2.2, hnow]
  exact fun hdue => absurd hdue.2 (by decide)

end Depot.Connection
