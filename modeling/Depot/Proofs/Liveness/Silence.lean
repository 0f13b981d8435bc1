import Depot.Liveness.Timeline

/-!
# When a peer is found silent

The watch looks at one deadline, and every packet moves it. What comes of that is told by the packets
alone: the peer is found silent at the handshake time if no packet came before it, and otherwise a window
after the first packet that no other followed within the window. At that instant the session is suspended
by one packet in the inbound queue and a farewell is asked for; until then, and ever after if the session
is killed first, neither is touched.

The deadline at an instant is the one that would be the last if no more packets came (`InForce`). A packet
that comes before it puts another in force, and the instant that it names is the right one if it is
reached before another packet comes.

## Key results

- `ExpiresAt.unique`: there is one such instant at most
- `Standing.advance`, `Standing.happen`: how a session stands after time has passed, or something happened
- `found_silent_on_time`: what became of the session at any instant
- `run_found_silent`: whoever is left to himself is found silent
-/

namespace Depot.Liveness

/-! ### Deadlines -/

/-- The instant at which a peer is silent for too long, if his packets arrive at some instants. -/
inductive ExpiresAt (times : Times) (arrivals : Instant → Prop) : Instant → Prop
  /-- No packet arrives before the handshake time. -/
  | handshake (hnone : ∀ a, arrivals a → times.handshake.nanos ≤ a) :
      ExpiresAt times arrivals times.handshake.nanos
  /-- One does, and `last` is the first packet that no other follows within the window. -/
  | window {first last : Instant} (hfirst : arrivals first) (hgreeting : first < times.handshake.nanos)
      (hlast : arrivals last) (hsilence : ∀ a, arrivals a → last < a → last + times.window.nanos ≤ a)
      (hbefore : ∀ a, arrivals a → a < last → ∃ b, arrivals b ∧ a < b ∧ b < a + times.window.nanos) :
      ExpiresAt times arrivals (last + times.window.nanos)

/-- The deadline of a peer if no packet but those that have arrived will come. -/
inductive InForce (times : Times) (arrived : Instant → Prop) : Instant → Prop
  | handshake (hnone : ∀ a, ¬arrived a) : InForce times arrived times.handshake.nanos
  | window {first last : Instant} (hfirst : arrived first) (hgreeting : first < times.handshake.nanos)
      (hlast : arrived last) (hlatest : ∀ a, arrived a → a ≤ last)
      (hbefore : ∀ a, arrived a → a < last → ∃ b, arrived b ∧ a < b ∧ b < a + times.window.nanos) :
      InForce times arrived (last + times.window.nanos)

section

variable {times : Times} {arrivals arrived : Instant → Prop} {now deadline expiry : Instant}

/-- A peer is found silent once. -/
theorem ExpiresAt.unique {expiry' : Instant} (h : ExpiresAt times arrivals expiry)
    (h' : ExpiresAt times arrivals expiry') : expiry = expiry' := by
  cases h with
  | handshake hnone =>
    cases h' with
    | handshake => rfl
    | window hfirst hgreeting => exact absurd hgreeting (Nat.not_lt.mpr (hnone _ hfirst))
  | @window _ last hfirst hgreeting hlast hsilence hbefore =>
    cases h' with
    | handshake hnone => exact absurd hgreeting (Nat.not_lt.mpr (hnone _ hfirst))
    | @window _ last' _ _ hlast' hsilence' hbefore' =>
      -- The earlier of two packets is followed by another one within the window.
      rcases Nat.lt_trichotomy last last' with hlt | rfl | hlt
      · obtain ⟨b, hb, hafter, hsoon⟩ := hbefore' last hlast hlt
        exact absurd hsoon (Nat.not_lt.mpr (hsilence b hb hafter))
      · rfl
      · obtain ⟨b, hb, hafter, hsoon⟩ := hbefore last' hlast' hlt
        exact absurd hsoon (Nat.not_lt.mpr (hsilence' b hb hafter))

/-- A deadline that is reached before another packet comes is the instant of the finding. -/
theorem InForce.expiresAt (h : InForce times arrived deadline) (hpast : ∀ a, arrived a → arrivals a)
    (hcoming : ∀ a, arrivals a → arrived a ∨ deadline ≤ a) : ExpiresAt times arrivals deadline := by
  -- By how the deadline came about: by the handshake, or by the window after the last packet.
  cases h with
  | handshake hnone => exact .handshake fun a ha => (hcoming a ha).resolve_left (hnone a)
  | @window _ last hfirst hgreeting hlast hlatest hbefore =>
    refine .window (hpast _ hfirst) hgreeting (hpast _ hlast) (fun a ha hafter => ?_)
      fun a ha hlt => ?_
    · rcases hcoming a ha with harrived | hlate
      · exact absurd (hlatest a harrived) (Nat.not_le.mpr hafter)
      · exact hlate
    · rcases hcoming a ha with harrived | hlate
      · obtain ⟨b, hb, hbetween⟩ := hbefore a harrived hlt
        exact ⟨b, hpast b hb, hbetween⟩
      · exact absurd (Nat.le_trans (Nat.le_add_right last _) hlate) (Nat.not_le.mpr hlt)

/-- A peer is not found silent before the deadline, unless a packet comes in between. -/
theorem InForce.le_of_expiresAt (h : InForce times arrived deadline)
    (hpast : ∀ a, arrived a → arrivals a) (hexpiry : ExpiresAt times arrivals expiry) :
    deadline ≤ expiry ∨ ∃ a, arrivals a ∧ ¬arrived a ∧ a ≤ expiry := by
  -- By how the silence came about, and then by how the deadline did. They belong to the same packet or
  -- another packet came.
  cases hexpiry with
  | handshake hnone =>
    cases h with
    | handshake => exact .inl (Nat.le_refl _)
    | window hfirst hgreeting => exact absurd hgreeting (Nat.not_lt.mpr (hnone _ (hpast _ hfirst)))
  | @window _ a _ _ ha hsilence =>
    by_cases harrived : arrived a
    · cases h with
      | handshake hnone => exact absurd harrived (hnone a)
      | window _ _ _ hlatest hbefore =>
        rcases Nat.lt_or_eq_of_le (hlatest a harrived) with hlt | rfl
        · obtain ⟨b, hb, hafter, hsoon⟩ := hbefore a harrived hlt
          exact absurd hsoon (Nat.not_lt.mpr (hsilence b (hpast b hb) hafter))
        · exact .inl (Nat.le_refl _)
    · exact .inr ⟨a, ha, harrived, Nat.le_add_right _ _⟩

/-- The packets that came put the deadline in force, however they are told. -/
theorem InForce.congr {arrived' : Instant → Prop} (h : InForce times arrived deadline)
    (harrived : ∀ a, arrived' a ↔ arrived a) : InForce times arrived' deadline := by
  rw [funext fun a => propext (harrived a)]
  exact h

/-- A packet that comes before the deadline puts another one in force. -/
theorem InForce.arrive {arrived' : Instant → Prop} (h : InForce times arrived deadline)
    (hbefore : ∀ a, arrived a → a ≤ now) (hdue : now < deadline)
    (harrived : ∀ a, arrived' a ↔ arrived a ∨ a = now) :
    InForce times arrived' (now + times.window.nanos) := by
  have hnow : arrived' now := (harrived now).mpr (.inr rfl)
  have hlatest (a : Instant) (ha : arrived' a) : a ≤ now := by
    rcases (harrived a).mp ha with ha | rfl
    · exact hbefore a ha
    · exact Nat.le_refl _
  cases h with
  | handshake hnone =>
    refine .window hnow hdue hnow hlatest fun a ha hlt => ?_
    rcases (harrived a).mp ha with ha | rfl
    · exact absurd ha (hnone a)
    · exact absurd hlt (Nat.lt_irrefl a)
  | window hfirst hgreeting hlast hlast' hfollowed =>
    refine .window ((harrived _).mpr (.inl hfirst)) hgreeting hnow hlatest fun a ha hlt => ?_
    rcases (harrived a).mp ha with ha | rfl
    · -- The packet that was the last is followed by the new one.
      rcases Nat.lt_or_eq_of_le (hlast' a ha) with hearlier | rfl
      · obtain ⟨b, hb, hbetween⟩ := hfollowed a ha hearlier
        exact ⟨b, (harrived b).mpr (.inl hb), hbetween⟩
      · exact ⟨now, hnow, hlt, hdue⟩
    · exact absurd hlt (Nat.lt_irrefl a)

end

/-! ### Polling a watch -/

section

variable {times : Times} {now deadline : Instant} {t : Timeline} {w : Watch}

/-- A step of the guardian is one of its watch. -/
theorem step?_watch (now : Instant) (hguardian : t.guardian = .watch times w) :
    t.guardian.step? now t.scene = (w.step? times now t.scene.session.live).map fun (w, silent) =>
      (.watch times w, if silent then t.scene.expire else t.scene) := by
  rw [hguardian, Guardian.step?, Scene.watch?, Option.map_map]
  rfl

/-- A watch that has nothing to do does nothing. -/
theorem runAt_of_none (hguardian : t.guardian = .watch times w)
    (hstep : w.step? times now t.scene.session.live = none) (fuel : Nat) : t.runAt now fuel = t := by
  cases fuel with
  | zero => rfl
  | succ fuel => rw [Timeline.runAt, step?_watch now hguardian, hstep, Option.map_none]

/-- A watch that has something to do does it, and goes on. -/
theorem runAt_of_some {w' : Watch} {silent : Bool} (hguardian : t.guardian = .watch times w)
    (hstep : w.step? times now t.scene.session.live = some (w', silent)) (fuel : Nat) :
    t.runAt now (fuel + 1) = Timeline.runAt now fuel
      { t with
        guardian := .watch times w'
        scene := if silent then t.scene.expire else t.scene
        ended := if w'.ended && t.ended.isNone then some now else t.ended } := by
  rw [Timeline.runAt, step?_watch now hguardian, hstep, Option.map_some]
  rfl

/-- A timeline whose watch finds the peer silent at its deadline. -/
def Timeline.silence (times : Times) (deadline : Instant) (t : Timeline) : Timeline :=
  { t with
    guardian := .watch times { deadline, ended := true }
    scene := t.scene.expire
    ended := some deadline }

/-- A watch that is over does nothing more. -/
theorem runAt_of_over (hguardian : t.guardian = .watch times w) (hended : w.ended = true)
    (fuel : Nat) : t.runAt now fuel = t :=
  runAt_of_none hguardian (by simp only [Watch.step?, hended, ↓reduceIte]) fuel

/-- The watch ends when the session is dead. -/
theorem runAt_of_dead (hguardian : t.guardian = .watch times w) (hended : w.ended = false)
    (hdead : t.scene.session.live = false) (htime : t.ended = none) (fuel : Nat) :
    t.runAt now (fuel + 1) =
      { t with guardian := .watch times { w with ended := true }, ended := some now } := by
  have hstep : w.step? times now t.scene.session.live = some ({ w with ended := true }, false) := by
    simp only [Watch.step?, hended, hdead, Bool.false_eq_true, ↓reduceIte, Bool.not_false]
  rw [runAt_of_some hguardian hstep, htime]
  exact runAt_of_over rfl rfl fuel

/-- Nothing is done before the deadline. -/
theorem runAt_of_early (hguardian : t.guardian = .watch times { deadline })
    (hlive : t.scene.session.live = true) (hdue : now < deadline) (fuel : Nat) :
    t.runAt now fuel = t := by
  refine runAt_of_none hguardian ?_ fuel
  simp only [Watch.step?, hlive, Bool.false_eq_true, ↓reduceIte, Bool.not_true, Nat.not_le.mpr hdue]

/-- At the deadline the peer is found silent. -/
theorem runAt_of_late (hguardian : t.guardian = .watch times { deadline })
    (hlive : t.scene.session.live = true) (htime : t.ended = none) (fuel : Nat) :
    t.runAt deadline (fuel + 1) = t.silence times deadline := by
  have hstep : Watch.step? times deadline t.scene.session.live { deadline } =
      some ({ deadline, ended := true }, true) := by
    simp only [Watch.step?, hlive, Bool.false_eq_true, ↓reduceIte, Bool.not_true, Nat.le_refl]
  rw [runAt_of_some hguardian hstep, htime]
  exact runAt_of_over rfl rfl fuel

/-- A packet that has come moves the deadline. -/
theorem runAt_of_noticed (hguardian : t.guardian = .watch times { deadline, noticed := true })
    (hlive : t.scene.session.live = true) (fuel : Nat) : t.runAt now (fuel + 1) =
      { t with guardian := .watch times { deadline := now + times.window.nanos } }.runAt now fuel := by
  have hstep : Watch.step? times now t.scene.session.live { deadline, noticed := true } =
      some ({ deadline := now + times.window.nanos }, false) := by
    simp only [Watch.step?, hlive, Bool.false_eq_true, ↓reduceIte, Bool.not_true]
  rw [runAt_of_some hguardian hstep]
  rfl

/-- A watch has at most three things to do at one instant: to see a packet, to find silence, to end. -/
theorem poll_eq (hguardian : t.guardian = .watch times w) : t.poll now = t.runAt now 3 := by
  rw [Timeline.poll, hguardian, Guardian.stepsUntil]

/-- Time passes a watch that is over. -/
theorem advance_of_over {later : Instant} (hguardian : t.guardian = .watch times w)
    (hended : w.ended = true) (fuel : Nat) : t.advance later fuel = t := by
  cases fuel with
  | zero => rfl
  | succ fuel =>
    simp only [Timeline.advance, hguardian, Guardian.alarm?, Watch.alarm?, hended, ↓reduceIte]

/-- Time passes up to the deadline without anything happening. -/
theorem advance_of_early {later : Instant} (hguardian : t.guardian = .watch times { deadline })
    (hdue : later < deadline) (fuel : Nat) : t.advance later fuel = t := by
  cases fuel with
  | zero => rfl
  | succ fuel =>
    simp only [Timeline.advance, hguardian, Guardian.alarm?, Watch.alarm?, Bool.false_eq_true,
      ↓reduceIte, Nat.not_le.mpr hdue]

/-- A deadline that is reached is an alarm that goes off at its own instant. -/
theorem advance_of_reached {later : Instant} (hguardian : t.guardian = .watch times { deadline })
    (hlive : t.scene.session.live = true) (htime : t.ended = none) (hreached : deadline ≤ later) :
    t.advance later (t.guardian.stepsUntil later) = t.silence times deadline := by
  have hpoll : t.poll deadline = t.silence times deadline := by
    rw [poll_eq hguardian, runAt_of_late hguardian hlive htime]
  rw [hguardian, Guardian.stepsUntil, Timeline.advance]
  simp only [hguardian, Guardian.alarm?, Watch.alarm?, Bool.false_eq_true, ↓reduceIte, hreached, hpoll]
  exact advance_of_over rfl rfl 2

end

/-! ### How a session stands -/

/-- The instants at which packets came among some happenings. -/
def arrived (happenings : List (Instant × Happening)) (a : Instant) : Prop :=
  (a, .active) ∈ happenings

/-- Whether a session is not killed before an instant. A kill at that very instant comes too late, unless
a packet arrives then as well. -/
structure SparedUntil (scene : Scene) (happenings : List (Instant × Happening))
    (arrivals : Instant → Prop) (expiry : Instant) : Prop where
  live : scene.session.live = true
  kills : ∀ k, (k, .kill) ∈ happenings → expiry < k ∨ expiry = k ∧ ¬arrivals expiry

/-- What is left alone as long as the peer is not found silent. -/
structure Untouched (scene : Scene) (t : Timeline) : Prop where
  inbound : t.scene.session.inbound = scene.session.inbound
  farewell : t.scene.session.farewell = scene.session.farewell
  metrics : t.scene.metrics = scene.metrics

/-- What the finding that the peer is silent comes to: the watch ends at that instant, after it has put
one suspend into the inbound queue and asked for a farewell. -/
structure Silenced (scene : Scene) (expiry : Instant) (t : Timeline) : Prop where
  ended : t.ended = some expiry
  inbound : t.scene.session.inbound = scene.session.inbound.push (.suspend .connectionCheckFailed)
  farewell : t.scene.session.farewell = (scene.session.farewell <|> some .connectionCheckFailed)
  metrics : t.scene.metrics = scene.metrics.count (.errors .connectionCheckFailed)

/-- How a session stands at an instant after some happenings, if packets arrive at some instants. -/
inductive Standing (times : Times) (scene : Scene) (arrivals : Instant → Prop)
    (past : List (Instant × Happening)) (now : Instant) (t : Timeline) : Prop
  /-- The watch waits for the deadline that is in force. -/
  | waiting {deadline : Instant} (hguardian : t.guardian = .watch times { deadline })
      (hlive : t.scene.session.live = true) (htime : t.ended = none) (huntouched : Untouched scene t)
      (hinforce : InForce times (arrived past) deadline) (hdue : now < deadline)
      (hspared : scene.session.live = true ∧ ∀ k, (k, .kill) ∉ past)
  /-- The peer was found silent. -/
  | silenced {expiry : Instant} {w : Watch} (hguardian : t.guardian = .watch times w)
      (hended : w.ended = true) (hsilenced : Silenced scene expiry t)
      (hexpiry : ExpiresAt times arrivals expiry) (hpast : expiry ≤ now)
      (hspared : scene.session.live = true ∧ ∀ k, (k, .kill) ∈ past → expiry ≤ k)
  /-- The session was killed first. -/
  | killed {w : Watch} (hguardian : t.guardian = .watch times w) (hended : w.ended = true)
      (huntouched : Untouched scene t)
      (hkilled : scene.session.live = false ∨ ∃ k, (k, .kill) ∈ past)
      (hfirst : ∀ expiry, ExpiresAt times arrivals expiry → ¬SparedUntil scene past arrivals expiry)

section

variable {times : Times} {scene : Scene} {arrivals : Instant → Prop}
  {past : List (Instant × Happening)} {now deadline : Instant} {t : Timeline}

/-- Silence leaves its marks on a session that had none. -/
theorem Untouched.silenced (h : Untouched scene t) :
    Silenced scene deadline (t.silence times deadline) where
  ended := rfl
  inbound := by
    show t.scene.session.inbound.push _ = _
    rw [h.inbound]
  farewell := by
    show (t.scene.session.farewell <|> _) = _
    rw [h.farewell]
  metrics := by
    show t.scene.metrics.count _ = _
    rw [h.metrics]

/-- The peer is found silent at a deadline that is reached before another packet comes. -/
theorem Untouched.silence (h : Untouched scene t) (hinforce : InForce times (arrived past) deadline)
    (hspared : scene.session.live = true ∧ ∀ k, (k, .kill) ∉ past) (hle : deadline ≤ now)
    (hpast : ∀ a, arrived past a → arrivals a) (hcoming : ∀ a, arrivals a → arrived past a ∨ now ≤ a) :
    Standing times scene arrivals past now (t.silence times deadline) := by
  have hexpiry : ExpiresAt times arrivals deadline :=
    hinforce.expiresAt hpast fun a ha => (hcoming a ha).imp_right (Nat.le_trans hle)
  exact .silenced rfl rfl h.silenced hexpiry hle ⟨hspared.1, fun k hk => absurd hk (hspared.2 k)⟩

/-- The watch is polled no later than at the deadline. -/
theorem standing_runAt (hguardian : t.guardian = .watch times { deadline })
    (hlive : t.scene.session.live = true) (htime : t.ended = none) (huntouched : Untouched scene t)
    (hinforce : InForce times (arrived past) deadline) (hle : now ≤ deadline)
    (hspared : scene.session.live = true ∧ ∀ k, (k, .kill) ∉ past)
    (hpast : ∀ a, arrived past a → arrivals a) (hcoming : ∀ a, arrivals a → arrived past a ∨ now ≤ a)
    (fuel : Nat) : Standing times scene arrivals past now (t.runAt now (fuel + 1)) := by
  rcases Nat.lt_or_eq_of_le hle with hdue | rfl
  · rw [runAt_of_early hguardian hlive hdue]
    exact .waiting hguardian hlive htime huntouched hinforce hdue hspared
  · rw [runAt_of_late hguardian hlive htime]
    exact huntouched.silence hinforce hspared (Nat.le_refl _) hpast hcoming

/-- How a session stands at its beginning. -/
theorem standing_start : Standing times scene arrivals [] 0
    (({ guardian := .watch times (.start times 0), scene } : Timeline).poll 0) := by
  have huntouched : Untouched scene { guardian := .watch times (.start times 0), scene } := ⟨rfl, rfl, rfl⟩
  have hnone (a : Instant) : ¬arrived [] a := List.not_mem_nil
  -- A session may be dead before its watch begins.
  cases hlive : scene.session.live with
  | false =>
    have hover : ({ guardian := .watch times (.start times 0), scene } : Timeline).runAt 0 3 = _ :=
      runAt_of_dead rfl rfl hlive rfl 2
    rw [poll_eq rfl, hover]
    refine .killed rfl rfl ⟨rfl, rfl, rfl⟩ (.inl hlive) fun _ _ hspared => ?_
    rw [hspared.live] at hlive
    cases hlive
  | true =>
    have hstart : (Watch.start times 0) = { deadline := times.handshake.nanos } := by
      rw [Watch.start, Nat.zero_add]
    rw [hstart] at huntouched ⊢
    exact standing_runAt rfl hlive rfl huntouched (.handshake hnone) (Nat.zero_le _)
      ⟨hlive, fun k => List.not_mem_nil⟩ (fun a ha => absurd ha (hnone a))
      (fun a _ => .inr (Nat.zero_le a)) 2

/-- The deadline may be reached while time passes. -/
theorem Standing.advance {later : Instant} (h : Standing times scene arrivals past now t)
    (hle : now ≤ later) (hpast : ∀ a, arrived past a → arrivals a)
    (hcoming : ∀ a, arrivals a → arrived past a ∨ later ≤ a) :
    Standing times scene arrivals past later (t.advance later (t.guardian.stepsUntil later)) := by
  -- Only a watch that waits can reach its deadline.
  cases h with
  | @waiting deadline hguardian hlive htime huntouched hinforce hdue hspared =>
    by_cases hreached : deadline ≤ later
    · rw [advance_of_reached hguardian hlive htime hreached]
      exact huntouched.silence hinforce hspared hreached hpast hcoming
    · rw [advance_of_early hguardian (Nat.not_le.mp hreached)]
      exact .waiting hguardian hlive htime huntouched hinforce (Nat.not_le.mp hreached) hspared
  | silenced hguardian hended hsilenced hexpiry hreached hspared =>
    rw [advance_of_over hguardian hended]
    exact .silenced hguardian hended hsilenced hexpiry (Nat.le_trans hreached hle) hspared
  | killed hguardian hended huntouched hkilled hfirst =>
    rw [advance_of_over hguardian hended]
    exact .killed hguardian hended huntouched hkilled hfirst

/-! ### Happenings -/

variable {h : Happening}

/-- Nothing that happens from outside touches what a finding touches. -/
theorem happen_eq (t : Timeline) (h : Happening) :
    (t.happen h).ended = t.ended ∧ (t.happen h).scene.session.inbound = t.scene.session.inbound ∧
      (t.happen h).scene.session.farewell = t.scene.session.farewell ∧
      (t.happen h).scene.metrics = t.scene.metrics := by
  cases h with
  | take =>
    simp only [Timeline.happen]
    split <;> exact ⟨rfl, rfl, rfl, rfl⟩
  | _ => exact ⟨rfl, rfl, rfl, rfl⟩

/-- What happens from outside touches neither the inbound queue, the farewell nor the counts. -/
theorem Untouched.happen (hscene : Untouched scene t) (h : Happening) : Untouched scene (t.happen h) := by
  obtain ⟨-, hinbound, hfarewell, hmetrics⟩ := happen_eq t h
  exact ⟨hinbound.trans hscene.inbound, hfarewell.trans hscene.farewell, hmetrics.trans hscene.metrics⟩

/-- What happens after the silence was found leaves the finding as it is. -/
theorem Silenced.happen {expiry : Instant} (hscene : Silenced scene expiry t) (h : Happening) :
    Silenced scene expiry (t.happen h) := by
  obtain ⟨hended, hinbound, hfarewell, hmetrics⟩ := happen_eq t h
  exact ⟨hended.trans hscene.ended, hinbound.trans hscene.inbound, hfarewell.trans hscene.farewell,
    hmetrics.trans hscene.metrics⟩

/-- Only a kill ends the life of a session from outside. -/
theorem live_happen (hkill : h ≠ .kill) (t : Timeline) :
    (t.happen h).scene.session.live = t.scene.session.live := by
  cases h with
  | kill => exact absurd rfl hkill
  | take =>
    simp only [Timeline.happen]
    split <;> rfl
  | _ => rfl

/-- Only a packet is noticed by the watch. -/
theorem guardian_happen (hactive : h ≠ .active) (t : Timeline) : (t.happen h).guardian = t.guardian := by
  cases h with
  | active => exact absurd rfl hactive
  | take =>
    simp only [Timeline.happen]
    split <;> rfl
  | _ => rfl

/-- A watch that is over stays so. -/
theorem exists_over_happen {w : Watch} (hguardian : t.guardian = .watch times w) (hended : w.ended = true)
    (h : Happening) : ∃ w', (t.happen h).guardian = .watch times w' ∧ w'.ended = true := by
  by_cases hactive : h = .active
  · subst hactive
    exact ⟨w.notice, by rw [Timeline.happen, hguardian]; rfl, hended⟩
  · exact ⟨w, (guardian_happen hactive t).trans hguardian, hended⟩

/-- What has arrived after a happening. -/
theorem arrived_append {a : Instant} :
    arrived (past ++ [(now, h)]) a ↔ arrived past a ∨ a = now ∧ h = .active := by
  simp only [arrived, List.mem_append, List.mem_singleton, Prod.mk.injEq, eq_comm]

/-- A session that is killed before its deadline is never found silent. -/
theorem not_spared_of_kill (hinforce : InForce times (arrived past) deadline) (hdue : now < deadline)
    (hpast : ∀ a, arrived past a → arrivals a) (hcoming : ∀ a, arrivals a → arrived past a ∨ now ≤ a)
    (expiry : Instant) (hexpiry : ExpiresAt times arrivals expiry) :
    ¬SparedUntil scene (past ++ [(now, .kill)]) arrivals expiry := by
  intro hspared
  have hle : expiry ≤ now ∧ (arrivals expiry → expiry < now) := by
    rcases hspared.kills now (List.mem_append_right past List.mem_cons_self) with hlt | ⟨rfl, hnone⟩
    · exact ⟨Nat.le_of_lt hlt, fun _ => hlt⟩
    · exact ⟨Nat.le_refl _, fun harrival => absurd harrival hnone⟩
  rcases hinforce.le_of_expiresAt hpast hexpiry with hlate | ⟨a, ha, hnot, hsoon⟩
  · exact absurd (Nat.lt_of_lt_of_le hdue (Nat.le_trans hlate hle.1)) (Nat.lt_irrefl now)
  · -- The packet comes at the instant of the kill, or after it.
    have hnow : now ≤ a := (hcoming a ha).resolve_left hnot
    obtain rfl : a = expiry := Nat.le_antisymm hsoon (Nat.le_trans hle.1 hnow)
    exact absurd (hle.2 ha) (Nat.not_lt.mpr hnow)

/-- Something happens, and the watch looks at it. -/
theorem Standing.happen (hstanding : Standing times scene arrivals past now t)
    (hpast : ∀ a, arrived (past ++ [(now, h)]) a → arrivals a ∧ a ≤ now)
    (hcoming : ∀ a, arrivals a → arrived (past ++ [(now, h)]) a ∨ now ≤ a) :
    Standing times scene arrivals (past ++ [(now, h)]) now ((t.happen h).poll now) := by
  -- A watch that waits notices a packet or a kill. One that is over notices nothing.
  cases hstanding with
  | @waiting deadline hguardian hlive htime huntouched hinforce hdue hspared =>
    have htime' : (t.happen h).ended = none := (happen_eq t h).1.trans htime
    have hbefore (a : Instant) (ha : arrived past a) : arrivals a ∧ a ≤ now :=
      hpast a (arrived_append.mpr (.inl ha))
    have hkills (hkill : h ≠ .kill) : scene.session.live = true ∧ ∀ k, (k, .kill) ∉ past ++ [(now, h)] := by
      refine ⟨hspared.1, fun k hk => ?_⟩
      rcases List.mem_append.mp hk with hk | hk
      · exact hspared.2 k hk
      · exact hkill (Prod.mk.inj (List.mem_singleton.mp hk)).2.symm
    by_cases hactive : h = .active
    · -- The watch sees the packet before it looks at the time.
      subst hactive
      have hguardian' : (t.happen .active).guardian = .watch times { deadline, noticed := true } := by
        rw [Timeline.happen, hguardian]
        rfl
      have hnew : InForce times (arrived (past ++ [(now, .active)])) (now + times.window.nanos) :=
        hinforce.arrive (fun a ha => (hbefore a ha).2) hdue fun a => by
          rw [arrived_append, and_iff_left rfl]
      have huntouched' := huntouched.happen .active
      rw [poll_eq hguardian', runAt_of_noticed hguardian' hlive]
      refine standing_runAt ?_ ?_ ?_ ?_ hnew (Nat.le_add_right _ _) (hkills (by simp))
        (fun a ha => (hpast a ha).1) hcoming 1
      · rfl
      · exact hlive
      · exact htime'
      · exact ⟨huntouched'.inbound, huntouched'.farewell, huntouched'.metrics⟩
    · have hguardian' := (guardian_happen hactive t).trans hguardian
      have harrived (a : Instant) : arrived (past ++ [(now, h)]) a ↔ arrived past a := by
        rw [arrived_append, or_iff_left fun ha => hactive ha.2]
      rw [poll_eq hguardian']
      by_cases hkill : h = .kill
      · subst hkill
        rw [runAt_of_dead hguardian' rfl rfl htime']
        have huntouched' := huntouched.happen .kill
        exact .killed rfl rfl ⟨huntouched'.inbound, huntouched'.farewell, huntouched'.metrics⟩
          (.inr ⟨now, List.mem_append_right past List.mem_cons_self⟩)
          (not_spared_of_kill hinforce hdue (fun a ha => (hbefore a ha).1)
            fun a ha => (hcoming a ha).imp_left (harrived a).mp)
      · have hlive' := (live_happen hkill t).trans hlive
        rw [runAt_of_early hguardian' hlive' hdue]
        exact .waiting hguardian' hlive' htime' (huntouched.happen h) (hinforce.congr harrived) hdue
          (hkills hkill)
  | silenced hguardian hended hsilenced hexpiry hreached hspared =>
    obtain ⟨w, hguardian', hended'⟩ := exists_over_happen hguardian hended h
    rw [poll_eq hguardian', runAt_of_over hguardian' hended']
    refine .silenced hguardian' hended' (hsilenced.happen h) hexpiry hreached ⟨hspared.1, fun k hk => ?_⟩
    rcases List.mem_append.mp hk with hk | hk
    · exact hspared.2 k hk
    · rw [(Prod.mk.inj (List.mem_singleton.mp hk)).1]
      exact hreached
  | killed hguardian hended huntouched hkilled hfirst =>
    obtain ⟨w, hguardian', hended'⟩ := exists_over_happen hguardian hended h
    rw [poll_eq hguardian', runAt_of_over hguardian' hended']
    refine .killed hguardian' hended' (huntouched.happen h)
      (hkilled.imp_right fun hk => hk.imp fun k hk => List.mem_append_left _ hk)
      fun expiry hexpiry hspared => ?_
    exact hfirst expiry hexpiry ⟨hspared.live, fun k hk => hspared.kills k (List.mem_append_left _ hk)⟩

/-! ### Whole courses -/

/-- Things happen one after another up to a horizon. -/
theorem Standing.play {rest : List (Instant × Happening)} {horizon : Instant}
    (hstanding : Standing times scene arrivals past now t)
    (hordered : rest.Pairwise fun e f => e.1 ≤ f.1) (hlater : ∀ e ∈ rest, now ≤ e.1 ∧ e.1 ≤ horizon)
    (hbefore : ∀ a, arrived past a → a ≤ now) (hle : now ≤ horizon)
    (harrivals : ∀ a, arrived (past ++ rest) a → arrivals a)
    (hcoming : ∀ a, arrivals a → arrived (past ++ rest) a ∨ horizon ≤ a) :
    ∃ last ≤ horizon, Standing times scene arrivals (past ++ rest) last (t.play rest) := by
  induction rest generalizing past now t with
  | nil => exact ⟨now, hle, by rwa [List.append_nil]⟩
  | cons e rest ih =>
    obtain ⟨next, h⟩ := e
    obtain ⟨hfirst, hrest⟩ := List.pairwise_cons.mp hordered
    obtain ⟨hnow, hnext⟩ := hlater (next, h) List.mem_cons_self
    have happend : past ++ (next, h) :: rest = past ++ [(next, h)] ++ rest := by
      rw [List.append_assoc, List.singleton_append]
    -- No packet comes between those of the past and this instant.
    have hcoming' (a : Instant) (ha : arrivals a) : arrived past a ∨ next ≤ a := by
      rcases hcoming a ha with harrived | hbeyond
      · rcases List.mem_append.mp harrived with hin | hin
        · exact .inl hin
        · rcases List.mem_cons.mp hin with heq | hin
          · exact .inr (Nat.le_of_eq (Prod.mk.inj heq).1.symm)
          · exact .inr (hfirst _ hin)
      · exact .inr (Nat.le_trans hnext hbeyond)
    have hbefore' (a : Instant) (ha : arrived (past ++ [(next, h)]) a) : a ≤ next := by
      rcases arrived_append.mp ha with ha | ⟨rfl, -⟩
      · exact Nat.le_trans (hbefore a ha) hnow
      · exact Nat.le_refl _
    have hadvanced := hstanding.advance hnow (fun a ha => harrivals a (List.mem_append_left _ ha)) hcoming'
    have hhappened := hadvanced.happen (h := h)
      (fun a ha => ⟨harrivals a (happend ▸ List.mem_append_left _ ha), hbefore' a ha⟩)
      fun a ha => (hcoming' a ha).imp_left fun ha => arrived_append.mpr (.inl ha)
    rw [happend] at harrivals hcoming ⊢
    exact ih hhappened hrest (fun f hf => ⟨hfirst f hf, (hlater f (List.mem_cons_of_mem _ hf)).2⟩)
      hbefore' hnext harrivals hcoming

end

/-- A session under its watch at an instant, after what has happened to it up to then. -/
def watched (times : Times) (scene : Scene) (happenings : List (Instant × Happening))
    (horizon : Instant) : Timeline :=
  let t := (({ guardian := .watch times (.start times 0), scene } : Timeline).poll 0).play happenings
  t.advance horizon (t.guardian.stepsUntil horizon)

section

variable {times : Times} {scene : Scene} {arrivals : Instant → Prop}
  {happenings : List (Instant × Happening)} {horizon : Instant}

/-- The watch stands at the end as the packets up to there tell. -/
theorem standing_watched (hordered : happenings.Pairwise fun e f => e.1 ≤ f.1)
    (hpast : ∀ e ∈ happenings, e.1 ≤ horizon)
    (harrivals : ∀ a ≤ horizon, arrivals a ↔ (a, .active) ∈ happenings) :
    Standing times scene arrivals happenings horizon (watched times scene happenings horizon) := by
  have harrived (a : Instant) (ha : arrived happenings a) : arrivals a :=
    (harrivals a (hpast _ ha)).mpr ha
  have hcoming (a : Instant) (ha : arrivals a) : arrived happenings a ∨ horizon ≤ a := by
    rcases Nat.le_total a horizon with hle | hge
    · exact .inl ((harrivals a hle).mp ha)
    · exact .inr hge
  -- First everything happens, then time passes up to the horizon.
  obtain ⟨last, hlast, hplayed⟩ := standing_start.play hordered
    (fun e he => ⟨Nat.zero_le _, hpast e he⟩) (fun a ha => absurd ha List.not_mem_nil) (Nat.zero_le _)
    harrived hcoming
  exact hplayed.advance hlast harrived hcoming

/-- A peer is found silent at the very instant that his packets tell, whatever else happens. Up to then the
session is left alone, and if it is killed first it is left alone for good. The instants are those of an
exact clock. -/
theorem found_silent_on_time (hordered : happenings.Pairwise fun e f => e.1 ≤ f.1)
    (hpast : ∀ e ∈ happenings, e.1 ≤ horizon)
    (harrivals : ∀ a ≤ horizon, arrivals a ↔ (a, .active) ∈ happenings) :
    (∀ expiry ≤ horizon, ExpiresAt times arrivals expiry →
        SparedUntil scene happenings arrivals expiry →
        Silenced scene expiry (watched times scene happenings horizon)) ∧
      ((∀ expiry, ExpiresAt times arrivals expiry → horizon < expiry) →
        Untouched scene (watched times scene happenings horizon)) ∧
      ((scene.session.live = false ∨ ∃ k, (k, .kill) ∈ happenings ∧
          ∀ expiry, ExpiresAt times arrivals expiry → k < expiry) →
        Untouched scene (watched times scene happenings horizon)) := by
  have hstanding : Standing times scene arrivals happenings horizon _ :=
    standing_watched hordered hpast harrivals
  -- By how the watch stands at the horizon. A peer is found silent at one instant only.
  cases hstanding with
  | waiting hguardian hlive htime huntouched hinforce hdue hspared =>
    refine ⟨fun expiry hle hexpiry _ => ?_, fun _ => huntouched, fun _ => huntouched⟩
    have harrived (a : Instant) (ha : arrived happenings a) : arrivals a :=
      (harrivals a (hpast _ ha)).mpr ha
    rcases hinforce.le_of_expiresAt harrived hexpiry with hlate | ⟨a, ha, hnot, hsoon⟩
    · exact absurd (Nat.lt_of_lt_of_le hdue hlate) (Nat.not_lt.mpr hle)
    · exact absurd ((harrivals a (Nat.le_trans hsoon hle)).mp ha) hnot
  | silenced hguardian hended hsilenced hexpiry hreached hspared =>
    refine ⟨fun expiry _ hexpiry' _ => hexpiry'.unique hexpiry ▸ hsilenced, fun hearly => ?_, fun hkilled => ?_⟩
    · exact absurd hreached (Nat.not_le.mpr (hearly _ hexpiry))
    · rcases hkilled with hdead | ⟨k, hk, hfirst⟩
      · rw [hspared.1] at hdead
        cases hdead
      · exact absurd (hspared.2 k hk) (Nat.not_le.mpr (hfirst _ hexpiry))
  | killed hguardian hended huntouched hkilled hfirst =>
    refine ⟨fun expiry _ hexpiry hspared => ?_, fun _ => huntouched, fun _ => huntouched⟩
    exact absurd hspared (hfirst expiry hexpiry)

/-- Packets at 2, 4 and 6 milliseconds and a kill at 17: the peer is found silent a window after the third
packet. -/
theorem found_silent_after_three_packets :
    let times : Times := { keepalive := .millis 1, window := .millis 10, handshake := .millis 3 }
    let happenings : List (Instant × Happening) :=
      [(2000000, .active), (4000000, .active), (5000000, .take), (6000000, .active), (17000000, .kill)]
    Silenced {} 16000000 (watched times {} happenings 18000000) := by
  intro times happenings
  let arrivals (a : Instant) : Prop := a ∈ [2000000, 4000000, 6000000]
  have hwindow : times.window.nanos = 10000000 := rfl
  have hsum : 6000000 + times.window.nanos = 16000000 := by rw [hwindow]
  have hsilence : ∀ a, arrivals a → 6000000 < a → 6000000 + 10000000 ≤ a := by decide
  have hfollowed (a : Instant) (_ : arrivals a) (hlt : a < 6000000) :
      ∃ b, arrivals b ∧ a < b ∧ b < a + 10000000 :=
    ⟨6000000, by decide, hlt, Nat.lt_of_lt_of_le (by decide) (Nat.le_add_left 10000000 a)⟩
  have harrivals (a : Instant) (_ : a ≤ 18000000) : arrivals a ↔ (a, .active) ∈ happenings := by
    simp [arrivals, happenings]
  have hexpiry : ExpiresAt times arrivals 16000000 := hsum ▸
    @ExpiresAt.window times arrivals 2000000 6000000 (by decide) (by decide) (by decide) hsilence hfollowed
  refine (found_silent_on_time (by decide) (by decide) harrivals).1 16000000 (by decide) hexpiry
    ⟨rfl, fun k hk => .inl ?_⟩
  have hk : k = 17000000 := by simpa [happenings] using hk
  rw [hk]
  decide

end

/-- Some instant is behind all that happens. -/
theorem exists_horizon (happenings : List (Instant × Happening)) :
    ∃ horizon, ∀ e ∈ happenings, e.1 ≤ horizon := by
  induction happenings with
  | nil => exact ⟨0, fun _ he => absurd he List.not_mem_nil⟩
  | cons first rest ih =>
    obtain ⟨horizon, hrest⟩ := ih
    refine ⟨max first.1 horizon, fun e he => ?_⟩
    rcases List.mem_cons.mp he with rfl | he
    · exact Nat.le_max_left _ _
    · exact Nat.le_trans (hrest e he) (Nat.le_max_right _ _)

/-- A peer whose session is not killed is found silent in the end. -/
theorem run_found_silent {times : Times} {happenings : List (Instant × Happening)}
    (hordered : happenings.Pairwise fun e f => e.1 ≤ f.1) (hkill : ∀ k, (k, .kill) ∉ happenings) :
    ∃ expiry, ExpiresAt times (arrived happenings) expiry ∧
      Silenced {} expiry (Timeline.run (.watch times (.start times 0)) happenings) := by
  obtain ⟨horizon, hhorizon⟩ := exists_horizon happenings
  have hstart : Standing times {} (arrived happenings) [] 0
      (({ guardian := .watch times (.start times 0) } : Timeline).poll 0) := standing_start
  obtain ⟨last, -, hplayed⟩ := hstart.play hordered (fun e he => ⟨Nat.zero_le _, hhorizon e he⟩)
    (fun a ha => absurd ha List.not_mem_nil) (Nat.zero_le _) (fun _ ha => ha) fun _ ha => .inl ha
  rw [Timeline.run, Timeline.finish]
  -- Left to itself, a watch that still waits reaches its deadline.
  cases hplayed with
  | @waiting deadline hguardian hlive htime huntouched hinforce hdue hspared =>
    have hexpiry := hinforce.expiresAt (fun _ ha => ha) fun _ ha => .inl ha
    have hpoll := runAt_of_late hguardian hlive htime 2
    simp only [hguardian, Bool.false_eq_true, ↓reduceIte]
    rw [poll_eq hguardian, hpoll]
    exact ⟨deadline, hexpiry, huntouched.silenced⟩
  | silenced hguardian hended hsilenced hexpiry hreached hspared =>
    simp only [hguardian, hended, ↓reduceIte]
    exact ⟨_, hexpiry, hsilenced⟩
  | killed hguardian hended huntouched hkilled hfirst =>
    rcases hkilled with hdead | ⟨k, hk⟩
    · cases hdead
    · exact absurd hk (hkill k)

end Depot.Liveness
