import Depot.Proofs.Operation.Scripts

/-!
# Operations that are to end, in parts

An operation is `Sentenced` when a packet waits in its inbox that ends it, or when it has come upon such a
packet and only has to finish. No part of anybody else takes that back, and none of its own does. It never
waits, and how many parts are left to it is bounded by what waits in its inbox.

## Key results

- `Placed.part`: what holds of an operation wherever it is in a step
- `Sentenced.part`, `Sentenced.not_wait`: once sentenced, it goes on to its end
- `LeavesWithin.part`: every part uses one up
-/

namespace Depot.Operation

/-- Where an operation may be: at work, with a script that is guarded and short, or over and about to
leave. -/
inductive Placed (op : Operation) : Option Script → Prop
  | working {rest : Option Script} (hlistening : op.inbox.receiver = .listening)
      (hrest : ∀ script, rest = some script →
        script.Guarded true ∧ script.Lasts True Script.longest) : Placed op rest
  | done (outcome : Outcome) (hgone : op.inbox.receiver = .gone) : Placed op (some (.finish outcome))

/-- Whether an operation is to end: it will come upon a packet that ends it, or it is finishing. -/
def Sentenced (op : Operation) (rest : Option Script) : Prop :=
  op.Doomed ∨ ∃ outcome, rest = some (.finish outcome)

/-- Whether an operation that is to end leaves within so many parts: those of its script, those that the
packets in its inbox may bring, and one to leave. -/
def LeavesWithin (service : Service) (op : Operation) (rest : Option Script) (k : Nat) : Prop :=
  ∃ n, (rest.getD (op.script service)).Lasts False n ∧
    n + Script.longest * op.inbox.waiting.length + (if op.inbox.receiver = .gone then 0 else 1) ≤ k

section

variable {service : Service} {op op' : Operation} {rest rest' : Option Script} {s s' : Scene}
  {script : Script}

/-! ### Wherever it is -/

/-- Between two steps an operation may be at work with any script of a stage. -/
theorem Placed.guarded (h : op.Placed rest) (service : Service) :
    (rest.getD (op.script service)).Guarded true := by
  cases h with
  | working _ hrest =>
    cases rest with
    | none => exact (op.script_guarded service).seen true
    | some script => exact (hrest script rfl).1
  | done outcome _ => exact .finish outcome

/-- Wherever an operation is, what it still has to do in a step is short. -/
theorem Placed.lasts (h : op.Placed rest) (service : Service) :
    (rest.getD (op.script service)).Lasts True Script.longest := by
  cases h with
  | working _ hrest =>
    cases rest with
    | none => exact (op.script_lasts service).1
    | some script => exact (hrest script rfl).2
  | done outcome _ => exact .finish outcome

/-- The parts of a step get fewer, and a packet that is read brings no more than a step may have. -/
private theorem lasts_of_does (h : script.Does op s op' rest' s')
    {n : Nat} (hlasts : script.Lasts True n) (hn : n ≤ Script.longest) :
    ∀ script', rest' = some script' → script'.Lasts True Script.longest := by
  rintro script' rfl
  -- One case for each part. What it leaves is a script that it was shown to lead to, or one part that
  -- finishes.
  cases h with
  | finish outcome _ => exact .finish outcome
  | readNothing _ => exact .finish .aborted
  | readEnd _ _ => exact .finish .aborted
  | read _ _ _ =>
    cases hlasts with
    | read hgo => exact hgo _
  | scanNothing _ =>
    cases hlasts with
    | scan hgo => exact (hgo trivial).mono (by omega)
  | scanEnd _ _ => exact .finish .aborted
  | scan _ _ _ => exact hlasts.mono hn
  | files write go =>
    cases hlasts with
    | files hgo => exact (hgo _).mono (by omega)
  | identify user go =>
    cases hlasts with
    | identify hgo => exact hgo.mono (by omega)
  | alive _ =>
    cases hlasts with
    | check hlive _ => exact hlive.mono (by omega)
  | dead _ =>
    cases hlasts with
    | check _ hdead => exact hdead.mono (by omega)
  | put =>
    cases hlasts with
    | put htaken _ => exact htaken.mono (by omega)
  | refused _ =>
    cases hlasts with
    | put _ hrefused => exact hrefused.mono (by omega)

/-- A packet that is put into the inbox moves nobody. -/
theorem Placed.put (h : op.Placed rest) (p : Packet) :
    ({ op with inbox := op.inbox.push p } : Operation).Placed rest := by
  have hreceiver := (Queue.ends_push op.inbox p).1
  cases h with
  | working hlistening hrest => exact .working (hreceiver.trans hlistening) hrest
  | done outcome hgone => exact .done outcome (hreceiver.trans hgone)

/-- A part leads from one place to another. -/
theorem Placed.part (h : op.Placed rest)
    (hdoes : (rest.getD (op.script service)).Does op s op' rest' s') : op'.Placed rest' := by
  have hguarded (script' : Script) (hrest' : rest' = some script') : script'.Guarded true := by
    rcases hdoes.guarded (h.guarded service) script' hrest' with hguarded | ⟨-, hguarded⟩
    · exact hguarded.seen true
    · exact hguarded
  have hlasts := lasts_of_does hdoes (h.lasts service) (Nat.le_refl _)
  rcases hdoes.receiver with hreceiver | ⟨hgone, outcome, rfl⟩
  · cases h with
    | working hlistening _ =>
      exact .working (hreceiver.trans hlistening) fun script' hrest' =>
        ⟨hguarded script' hrest', hlasts script' hrest'⟩
    | done outcome hgone =>
      -- Whoever is over can only leave.
      cases hdoes with
      | finish _ hthere => exact absurd hgone hthere
  · exact .done outcome hgone

/-! ### To the end -/

/-- Nothing takes a sentence back. -/
theorem Sentenced.part (h : op.Sentenced rest)
    (hdoes : (rest.getD (op.script service)).Does op s op' rest' s') : op'.Sentenced rest' := by
  -- The packet that ends the operation is still there, if it was not the one that was just taken.
  have hkept {p : Packet} {inbox : Queue Packet} (hdoomed : op.Doomed)
      (hwaiting : op.inbox.waiting = p :: inbox.waiting) (hgoes : p.request.endsOperation = false) :
      ({ op with inbox } : Operation).Doomed := by
    obtain ⟨q, hq, hends⟩ := hdoomed
    rw [hwaiting] at hq
    rcases List.mem_cons.mp hq with rfl | hq
    · rw [hgoes] at hends
      cases hends
    · exact ⟨q, hq, hends⟩
  rcases h with hdoomed | ⟨outcome, rfl⟩
  · generalize rest.getD (op.script service) = script at hdoes
    cases hdoes with
    | finish outcome _ => exact .inr ⟨outcome, rfl⟩
    | readNothing _ => exact .inr ⟨.aborted, rfl⟩
    | readEnd _ _ => exact .inr ⟨.aborted, rfl⟩
    | read hwaiting _ hgoes => exact .inl (hkept hdoomed hwaiting hgoes)
    | scanEnd _ _ => exact .inr ⟨.aborted, rfl⟩
    | scan hwaiting _ hgoes => exact .inl (hkept hdoomed hwaiting hgoes)
    | _ => exact .inl hdoomed
  · cases hdoes with
    | finish outcome _ => exact .inr ⟨outcome, rfl⟩

/-- An operation that is to end does not wait, whatever it finds. -/
theorem Sentenced.not_wait (h : op.Sentenced rest) (service : Service) (s : Scene) :
    (rest.getD (op.script service)).part op s ≠ .wait := by
  intro hwait
  rcases h with ⟨q, hq, -⟩ | ⟨outcome, rfl⟩
  · generalize rest.getD (op.script service) = script at hwait
    cases script with
    | read go =>
      -- It would have found nothing to read.
      simp only [Script.part] at hwait
      split at hwait
      · next hreceive =>
        rw [Queue.receive_pending hreceive] at hq
        cases hq
      · cases hwait
      · cases hwait
    | finish outcome => simp only [Script.part] at hwait; split at hwait <;> cases hwait
    | scan go => simp only [Script.part] at hwait; split at hwait <;> cases hwait
    | put p taken refused => simp only [Script.part] at hwait; split at hwait <;> cases hwait
    | _ => cases hwait
  · simp only [Option.getD_some, Script.part] at hwait
    split at hwait <;> cases hwait

/-- Only an operation that is over leaves, and it leaves everything as it is. -/
theorem left_of_part (h : script.part op s = .left s') :
    s' = s ∧ op.inbox.receiver = .gone ∧ ∃ outcome, script = .finish outcome := by
  cases script with
  | finish outcome =>
    simp only [Script.part] at h
    split at h
    · next hgone =>
      cases h
      exact ⟨rfl, hgone, outcome, rfl⟩
    · cases h
  | read go => simp only [Script.part] at h; split at h <;> cases h
  | scan go => simp only [Script.part] at h; split at h <;> cases h
  | put p taken refused => simp only [Script.part] at h; split at h <;> cases h
  | _ => cases h

/-- An operation that is to end has been told so few things that it is soon over. -/
theorem Placed.leavesWithin (h : op.Placed rest) (service : Service) :
    op.LeavesWithin service rest (Script.longest * (op.inbox.waiting.length + 1) + 1) := by
  -- A step is never longer than the longest script, and every packet may bring one more.
  refine ⟨Script.longest, (h.lasts service).of_clear, ?_⟩
  rw [Nat.mul_add, Nat.mul_one]
  split <;> omega

/-- There is something left to read for an operation that is to end and has not come upon the end. -/
private theorem Sentenced.waiting_ne_nil (h : op.Sentenced rest)
    (hscript : ∀ outcome, rest ≠ some (.finish outcome)) : op.inbox.waiting ≠ [] := by
  intro hempty
  rcases h with ⟨q, hq, -⟩ | ⟨outcome, hrest⟩
  · rw [hempty] at hq
    cases hq
  · exact hscript outcome hrest

/-- Every part uses one up. -/
theorem LeavesWithin.part {k : Nat} (h : op.LeavesWithin service rest k) (hsentenced : op.Sentenced rest)
    (hdoes : (rest.getD (op.script service)).Does op s op' rest' s') :
    ∃ k' < k, op'.LeavesWithin service rest' k' := by
  obtain ⟨n, hlasts, hk⟩ := h
  have hunfinished {script : Script} (hrest : rest.getD (op.script service) = script)
      (hscript : ∀ outcome, script ≠ .finish outcome) : op.inbox.waiting ≠ [] := by
    refine hsentenced.waiting_ne_nil fun outcome hfinish => hscript outcome ?_
    rw [← hrest, hfinish, Option.getD_some]
  -- A script that is shorter, over the same inbox.
  have hshorter {script' : Script} {m : Nat} (hlasts' : script'.Lasts False m) (hm : m < n) :
      ∃ k' < k, op.LeavesWithin service (some script') k' :=
    ⟨_, Nat.lt_of_lt_of_le (by omega) hk, m, hlasts', Nat.le_refl _⟩
  -- A packet less in the inbox, which pays for what it brings.
  have hbrings {p : Packet} {inbox : Queue Packet} {script' : Script} {m : Nat}
      (hwaiting : op.inbox.waiting = p :: inbox.waiting) (hreceiver : inbox.receiver = op.inbox.receiver)
      (hlasts' : script'.Lasts False m) (hm : m < n + Script.longest) :
      ∃ k' < k, LeavesWithin service { op with inbox } (some script') k' := by
    refine ⟨_, Nat.lt_of_lt_of_le ?_ hk, m, hlasts', Nat.le_refl _⟩
    simp only [hwaiting, hreceiver, List.length_cons, Nat.mul_add, Nat.mul_one]
    omega
  -- One case for each part: the script gets shorter, or the inbox does, or the receiver goes.
  generalize hscript : rest.getD (op.script service) = script at hdoes hlasts
  cases hdoes with
  | next stage =>
    cases hlasts with
    | @next n _ hcost =>
      refine ⟨_, Nat.lt_of_lt_of_le ?_ hk, n, ?_, Nat.le_refl _⟩
      · simp only
        omega
      · exact (script_lasts service { op with stage }).2.mono hcost
  | finish outcome hthere =>
    refine ⟨n, ?_, n, hlasts, ?_⟩
    · rw [if_neg hthere] at hk
      omega
    · rw [Queue.waiting_dropReceiver, if_pos (by rfl)]
      exact Nat.le_refl n
  | readNothing hempty => exact absurd hempty (hunfinished hscript fun _ h => by cases h)
  | readEnd hwaiting hreceiver =>
    exact hbrings (m := 1) hwaiting hreceiver (.finish .aborted) (by simp only [Script.longest]; omega)
  | read hwaiting hreceiver _ =>
    cases hlasts with
    | read hgo => exact hbrings hwaiting hreceiver (hgo _) (by omega)
  | scanNothing hempty => exact absurd hempty (hunfinished hscript fun _ h => by cases h)
  | scanEnd hwaiting hreceiver =>
    exact hbrings (m := 1) hwaiting hreceiver (.finish .aborted) (by simp only [Script.longest]; omega)
  | scan hwaiting hreceiver _ => exact hbrings hwaiting hreceiver hlasts (by simp only [Script.longest]; omega)
  | files write go =>
    cases hlasts with
    | files hgo => exact hshorter (hgo _) (Nat.lt_succ_self _)
  | identify user go =>
    cases hlasts with
    | identify hgo => exact hshorter hgo (Nat.lt_succ_self _)
  | alive _ =>
    cases hlasts with
    | check hlive _ => exact hshorter hlive (Nat.lt_succ_self _)
  | dead _ =>
    cases hlasts with
    | check _ hdead => exact hshorter hdead (Nat.lt_succ_self _)
  | put =>
    cases hlasts with
    | put htaken _ => exact hshorter htaken (Nat.lt_succ_self _)
  | refused _ =>
    cases hlasts with
    | put _ hrefused => exact hshorter hrefused (Nat.lt_succ_self _)

end

end Depot.Operation
