import Depot.Proofs.Pool.Permits
import Depot.Proofs.Server.Limits
import Depot.Server.Admission

/-!
# Admission control

A slot goes from the pool to the gate, from the gate to the task of a connection and from there back to
the pool; a failure to accept and the end of the server send it back from the gate. Wherever the steps of
the gate and of the tasks fall between each other and before or after a shutdown, every slot is in one
place, and the pool counts those that are out and the one that is set aside for the gate while it waits.

## Key results

- `Stocked`: which slots of a pool are out, and what every dealing with the pool keeps of that
- `kept_step`: what a step of the gate or of a task keeps
- `admission_controlled`: the limits, the numbers and the slots of all connections of a server
-/

namespace Depot.Server

/-! ### Slots of a pool -/

/-- What is given back becomes pristine. -/
theorem pristine_reset (s : PooledSlot) : (Admission.reset s).slot.isPristine = true := rfl

/-- What is built is pristine. -/
theorem pristine_build (config : Config) (number : Nat) :
    (Admission.build config number).slot.isPristine = true := rfl

/-- What is kept of a pool of slots, with the numbers of those that are out and so many permits that are
on their way. -/
structure Stocked (total : Nat) (out : List Nat) (loose : Nat) (p : Pool PooledSlot) : Prop where
  sound : p.Sound out.length loose
  capacity : p.capacity = total
  numbers : (out ++ p.free.map PooledSlot.number).Nodup
  number_lt : ∀ n ∈ out ++ p.free.map PooledSlot.number, n < p.built
  pristine : ∀ s ∈ p.free, s.slot.isPristine = true

namespace Stocked

variable {total loose number : Nat} {out out' : List Nat} {p p' : Pool PooledSlot} {s : PooledSlot}

/-- A new pool has all its permits and no slot. -/
theorem new (capacity : Nat) :
    Stocked (min (max capacity 1) Pool.maxCapacity) [] 0 (Pool.new capacity) where
  sound := Pool.sound_new capacity
  capacity := rfl
  numbers := List.nodup_nil
  number_lt := List.forall_mem_nil _
  pristine := List.forall_mem_nil _

/-- The order in which the slots went out does not matter. -/
theorem perm (h : Stocked total out loose p) (hperm : out.Perm out') : Stocked total out' loose p where
  sound := hperm.length_eq ▸ h.sound
  capacity := h.capacity
  numbers := (hperm.append_right _).nodup_iff.mp h.numbers
  number_lt := fun n hn => h.number_lt n ((hperm.append_right _).mem_iff.mpr hn)
  pristine := h.pristine

/-- Closing the pool moves no slot. -/
theorem close (h : Stocked total out loose p) : Stocked total out loose p.close :=
  ⟨Pool.sound_close h.sound, h.capacity, h.numbers, h.number_lt, h.pristine⟩

/-- A permit that is taken is on its way until a slot is lent against it. -/
theorem take (h : Stocked total out 0 p) (hpermits : p.permits ≠ 0) :
    Stocked total out 1 { p with permits := p.permits - 1 } :=
  ⟨Pool.sound_take h.sound hpermits, h.capacity, h.numbers, h.number_lt, h.pristine⟩

/-- To join the queue takes nothing from the pool. -/
theorem joined (h : Stocked total out 0 p) (hpermits : p.permits = 0) : Stocked total out 0 p.joined :=
  ⟨Pool.sound_joined h.sound hpermits, h.capacity, h.numbers, h.number_lt, h.pristine⟩

/-- Who leaves the queue takes along what was set aside for it. -/
theorem leave {w : Waiter} (h : Stocked total out 0 p)
    (hfind : p.waiters.find? (·.number == number) = some w) :
    Stocked total out (if w.granted then 1 else 0) (p.leave number) :=
  ⟨Pool.sound_leave h.sound hfind, h.capacity, h.numbers, h.number_lt, h.pristine⟩

/-- A slot that is lent is pristine, and it is no other that is out. -/
theorem lend {config : Config} (h : Stocked total out 1 p)
    (hlend : p.lend (Admission.build config) = (s, p')) :
    Stocked total (s.number :: out) 0 p' ∧ s.slot.isPristine = true ∧ p'.waiters = p.waiters := by
  have hsound : p'.Sound (s.number :: out).length 0 := (Pool.sound_lend h.sound hlend).1
  -- The slot came back before, or it is built now.
  rcases Pool.lend_cases hlend with ⟨rest, hfree, rfl⟩ | ⟨hfree, rfl, rfl⟩
  · have hnumbers := h.numbers
    have hlt := h.number_lt
    rw [hfree, List.map_cons] at hnumbers hlt
    have hperm : (out ++ s.number :: rest.map PooledSlot.number).Perm
        (s.number :: out ++ rest.map PooledSlot.number) := List.perm_middle
    refine ⟨⟨hsound, h.capacity, hperm.nodup_iff.mp hnumbers,
      fun n hn => hlt n (hperm.mem_iff.mpr hn), fun t ht => ?_⟩, ?_, rfl⟩
    · exact h.pristine t (hfree ▸ List.mem_cons_of_mem s ht)
    · exact h.pristine s (hfree ▸ List.mem_cons_self)
  · have hnumbers := h.numbers
    have hlt := h.number_lt
    refine ⟨⟨hsound, h.capacity, ?_, ?_, h.pristine⟩, pristine_build config p.built, rfl⟩
    · -- A new slot has a number that no slot had before.
      refine List.nodup_cons.mpr ⟨fun hmem => ?_, hnumbers⟩
      exact absurd (hlt p.built hmem) (Nat.lt_irrefl _)
    · intro n hn
      rcases List.mem_cons.mp hn with rfl | hn
      · exact Nat.lt_succ_self _
      · exact Nat.lt_succ_of_lt (hlt n hn)

/-- A permit that is on its way goes to the first in the queue or back to the pool, and everybody stays
in the queue. -/
theorem restore (h : Stocked total out 1 p) :
    Stocked total out 0 p.restore ∧
      p.restore.waiters.map Waiter.number = p.waiters.map Waiter.number := by
  have hsound := Pool.sound_restore h.sound
  -- Only permits move here, so no slot does.
  constructor
  · obtain ⟨permits, waiters, hrestore⟩ := p.restore_eq
    rw [hrestore] at hsound ⊢
    exact ⟨hsound, h.capacity, h.numbers, h.number_lt, h.pristine⟩
  · unfold Pool.restore
    split
    · next waiters hgrant =>
      split at hgrant
      · cases hgrant
      · exact (Pool.grantFirst_eq_some hgrant).1
    · rfl

/-- What somebody in the queue leaves behind finds its place. -/
theorem left {granted : Bool} (h : Stocked total out (if granted then 1 else 0) p) :
    Stocked total out 0 (if granted then p.restore else p) ∧
      (if granted then p.restore else p).waiters.map Waiter.number = p.waiters.map Waiter.number := by
  cases granted with
  | false => exact ⟨h, rfl⟩
  | true => exact h.restore

/-- A slot that comes back is pristine again. -/
theorem release (h : Stocked total (s.number :: out) 0 p) :
    Stocked total out 0 (p.release Admission.reset s) ∧
      (p.release Admission.reset s).waiters.map Waiter.number = p.waiters.map Waiter.number := by
  have hperm : (s.number :: out ++ p.free.map PooledSlot.number).Perm
      (out ++ s.number :: p.free.map PooledSlot.number) := List.perm_middle.symm
  -- First the slot is put back, with its permit on its way, and then the permit is restored.
  have hstored : Stocked total out 1 { p with free := Admission.reset s :: p.free } := by
    refine ⟨Pool.sound_store h.sound (Admission.reset s), h.capacity, hperm.nodup_iff.mp h.numbers,
      fun n hn => h.number_lt n (hperm.mem_iff.mpr hn), fun t ht => ?_⟩
    rcases List.mem_cons.mp ht with rfl | ht
    · exact pristine_reset s
    · exact h.pristine t ht
  exact hstored.restore

end Stocked

/-- The slot that the gate has for the connection to come. -/
def Gate.slot? : Gate → Option PooledSlot
  | .accepting slot => some slot
  | _ => none

/-- The number under which the gate waits for a slot. -/
def Gate.ticket? : Gate → Option Nat
  | .queued number => some number
  | _ => none

namespace Admission

/-! ### Tasks -/

variable {total : Nat} {a a' : Admission} {t : Task} {f : Task → Task}

/-- Among tasks with ascending numbers there is one with a number, and the others. -/
theorem perm_task {tasks : List Task} (hascending : (tasks.map Task.id).Pairwise (· < ·))
    (ht : t ∈ tasks) : tasks.Perm (t :: tasks.filter (·.id != t.id)) := by
  -- By induction on the tasks. The numbers ascend, so none of the others is taken for the one.
  induction tasks with
  | nil => cases ht
  | cons u rest ih =>
    rw [List.map_cons, List.pairwise_cons] at hascending
    obtain ⟨hfirst, hrest⟩ := hascending
    rcases List.mem_cons.mp ht with rfl | ht
    · have hothers : ∀ u ∈ rest, (u.id != t.id) = true := by
        intro u hu
        have hlt := hfirst u.id (List.mem_map_of_mem hu)
        exact bne_iff_ne.mpr (Nat.ne_of_gt hlt)
      rw [List.filter_cons_of_neg (by simp), List.filter_eq_self.mpr hothers]
    · have hlt := hfirst t.id (List.mem_map_of_mem ht)
      have hother : (u.id != t.id) = true := bne_iff_ne.mpr (Nat.ne_of_lt hlt)
      rw [List.filter_cons_of_pos (by exact hother)]
      exact ((ih hrest ht).cons u).trans (List.Perm.swap t u _)

/-- Changing a task leaves the others alone. -/
theorem perm_updateTask (hascending : (a.tasks.map Task.id).Pairwise (· < ·)) (ht : t ∈ a.tasks) :
    (a.updateTask t.id f).tasks.Perm (f t :: a.tasks.filter (·.id != t.id)) := by
  have hperm := (perm_task hascending ht).map fun u => if u.id = t.id then f u else u
  have hothers : (a.tasks.filter (·.id != t.id)).map (fun u => if u.id = t.id then f u else u) =
      a.tasks.filter (·.id != t.id) := by
    refine List.map_congr_left (fun u hu => ?_) |>.trans (List.map_id _)
    exact if_neg (bne_iff_ne.mp (List.mem_filter.mp hu).2)
  rw [List.map_cons, if_pos rfl, hothers] at hperm
  exact hperm

/-- A task that changes keeps its number, if the change does. -/
theorem ids_updateTask (id : Nat) (f : Task → Task) (hf : ∀ t, (f t).id = t.id) :
    (a.updateTask id f).tasks.map Task.id = a.tasks.map Task.id := by
  rw [updateTask, List.map_map]
  refine List.map_congr_left fun t _ => ?_
  show (if t.id = id then f t else t).id = t.id
  split
  · exact hf t
  · rfl

/-- A task that is found is there, with that number and at that stage. -/
theorem task?_eq_some {id : Nat} {stage : TaskStage} (h : a.task? id stage = some t) :
    t ∈ a.tasks ∧ t.id = id ∧ t.stage = stage := by
  have hmem := List.mem_of_find?_eq_some h
  have hsome := List.find?_some h
  simp only [Bool.and_eq_true, beq_iff_eq] at hsome
  exact ⟨hmem, hsome.1, hsome.2⟩

/-! ### What is kept -/

/-- The numbers of the slots that are out: the gate has one at most, the tasks have the others. -/
def out (a : Admission) : List Nat :=
  a.gate.slot?.toList.map PooledSlot.number ++ a.tasks.map fun t => t.slot.number

/-- How the gate, the tasks and the pool fit together. -/
structure Kept (total : Nat) (a : Admission) : Prop where
  stocked : Stocked total a.out 0 a.pool
  /-- Nobody but the gate waits for a slot. -/
  queue : a.pool.waiters.map Waiter.number = a.gate.ticket?.toList
  ready : ∀ s, a.gate.slot? = some s → s.slot.isPristine = true
  ascending : (a.tasks.map Task.id).Pairwise (· < ·)
  ids : ∀ t ∈ a.tasks, t.id ≤ a.accepted
  active : a.active = a.tasks.countP (·.stage == .counted)

/-- A server that has just started has nothing out. -/
theorem kept_start (config : Config) (backoff : Backoff) :
    Kept (min (max config.maxClients 1) Pool.maxCapacity) (start config backoff) where
  stocked := .new config.maxClients
  queue := rfl
  ready := fun s hs => by cases hs
  ascending := .nil
  ids := List.forall_mem_nil _
  active := rfl

namespace Kept

/-- The gate goes on with another slot or none, and the tasks stay as they are. -/
private theorem gate (h : Kept total a) (gate : Gate) {pool : Pool PooledSlot} {delay : Duration}
    (hstocked : Stocked total
      (gate.slot?.toList.map PooledSlot.number ++ a.tasks.map fun t => t.slot.number) 0 pool)
    (hqueue : pool.waiters.map Waiter.number = gate.ticket?.toList)
    (hready : ∀ s, gate.slot? = some s → s.slot.isPristine = true) :
    Kept total { a with pool, gate, delay } :=
  { h with stocked := hstocked, queue := hqueue, ready := hready }

/-- Without a slot at the gate, the slots that are out are those of the tasks. -/
private theorem idle (h : Kept total a) (hgate : a.gate.slot? = none) :
    Stocked total (a.tasks.map fun t => t.slot.number) 0 a.pool := by
  have hstocked := h.stocked
  rw [out, hgate] at hstocked
  exact hstocked

/-- Asking the pool leads to a slot, into the queue, or to the end if the pool is closed. -/
private theorem borrow (h : Kept total a) (hgate : a.gate = .borrowing)
    (hstep : a.borrow? = some a') : Kept total a' := by
  -- The gate has nothing yet, so everything that is out is with the tasks.
  have hidle := h.idle (by rw [hgate]; rfl)
  have hqueue := h.queue
  rw [hgate] at hqueue
  simp only [borrow?, hgate, Pool.acquire] at hstep
  cases hclosed : a.pool.closed with
  | true =>
    rw [Pool.tryAcquire_of_closed hclosed] at hstep
    cases hstep
    exact h.gate .stopped hidle hqueue (fun s hs => by cases hs)
  | false =>
    by_cases hpermits : a.pool.permits = 0
    · rw [Pool.tryAcquire_of_exhausted hclosed hpermits] at hstep
      cases hstep
      refine h.gate (.queued a.pool.queued) (hidle.joined hpermits) ?_ (fun s hs => by cases hs)
      rw [List.map_append, hqueue]
      rfl
    · rw [Pool.tryAcquire_of_permit hclosed hpermits] at hstep
      obtain ⟨⟨slot, pool⟩, hlend⟩ : ∃ lent,
          ({ a.pool with permits := a.pool.permits - 1 } : Pool PooledSlot).lend (build a.config) = lent :=
        ⟨_, rfl⟩
      rw [hlend] at hstep
      cases hstep
      obtain ⟨hstocked, hpristine, hwaiters⟩ := (hidle.take hpermits).lend hlend
      refine h.gate (.accepting slot) hstocked ?_ (fun s hs => ?_)
      · rw [hwaiters]
        exact hqueue
      · cases hs
        exact hpristine

/-- The gate is alone in the queue. -/
private theorem waiter {number : Nat} (h : Kept total a) (hgate : a.gate = .queued number) :
    ∃ w, (a.pool.waiters = [w] ∧ w.number = number) ∧
      a.pool.waiters.find? (·.number == number) = some w ∧ (a.pool.leave number).waiters = [] := by
  have hqueue := h.queue
  rw [hgate] at hqueue
  obtain ⟨w, hwaiters, hnumber⟩ := List.map_eq_singleton_iff.mp hqueue
  refine ⟨w, ⟨hwaiters, hnumber⟩, ?_, ?_⟩
  · rw [hwaiters]
    simp [hnumber]
  · show a.pool.waiters.filter (·.number != number) = []
    rw [hwaiters]
    simp [hnumber]

/-- Asking again leads to a slot if a permit was set aside, or to the end if the pool is closed. -/
private theorem ask {number : Nat} (h : Kept total a) (hgate : a.gate = .queued number)
    (hstep : a.borrow? = some a') : Kept total a' := by
  have hidle := h.idle (by rw [hgate]; rfl)
  obtain ⟨w, -, hfind, halone⟩ := h.waiter hgate
  -- The gate leaves the queue first, and what was set aside for it is then on its way.
  have hleft := hidle.leave hfind
  simp only [borrow?, hgate, Pool.ask_of_find? _ hfind] at hstep
  cases hclosed : a.pool.closed with
  | true =>
    simp only [hclosed, ↓reduceIte] at hstep
    cases hstep
    exact h.gate .stopped hleft.left.1 (hleft.left.2.trans (by rw [halone]; rfl))
      (fun s hs => by cases hs)
  | false =>
    simp only [hclosed, Bool.false_eq_true, ↓reduceIte] at hstep
    cases hgranted : w.granted with
    | false =>
      simp only [hgranted, Bool.false_eq_true, ↓reduceIte] at hstep
      cases hstep
    | true =>
      simp only [hgranted, ↓reduceIte] at hstep hleft
      obtain ⟨⟨slot, pool⟩, hlend⟩ : ∃ lent, (a.pool.leave number).lend (build a.config) = lent :=
        ⟨_, rfl⟩
      rw [hlend] at hstep
      cases hstep
      obtain ⟨hstocked, hpristine, hwaiters⟩ := hleft.lend hlend
      refine h.gate (.accepting slot) hstocked ?_ (fun s hs => ?_)
      · rw [hwaiters, halone]
        rfl
      · cases hs
        exact hpristine

/-- The gate lets a connection in, and its slot goes to the new task. -/
private theorem accept {peer : String} (h : Kept total a) (hstep : a.accept? peer = some a') :
    Kept total a' := by
  unfold accept? at hstep
  split at hstep
  · next slot hgate =>
    cases hstep
    have hstocked := h.stocked
    have hqueue := h.queue
    rw [out, hgate] at hstocked
    rw [hgate] at hqueue
    have hperm : ([slot.number] ++ a.tasks.map fun t => t.slot.number).Perm
        ((a.tasks.map fun t => t.slot.number) ++ [slot.number]) := List.perm_append_comm
    refine ⟨?_, hqueue, fun s hs => (by cases hs), ?_, fun t ht => ?_, ?_⟩
    · show Stocked total ([] ++ (a.tasks ++ [_]).map fun t : Task => t.slot.number) 0 a.pool
      rw [List.map_append]
      exact hstocked.perm hperm
    · rw [List.map_append, List.pairwise_append]
      refine ⟨h.ascending, List.pairwise_singleton _ _, fun id hid next hnext => ?_⟩
      obtain ⟨t, ht, rfl⟩ := List.mem_map.mp hid
      rw [List.mem_singleton.mp hnext]
      exact Nat.lt_succ_of_le (h.ids t ht)
    · rcases List.mem_append.mp ht with ht | ht
      · exact Nat.le_succ_of_le (h.ids t ht)
      · exact Nat.le_of_eq (congrArg (fun t : Task => t.id) (List.mem_singleton.mp ht))
    · show a.active = (a.tasks ++ [_]).countP _
      -- The new task is not counted yet.
      rw [List.countP_append]
      exact h.active
  · cases hstep

/-- The gate gives its slot back. -/
private theorem giveBack {slot : PooledSlot} (h : Kept total a) (hgate : a.gate = .accepting slot)
    (gate : Gate) {delay : Duration} (hslot : gate.slot? = none) (hticket : gate.ticket? = none) :
    Kept total { a with pool := a.pool.release reset slot, gate, delay } := by
  have hstocked := h.stocked
  have hqueue := h.queue
  rw [out, hgate] at hstocked
  rw [hgate] at hqueue
  -- The slot is the first of those that are out, so giving it back leaves those of the tasks.
  obtain ⟨hreleased, hwaiters⟩ := hstocked.release
  refine h.gate gate ?_ ?_ (fun s hs => ?_)
  · rw [hslot]
    exact hreleased
  · rw [hwaiters, hticket]
    exact hqueue
  · rw [hslot] at hs
    cases hs

/-- The gate goes on without a slot. -/
private theorem turn (h : Kept total a) (hslot : a.gate.slot? = none) (hticket : a.gate.ticket? = none)
    (gate : Gate) (hslot' : gate.slot? = none) (hticket' : gate.ticket? = none) :
    Kept total { a with gate } := by
  refine h.gate gate ?_ ?_ (fun s hs => ?_)
  · rw [hslot']
    exact h.idle hslot
  · rw [hticket', ← hticket]
    exact h.queue
  · rw [hslot'] at hs
    cases hs

/-- Stopping gives back what the gate has, whatever that is. -/
private theorem stop (h : Kept total a) (hstep : a.stop? = some a') : Kept total a' := by
  unfold stop? at hstep
  split at hstep
  · cases hstep
  -- By what the gate is about to do: only the two middle ones have something to give back.
  · cases hgate : a.gate with
    | stopped =>
      rw [hgate] at hstep
      cases hstep
    | accepting slot =>
      rw [hgate] at hstep
      cases hstep
      exact h.giveBack hgate .stopped rfl rfl
    | queued number =>
      rw [hgate] at hstep
      cases hstep
      obtain ⟨w, -, hfind, halone⟩ := h.waiter hgate
      have hleft := (h.idle (by rw [hgate]; rfl)).leave hfind
      rw [Pool.cancel_of_find? hfind]
      exact h.gate .stopped hleft.left.1 (hleft.left.2.trans (by rw [halone]; rfl))
        (fun s hs => by cases hs)
    | borrowing =>
      rw [hgate] at hstep
      cases hstep
      exact h.turn (by rw [hgate]; rfl) (by rw [hgate]; rfl) .stopped rfl rfl
    | pausing delay =>
      rw [hgate] at hstep
      cases hstep
      exact h.turn (by rw [hgate]; rfl) (by rw [hgate]; rfl) .stopped rfl rfl

/-- A task changes, and keeps its number and its slot. -/
private theorem change (h : Kept total a) (f : Task → Task) (ht : t ∈ a.tasks) (hid : ∀ t, (f t).id = t.id)
    (hslot : ∀ t, (f t).slot.number = t.slot.number) {active : Nat}
    (hactive : active + (if t.stage == .counted then 1 else 0) =
      a.active + if (f t).stage == .counted then 1 else 0) :
    Kept total { a.updateTask t.id f with active } := by
  have hids := ids_updateTask (a := a) t.id f hid
  -- The task keeps its slot, so what is out stays the same list.
  have hslots : ((a.updateTask t.id f).tasks.map fun t => t.slot.number) =
      a.tasks.map fun t => t.slot.number := by
    rw [updateTask, List.map_map]
    refine List.map_congr_left fun u _ => ?_
    show (if u.id = t.id then f u else u).slot.number = u.slot.number
    split
    · exact hslot u
    · rfl
  refine ⟨?_, h.queue, h.ready, hids ▸ h.ascending, fun u hu => ?_, ?_⟩
  · show Stocked total (_ ++ (a.updateTask t.id f).tasks.map fun t => t.slot.number) 0 a.pool
    rw [hslots]
    exact h.stocked
  · have hmem : u.id ∈ a.tasks.map Task.id := hids ▸ List.mem_map_of_mem hu
    obtain ⟨v, hv, hsame⟩ := List.mem_map.mp hmem
    exact hsame ▸ h.ids v hv
  · -- The other tasks count as before.
    show active = (a.updateTask t.id f).tasks.countP (·.stage == .counted)
    have hbefore := h.active
    rw [(perm_task h.ascending ht).countP_eq, List.countP_cons] at hbefore
    rw [(perm_updateTask h.ascending ht).countP_eq, List.countP_cons]
    omega

/-- A task is over, and its slot comes back. -/
private theorem finish (h : Kept total a) (ht : t ∈ a.tasks) (hstage : t.stage = .served) :
    Kept total { a with
      tasks := a.tasks.filter (·.id != t.id)
      pool := a.pool.release reset t.slot } := by
  -- The task is brought to the front of the tasks, and its slot to the front of what is out.
  have hperm := perm_task h.ascending ht
  have hout : a.out.Perm (t.slot.number :: (a.gate.slot?.toList.map PooledSlot.number ++
      (a.tasks.filter (·.id != t.id)).map fun t => t.slot.number)) :=
    ((hperm.map fun t => t.slot.number).append_left _).trans List.perm_middle
  obtain ⟨hreleased, hwaiters⟩ := (h.stocked.perm hout).release
  have hsub : (a.tasks.filter (·.id != t.id)).Sublist a.tasks := List.filter_sublist
  refine ⟨hreleased, hwaiters.trans h.queue, h.ready, h.ascending.sublist (hsub.map _),
    fun u hu => h.ids u (hsub.subset hu), ?_⟩
  show a.active = (a.tasks.filter (·.id != t.id)).countP (·.stage == .counted)
  rw [h.active, hperm.countP_eq, List.countP_cons, hstage]
  rfl

end Kept

/-- Every step of the gate and of a task keeps the slots in their places. -/
theorem kept_step {e : Event} (h : Kept total a) (hstep : a.step? e = some a') : Kept total a' := by
  cases e with
  | borrow =>
    simp only [step?] at hstep
    split at hstep
    · cases hstep
    · cases hgate : a.gate with
      | borrowing => exact h.borrow hgate hstep
      | queued number => exact h.ask hgate hstep
      | _ =>
        simp only [borrow?, hgate] at hstep
        cases hstep
  | accept peer =>
    simp only [step?] at hstep
    split at hstep
    · cases hstep
    · exact h.accept hstep
  | fail =>
    simp only [step?] at hstep
    split at hstep
    · cases hstep
    · unfold fail? at hstep
      split at hstep
      · next slot hgate =>
        cases hstep
        exact h.giveBack hgate (.pausing a.delay) rfl rfl
      · cases hstep
  | resume =>
    simp only [step?] at hstep
    split at hstep
    · next delay hgate =>
      split at hstep
      · cases hstep
      · cases hstep
        exact h.turn (by rw [hgate]; rfl) (by rw [hgate]; rfl) .borrowing rfl rfl
    · cases hstep
  | count id =>
    obtain ⟨t, htask, rfl⟩ := Option.map_eq_some_iff.mp hstep
    obtain ⟨ht, rfl, hstage⟩ := task?_eq_some htask
    refine h.change (fun t => { t with stage := .counted }) ht (fun _ => rfl) (fun _ => rfl) ?_
    rw [hstage]
    rfl
  | serve id slot =>
    obtain ⟨t, htask, rfl⟩ := Option.map_eq_some_iff.mp hstep
    obtain ⟨ht, rfl, hstage⟩ := task?_eq_some htask
    exact h.change (fun t => { t with slot := { t.slot with slot } }) ht (fun _ => rfl) (fun _ => rfl)
      rfl
  | uncount id =>
    obtain ⟨t, htask, rfl⟩ := Option.map_eq_some_iff.mp hstep
    obtain ⟨ht, rfl, hstage⟩ := task?_eq_some htask
    refine h.change (fun t => { t with stage := .served }) ht (fun _ => rfl) (fun _ => rfl) ?_
    -- Somebody is counted, so there is one to count out.
    have hcounted : 0 < a.active := by
      rw [h.active]
      exact List.countP_pos_iff.mpr ⟨t, ht, by rw [hstage]; rfl⟩
    rw [hstage]
    exact Nat.sub_add_cancel hcounted
  | release id =>
    obtain ⟨t, htask, rfl⟩ := Option.map_eq_some_iff.mp hstep
    obtain ⟨ht, rfl, hstage⟩ := task?_eq_some htask
    exact h.finish ht hstage
  | shutdown =>
    cases hstep
    exact ⟨h.stocked, h.queue, h.ready, h.ascending, h.ids, h.active⟩
  | stop => exact h.stop hstep
  | close =>
    simp only [step?] at hstep
    split at hstep
    · cases hstep
      exact ⟨h.stocked.close, h.queue, h.ready, h.ascending, h.ids, h.active⟩
    · cases hstep

/-! ### All connections of a server -/

/-- The tasks that a step adds. -/
def newcomers (a a' : Admission) : Event → List Task
  | .accept _ => a'.tasks.drop a.tasks.length
  | _ => []

/-- A run of a server, with the tasks of its connections as they were let in. -/
inductive Course (config : Config) (backoff : Backoff) : List Task → Admission → Prop
  | start : Course config backoff [] (start config backoff)
  | step {admitted : List Task} {a a' : Admission} {e : Event} (h : Course config backoff admitted a)
      (hstep : a.step? e = some a') : Course config backoff (admitted ++ a.newcomers a' e) a'

/-- The slots that the gate has for the connection to come, or that are set aside for it. -/
def reserved (a : Admission) : Nat :=
  match a.gate with
  | .accepting _ => 1
  | .queued number => if a.pool.waiters.any fun w => w.number == number && w.granted then 1 else 0
  | _ => 0

/-- What holds of a server at any moment, and of the connections that it has let in. -/
structure Controlled (config : Config) (admitted : List Task) (a : Admission) : Prop where
  /-- The pool counts the connections that are served and the slot that the gate may have. -/
  inUse : a.tasks.length + a.reserved = a.pool.inUse
  limit : a.pool.inUse ≤ config.maxClients
  /-- Every connection that is counted as active is served. -/
  active : a.active = a.tasks.countP (·.stage == .counted)
  active_le : a.active ≤ a.pool.inUse
  /-- No two connections have the same slot, and none has that of the gate. -/
  slots : a.out.Nodup
  /-- Connections are numbered in the order in which they come. -/
  numbers : admitted.map Task.id = List.range' 1 a.accepted
  /-- Those that are served are some of them, in that order. -/
  served : (a.tasks.map Task.id).Sublist (admitted.map Task.id)
  pristine : ∀ t ∈ admitted, t.slot.slot.isPristine = true
  /-- Nothing is left when the server returns. -/
  returned : a.hasReturned = true → a.pool.inUse = 0 ∧ a.active = 0

/-- A run of steps makes a course longer. -/
theorem course_of_run {config : Config} {backoff : Backoff} {admitted : List Task} {events : List Event}
    (h : Course config backoff admitted a) (hrun : a.run? events = some a') :
    ∃ more, Course config backoff (admitted ++ more) a' := by
  induction events generalizing a admitted with
  | nil =>
    cases hrun
    exact ⟨[], by rwa [List.append_nil]⟩
  | cons e rest ih =>
    obtain ⟨a₁, hstep, hrest⟩ := Option.bind_eq_some_iff.mp hrun
    obtain ⟨more, hcourse⟩ := ih (h.step hstep) hrest
    exact ⟨_, List.append_assoc _ _ more ▸ hcourse⟩

/-- Every state that a server can come to is at the end of a course. -/
theorem Reachable.exists_course {config : Config} {backoff : Backoff}
    (h : Reachable config backoff a) : ∃ admitted, Course config backoff admitted a := by
  obtain ⟨events, hrun⟩ := h
  exact course_of_run .start hrun

/-- A step lets in a connection with the next number and a slot that the gate had for it, or none. -/
theorem newcomers_cases {e : Event} (hstep : a.step? e = some a') :
    (∃ slot t, a.gate.slot? = some slot ∧ t.slot.slot.isPristine = slot.slot.isPristine ∧
        t.id = a.accepted + 1 ∧ a.newcomers a' e = [t] ∧ a'.tasks = a.tasks ++ [t] ∧
        a'.accepted = a.accepted + 1) ∨
      (a.newcomers a' e = [] ∧ a'.accepted = a.accepted ∧
        (a'.tasks.map Task.id).Sublist (a.tasks.map Task.id)) := by
  -- Only one kind of event lets anybody in; for the others it is left to see that the tasks keep their
  -- numbers.
  cases e with
  | accept peer =>
    simp only [step?] at hstep
    split at hstep
    · cases hstep
    · unfold accept? at hstep
      split at hstep
      · next slot hgate =>
        cases hstep
        exact .inl ⟨slot, _, by rw [hgate]; rfl, rfl, rfl, List.drop_left, rfl, rfl⟩
      · cases hstep
  | borrow =>
    simp only [step?] at hstep
    split at hstep
    · cases hstep
    · refine .inr ⟨rfl, ?_⟩
      unfold borrow? at hstep
      split at hstep
      · split at hstep <;> cases hstep <;> exact ⟨rfl, .refl _⟩
      · split at hstep <;> cases hstep <;> exact ⟨rfl, .refl _⟩
      · cases hstep
  | fail =>
    simp only [step?] at hstep
    split at hstep
    · cases hstep
    · unfold fail? at hstep
      split at hstep <;> cases hstep
      exact .inr ⟨rfl, rfl, .refl _⟩
  | resume =>
    simp only [step?] at hstep
    split at hstep
    · split at hstep <;> cases hstep
      exact .inr ⟨rfl, rfl, .refl _⟩
    · cases hstep
  | count id =>
    obtain ⟨t, -, rfl⟩ := Option.map_eq_some_iff.mp hstep
    have hids := ids_updateTask (a := a) id (fun t => { t with stage := .counted }) fun _ => rfl
    exact .inr ⟨rfl, rfl, hids ▸ .refl _⟩
  | serve id slot =>
    obtain ⟨t, -, rfl⟩ := Option.map_eq_some_iff.mp hstep
    have hids := ids_updateTask (a := a) id (fun t => { t with slot := { t.slot with slot } }) fun _ => rfl
    exact .inr ⟨rfl, rfl, hids ▸ .refl _⟩
  | uncount id =>
    obtain ⟨t, -, rfl⟩ := Option.map_eq_some_iff.mp hstep
    have hids := ids_updateTask (a := a) id (fun t => { t with stage := .served }) fun _ => rfl
    exact .inr ⟨rfl, rfl, hids ▸ .refl _⟩
  | release id =>
    obtain ⟨t, -, rfl⟩ := Option.map_eq_some_iff.mp hstep
    exact .inr ⟨rfl, rfl, List.filter_sublist.map _⟩
  | shutdown =>
    cases hstep
    exact .inr ⟨rfl, rfl, .refl _⟩
  | stop =>
    refine .inr ⟨rfl, ?_⟩
    simp only [step?, stop?] at hstep
    split at hstep
    · cases hstep
    · split at hstep <;> cases hstep <;> exact ⟨rfl, .refl _⟩
  | close =>
    simp only [step?] at hstep
    split at hstep <;> cases hstep
    exact .inr ⟨rfl, rfl, .refl _⟩

namespace Kept

/-- The permits that are not in the pool are with the tasks, with the gate or set aside for it. -/
theorem inUse (h : Kept total a) : a.tasks.length + a.reserved = a.pool.inUse := by
  have hbalance := h.stocked.sound.balance
  have hout : a.out.length = a.gate.slot?.toList.length + a.tasks.length := by
    simp only [out, List.length_append, List.length_map]
  -- By the gate: it has a slot, or it waits and may have a permit, or it has nothing.
  have hreserved : a.reserved = a.gate.slot?.toList.length + a.pool.granted := by
    have hqueue := h.queue
    cases hgate : a.gate with
    | queued number =>
      obtain ⟨w, ⟨hwaiters, hnumber⟩, -, -⟩ := h.waiter hgate
      simp only [reserved, hgate, Pool.granted, hwaiters, List.any_cons, List.any_nil, hnumber,
        beq_self_eq_true, Bool.true_and, Bool.or_false, List.countP_singleton]
      rw [Nat.add_comm]
      rfl
    | accepting slot =>
      rw [hgate] at hqueue
      simp only [reserved, hgate, Pool.granted, List.map_eq_nil_iff.mp hqueue]
      rfl
    | _ =>
      rw [hgate] at hqueue
      simp only [reserved, hgate, Pool.granted, List.map_eq_nil_iff.mp hqueue]
      rfl
  rw [Pool.inUse]
  omega

/-- A server that has returned has nothing left. -/
theorem returned (h : Kept total a) (hreturned : a.hasReturned = true) :
    a.pool.inUse = 0 ∧ a.active = 0 := by
  simp only [hasReturned, Bool.and_eq_true, beq_iff_eq, List.isEmpty_iff] at hreturned
  obtain ⟨⟨-, hgate⟩, htasks⟩ := hreturned
  have hinUse := h.inUse
  have hactive := h.active
  rw [htasks] at hinUse hactive
  simp only [reserved, hgate, List.length_nil, Nat.add_zero] at hinUse
  exact ⟨hinUse.symm, hactive⟩

end Kept

/-- What is kept of a server and of the connections that it has let in. -/
private structure Recorded (total : Nat) (admitted : List Task) (a : Admission) : Prop where
  kept : Kept total a
  numbers : admitted.map Task.id = List.range' 1 a.accepted
  served : (a.tasks.map Task.id).Sublist (admitted.map Task.id)
  pristine : ∀ t ∈ admitted, t.slot.slot.isPristine = true

/-- A step keeps the record of all who were ever let in. -/
private theorem recorded_step {admitted : List Task} {e : Event} (h : Recorded total admitted a)
    (hstep : a.step? e = some a') : Recorded total (admitted ++ a.newcomers a' e) a' := by
  have hkept := kept_step h.kept hstep
  -- Somebody is let in, and then it is at the end of every list, or nobody is.
  rcases newcomers_cases hstep with
    ⟨slot, t, hslot, hpristine, hid, hnew, htasks, haccepted⟩ | ⟨hnone, haccepted, hsub⟩
  · rw [hnew]
    refine ⟨hkept, ?_, ?_, fun u hu => ?_⟩
    · rw [List.map_append, h.numbers, haccepted, List.range'_concat, List.map_singleton, hid,
        Nat.one_mul, Nat.add_comm]
    · rw [htasks, List.map_append, List.map_append]
      exact h.served.append (.refl _)
    · rcases List.mem_append.mp hu with hu | hu
      · exact h.pristine u hu
      · rw [List.mem_singleton.mp hu, hpristine]
        exact h.kept.ready slot hslot
  · rw [hnone, List.append_nil]
    exact ⟨hkept, haccepted ▸ h.numbers, hsub.trans h.served, h.pristine⟩

/-- Whatever a server with a valid configuration has been through, it serves no more connections than it
may and counts them right; each of them has a number of its own and a slot of its own that was
pristine; and when the server returns, no slot is in use and no connection is counted. -/
theorem admission_controlled {config : Config} {backoff : Backoff} {admitted : List Task}
    (hvalid : config.validate = .ok ()) (h : Course config backoff admitted a) :
    Controlled config admitted a := by
  have hclients := (Config.validate_eq_ok_iff.mp hvalid).clients
  -- The record is kept along the course, and with it the balance of the pool.
  have hrecorded : Recorded (min (max config.maxClients 1) Pool.maxCapacity) admitted a := by
    induction h with
    | start =>
      exact ⟨kept_start config backoff, rfl, .refl _, List.forall_mem_nil _⟩
    | step _ hstep ih => exact recorded_step ih hstep
  have hkept := hrecorded.kept
  have hcapacity := hkept.stocked.capacity
  have hinUse := hkept.inUse
  have hcounted := hkept.active
  have hle : a.tasks.countP (·.stage == .counted) ≤ a.tasks.length := List.countP_le_length
  exact {
    inUse := hinUse
    limit := by
      show a.pool.capacity - a.pool.permits ≤ config.maxClients
      omega
    active := hcounted
    active_le := by omega
    slots := (List.nodup_append.mp hkept.stocked.numbers).1
    numbers := hrecorded.numbers
    served := hrecorded.served
    pristine := hrecorded.pristine
    returned := hkept.returned }

/-- A server for one client at a time lets in a second one after the first, and returns when it shuts
down while the second is served. -/
theorem admission_controlled_one_client :
    let config : Config := { maxClients := 1 }
    ∃ admitted a, Course config {} admitted a ∧ admitted.map Task.id = [1, 2] ∧
      a.hasReturned = true ∧ a.pool.inUse = 0 ∧ a.active = 0 := by
  intro config
  let events : List Event :=
    [.borrow, .accept "192.0.2.1:4000", .count 1, .borrow, .serve 1 (.new config), .uncount 1,
      .release 1, .borrow, .accept "192.0.2.2:4000", .borrow, .count 2, .shutdown, .stop, .close,
      .uncount 2, .release 2]
  obtain ⟨a, hrun, hchecks⟩ := (Option.any_eq_true _ _).mp
    (show ((start config {}).run? events).any (fun a => a.hasReturned && a.accepted == 2) = true by
      decide +kernel)
  simp only [Bool.and_eq_true, beq_iff_eq] at hchecks
  obtain ⟨hreturned, haccepted⟩ := hchecks
  obtain ⟨admitted, hcourse⟩ := Reachable.exists_course ⟨events, hrun⟩
  have hcontrolled := admission_controlled rfl hcourse
  refine ⟨admitted, a, hcourse, ?_, hreturned, hcontrolled.returned hreturned⟩
  rw [hcontrolled.numbers, haccepted]
  rfl

end Admission

end Depot.Server
