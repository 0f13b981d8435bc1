import Depot.Proofs.Switchboard.Dispatch

/-!
# Courses of a switchboard

Packets are dispatched one after another, and between any two of them any operation may take any number
of steps. A `Course` is one such order. It is over when the switchboard is `Quiet`, and no operation can take a
step; every course comes to that if nothing more is dispatched.

The packets of a client that starts operations side by side are an interleaving of what belongs to each,
a `Job`. They are dispatched `OneByOne` when each operation goes as far as it can before the next one is
started.

## Key results

- `course_dispatchAll`, `course_work`, `course_settle`: what the switchboard does in one go is a course
- `exists_quiet`: every course can be carried on until it is over
- `interleaves_flatMap`, `OneByOne.course`: operations that are started one by one are one of the courses
-/

namespace Depot

namespace Switchboard

/-- What a switchboard may come to, and the scene with it, while packets are dispatched. -/
inductive Course (service : Service) (b₀ : Switchboard) (s₀ : Scene) :
    List Packet → Switchboard → Scene → Prop
  | start : Course service b₀ s₀ [] b₀ s₀
  | dispatch {given : List Packet} {b b' : Switchboard} {s s' : Scene} {p : Packet} {flow : Flow}
      (hcourse : Course service b₀ s₀ given b s) (h : b.dispatch p s = (flow, b', s')) :
      Course service b₀ s₀ (given ++ [p]) b' s'
  | advance {given : List Packet} {b b' : Switchboard} {s s' : Scene} {id : UInt8}
      (hcourse : Course service b₀ s₀ given b s) (h : b.advance? service id s = some (b', s')) :
      Course service b₀ s₀ given b' s'

/-- Whether no operation can take a step before something is dispatched. -/
def Quiet (service : Service) (b : Switchboard) (s : Scene) : Prop :=
  ∀ id, b.advance? service id s = none

section

variable {service : Service} {b b' b'' : Switchboard} {s s' s'' : Scene} {given given' : List Packet}

/-- A course can go on with another one. -/
theorem Course.trans (h : Course service b s given b' s') (h' : Course service b' s' given' b'' s'') :
    Course service b s (given ++ given') b'' s'' := by
  -- Along the second course.
  induction h' with
  | start => rwa [List.append_nil]
  | dispatch _ hdispatch ih =>
    rw [← List.append_assoc]
    exact ih.dispatch hdispatch
  | advance _ hadvance ih => exact ih.advance hadvance

/-- A dispatch keeps the switchboard sound. -/
theorem sound_dispatch {p : Packet} {flow : Flow} (hb : b.Sound) (h : b.dispatch p s = (flow, b', s')) :
    b'.Sound := by
  by_cases hp : p.request = .suspend
  · rw [dispatch_suspend hp] at h
    cases h
    exact sound_suspend p hb
  · obtain ⟨_, _, hdispatch, -, -, hsound⟩ := dispatch_other hp b s
    rw [hdispatch] at h
    cases h
    exact hsound hb

/-- A course keeps the switchboard sound. -/
theorem Course.sound (h : Course service b s given b' s') (hb : b.Sound) : b'.Sound := by
  induction h with
  | start => exact hb
  | dispatch _ hdispatch ih => exact sound_dispatch ih hdispatch
  | advance _ hadvance ih => exact (advance?_onward ih hadvance).sound

/-- To dispatch packets one after another is a course in which no operation takes a step. -/
theorem course_dispatchAll (b : Switchboard) (s : Scene) (packets : List Packet) :
    Course service b s packets (b.dispatchAll s packets).2.1 (b.dispatchAll s packets).2.2 := by
  induction packets generalizing b s with
  | nil => exact .start
  | cons p rest ih => exact (Course.dispatch .start rfl).trans (ih _ _)

/-! ### Coming to rest -/

theorem quiet_of_isEmpty (h : b.entries.isEmpty = true) (s : Scene) : Quiet service b s := by
  intro id
  simp only [advance?, Roster.find?_of_isEmpty h]

/-- If the operations are left to themselves all of them have to wait or are over at last. -/
theorem exists_quiet (hchunk : 0 < service.limits.downloadChunk) (hb : b.Sound) (s : Scene) :
    ∃ b' s', Course service b s [] b' s' ∧ Quiet service b' s' := by
  -- Every step of an operation lowers the budget of the switchboard.
  induction hn : b.budget using Nat.strongRecOn generalizing b s with
  | ind budget ih =>
    by_cases hquiet : Quiet service b s
    · exact ⟨b, s, .start, hquiet⟩
    · obtain ⟨id, hid⟩ := Classical.not_forall.mp hquiet
      obtain ⟨⟨b₁, s₁⟩, hadvance⟩ := Option.ne_none_iff_exists'.mp hid
      have honward := advance?_onward hb hadvance
      obtain ⟨b', s', hcourse, hrest⟩ :=
        ih b₁.budget (hn ▸ honward.budget (.inl hchunk)) honward.sound s₁ rfl
      exact ⟨b', s', (Course.advance .start hadvance).trans hcourse, hrest⟩

/-! ### Running in one go -/

/-- What is written down later counts. -/
theorem store_store (b : Switchboard) (id : UInt8) (op : Operation) (op' : Option Operation) :
    (b.store id (some op)).store id op' = b.store id op' := by
  cases op' with
  | none =>
    simp only [store, Roster.dismiss, Roster.amend, List.filter_map, Switchboard.mk.injEq,
      Roster.mk.injEq, and_true]
    conv => rhs; rw [← List.map_id (b.entries.entries.filter _)]
    refine List.map_congr_left fun e he => ?_
    have hne : e.1 ≠ id := by simpa using (List.mem_filter.mp he).2
    simp only [hne, ↓reduceIte, id_eq]
  | some op' =>
    simp only [store, Roster.amend, List.map_map, Switchboard.mk.injEq, Roster.mk.injEq, and_true]
    refine List.map_congr_left fun e _ => ?_
    by_cases hid : e.1 = id <;> simp [hid]

/-- Writing down an operation as it is changes nothing. -/
private theorem store_self (hb : b.Sound) {id : UInt8} {e : Entry} (h : b.entries.find? id = some e) :
    b.store id (some e.operation) = b := by
  obtain ⟨⟨entries⟩, started, halt⟩ := b
  simp only [store, Roster.amend, Switchboard.mk.injEq, Roster.mk.injEq, and_true]
  conv => rhs; rw [← List.map_id entries]
  refine List.map_congr_left fun e' he' => ?_
  by_cases hid : e'.1 = id
  · -- The ids ascend, so it is the entry that was found.
    have hfind : Roster.find? ⟨entries⟩ e'.1 = some e'.2 := Roster.find?_of_mem hb.ascending he'
    rw [hid, h] at hfind
    cases hfind
    rw [← hid]
    simp only [↓reduceIte]
    rfl
  · simp only [hid, ↓reduceIte, id_eq]

/-- To run an operation for some steps is to let it take them. -/
private theorem course_runFor (fuel : Nat) {id : UInt8} {e : Entry} (hb : b.Sound)
    (h : b.entries.find? id = some e) (s : Scene) :
    Course service b s [] (b.store id (e.operation.runFor service fuel s).1)
      (e.operation.runFor service fuel s).2 := by
  -- The operation is written back once at the end, or after every step; it comes to the same.
  induction fuel generalizing b e s with
  | zero =>
    show Course service b s [] (b.store id (some e.operation)) s
    rw [store_self hb h]
    exact .start
  | succ fuel ih =>
    simp only [Operation.runFor]
    cases hstep : e.operation.step service s with
    | waiting =>
      simp only
      rw [store_self hb h]
      exact .start
    | running op s₁ =>
      have hadvance : b.advance? service id s = some (b.store id (some op), s₁) := by
        simp only [advance?, h, hstep]
      have hfind : (b.store id (some op)).entries.find? id = some { e with operation := op } := by
        simp only [store, Roster.find?_amend, h, ↓reduceIte, Option.map_some]
      have hrest := ih (advance?_onward hb hadvance).sound hfind s₁
      rw [store_store] at hrest
      exact (Course.advance .start hadvance).trans hrest
    | ended outcome s₁ =>
      refine .advance .start (show b.advance? service id s = some (b.store id none, s₁) from ?_)
      simp only [advance?, h, hstep]

/-- To run an operation as far as it goes is to let it take steps. -/
theorem course_work (hb : b.Sound) (id : UInt8) (s : Scene) :
    Course service b s [] (b.work service id s).1 (b.work service id s).2 := by
  unfold work
  split
  · exact .start
  · next e hfind => exact course_runFor e.operation.budget hb hfind s

/-- So it is to run all of them in the order in which they started. -/
theorem course_settle (hb : b.Sound) (s : Scene) :
    Course service b s [] (b.settle service s).1 (b.settle service s).2 := by
  unfold settle
  generalize b.startOrder = order
  induction order generalizing b s with
  | nil => exact .start
  | cons id order ih =>
    have hwork : Course service b s [] _ _ := course_work hb id s
    exact hwork.trans (ih (hwork.sound hb) _)

end

/-! ### Jobs -/

/-- What a client sends for one operation: the packet that opens it, and blocks. -/
structure Job where
  opening : Packet
  blocks : List Packet := []
  deriving DecidableEq, Repr

namespace Job

/-- The operation id. -/
def id (j : Job) : UInt8 := j.opening.operation

/-- All packets of the operation, in their order. -/
def packets (j : Job) : List Packet := j.opening :: j.blocks

/-- Whether a job is a download or an upload, followed by blocks of its own only. -/
structure Valid (j : Job) : Prop where
  opens : j.opening.request = .fileRequest ∨ j.opening.request = .fileInfo
  file : ∀ p ∈ j.blocks, p.request = .file
  operation : ∀ p ∈ j.blocks, p.operation = j.id

/-- All packets of a job carry its id. -/
theorem Valid.operation_eq {j : Job} (h : j.Valid) : ∀ p ∈ j.packets, p.operation = j.id := by
  intro p hp
  rcases List.mem_cons.mp hp with rfl | hp
  · rfl
  · exact h.operation p hp

end Job

/-- Whether packets are those of some jobs, each in their order. -/
structure Interleaves (jobs : List Job) (packets : List Packet) : Prop where
  known : ∀ p ∈ packets, ∃ j ∈ jobs, j.id = p.operation
  inOrder : ∀ j ∈ jobs, packets.filter (·.operation == j.id) = j.packets

/-- Jobs have no order among each other. -/
theorem Interleaves.perm {jobs jobs' : List Job} {packets : List Packet} (hperm : jobs.Perm jobs')
    (h : Interleaves jobs packets) : Interleaves jobs' packets where
  known := fun p hp => by
    obtain ⟨j, hj, hid⟩ := h.known p hp
    exact ⟨j, hperm.mem_iff.mp hj, hid⟩
  inOrder := fun j hj => h.inOrder j (hperm.mem_iff.mpr hj)

/-- The packets of one job after the other are an interleaving too. -/
theorem interleaves_flatMap {jobs : List Job} (hvalid : ∀ j ∈ jobs, j.Valid)
    (hids : (jobs.map Job.id).Nodup) : Interleaves jobs (jobs.flatMap Job.packets) := by
  refine ⟨fun p hp => ?_, ?_⟩
  · obtain ⟨j, hj, hp⟩ := List.mem_flatMap.mp hp
    exact ⟨j, hj, ((hvalid j hj).operation_eq p hp).symm⟩
  · intro j hj
    -- Job by job. What is to be seen is that ids tell the packets of different jobs apart.
    induction jobs with
    | nil => cases hj
    | cons first rest ih =>
      obtain ⟨hfirst, hrest⟩ := List.nodup_cons.mp hids
      have hvalid' : ∀ j ∈ rest, j.Valid := fun j hj => hvalid j (List.mem_cons_of_mem _ hj)
      -- The packets of the first job carry its id, and no others do.
      have hown : first.packets.filter (·.operation == first.id) = first.packets :=
        List.filter_eq_self.mpr fun p hp =>
          beq_iff_eq.mpr ((hvalid first List.mem_cons_self).operation_eq p hp)
      rw [List.flatMap_cons, List.filter_append]
      rcases List.mem_cons.mp hj with rfl | hj
      · -- None of the packets behind the first job is its own.
        rw [hown, List.filter_eq_nil_iff.mpr, List.append_nil]
        intro p hp
        obtain ⟨j', hj', hp⟩ := List.mem_flatMap.mp hp
        rw [(hvalid' j' hj').operation_eq p hp, beq_iff_eq]
        intro hid
        exact hfirst (hid ▸ List.mem_map_of_mem hj')
      · -- None of the packets of the first job is that of another.
        rw [ih hvalid' hrest hj, List.filter_eq_nil_iff.mpr, List.nil_append]
        intro p hp
        rw [(hvalid first List.mem_cons_self).operation_eq p hp, beq_iff_eq]
        intro hid
        exact hfirst (hid ▸ List.mem_map_of_mem hj)

/-- What a switchboard comes to when each operation goes as far as it can before the next one starts. -/
inductive OneByOne (service : Service) : Switchboard → Scene → List Job → Switchboard → Scene → Prop
  | done {b : Switchboard} {s : Scene} : OneByOne service b s [] b s
  | next {b b' b'' : Switchboard} {s s' s'' : Scene} {j : Job} {rest : List Job}
      (hcourse : Course service b s j.packets b' s') (hquiet : Quiet service b' s')
      (hrest : OneByOne service b' s' rest b'' s'') : OneByOne service b s (j :: rest) b'' s''

section

variable {service : Service} {b b' : Switchboard} {s s' : Scene} {jobs : List Job}

/-- To start operations one by one is a course, too. -/
theorem OneByOne.course (h : OneByOne service b s jobs b' s') :
    Course service b s (jobs.flatMap Job.packets) b' s' := by
  induction h with
  | done => exact .start
  | next hcourse _ _ ih => exact hcourse.trans ih

/-- What is quiet at first is quiet at the end. -/
theorem OneByOne.quiet (h : OneByOne service b s jobs b' s') (hquiet : Quiet service b s) :
    Quiet service b' s' := by
  induction h with
  | done => exact hquiet
  | next _ hquiet' _ ih => exact ih hquiet'

/-- Operations can be started one by one. -/
theorem exists_oneByOne (hchunk : 0 < service.limits.downloadChunk) (hb : b.Sound) (s : Scene)
    (jobs : List Job) : ∃ b' s', OneByOne service b s jobs b' s' := by
  -- The packets of a job are dispatched, and then its operation and all others come to rest.
  induction jobs generalizing b s with
  | nil => exact ⟨b, s, .done⟩
  | cons j rest ih =>
    have hgiven : Course service b s j.packets _ _ := course_dispatchAll b s j.packets
    obtain ⟨b₁, s₁, hcourse, hquiet⟩ := exists_quiet hchunk (hgiven.sound hb) _
    have hboth := hgiven.trans hcourse
    rw [List.append_nil] at hboth
    obtain ⟨b', s', hrest⟩ := ih (hboth.sound hb) s₁
    exact ⟨b', s', .next hboth hquiet hrest⟩

end

end Switchboard

end Depot
