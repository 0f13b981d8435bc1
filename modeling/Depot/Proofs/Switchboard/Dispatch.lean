import Depot.Proofs.Operation.Steps
import Depot.Proofs.Switchboard.Roster
import Depot.Switchboard.Basic

/-!
# What the switchboard does

A switchboard is `Sound` when every operation id is there once and every operation takes packets. A
suspend ends dispatching and the session, and leaves every operation `Doomed`; any other packet lets
dispatching go on and changes the session only as operations may.

The steps of the operations lower the `budget` of the switchboard, and none of them waits when all are
doomed. So after a suspend the switchboard empties, in whatever order the operations run.

## Key results

- `dispatch_suspend`, `dispatch_other`, `dispatch_cases`: what becomes of one packet
- `advance?_cases`, `advance?_onward`: what a step of an operation comes to
- `exists_advance?`: a doomed switchboard with operations can take a step
- `named_dispatch`, `named_advance?`: operations stay registered under their own ids
-/

namespace Depot.Switchboard

/-- Every id is there once, and every operation takes packets. -/
structure Sound (b : Switchboard) : Prop where
  ascending : b.entries.Ascending
  listening : b.entries.All fun e => e.operation.inbox.receiver = .listening

/-- Whether every operation has a packet in its inbox that ends it. -/
def Doomed (b : Switchboard) : Prop := b.entries.All fun e => e.operation.Doomed

/-- The steps that the operations can take before all of them have to wait or are over. -/
def budget (b : Switchboard) : Nat := b.entries.total fun e => e.operation.budget + 1

theorem sound_empty : ({} : Switchboard).Sound := ⟨.nil, fun _ he => absurd he List.not_mem_nil⟩

/-- A packet that is put into an inbox leaves the receiver there. -/
private theorem listening_put (p : Packet) {e : Entry}
    (h : e.operation.inbox.receiver = .listening) :
    (e.put p).operation.inbox.receiver = .listening := by
  show (e.operation.inbox.push p).receiver = .listening
  rw [(Queue.ends_push _ p).1, h]

/-- A packet that ends operations is in the inbox when it has been put there. -/
private theorem doomed_put {p : Packet} (hp : p.request.endsOperation = true) {e : Entry}
    (h : e.operation.inbox.receiver = .listening) : (e.put p).operation.Doomed := by
  refine ⟨p, ?_, hp⟩
  show p ∈ (e.operation.inbox.push p).waiting
  rw [Queue.waiting_push p h]
  exact List.mem_append_right _ (List.mem_singleton_self p)

theorem sound_forward {b : Switchboard} (p : Packet) (h : b.Sound) : (b.forward p).Sound :=
  ⟨Roster.ascending_amend _ _ h.ascending, h.listening.amend _ fun _ => listening_put p⟩

theorem sound_suspend {b : Switchboard} (p : Packet) (h : b.Sound) : (b.suspend p).Sound :=
  ⟨Roster.ascending_map _ h.ascending, h.listening.map fun _ => listening_put p⟩

/-- A suspend reaches all operations. -/
theorem doomed_suspend {b : Switchboard} {p : Packet} (hp : p.request.endsOperation = true)
    (h : b.Sound) : (b.suspend p).Doomed := h.listening.map fun _ => doomed_put hp

theorem sound_start {b : Switchboard} (kind : OperationKind) (p : Packet) (scene : Scene)
    (h : b.Sound) : (b.start kind p scene).1.Sound := by
  unfold start
  split
  · next henroll =>
    exact ⟨Roster.ascending_enroll? h.ascending henroll,
      h.listening.enroll? (listening_put p rfl) henroll⟩
  · exact h

/-- A request that is refused is answered, and nothing ends the session. -/
theorem start_replied (b : Switchboard) (kind : OperationKind) (p : Packet) (scene : Scene) :
    scene.Replied p.operation (b.start kind p scene).2 ∧ (b.start kind p scene).1.halt = b.halt := by
  unfold start
  split
  · exact ⟨.refl _ scene, rfl⟩
  · exact ⟨Session.Replied.post (Packet.reply_error _ _ _) scene.session, rfl⟩

/-- A suspend stops dispatching with its code, and ends the session. -/
theorem dispatch_suspend {p : Packet} (hp : p.request = .suspend) (b : Switchboard) (scene : Scene) :
    b.dispatch p scene = (.stop (p.suspendCode?.getD .unknown), b.suspend p, scene.kill) := by
  simp only [dispatch, hp]

/-- After any other packet dispatching goes on. -/
theorem dispatch_other {p : Packet} (hp : p.request ≠ .suspend) (b : Switchboard) (scene : Scene) :
    ∃ b' scene', b.dispatch p scene = (.go, b', scene') ∧ scene.Replied p.operation scene' ∧
      b'.halt = b.halt ∧ (b.Sound → b'.Sound) := by
  unfold dispatch
  split
  · next hsuspend => exact absurd hsuspend hp
  · exact ⟨_, _, rfl, .refl _ scene, rfl, sound_forward p⟩
  · exact ⟨_, _, rfl, .refl _ scene, rfl, sound_forward p⟩
  · split
    · next kind _ =>
      obtain ⟨hreplied, hhalt⟩ := start_replied b kind p scene
      exact ⟨_, _, rfl, hreplied, hhalt, sound_start kind p scene⟩
    · exact ⟨_, _, rfl, .refl _ scene, rfl, fun h => h⟩

/-- A request opens an operation, if it can. -/
theorem dispatch_of_request {p : Packet} {kind : OperationKind}
    (hp : OperationKind.ofRequest? p.request = some kind) (b : Switchboard) (scene : Scene) :
    b.dispatch p scene = (.go, b.start kind p scene) := by
  unfold dispatch
  split
  · next hrequest => rw [hrequest] at hp; cases hp
  · next hrequest => rw [hrequest] at hp; cases hp
  · next hrequest => rw [hrequest] at hp; cases hp
  · rw [hp]

/-- No operation is started under the id of another one. -/
theorem start_of_taken {b : Switchboard} {p : Packet} (hb : b.Sound) (h : p.operation ∈ b.activeIds)
    (kind : OperationKind) (scene : Scene) :
    b.start kind p scene = (b, { scene.count (.errors .operationInUse) with
      session := scene.session.post (.error kind.request .invalidPacket p.operation) }) := by
  have htaken := (Roster.enroll?_eq_none_iff (a := .opened b.started kind p) hb.ascending).mpr
    (Roster.mem_ids_iff.mp h)
  simp only [start, htaken]
  rfl

/-- Under a free id an operation is started, and nobody is told. -/
theorem start_of_free {b : Switchboard} {p : Packet} (h : p.operation ∉ b.activeIds)
    (kind : OperationKind) (scene : Scene) :
    ∃ entries, b.entries.enroll? p.operation (.opened b.started kind p) = some entries ∧
      b.start kind p scene = ({ b with entries, started := b.started + 1 }, scene) := by
  have hnone : b.entries.find? p.operation = none := by
    rw [Option.eq_none_iff_forall_ne_some]
    exact fun e hfind => h (Roster.mem_ids_iff.mpr ⟨e, hfind⟩)
  obtain ⟨entries, henroll⟩ := Roster.exists_enroll? (.opened b.started kind p) hnone
  simp only [start, henroll]
  exact ⟨entries, rfl, rfl⟩

/-- What a packet may come to. -/
theorem dispatch_cases {b b' : Switchboard} {p : Packet} {flow : Flow} {scene scene' : Scene}
    (h : b.dispatch p scene = (flow, b', scene')) :
    (p.request = .suspend ∧ flow = .stop (p.suspendCode?.getD .unknown) ∧ b' = b.suspend p ∧
        scene' = scene.kill) ∨
      ((p.request = .file ∨ p.request = .error) ∧ flow = .go ∧ b' = b.forward p ∧ scene' = scene) ∨
      (∃ kind, OperationKind.ofRequest? p.request = some kind ∧ flow = .go ∧
        b.start kind p scene = (b', scene')) ∨
      (OperationKind.ofRequest? p.request = none ∧
        (p.request ≠ .suspend ∧ p.request ≠ .file ∧ p.request ≠ .error) ∧ flow = .go ∧ b' = b ∧
        scene' = scene) := by
  -- In the order of the definition: suspends, blocks and errors, requests, and the rest.
  unfold dispatch at h
  split at h
  · next hsuspend =>
    cases h
    exact .inl ⟨hsuspend, rfl, rfl, rfl⟩
  · next hfile =>
    cases h
    exact .inr (.inl ⟨.inl hfile, rfl, rfl, rfl⟩)
  · next herror =>
    cases h
    exact .inr (.inl ⟨.inr herror, rfl, rfl, rfl⟩)
  · next hsuspend hfile herror =>
    split at h
    · next kind hkind =>
      obtain ⟨rfl, hstart⟩ := Prod.mk.inj h
      exact .inr (.inr (.inl ⟨kind, hkind, rfl, hstart⟩))
    · next hnone =>
      cases h
      exact .inr (.inr (.inr ⟨hnone, ⟨hsuspend, hfile, herror⟩, rfl, rfl, rfl⟩))

/-- What a step of an operation leaves as it was, and that all of them are nearer to their ends. -/
structure Onward (service : Service) (scene : Scene) (b b' : Switchboard) (scene' : Scene) : Prop where
  replied : ∃ operation, scene.Replied operation scene'
  halt : b'.halt = b.halt
  sound : b'.Sound
  doomed : b.Doomed → b'.Doomed
  budget : 0 < service.limits.downloadChunk ∨ scene.session.live = false → b'.budget < b.budget

/-- A step works for the peer and does nothing else to the session. -/
theorem Onward.worked {service : Service} {scene scene' : Scene} {b b' : Switchboard}
    (h : Onward service scene b b' scene') : scene.Worked scene' := by
  obtain ⟨operation, hreplied⟩ := h.replied
  exact hreplied.worked

/-- A step on the switchboard is a step of the operation that is registered under the id. -/
theorem advance?_cases {service : Service} {b b' : Switchboard} {id : UInt8} {scene scene' : Scene}
    (h : b.advance? service id scene = some (b', scene')) :
    ∃ e, b.entries.find? id = some e ∧
      ((∃ op, e.operation.step service scene = .running op scene' ∧ b' = b.store id (some op)) ∨
        ∃ outcome, e.operation.step service scene = .ended outcome scene' ∧ b' = b.store id none) := by
  unfold advance? at h
  split at h
  · cases h
  · next e hfind =>
    refine ⟨e, hfind, ?_⟩
    split at h
    · cases h
    · next op scene₁ hstep =>
      cases h
      exact .inl ⟨op, hstep, rfl⟩
    · next outcome scene₁ hstep =>
      cases h
      exact .inr ⟨outcome, hstep, rfl⟩

/-- What a step on the switchboard leaves as it was. -/
theorem advance?_onward {service : Service} {b b' : Switchboard} {id : UInt8} {scene scene' : Scene}
    (hb : b.Sound) (h : b.advance? service id scene = some (b', scene')) :
    Onward service scene b b' scene' := by
  obtain ⟨e, hfind, ⟨op, hstep, rfl⟩ | ⟨outcome, hstep, rfl⟩⟩ := advance?_cases h
  · -- The entry of the id holds the operation after the step; every other entry is as it was.
    have honward := Operation.step_running hstep
    refine ⟨⟨_, honward.replied⟩, rfl, ⟨Roster.ascending_amend _ _ hb.ascending, ?_⟩, ?_, ?_⟩
    · exact hb.listening.amend _ fun _ _ => honward.listening.trans (hb.listening.of_find? hfind)
    · intro hdoomed
      exact hdoomed.amend _ fun _ _ => honward.doomed (hdoomed.of_find? hfind)
    · intro hprogress
      have hlt := honward.budget hprogress
      have htotal := Roster.total_amend (fun e : Entry => e.operation.budget + 1)
        (fun e => { e with operation := op }) hb.ascending hfind
      simp only [budget, store] at htotal ⊢
      omega
  · -- The operation is over and leaves the switchboard.
    refine ⟨⟨_, Operation.step_ended hstep⟩, rfl,
      ⟨Roster.ascending_dismiss _ hb.ascending, hb.listening.dismiss _⟩, ?_, fun _ => ?_⟩
    · intro hdoomed
      exact hdoomed.dismiss _
    · have htotal := Roster.total_dismiss (fun e : Entry => e.operation.budget + 1) hb.ascending hfind
      simp only [budget, store] at htotal ⊢
      omega

/-- A doomed operation can take a step, whatever it finds in the scene. -/
theorem exists_advance?_of_find? (service : Service) {b : Switchboard} {id : UInt8} {e : Entry}
    (h : b.Doomed) (hfind : b.entries.find? id = some e) (scene : Scene) :
    ∃ b' scene', b.advance? service id scene = some (b', scene') := by
  have hdoomed : e.operation.Doomed := h.of_find? hfind
  simp only [advance?, hfind]
  cases hstep : e.operation.step service scene with
  | waiting => exact absurd hdoomed (Operation.step_waiting hstep)
  | running op scene' => exact ⟨_, _, rfl⟩
  | ended outcome scene' => exact ⟨_, _, rfl⟩

/-- As long as there are doomed operations, one of them can take a step. -/
theorem exists_advance? (service : Service) {b : Switchboard} (scene : Scene) (h : b.Doomed)
    (hbusy : b.entries.isEmpty = false) :
    ∃ id b' scene', b.advance? service id scene = some (b', scene') := by
  -- Any of them can. The first one is as good as the others.
  obtain ⟨⟨id, e⟩, rest, hentries⟩ := List.exists_cons_of_ne_nil (List.isEmpty_eq_false_iff.mp hbusy)
  have hfind : b.entries.find? id = some e := by
    rw [Roster.find?, hentries, List.lookup_cons_self]
  exact ⟨id, exists_advance?_of_find? service h hfind scene⟩

/-- Who is registered after a step: the operation that took it, and everybody else as before. -/
theorem find?_store_some {b : Switchboard} {id id' : UInt8} {e e' : Entry} {op : Operation}
    (hfind : b.entries.find? id = some e)
    (hfind' : (b.store id (some op)).entries.find? id' = some e') :
    id' = id ∧ e' = { e with operation := op } ∨ id' ≠ id ∧ b.entries.find? id' = some e' := by
  rw [store, Roster.find?_amend] at hfind'
  split at hfind'
  · next hid =>
    rw [hid, hfind] at hfind'
    cases hfind'
    exact .inl ⟨hid, rfl⟩
  · next hid => exact .inr ⟨hid, hfind'⟩

/-- Who is registered after an operation has left: everybody else, as before. -/
theorem find?_store_none {b : Switchboard} {id id' : UInt8} {e' : Entry}
    (hfind' : (b.store id none).entries.find? id' = some e') :
    id' ≠ id ∧ b.entries.find? id' = some e' := by
  rw [store, Roster.find?_dismiss] at hfind'
  split at hfind'
  · cases hfind'
  · next hid => exact ⟨hid, hfind'⟩

/-- The operation that took the step is registered as it is now. -/
theorem find?_store_self {b : Switchboard} {id : UInt8} {e : Entry} (hfind : b.entries.find? id = some e)
    (op : Operation) : (b.store id (some op)).entries.find? id = some { e with operation := op } := by
  rw [store, Roster.find?_amend, if_pos rfl, hfind]
  rfl

/-- Nobody else has moved. -/
theorem find?_store_of_ne {b : Switchboard} {id id' : UInt8} (h : id' ≠ id) (op : Option Operation) :
    (b.store id op).entries.find? id' = b.entries.find? id' := by
  cases op with
  | none => rw [store, Roster.find?_dismiss, if_neg h]
  | some op => rw [store, Roster.find?_amend, if_neg h]

/-! ### Names -/

/-- Whether operations are registered under their own ids. -/
def Named (b : Switchboard) : Prop := ∀ id e, b.entries.find? id = some e → e.operation.id = id

theorem named_empty : ({} : Switchboard).Named := fun _ _ h => by cases h

section

variable {service : Service} {b b' : Switchboard} {id : UInt8} {scene scene' : Scene}

theorem named_forward (p : Packet) (h : b.Named) : (b.forward p).Named := by
  intro id e he
  rw [forward, Roster.find?_amend] at he
  split at he
  · obtain ⟨e', hfind, rfl⟩ := Option.map_eq_some_iff.mp he
    exact h id e' hfind
  · exact h id e he

theorem named_suspend (p : Packet) (h : b.Named) : (b.suspend p).Named := by
  intro id e he
  rw [suspend, Roster.find?_map] at he
  obtain ⟨e', hfind, rfl⟩ := Option.map_eq_some_iff.mp he
  exact h id e' hfind

/-- A new operation is registered under the id that it has. -/
theorem named_start (kind : OperationKind) (p : Packet) (scene : Scene) (h : b.Named) :
    (b.start kind p scene).1.Named := by
  unfold start
  split
  · next entries henroll =>
    intro id e he
    rw [Roster.find?_enroll? henroll] at he
    split at he
    · next hid =>
      cases he
      exact hid.symm
    · exact h id e he
  · exact h

/-- Whatever is dispatched, operations are registered under their own ids. -/
theorem named_dispatch {p : Packet} {flow : Flow} (hb : b.Named)
    (h : b.dispatch p scene = (flow, b', scene')) : b'.Named := by
  rcases dispatch_cases h with ⟨-, -, rfl, -⟩ | ⟨-, -, rfl, -⟩ | ⟨kind, -, -, hstart⟩ | ⟨-, -, -, rfl, -⟩
  · exact named_suspend p hb
  · exact named_forward p hb
  · have hb' : (b.start kind p scene).1 = b' := congrArg Prod.fst hstart
    exact hb' ▸ named_start kind p scene hb
  · exact hb

/-- A step leaves operations registered under their own ids. -/
theorem named_advance? (hb : b.Named) (h : b.advance? service id scene = some (b', scene')) :
    b'.Named := by
  obtain ⟨e, hfind, ⟨op, hstep, rfl⟩ | ⟨outcome, -, rfl⟩⟩ := advance?_cases h
  · intro other e' he'
    rcases find?_store_some hfind he' with ⟨rfl, rfl⟩ | ⟨-, he⟩
    · -- A step leaves the id of the operation alone.
      exact (Operation.step_running_same hstep).1.trans (hb _ e hfind)
    · exact hb other e' he
  · exact fun other e' he' => hb other e' (find?_store_none he').2

end

end Depot.Switchboard
