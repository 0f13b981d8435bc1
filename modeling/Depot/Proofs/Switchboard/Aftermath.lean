import Depot.Proofs.Operation.Trailing
import Depot.Proofs.Switchboard.Draining

/-!
# After a suspend

Whoever dispatches is told by a suspend that it was the last packet, but nothing keeps them from
dispatching more. An `Aftermath` is whatever may be done then: more packets, steps of the operations,
closing. The switchboard does not come back to life, and packets that begin nothing come to nothing: they
trail behind the suspend in the inboxes, and the operations do what they would have done without them.

A request begins an operation all the same. That one has never been told to end, its dispatching says that
more packets may follow, and a switchboard that was closed stays closed while it runs.

## Key results

- `dispatch_dead`: what becomes of a packet when the session is dead
- `Aftermath.exists_bare`: the operations do what they would have done without the packets
- `draining_absorbs`: what is left to happen after a suspend
- `request_begins_after_suspend`: a request that is dispatched after a suspend
-/

namespace Depot.Switchboard

/-- Something that is done to a switchboard. -/
inductive Act
  | given (p : Packet)
  | move (m : Move)
  | closed

/-- The step that is taken in an act. -/
def Act.move? : Act → Option Move
  | .move m => some m
  | _ => none

/-- What a suspended switchboard may come to, whatever the scene is by then. -/
inductive Aftermath (service : Service) (b₀ : Switchboard) : List Act → Switchboard → Prop
  | start : Aftermath service b₀ [] b₀
  | given {acts : List Act} {b b' : Switchboard} {p : Packet} {flow : Flow} {s s' : Scene}
      (hb : Aftermath service b₀ acts b) (h : b.dispatch p s = (flow, b', s')) :
      Aftermath service b₀ (acts ++ [.given p]) b'
  | move {acts : List Act} {b b' : Switchboard} {m : Move} (hb : Aftermath service b₀ acts b)
      (h : b.advance? service m.id m.found = some (b', m.left)) :
      Aftermath service b₀ (acts ++ [.move m]) b'
  | closed {acts : List Act} {b b' : Switchboard} (hb : Aftermath service b₀ acts b)
      (h : b.close? = some b') : Aftermath service b₀ (acts ++ [.closed]) b'

/-- The same operation, with more behind the packet that ends it. -/
def Entry.Trails (e bare : Entry) : Prop :=
  e.number = bare.number ∧ e.operation.Trails bare.operation

/-- The same operations under the same ids, with more behind the packets that end them. -/
def Trails (b bare : Switchboard) : Prop :=
  ∀ id, Option.Rel Entry.Trails (b.entries.find? id) (bare.entries.find? id)

section

variable {service : Service} {b b' b₀ bare : Switchboard} {acts : List Act} {s s' : Scene} {id : UInt8}
  {p : Packet} {flow : Flow}

/-! ### Packets -/

/-- What becomes of a packet when the session is dead. -/
structure Unheard (b : Switchboard) (p : Packet) (s : Scene) : Prop where
  /-- What begins nothing changes nothing but inboxes. -/
  ignored : OperationKind.ofRequest? p.request = none → ∃ flow b', b.dispatch p s = (flow, b', s) ∧
    b'.started = b.started ∧ b'.activeIds = b.activeIds
  /-- A request under a free id begins an operation, and says nothing. -/
  begins : OperationKind.ofRequest? p.request ≠ none → p.operation ∉ b.activeIds →
    ∃ b', b.dispatch p s = (.go, b', s) ∧ b'.started = b.started + 1 ∧ p.operation ∈ b'.activeIds
  /-- One under the id of an operation is refused. -/
  refused : ∀ kind, OperationKind.ofRequest? p.request = some kind → p.operation ∈ b.activeIds →
    ∃ s', b.dispatch p s = (.go, b, s') ∧ s'.tree = s.tree ∧
      s'.session = s.session.post (.error kind.request .invalidPacket p.operation)

/-- To kill a dead session changes nothing. -/
theorem kill_of_dead (hdead : s.session.live = false) : s.kill = s := by
  rw [Scene.kill, Session.kill, ← hdead]

/-- What begins nothing leaves everything but the inboxes of operations that were there. -/
theorem dispatch_of_no_request (hp : OperationKind.ofRequest? p.request = none)
    (h : b.dispatch p s = (flow, b', s')) :
    (s' = s ∨ s' = s.kill) ∧ b'.started = b.started ∧
      (b' = b ∨ b'.entries = b.entries.amend p.operation (.put p) ∨
        b'.entries = b.entries.map (.put p)) := by
  rcases dispatch_cases h with ⟨-, -, rfl, rfl⟩ | ⟨-, -, rfl, rfl⟩ | ⟨kind, hkind, -, -⟩ |
    ⟨-, -, -, rfl, rfl⟩
  · exact ⟨.inr rfl, rfl, .inr (.inr rfl)⟩
  · exact ⟨.inl rfl, rfl, .inr (.inl rfl)⟩
  · rw [hp] at hkind
    cases hkind
  · exact ⟨.inl rfl, rfl, .inl rfl⟩

/-- A dispatch to a session that is over begins nothing but what is requested, and says nothing but that a
request is refused. -/
theorem dispatch_dead (hb : b.Sound) (hdead : s.session.live = false) (p : Packet) :
    Unheard b p s := by
  refine ⟨fun hnone => ?_, fun hrequest hfree => ?_, fun kind hkind htaken => ?_⟩
  · cases hdispatch : b.dispatch p s with
    | mk flow rest =>
      obtain ⟨b', s'⟩ := rest
      obtain ⟨hscene, hstarted, hentries⟩ := dispatch_of_no_request hnone hdispatch
      rw [kill_of_dead hdead, or_self] at hscene
      refine ⟨flow, b', by rw [hscene], hstarted, ?_⟩
      rcases hentries with rfl | hentries | hentries
      · rfl
      · rw [activeIds, hentries]
        exact Roster.ids_amend _ _ _
      · rw [activeIds, hentries]
        exact Roster.ids_map _ _
  · obtain ⟨kind, hkind⟩ := Option.ne_none_iff_exists'.mp hrequest
    obtain ⟨entries, henroll, hstart⟩ := start_of_free hfree kind s
    refine ⟨_, (dispatch_of_request hkind b s).trans (congrArg (Prod.mk _) hstart), rfl, ?_⟩
    exact Roster.mem_ids_iff.mpr ⟨_, (Roster.find?_enroll? henroll _).trans (if_pos rfl)⟩
  · have hstart := start_of_taken hb htaken kind s
    exact ⟨_, (dispatch_of_request hkind b s).trans (congrArg (Prod.mk _) hstart), rfl, rfl⟩

/-! ### What trails behind -/

/-- A switchboard trails itself, if all of its operations are doomed. -/
theorem Trails.refl (hb : b.Doomed) : b.Trails b := by
  intro id
  cases hfind : b.entries.find? id with
  | none => exact .none
  | some e => exact .some ⟨rfl, .refl (hb.of_find? hfind)⟩

/-- Whoever is left is left on the bare switchboard too, under the same number. -/
theorem Trails.exists_of_find? {e : Entry} (h : b.Trails bare) (hfind : b.entries.find? id = some e) :
    ∃ e₀, bare.entries.find? id = some e₀ ∧ e.Trails e₀ := by
  have hid := h id
  rw [hfind] at hid
  generalize bare.entries.find? id = found at hid
  cases hid with
  | some hsame => exact ⟨_, rfl, hsame⟩

/-- Whoever is on the one is on the other. -/
theorem Trails.mem_activeIds_iff (h : b.Trails bare) (id : UInt8) :
    id ∈ b.activeIds ↔ id ∈ bare.activeIds := by
  rw [activeIds, activeIds, Roster.mem_ids_iff, Roster.mem_ids_iff]
  have hid := h id
  generalize b.entries.find? id = found at hid
  generalize bare.entries.find? id = found₀ at hid
  cases hid with
  | some _ => exact iff_of_true ⟨_, rfl⟩ ⟨_, rfl⟩
  | none => exact Iff.rfl

/-- Whoever trails is doomed. -/
theorem Trails.doomed (h : b.Trails bare) (hb : b.Sound) : b.Doomed := by
  intro entry hentry
  obtain ⟨e₀, -, -, htrails⟩ := h.exists_of_find? (Roster.find?_of_mem hb.ascending hentry)
  exact htrails.doomed_left

/-- What is put into an inbox trails behind what is there. -/
private theorem trails_put {found found₀ : Option Entry} (h : Option.Rel Entry.Trails found found₀)
    (p : Packet) : Option.Rel Entry.Trails (found.map (.put p)) found₀ := by
  cases h with
  | some htrails => exact .some ⟨htrails.1, htrails.2.push p⟩
  | none => exact .none

/-- A packet that begins nothing trails behind. -/
theorem Trails.dispatch (h : b.Trails bare) (hp : OperationKind.ofRequest? p.request = none)
    (hdispatch : b.dispatch p s = (flow, b', s')) : b'.Trails bare := by
  obtain ⟨-, -, rfl | hentries | hentries⟩ := dispatch_of_no_request hp hdispatch
  · exact h
  · intro id
    rw [hentries, Roster.find?_amend]
    split
    · exact trails_put (h id) p
    · exact h id
  · intro id
    rw [hentries, Roster.find?_map]
    exact trails_put (h id) p

/-- The two take the same steps in the same scenes. -/
theorem Trails.advance? (h : b.Trails bare) (hadvance : b.advance? service id s = some (b', s')) :
    ∃ bare', bare.advance? service id s = some (bare', s') ∧ b'.Trails bare' := by
  obtain ⟨e, hfind, hcases⟩ := advance?_cases hadvance
  obtain ⟨e₀, hfind₀, hnumber, htrails⟩ := h.exists_of_find? hfind
  rcases hcases with ⟨op, hstep, rfl⟩ | ⟨outcome, hstep, rfl⟩
  · obtain ⟨op₀, hstep₀, htrails'⟩ := Operation.step_running_trails htrails hstep
    have hadvance₀ : bare.advance? service id s = some (bare.store id (some op₀), s') := by
      simp only [Switchboard.advance?, hfind₀, hstep₀]
    refine ⟨_, hadvance₀, fun other => ?_⟩
    simp only [store, Roster.find?_amend]
    split
    · next hother =>
      rw [hother, hfind, hfind₀]
      exact .some ⟨hnumber, htrails'⟩
    · exact h other
  · have hstep₀ := Operation.step_ended_trails htrails hstep
    have hadvance₀ : bare.advance? service id s = some (bare.store id none, s') := by
      simp only [Switchboard.advance?, hfind₀, hstep₀]
    refine ⟨_, hadvance₀, fun other => ?_⟩
    simp only [store, Roster.find?_dismiss]
    split
    · exact .none
    · exact h other

/-! ### The aftermath -/

/-- What comes after a state that can be reached can be reached. -/
theorem Aftermath.reachable (h : Aftermath service b₀ acts b) (hb : Reachable service b₀) :
    Reachable service b := by
  induction h with
  | start => exact hb
  | given _ h ih => exact .dispatch ih h
  | move _ h ih => exact .advance ih h
  | closed _ h ih => exact .close ih h

/-- Nothing undoes a suspend. -/
theorem Aftermath.halted (h : Aftermath service b₀ acts b) (hb : Reachable service b₀)
    (hhalt : b₀.halt ≠ none) : b.halt ≠ none := by
  induction h with
  | start => exact hhalt
  | @given acts b b' p flow s s' _ h ih =>
    by_cases hp : p.request = .suspend
    · rw [dispatch_suspend hp] at h
      cases h
      exact Option.some_ne_none _
    · obtain ⟨_, _, hdispatch, -, hkept, -⟩ := dispatch_other hp b s
      rw [hdispatch] at h
      cases h
      exact hkept ▸ ih
  | move hbefore h ih => exact (advance?_onward (sound_reachable (hbefore.reachable hb)) h).halt ▸ ih
  | closed _ h _ =>
    rw [close?_eq_some h]
    exact Option.some_ne_none _

/-- A switchboard that was halted drains, or is closed. -/
theorem state_of_halted (h : b.halt ≠ none) : b.state = .draining ∨ b.state = .closed := by
  obtain ⟨halt, hhalt⟩ := Option.ne_none_iff_exists'.mp h
  cases halt with
  | draining => exact .inl (by rw [state, hhalt])
  | closed => exact .inr (by rw [state, hhalt])

/-- If no request is given, nothing is started and the operations do what they would have done without
the packets that are given. -/
theorem Aftermath.exists_bare (h : Aftermath service b₀ acts b) (hdoomed : b₀.Doomed)
    (hgiven : ∀ p, .given p ∈ acts → OperationKind.ofRequest? p.request = none) :
    b.started = b₀.started ∧
      ∃ bare, Moved service b₀ (acts.filterMap Act.move?) bare ∧ b.Trails bare := by
  -- The bare switchboard takes the steps and is given nothing; the other one trails behind it all the way.
  induction h with
  | start => exact ⟨rfl, b₀, .start, .refl hdoomed⟩
  | @given acts b b' p flow s s' _ h ih =>
    obtain ⟨hstarted, bare, hmoved, htrails⟩ := ih fun q hq => hgiven q (List.mem_append_left _ hq)
    have hp := hgiven p (List.mem_append_right _ (List.mem_singleton_self _))
    refine ⟨(dispatch_of_no_request hp h).2.1.trans hstarted, bare, ?_, htrails.dispatch hp h⟩
    rw [List.filterMap_append]
    exact (List.append_nil _).symm ▸ hmoved
  | @move acts b b' m hbefore h ih =>
    obtain ⟨hstarted, bare, hmoved, htrails⟩ := ih fun q hq => hgiven q (List.mem_append_left _ hq)
    obtain ⟨bare', hadvance, htrails'⟩ := htrails.advance? h
    have hkept : b'.started = b.started := by
      obtain ⟨e, -, ⟨op, -, rfl⟩ | ⟨outcome, -, rfl⟩⟩ := advance?_cases h
      · rfl
      · rfl
    refine ⟨hkept.trans hstarted, bare', ?_, htrails'⟩
    rw [List.filterMap_append]
    exact hmoved.move hadvance
  | closed hbefore h ih =>
    obtain ⟨hstarted, bare, hmoved, htrails⟩ := ih fun q hq => hgiven q (List.mem_append_left _ hq)
    cases close?_eq_some h
    refine ⟨hstarted, bare, ?_, htrails⟩
    rw [List.filterMap_append]
    exact (List.append_nil _).symm ▸ hmoved

/-- Steps register nobody. -/
theorem Moved.exists_of_find? {ms : List Move} {e : Entry} (h : Moved service b₀ ms b)
    (hfind : b.entries.find? id = some e) :
    ∃ e₀, b₀.entries.find? id = some e₀ ∧ e₀.number = e.number := by
  induction h generalizing id e with
  | start => exact ⟨e, hfind, rfl⟩
  | move _ h ih =>
    obtain ⟨e₁, hfind₁, ⟨op, -, rfl⟩ | ⟨outcome, -, rfl⟩⟩ := advance?_cases h
    · rcases find?_store_some hfind₁ hfind with ⟨rfl, rfl⟩ | ⟨-, hother⟩
      · -- The operation that took the step keeps its number.
        obtain ⟨e₀, hfind₀, hnumber⟩ := ih hfind₁
        exact ⟨e₀, hfind₀, hnumber⟩
      · exact ih hother
    · exact ih (find?_store_none hfind).2

/-- What is known of a switchboard `b₂` that came from `b₁` when no request was given. The suspend `p` made
`b₁` of `b`. -/
structure Absorbed (service : Service) (b : Switchboard) (p : Packet) (b₁ : Switchboard)
    (acts : List Act) (b₂ : Switchboard) : Prop where
  /-- No operation was started. -/
  started : b₂.started = b.started
  /-- Whoever is left was there at the suspend, and it was put into their inbox. -/
  signalled : ∀ id e, b₂.entries.find? id = some e → ∃ e₀, b.entries.find? id = some e₀ ∧
    e₀.number = e.number ∧ b₁.entries.find? id = some (e₀.put p)
  /-- The same steps are taken, from the same scenes to the same scenes, if no packets are given at all. -/
  bare : ∃ bare, Moved service b₁ (acts.filterMap Act.move?) bare ∧
    ∀ id, id ∈ b₂.activeIds ↔ id ∈ bare.activeIds
  /-- To wait for those who are left takes nothing but their steps. -/
  drains : ∀ s, ∃ c s', b₂.drain service s = (true, c, s') ∧ c.activeIds = [] ∧ c.state = .closed

/-- A switchboard that was suspended never comes back to life. What is dispatched after that says nothing
and begins nothing, but for requests; as long as none is dispatched, it makes no difference to what the
operations do, and to wait for them is to wait for those that were suspended. -/
theorem draining_absorbs {code : ErrorCode} {b₁ b₂ : Switchboard} {s₁ : Scene}
    (hb : Reachable service b) (h : b.dispatch p s = (.stop code, b₁, s₁))
    (hafter : Aftermath service b₁ acts b₂) :
    s₁.session.live = false ∧
      (b₂.state = .draining ∨ b₂.state = .closed) ∧
      (∀ q s₂, s₂.session.live = false → Unheard b₂ q s₂) ∧
      ((∀ q, .given q ∈ acts → OperationKind.ofRequest? q.request = none) →
        Absorbed service b p b₁ acts b₂) := by
  have hsuspend : p.request = .suspend := by
    rcases dispatch_cases h with ⟨hp, -⟩ | ⟨-, hgo, -⟩ | ⟨kind, -, hgo, -⟩ | ⟨-, -, hgo, -⟩
    · exact hp
    · cases hgo
    · cases hgo
    · cases hgo
  have hends : p.request.endsOperation = true := by
    rw [hsuspend]
    rfl
  have hreachable : Reachable service b₁ := .dispatch hb h
  rw [dispatch_suspend hsuspend] at h
  cases h
  have hsound := sound_reachable (hafter.reachable hreachable)
  refine ⟨rfl, state_of_halted (hafter.halted hreachable (Option.some_ne_none _)),
    fun q s₂ hdead => dispatch_dead hsound hdead q, fun hgiven => ?_⟩
  -- The suspend is in every inbox, so whatever was given after it trails behind.
  obtain ⟨hstarted, bare, hmoved, htrails⟩ :=
    hafter.exists_bare (doomed_suspend hends (sound_reachable hb)) hgiven
  refine ⟨hstarted, fun id e hfind => ?_, ⟨bare, hmoved, htrails.mem_activeIds_iff⟩, fun s => ?_⟩
  · -- Whoever is left is on the bare switchboard, so they were there at the suspend.
    obtain ⟨e', hfind', hnumber', -⟩ := htrails.exists_of_find? hfind
    obtain ⟨e₁, hfind₁, hnumber₁⟩ := hmoved.exists_of_find? hfind'
    have hput := hfind₁
    rw [suspend, Roster.find?_map] at hput
    obtain ⟨e₀, hfind₀, rfl⟩ := Option.map_eq_some_iff.mp hput
    exact ⟨e₀, hfind₀, hnumber₁.trans hnumber'.symm, hfind₁⟩
  · have hnamed := named_reachable (hafter.reachable hreachable)
    obtain ⟨c, s', hdrain, hempty, hclosed, -⟩ :=
      drain_doomed service ⟨hsound, hnamed, htrails.doomed hsound, rfl⟩ s
    exact ⟨c, s', hdrain, hempty, hclosed⟩

end

/-- An upload that lacks its content is suspended, and then the content comes. The upload does not read it,
and nothing is stored. -/
theorem draining_absorbs_the_content_of_an_upload :
    let service : Service := { store := ⟨⟨["dlc"]⟩, ⟨["user"]⟩⟩, limits := ⟨2, 10⟩ }
    let scene : Scene := { tree := ⟨[(["dlc"], .directory)]⟩ }
    let description := (Packet.new .fileInfo [2, 0, 0, 0, 7, 0, 0, 0, 1, 98]).withKind .dlc
    let info := (description.withOperation 1).withMore true
    let content := (Packet.new .file [1, 2]).withOperation 1
    let opened := ({} : Switchboard).dispatch info scene
    let suspended := opened.2.1.dispatch (.suspend .manualShutdown) opened.2.2
    let given := suspended.2.1.dispatch content suspended.2.2
    ∃ read last, given.2.1.advance? service 1 given.2.2 = some read ∧
      read.1.advance? service 1 read.2 = some last ∧
      Absorbed service opened.2.1 (.suspend .manualShutdown) suspended.2.1
        [.given content, .move ⟨1, given.2.2, read.2⟩, .move ⟨1, read.2, last.2⟩] last.1 ∧
      last.1.activeIds = [] ∧ last.2.tree = scene.tree := by
  intro service scene description info content opened suspended given
  have hsteps : ∃ read last, given.2.1.advance? service 1 given.2.2 = some read ∧
      read.1.advance? service 1 read.2 = some last ∧
      last.1.activeIds = [] ∧ last.2.tree = scene.tree := ⟨_, _, rfl, rfl, rfl, rfl⟩
  obtain ⟨read, last, hread, hlast, hempty, htree⟩ := hsteps
  have hafter : Aftermath service suspended.2.1
      [.given content, .move ⟨1, given.2.2, read.2⟩, .move ⟨1, read.2, last.2⟩] last.1 :=
    .move (.move (.given .start (rfl : suspended.2.1.dispatch content suspended.2.2 = given)) hread) hlast
  have hopened : Reachable service opened.2.1 := .dispatch (p := info) (s := scene) .start rfl
  obtain ⟨-, -, -, habsorbed⟩ :=
    draining_absorbs hopened (dispatch_suspend (p := .suspend .manualShutdown) rfl _ opened.2.2) hafter
  have hgiven (q : Packet) (hq : .given q ∈ [Act.given content, .move ⟨1, given.2.2, read.2⟩,
      .move ⟨1, read.2, last.2⟩]) : OperationKind.ofRequest? q.request = none := by
    have hcontent : q = content := by simpa using hq
    rw [hcontent]
    rfl
  exact ⟨read, last, hread, hlast, habsorbed hgiven, hempty, htree⟩

/-- An allocation and an upload that are begun after a suspend, although it was said to be the last packet
and the switchboard was closed behind it. The allocation makes an id, and a second one under its id is
refused by a packet. The upload has never been told to end and waits for its content, so draining waits for
it, while the switchboard is still said to be closed. -/
theorem request_begins_after_suspend :
    let service : Service := { store := ⟨⟨["dlc"]⟩, ⟨["user"]⟩⟩, limits := ⟨2, 10⟩ }
    let scene : Scene := { tree := ⟨[(["user"], .directory)]⟩ }
    let request := (Packet.new .idRequest []).withOperation 5
    let description := (Packet.new .fileInfo [2, 0, 0, 0, 7, 0, 0, 0, 1, 98]).withKind .dlc
    let info := (description.withOperation 6).withMore true
    let suspended := ({} : Switchboard).dispatch (.suspend .manualShutdown) scene
    let begun := suspended.2.1.dispatch request suspended.2.2
    let refused := begun.2.1.dispatch request begun.2.2
    let settled := begun.2.1.settle service begun.2.2
    let drained := suspended.2.1.drain service suspended.2.2
    let opened := drained.2.1.dispatch info drained.2.2
    suspended.1 = .stop .manualShutdown ∧ begun.1 = .go ∧ begun.2.1.activeIds = [5] ∧
      refused.2.2.session.outbound.waiting = [.error .idRequest .invalidPacket 5] ∧
      settled.1.activeIds = [] ∧ settled.2.tree ≠ scene.tree ∧
      drained.1 = true ∧ opened.1 = .go ∧ opened.2.1.state = .closed ∧ opened.2.1.activeIds = [6] ∧
      (opened.2.1.drain service opened.2.2).1 = false := by
  decide +kernel

end Depot.Switchboard
