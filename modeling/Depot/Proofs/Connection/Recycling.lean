import Depot.Proofs.Connection.Outcome
import Depot.Proofs.Connection.Sizes

/-!
# Recycled slots

A slot serves one connection after another. Whatever its last connections left in it, a slot that was
recycled cannot be told from a new one: not by what is in it, and not by the next connection, even if
those who still hold handles on the sessions before go on to use them all the time.

A `Tenancy` is a connection together with the slot that it is over, so that what is done through a
handle in the course of the connection can be spoken of: a handle that is `stale` means a session of
the past, any other one means the session of the connection. Through a handle a session may be changed
in any way at all: packets are queued in either direction, a user is identified, a receiving end is
dropped or the session is killed.

## Key results

- `Slot.Reached`: what a slot may have been through, and `Slot.sizes_of_reached`: what it keeps
- `Slot.alike_useAll`: stale handles do not reach a slot
- `Tenancy.run?_unseen`: nor the connection over it
- `recycled_as_new`: a recycled slot is as good as a new one
-/

namespace Depot

/-- Something that is done through a handle. -/
structure Lineage.Use where
  handle : Handle
  change : Session → Session

namespace Slot

/-- Does something through a handle. -/
def use (s : Slot) (u : Lineage.Use) : Slot :=
  { s with lineage := s.lineage.modify u.handle u.change }

/-- Does one thing after another through handles. -/
def useAll (s : Slot) (uses : List Lineage.Use) : Slot := uses.foldl use s

/-- Whether two slots cannot be told apart without a handle on a session of the past. -/
structure Alike (s s' : Slot) : Prop where
  session : s.session = s'.session
  reader : s.reader = s'.reader
  buffer : s.buffer = s'.buffer
  writer : s.writer = s'.writer

end Slot

/-- A connection and the slot that it is over. The session is that of the connection. -/
structure Tenancy where
  slot : Slot
  connection : Connection

namespace Tenancy

/-- Does something through a handle. -/
def use (t : Tenancy) (u : Lineage.Use) : Tenancy :=
  let lineage := { t.slot.lineage with current := t.connection.scene.session }.modify u.handle u.change
  { slot := { t.slot with lineage }
    connection :=
      { t.connection with scene := { t.connection.scene with session := lineage.current } } }

/-- What happens in the course of a tenancy. -/
inductive Event
  /-- The connection takes a step. -/
  | step (e : Connection.Event)
  | use (u : Lineage.Use)

/-- Whether something is done through a handle up to a last one. -/
def Event.isStale (last : Handle) : Event → Bool
  | .step _ => false
  | .use u => u.handle ≤ last

/-- The tenancy after an event, if it can happen. -/
def step? (t : Tenancy) : Event → Option Tenancy
  | .step e => (t.connection.step? e).map fun connection => { t with connection }
  | .use u => some (t.use u)

/-- The tenancy after a course of events, if they can happen one after another. -/
def run? (t : Tenancy) : List Event → Option Tenancy
  | [] => some t
  | e :: rest => (t.step? e).bind fun t => t.run? rest

/-- The slot after the connection. -/
def leave (t : Tenancy) : Slot := t.connection.leave t.slot

/-- The sizes of the connection stay, whatever is done to its session. -/
theorem sizes_run {t t' : Tenancy} {events : List Event} (h : t.run? events = some t') :
    t'.connection.sizes = t.connection.sizes := by
  induction events generalizing t with
  | nil =>
    cases h
    rfl
  | cons e rest ih =>
    obtain ⟨next, hstep, hrest⟩ := Option.bind_eq_some_iff.mp h
    refine (ih hrest).trans ?_
    cases e with
    | step e =>
      obtain ⟨connection, hconnection, rfl⟩ := Option.map_eq_some_iff.mp hstep
      exact Connection.sizes_step hconnection
    | use u =>
      cases hstep
      rfl

end Tenancy

namespace Slot

variable {config : Config} {s s' : Slot}

/-- What a slot may have been through since it was made. -/
inductive Reached (config : Config) : Slot → Prop
  | new : Reached config (.new config)
  | attach {s : Slot} (h : Reached config s) (id : Nat) (peer : Option String) :
      Reached config (s.attach id peer)
  /-- Something is done through a handle, whichever session that means. -/
  | use {s : Slot} (h : Reached config s) (u : Lineage.Use) : Reached config (s.use u)
  | feed {s : Slot} (h : Reached config s) (chunk : List UInt8) :
      Reached config { s with reader := (s.reader.feed chunk).reader }
  | fill {s : Slot} (h : Reached config s) (buffer : List UInt8) : Reached config { s with buffer }
  | stage {s : Slot} {p : Packet} {writer : Frame.Writer} (h : Reached config s)
      (hstage : s.writer.stage p = .ok writer) : Reached config { s with writer }
  | advance {s : Slot} (h : Reached config s) (count : Nat) :
      Reached config { s with writer := s.writer.advance count }
  /-- A connection is served up to any time. -/
  | serve {s : Slot} {served : Config} {store : Storage.Store} {tree : Storage.Tree}
      {metrics : Metrics} {shutdown : Bool} {c : Connection} {events : List Tenancy.Event}
      {t : Tenancy} (h : Reached config s)
      (hstart : Connection.start served store tree metrics shutdown s = .ok c)
      (hrun : ({ slot := s, connection := c } : Tenancy).run? events = some t) :
      Reached config t.leave
  | recycle {s : Slot} (h : Reached config s) : Reached config s.recycle

/-- A connection takes over the reader and the writer of its slot. -/
theorem sizes_start {served : Config} {store : Storage.Store} {tree : Storage.Tree}
    {metrics : Metrics} {shutdown : Bool} {c : Connection}
    (h : Connection.start served store tree metrics shutdown s = .ok c) :
    c.sizes = (s.reader.maxPayload, s.writer.chunk) := by
  simp only [Connection.start] at h
  split at h
  · split at h
    · cases h
      rfl
    · cases h
  · cases h

/-- A slot keeps the sizes that it was made with. -/
theorem sizes_of_reached (h : s.Reached config) :
    s.reader.maxPayload = config.maxPayload ∧ s.writer.chunk = max config.sendChunk 1 := by
  induction h with
  | new => exact ⟨rfl, rfl⟩
  | attach _ _ _ ih => exact ih
  | use _ _ ih => exact ih
  | feed _ chunk ih => exact ⟨(Frame.Reader.maxPayload_feed _ chunk).trans ih.1, ih.2⟩
  | fill _ _ ih => exact ih
  | stage _ hstage ih => exact ⟨ih.1, (Frame.Writer.chunk_stage hstage).trans ih.2⟩
  | advance _ count ih => exact ⟨ih.1, (Frame.Writer.chunk_advance _ count).trans ih.2⟩
  | @serve s _ _ _ _ _ c _ t _ hstart hrun ih =>
    have hsizes := (Tenancy.sizes_run hrun).trans (sizes_start hstart)
    exact ⟨(congrArg Prod.fst hsizes).trans ih.1, (congrArg Prod.snd hsizes).trans ih.2⟩
  | recycle _ ih => exact ih

/-- What is in a recycled slot is what is in a new one. -/
theorem alike_recycle (h : s.Reached config) : s.recycle.Alike (.new config) := by
  obtain ⟨hreader, hwriter⟩ := sizes_of_reached h
  have hready := ready_recycle hreader hwriter
  exact ⟨rfl, hready.reader, rfl, hready.writer⟩

/-- Slots that are alike are alike for the next one who is attached. -/
theorem Alike.attach (h : s.Alike s') (id : Nat) (peer : Option String) :
    (s.attach id peer).Alike (s'.attach id peer) :=
  ⟨congrArg (·.attach id peer) h.session, h.reader, h.buffer, h.writer⟩

/-- Stale handles do not reach a slot. -/
theorem alike_useAll (h : s.Alike s') {uses : List Lineage.Use}
    (hstale : ∀ u ∈ uses, u.handle < s.lineage.past.length) :
    (s.useAll uses).Alike s' ∧ (s.useAll uses).lineage.past.length = s.lineage.past.length := by
  -- Use by use. A stale handle changes a session that is past.
  induction uses generalizing s with
  | nil => exact ⟨h, rfl⟩
  | cons u rest ih =>
    have hu := hstale u List.mem_cons_self
    have hpast : (s.use u).lineage.past.length = s.lineage.past.length := by
      simp only [use, Lineage.modify, if_pos hu, List.length_modify]
    have hcurrent : (s.use u).session = s.session :=
      s.lineage.current_modify_of_lt u.handle u.change hu
    have hrest := ih (s := s.use u) ⟨hcurrent.trans h.session, h.reader, h.buffer, h.writer⟩
      fun u hu => hpast ▸ hstale u (List.mem_cons_of_mem _ hu)
    exact ⟨hrest.1, hrest.2.trans hpast⟩

/-- A connection depends on what is in the slot only. -/
theorem Alike.start_eq (h : s.Alike s') (served : Config) (store : Storage.Store)
    (tree : Storage.Tree) (metrics : Metrics) (shutdown : Bool) :
    Connection.start served store tree metrics shutdown s =
      Connection.start served store tree metrics shutdown s' := by
  simp only [Connection.start, h.session, h.reader, h.buffer, h.writer]

end Slot

namespace Tenancy

/-- A handle on a session of the past does not reach the connection. -/
theorem use_of_lt {t : Tenancy} {u : Lineage.Use} (h : u.handle < t.slot.lineage.past.length) :
    (t.use u).connection = t.connection ∧
      (t.use u).slot.lineage.past.length = t.slot.lineage.past.length := by
  have hmodify : ({ t.slot.lineage with current := t.connection.scene.session } : Lineage).modify
      u.handle u.change =
        { current := t.connection.scene.session
          past := t.slot.lineage.past.modify u.handle u.change } := if_pos h
  rw [use, hmodify]
  exact ⟨rfl, List.length_modify u.change t.slot.lineage.past u.handle⟩

/-- Any other handle means the session of the connection. -/
theorem use_of_not_lt {t : Tenancy} {u : Lineage.Use} (h : ¬u.handle < t.slot.lineage.past.length) :
    (t.use u).connection = { t.connection with
        scene := { t.connection.scene with session := u.change t.connection.scene.session } } ∧
      (t.use u).slot.lineage.past = t.slot.lineage.past := by
  have hmodify : ({ t.slot.lineage with current := t.connection.scene.session } : Lineage).modify
      u.handle u.change =
        { current := u.change t.connection.scene.session, past := t.slot.lineage.past } := if_neg h
  rw [use, hmodify]
  exact ⟨rfl, rfl⟩

/-- What is done through stale handles in the course of a connection is not seen in it: it goes on as
over a slot that has no past, where it is not done. -/
theorem run?_unseen (t t' : Tenancy) {last : Handle} (hconnection : t.connection = t'.connection)
    (hpast : t.slot.lineage.past.length = last + 1) (hnew : t'.slot.lineage.past = [])
    (events : List Event) :
    (t.run? events).map Tenancy.connection =
      (t'.run? (events.filter fun e => !e.isStale last)).map Tenancy.connection := by
  induction events generalizing t t' with
  | nil => exact congrArg some hconnection
  | cons e rest ih =>
    cases e with
    | step e =>
      have hkept : (Event.step e :: rest).filter (fun e => !e.isStale last) =
          .step e :: rest.filter fun e => !e.isStale last := rfl
      rw [hkept, run?, run?, step?, step?, hconnection]
      cases t'.connection.step? e with
      | none => rfl
      | some connection => exact ih _ _ rfl hpast hnew
    | use u =>
      by_cases hstale : u.handle ≤ last
      · have hdropped : (Event.use u :: rest).filter (fun e => !e.isStale last) =
            rest.filter fun e => !e.isStale last := by
          simp [Event.isStale, hstale]
        have hlt : u.handle < t.slot.lineage.past.length := by
          rw [hpast]
          exact Nat.lt_succ_of_le hstale
        obtain ⟨hsame, hlength⟩ := use_of_lt hlt
        rw [hdropped]
        exact ih _ _ (hsame.trans hconnection) (hlength.trans hpast) hnew
      · have hkept : (Event.use u :: rest).filter (fun e => !e.isStale last) =
            .use u :: rest.filter fun e => !e.isStale last := by
          simp [Event.isStale, hstale]
        have hnot : ¬u.handle < t.slot.lineage.past.length := by
          rw [hpast]
          exact fun hlt => hstale (Nat.le_of_lt_succ hlt)
        have hnot' : ¬u.handle < t'.slot.lineage.past.length := by
          rw [hnew]
          exact Nat.not_lt_zero _
        -- It is done to the same session, here as well as there.
        obtain ⟨hchanged, hsame⟩ := use_of_not_lt hnot
        obtain ⟨hchanged', hsame'⟩ := use_of_not_lt hnot'
        rw [hkept]
        refine ih _ _ ?_ ?_ (hsame'.trans hnew)
        · rw [hchanged, hchanged', hconnection]
        · rw [hsame, hpast]

end Tenancy

/-- Whether a slot can stand in for one without a past: what is in it is the same, a connection over it
starts in the same way and goes on in the same way, and only what is done through handles up to a last
one makes no difference to it. -/
structure Slot.StandsFor (last : Handle) (s fresh : Slot) : Prop where
  alike : s.Alike fresh
  start_eq : ∀ served store tree metrics shutdown,
    Connection.start served store tree metrics shutdown s =
      Connection.start served store tree metrics shutdown fresh
  run_eq : ∀ (c : Connection) (events : List Tenancy.Event),
    (({ slot := s, connection := c } : Tenancy).run? events).map Tenancy.connection =
      (({ slot := fresh, connection := c } : Tenancy).run?
        (events.filter fun e => !e.isStale last)).map Tenancy.connection

/-- A slot that is like a new one stands for it, under handles that are later by what is past. -/
theorem Slot.Alike.standsFor {s fresh : Slot} {last : Handle} (h : s.Alike fresh)
    (hpast : s.lineage.past.length = last + 1) (hnew : fresh.lineage.past = []) :
    s.StandsFor last fresh :=
  ⟨h, h.start_eq, fun c events => Tenancy.run?_unseen ⟨s, c⟩ ⟨fresh, c⟩ rfl hpast hnew events⟩

/-- A recycled slot is as good as a new one, whatever it has been through, for whomever it is used next
and whatever is done through the handles on the sessions before. -/
theorem recycled_as_new {config : Config} {s : Slot} (h : s.Reached config) :
    s.recycle.isPristine = true ∧
      ∀ earlier later : List Lineage.Use, (∀ u ∈ earlier, u.handle ≤ s.lineage.handle) →
        (∀ u ∈ later, u.handle ≤ s.lineage.handle) →
        (s.recycle.useAll earlier).StandsFor s.lineage.handle (.new config) ∧
          ∀ id peer, (((s.recycle.useAll earlier).attach id peer).useAll later).StandsFor
            s.lineage.handle ((Slot.new config).attach id peer) := by
  have halike := Slot.alike_recycle h
  have hlength : s.recycle.lineage.past.length = s.lineage.handle + 1 := List.length_append
  refine ⟨?_, fun earlier later hearlier hlater => ?_⟩
  · rw [Slot.isPristine, halike.session, halike.reader, halike.buffer, halike.writer]
    rfl
  · have hstale {uses : List Lineage.Use} (huses : ∀ u ∈ uses, u.handle ≤ s.lineage.handle) :
        ∀ u ∈ uses, u.handle < s.recycle.lineage.past.length := by
      intro u hu
      rw [hlength]
      exact Nat.lt_succ_of_le (huses u hu)
    obtain ⟨hused, hpast⟩ := Slot.alike_useAll halike (hstale hearlier)
    refine ⟨hused.standsFor (hpast.trans hlength) rfl, fun id peer => ?_⟩
    have hattached : ∀ u ∈ later,
        u.handle < ((s.recycle.useAll earlier).attach id peer).lineage.past.length := by
      intro u hu
      exact hpast ▸ hstale hlater u hu
    obtain ⟨hused', hpast'⟩ := Slot.alike_useAll (hused.attach id peer) hattached
    exact hused'.standsFor (hpast'.trans (hpast.trans hlength)) rfl

/-- A client was killed with half a header in the reader and a packet in the queue, and it still holds a
handle. -/
theorem recycled_as_new_after_half_a_header :
    let killed : Slot := (Slot.new {}).use ⟨0, fun s => (s.post .connectionCheck).kill⟩
    let s : Slot := { killed with reader := (killed.reader.feed [1, 2, 3]).reader }
    let stale : List Lineage.Use := [⟨0, fun s => { s with user := 7 }⟩]
    s.Reached {} ∧ s.isPristine = false ∧ s.recycle.isPristine = true ∧
      (s.recycle.useAll stale).StandsFor 0 (.new {}) ∧
      (((s.recycle.useAll stale).attach 2 none).useAll stale).StandsFor 0
        ((Slot.new {}).attach 2 none) := by
  intro killed s stale
  have hreached : s.Reached {} := .feed (.use .new _) [1, 2, 3]
  have hstale : ∀ u ∈ stale, u.handle ≤ s.lineage.handle := by
    intro u hu
    rw [List.mem_singleton.mp hu]
    exact Nat.zero_le _
  obtain ⟨hpristine, hnext⟩ := recycled_as_new hreached
  obtain ⟨hbefore, hafter⟩ := hnext stale stale hstale hstale
  exact ⟨hreached, rfl, hpristine, hbefore, hafter 2 none⟩

end Depot
