import Depot.Proofs.Connection.Passage

/-!
# The steps of a connection

`Connection.step?` is taken apart once, here. `Steps` lists what every event comes to, with all that has to
hold for it, so an invariant of a connection is a proof with one case for each event. Some proofs only ask
what happens to a few fields; they need not look at what let a step happen.

## Key results

- `steps_of_step?`: what a step can be
-/

namespace Depot.Connection

/-- What the events come to. -/
inductive Steps (c : Connection) : Event → Connection → Prop
  | read {chunk : List UInt8} {watch : Liveness.Watch} {metrics : Metrics} (hreading : c.reading = true)
      (hlive : c.scene.session.live = true) (hchunk : chunk ≠ [])
      (hwatch : (c.takeIn chunk).watch = watch) :
      Steps c (.read chunk)
        { c with
          reader := (c.reader.feed chunk).reader
          buffer := chunk
          reading := c.reading && (c.reader.feed chunk).fault.isNone
          watch
          scene := { c.scene with
            metrics
            session := { c.scene.session with
              inbound := (arrivals (c.reader.feed chunk)).foldl Queue.push c.scene.session.inbound
              farewell := c.scene.session.farewell <|>
                (c.reader.feed chunk).fault.map Frame.Fault.suspendCode } } }
  | readEnd (hreading : c.reading = true) (hlive : c.scene.session.live = true) :
      Steps c .readEnd ({ c with buffer := [] }.endReading .socketClosed)
  /-- A failure is taken for the end of the stream. -/
  | readFailure (hreading : c.reading = true) (hlive : c.scene.session.live = true) :
      Steps c .readFailure ({ c with buffer := [] }.endReading .socketClosed)
  | readStop (hreading : c.reading = true) (hdead : c.scene.session.live = false) :
      Steps c .readStop { c with reading := false, buffer := [] }
  | dispatch {p : Packet} (hp : c.upcoming? = some p) :
      Steps c .dispatch (c.follow (c.board.dispatch p c.attended))
  | operate {id : UInt8} {board : Switchboard} {scene : Scene}
      (hadvance : c.board.advance? c.service id c.scene = some (board, scene)) :
      Steps c (.operate id) { c with board, scene }
  | close (hover : c.verdict.isSome = true) (hhalt : c.board.halt ≠ some .closed)
      (hidle : c.board.entries.isEmpty = true) :
      Steps c .close { c with board := { c.board with halt := some .closed } }
  | send {answer : WriteAnswer} {sent : Sent}
      (hsent : c.sender.step? c.linger c.now answer c.scene = some sent) :
      Steps c (.send answer)
        { c with sender := sent.sender, scene := sent.scene, outgoing := c.outgoing ++ sent.bytes }
  | watch {watch : Liveness.Watch} {silent : Bool}
      (hwatch : c.watch.step? c.times c.now c.scene.session.live = some (watch, silent)) :
      Steps c .watch { c with watch, scene := if silent then c.scene.expire else c.scene }
  | probe {probe : Liveness.Probe} {tick : Bool}
      (hprobe : c.probe.step? c.now c.scene.session.live = some (probe, tick)) :
      Steps c .probe { c with probe, scene := if tick then c.scene.probe else c.scene }
  | wait (duration : Duration) : Steps c (.wait duration) { c with now := c.now + duration.nanos }
  | shutdown : Steps c .shutdown { c with shutdown := true }

variable {c c' : Connection} {e : Event}

/-- Every step of a connection is one of those above. -/
theorem steps_of_step? (h : c.step? e = some c') : Steps c e c' := by
  -- One case for each event: what it needs to be possible, and what it leaves.
  cases e with
  | read chunk =>
    simp only [step?] at h
    split at h
    · next hread =>
      simp only [canRead, Bool.and_eq_true, Bool.not_eq_true', List.isEmpty_eq_false_iff] at hread
      obtain ⟨watch, metrics, htaken⟩ := takeIn_eq c chunk
      have hwatch : (c.takeIn chunk).watch = watch := by rw [htaken]
      rw [htaken] at h
      cases h
      exact .read hread.1.1 hread.1.2 hread.2 hwatch
    · cases h
  | readEnd =>
    simp only [step?] at h
    split at h
    · next hread =>
      simp only [canRead, Bool.and_eq_true] at hread
      cases h
      exact .readEnd hread.1 hread.2
    · cases h
  | readFailure =>
    simp only [step?] at h
    split at h
    · next hread =>
      simp only [canRead, Bool.and_eq_true] at hread
      cases h
      exact .readFailure hread.1 hread.2
    · cases h
  | readStop =>
    simp only [step?] at h
    split at h
    · next hstop =>
      simp only [Bool.and_eq_true, Bool.not_eq_true'] at hstop
      cases h
      exact .readStop hstop.1 hstop.2
    · cases h
  | dispatch =>
    simp only [step?, dispatch?_eq] at h
    obtain ⟨p, hp, rfl⟩ := Option.map_eq_some_iff.mp h
    exact .dispatch hp
  | operate id =>
    obtain ⟨⟨board, scene⟩, hadvance, rfl⟩ := Option.map_eq_some_iff.mp h
    exact .operate hadvance
  | close =>
    simp only [step?, close?] at h
    split at h
    · next hclose =>
      simp only [Bool.and_eq_true, bne_iff_ne] at hclose
      obtain ⟨board, hboard, rfl⟩ := Option.map_eq_some_iff.mp h
      unfold Switchboard.close? at hboard
      split at hboard
      · next hidle =>
        cases hboard
        exact .close hclose.1 hclose.2 hidle
      · cases hboard
    · cases h
  | send answer =>
    obtain ⟨sent, hsent, rfl⟩ := Option.map_eq_some_iff.mp h
    exact .send hsent
  | watch =>
    simp only [step?, Scene.watch?, Option.map_map] at h
    obtain ⟨⟨watch, silent⟩, hwatch, rfl⟩ := Option.map_eq_some_iff.mp h
    exact .watch hwatch
  | probe =>
    simp only [step?, Scene.probe?, Option.map_map] at h
    obtain ⟨⟨probe, tick⟩, hprobe, rfl⟩ := Option.map_eq_some_iff.mp h
    exact .probe hprobe
  | wait duration =>
    cases h
    exact .wait duration
  | shutdown =>
    cases h
    exact .shutdown

end Depot.Connection
