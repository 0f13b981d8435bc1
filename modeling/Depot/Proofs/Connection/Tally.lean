import Depot.Proofs.Connection.Outlet
import Depot.Proofs.Diagnostics.Metrics
import Depot.Proofs.Frame.Stream

/-!
# Counting the frames that are sent

A frame is counted when its last byte is taken, but for the one that was in progress when the session was
killed: that one is finished and not counted. So the count is the number of frames on the wire for as
long as the session lives, and at the end it is one short of it if a frame was in progress then.

What a run keeps is an account, `Balanced`: the frames on the wire are those that were counted and those that
are owed, and of one more there may be a part. What is owed follows from where sending stands, `Owes`.

## Key results

- `Frame.completed_eq`: how many frames are complete on the wire
- `tallied_step`, `tallied_run`: what is counted and what is owed
- `frames_counted_of_killed`: the count and the wire, before and after the end of a session
- `frame_in_progress_uncounted`: a frame that is finished and not counted
-/

namespace Depot

/-- Whether the header of a packet announces the payload, as far as a header can. Packets that are built
do. -/
def Packet.Announces (p : Packet) : Prop :=
  p.header.size = UInt32.ofNat (min p.payload.length maxAnnounced)

/-- Whether a packet announces its payload and has a frame. -/
def Packet.Framed (p : Packet) : Prop := p.Announces ∧ ∃ frame, p.encode = .ok frame

namespace Packet

/-- A packet that is built announces the payload it has. -/
theorem Built.announces {p : Packet} (h : p.Built) : p.Announces := h.size_eq

/-- A farewell is built like every other packet. -/
theorem announces_suspend (code : ErrorCode) : (suspend code).Announces := Built.announces (.new rfl)

/-- What has a frame announces all of its payload. -/
theorem Announces.size_eq {p : Packet} {frame : List UInt8} (h : p.Announces)
    (hframe : p.encode = .ok frame) :
    p.header.size.toNat = p.payload.length ∧ p.payload.length ≤ maxAnnounced ∧
      frame = p.header.encode ++ p.payload := by
  unfold encode at hframe
  split at hframe
  · cases hframe
  · next hle =>
    cases hframe
    have hfits : p.payload.length ≤ maxAnnounced := by omega
    have hlt : p.payload.length < UInt32.size := Nat.lt_succ_of_le hfits
    -- What fits is announced as it is, it need not be cut to the largest size that can be told.
    refine ⟨?_, hfits, rfl⟩
    rw [show p.header.size = _ from h, Nat.min_eq_left hfits, UInt32.toNat_ofNat_of_lt' hlt]

end Packet

namespace Frame

/-- The number of frames that are complete in some bytes. -/
def completed (bytes : List UInt8) : Nat := ((Reader.new maxAnnounced).feed bytes).packets.length

/-- A frame of which a part is there and the rest is not, or no frame at all. -/
inductive Parted : List UInt8 → List UInt8 → Prop
  | none : Parted [] []
  | frame {p : Packet} {part rest : List UInt8} (hp : p.Announces)
      (hframe : p.encode = .ok (part ++ rest)) (hrest : rest ≠ []) : Parted part rest

/-- A part of a frame makes no frame. -/
theorem Parted.exists_rest {part rest : List UInt8} (h : Parted part rest) :
    ∃ ending, Rest maxAnnounced part ending := by
  cases h with
  | none => exact ⟨_, .clean⟩
  | @frame p _ _ hp hframe hrest =>
    obtain ⟨hsize, hmax, hbytes⟩ := hp.size_eq hframe
    by_cases hnil : part = []
    · exact ⟨.clean, by rw [hnil]; exact .clean⟩
    · by_cases hshort : part.length < 11
      · exact ⟨_, .unfinished (.header hnil hshort)⟩
      · -- The header is there, and the payload is not there as a whole.
        obtain ⟨data, rfl, hpayload⟩ : ∃ data, part = p.header.encode ++ data ∧ p.payload = data ++ rest := by
          rcases List.append_eq_append_iff.mp hbytes with ⟨more, hheader, hrest'⟩ | ⟨data, hpart, hpayload⟩
          · have hlength := congrArg List.length hheader
            rw [Header.length_encode, Header.length, List.length_append] at hlength
            have hmore : more = [] := List.length_eq_zero_iff.mp (by omega)
            rw [hmore, List.append_nil] at hheader
            rw [hmore, List.nil_append] at hrest'
            exact ⟨[], by rw [hheader, List.append_nil], by rw [hrest', List.nil_append]⟩
          · exact ⟨data, hpart, hpayload⟩
        have hless : 0 < rest.length := List.length_pos_iff.mpr hrest
        have hlength : p.payload.length = data.length + rest.length := by rw [hpayload, List.length_append]
        exact ⟨_, .unfinished (.payload (by omega) (by omega))⟩

/-- The frames of some packets with a part of one more are as many as the packets. -/
theorem completed_eq {done : List Packet} {part rest : List UInt8} (hdone : ∀ p ∈ done, p.Framed)
    (h : Parted part rest) : completed (Packet.allOnWire done ++ part) = done.length := by
  obtain ⟨ending, hrest⟩ := h.exists_rest
  have hstream : Stream maxAnnounced (Packet.allOnWire done ++ part) (done.map Packet.canonical) ending := by
    -- The part goes at the end of the stream, so the induction is on the packets before it.
    clear h
    induction done with
    | nil => exact .rest hrest
    | cons p done ih =>
      obtain ⟨hp, frame, hframe⟩ := hdone p List.mem_cons_self
      obtain ⟨hsize, hmax, rfl⟩ := hp.size_eq hframe
      have hwire : p.onWire = p.canonical.header.encode ++ p.canonical.payload := by
        rw [Packet.onWire, hframe]
        simp only [Packet.canonical, Header.encode_canonical]
      have hrest := Stream.frame (Packet.wellFormed_canonical hsize) hmax
        (ih fun q hq => hdone q (List.mem_cons_of_mem p hq))
      rw [← hwire, ← List.append_assoc] at hrest
      exact hrest
  obtain ⟨r, hfeed, -⟩ := Reader.feed_stream hstream
  rw [completed, hfeed, List.length_map]

end Frame

namespace Connection

/-- The frames that were counted as sent. -/
def counted (scene : Scene) : Int := scene.metrics.value (.frames .outbound)

/-- One frame more is counted. -/
theorem counted_frame (scene : Scene) :
    counted (scene.count (.frames .outbound)) = counted scene + 1 := by
  rw [counted, Scene.count, Metrics.value_count, if_pos rfl]
  rfl

/-- An incident is counted elsewhere. -/
theorem counted_incident (scene : Scene) (incident : Incident) :
    counted (scene.count (.errors incident)) = counted scene := by
  rw [counted, Scene.count, Metrics.value_count, if_neg (by simp), Int.add_zero]
  rfl

namespace Outlet

/-- Whether somebody else counts a frame as sent in an event. -/
def Meddles (o : Outlet) : Event → Prop
  | .aside scene => counted scene ≠ counted o.scene
  | _ => False

/-- Whether somebody else counts a frame as sent in a course of events. -/
def Meddled (o : Outlet) : List Event → Prop
  | [] => False
  | e :: rest => o.Meddles e ∨ ∃ next, o.step? e = some next ∧ next.Meddled rest

/-- Whether the frames on the wire are those that were counted and those that are owed. What is unsent is
the rest of one more. -/
def Balanced (base count : Int) (owed : Nat) (outgoing unsent : List UInt8) : Prop :=
  ∃ done part, outgoing = Packet.allOnWire done ++ part ∧ (∀ p ∈ done, p.Framed) ∧
    Frame.Parted part unsent ∧ count + owed = base + done.length

/-- How many frames are owed, by where sending stands. Whether the session was killed within a frame is
`caught`; that frame is owed when it is finished. -/
def Owes (s : Sender) (live caught : Bool) (hindered : Prop) (owed : Nat) : Prop :=
  match s.sending with
  | .idle => s.writer.unsent = [] ∧ owed = 0 ∧ (live = false → caught = false)
  | .packet => s.writer.unsent ≠ [] ∧ owed = 0 ∧ (live = false → caught = true)
  | .finishing _ _ => live = false ∧ (s.writer.unsent = [] ↔ caught = false) ∧ owed = 0
  | .parting _ => live = false ∧ s.writer.unsent ≠ [] ∧ owed = caught.toNat
  | .stopped => live = false ∧ owed = caught.toNat ∨ hindered ∧ owed = 0

/-- How the count of an outlet stands to what it has on the wire. -/
structure Tallied (base : Int) (caught : Bool) (hindered : Prop) (o : Outlet) : Prop where
  sound : o.sender.writer.Sound
  announced : ∀ p ∈ o.scene.session.outbound.waiting, p.Announces
  account : ∃ owed, Balanced base (counted o.scene) owed o.outgoing o.sender.writer.unsent ∧
    Owes o.sender o.scene.session.live caught hindered owed

/-! ### The balance -/

section

variable {base count : Int} {owed : Nat} {outgoing unsent unsent' bytes : List UInt8}

/-- What is on the wire, in numbers. -/
theorem Balanced.completed_eq (h : Balanced base count owed outgoing unsent) :
    count + owed = base + Frame.completed outgoing := by
  obtain ⟨done, part, rfl, hdone, hparted, hsum⟩ := h
  rw [Frame.completed_eq hdone hparted]
  exact hsum

/-- The next frame is taken up. -/
theorem Balanced.stage {p : Packet} (h : Balanced base count owed outgoing []) (hp : p.Announces)
    (hframe : p.encode = .ok unsent) (hne : unsent ≠ []) :
    Balanced base count owed outgoing unsent := by
  obtain ⟨done, part, hbytes, hdone, hparted, hsum⟩ := h
  have hpart : part = [] := by
    cases hparted with
    | none => rfl
    | frame _ _ hrest => exact absurd rfl hrest
  subst hpart
  exact ⟨done, [], hbytes, hdone, .frame hp hframe hne, hsum⟩

/-- A part of a frame is written. -/
theorem Balanced.write (h : Balanced base count owed outgoing unsent) (hunsent : bytes ++ unsent' = unsent)
    (hne : unsent' ≠ []) : Balanced base count owed (outgoing ++ bytes) unsent' := by
  obtain ⟨done, part, hbytes, hdone, hparted, hsum⟩ := h
  cases hparted with
  | none => exact absurd (List.append_eq_nil_iff.mp hunsent).2 hne
  | frame hp hframe _ =>
    rw [← hunsent, ← List.append_assoc] at hframe
    exact ⟨done, part ++ bytes, by rw [hbytes, List.append_assoc], hdone, .frame hp hframe hne, hsum⟩

/-- The last part of a frame is written: there is one more on the wire, which is counted or owed. -/
theorem Balanced.finish (h : Balanced base count owed outgoing unsent) (hne : unsent ≠ []) :
    Balanced base (count + 1) owed (outgoing ++ unsent) [] ∧
      Balanced base count (owed + 1) (outgoing ++ unsent) [] := by
  obtain ⟨done, part, rfl, hdone, hparted, hsum⟩ := h
  cases hparted with
  | none => exact absurd rfl hne
  | @frame p _ _ hp hframe _ =>
    -- With its last bytes the packet in progress joins those that are done.
    have hbytes : Packet.allOnWire done ++ part ++ unsent = Packet.allOnWire (done ++ [p]) ++ [] := by
      rw [Packet.allOnWire_append, Packet.allOnWire_singleton, Packet.onWire, hframe, List.append_nil,
        List.append_assoc]
    have hframed : ∀ q ∈ done ++ [p], q.Framed := fun q hq => by
      rcases List.mem_append.mp hq with hq | hq
      · exact hdone q hq
      · exact List.mem_singleton.mp hq ▸ ⟨hp, _, hframe⟩
    have hlength : (done ++ [p]).length = done.length + 1 := List.length_append
    exact ⟨⟨_, [], hbytes, hframed, .none, by omega⟩, ⟨_, [], hbytes, hframed, .none, by omega⟩⟩

end

/-! ### What is owed -/

section

variable {base : Int} {caught : Bool} {hindered hindered' : Prop} {owed : Nat} {o o' : Outlet}

/-- What may be owed after one hindrance may be owed after more. -/
theorem Owes.mono {s : Sender} {live : Bool} (h : Owes s live caught hindered owed)
    (himp : hindered → hindered') : Owes s live caught hindered' owed := by
  unfold Owes at h ⊢
  split at h
  · exact h
  · exact h
  · exact h
  · exact h
  · exact h.imp id fun hcut => ⟨himp hcut.1, hcut.2⟩

/-- When a session is killed, it is caught within a frame if one is in progress. -/
theorem Owes.kill {s : Sender} (hs : s.writer.Sound) (h : Owes s true false hindered owed) :
    Owes s false (!s.writer.isIdle) hindered owed := by
  -- A live session is idle or sends a packet, or sending was cut off. The ways of a dead one are excluded.
  unfold Owes at h ⊢
  split at h
  · obtain ⟨hunsent, howed, -⟩ := h
    exact ⟨hunsent, howed, fun _ => by rw [(Frame.Writer.isIdle_iff hs).mpr hunsent]; rfl⟩
  · obtain ⟨hunsent, howed, -⟩ := h
    refine ⟨hunsent, howed, fun _ => ?_⟩
    cases hidle : s.writer.isIdle with
    | true => exact absurd (Frame.Writer.unsent_eq_nil_of_isIdle hidle) hunsent
    | false => rfl
  · cases h.1
  · cases h.1
  · rcases h with ⟨hdead, -⟩ | hcut
    · cases hdead
    · exact .inr hcut

/-- At most one frame is owed, and that only after the session was killed within it. -/
theorem Owes.nothing_or_one {s : Sender} {live : Bool} (h : Owes s live caught hindered owed) :
    owed = 0 ∨ live = false ∧ caught = true ∧ owed = 1 := by
  have hcaught (hdead : live = false) (howed : owed = caught.toNat) :
      owed = 0 ∨ live = false ∧ caught = true ∧ owed = 1 := by
    cases caught with
    | false => exact .inl howed
    | true => exact .inr ⟨hdead, rfl, howed⟩
  unfold Owes at h
  split at h
  · exact .inl h.2.1
  · exact .inl h.2.1
  · exact .inl h.2.2
  · exact hcaught h.1 h.2.2
  · rcases h with ⟨hdead, howed⟩ | ⟨-, howed⟩
    · exact hcaught hdead howed
    · exact .inl howed

/-- Sending that has stopped in time owes the frame that was in progress when the session was killed. -/
theorem Owes.of_isStopped {s : Sender} {live : Bool} (h : Owes s live caught hindered owed)
    (hstopped : s.isStopped = true) (hfree : ¬hindered) : owed = caught.toNat := by
  rw [Sender.isStopped, beq_iff_eq] at hstopped
  rw [Owes, hstopped] at h
  rcases h with ⟨-, howed⟩ | ⟨hcut, -⟩
  · exact howed
  · exact absurd hcut hfree

/-- A part of a frame that is written leaves everything as it is. -/
theorem Owes.write {s : Sender} {live : Bool} {writer : Frame.Writer}
    (h : Owes s live caught hindered owed) (hbusy : s.sending ≠ .idle) (hgoing : s.sending ≠ .stopped)
    (hbefore : s.writer.unsent ≠ []) (hne : writer.unsent ≠ []) :
    Owes { s with writer } live caught hindered owed := by
  -- The cases are those of what is being sent. Only where a packet is in progress does a part of it matter.
  unfold Owes at h ⊢
  split at h
  · next hidle => exact absurd hidle hbusy
  · next hpacket =>
    simp only [hpacket]
    exact ⟨hne, h.2⟩
  · next hfinishing =>
    simp only [hfinishing]
    obtain ⟨hdead, hcaught, howed⟩ := h
    exact ⟨hdead, iff_of_false hne (mt hcaught.mpr hbefore), howed⟩
  · next hparting =>
    simp only [hparting]
    exact ⟨h.1, hne, h.2.2⟩
  · next hstopped => exact absurd hstopped hgoing

/-- Sending that is cut off owes nothing, or what it owed before. -/
theorem Owes.stop {s : Sender} {live : Bool} {deadline : Liveness.Instant}
    (h : Owes s live caught hindered owed) (halarm : s.alarm? = some deadline) (hcut : hindered') :
    live = false ∧ owed = caught.toNat ∨ hindered' ∧ owed = 0 := by
  -- While the farewell is sent what was owed before stays owed. Otherwise nothing is, and the cut is a
  -- hindrance.
  unfold Owes at h
  split at h
  · exact .inr ⟨hcut, h.2.1⟩
  · exact .inr ⟨hcut, h.2.1⟩
  · exact .inr ⟨hcut, h.2.2⟩
  · exact .inl ⟨h.1, h.2.2⟩
  · next hsending =>
    rw [Sender.alarm?, hsending] at halarm
    cases halarm

/-! ### Sending -/

/-- At the beginning nothing is sent and nothing is owed. -/
theorem tallied_start (linger : Duration) (chunk : Nat) {scene : Scene}
    (h : ∀ p ∈ scene.session.outbound.waiting, p.Announces) :
    Tallied (counted scene) false False (start linger chunk scene) where
  sound := Frame.Writer.sound_new chunk
  announced := h
  account := ⟨0, ⟨[], [], rfl, fun _ hp => absurd hp List.not_mem_nil, .none, rfl⟩, rfl, rfl,
    fun _ => rfl⟩

variable {answer : WriteAnswer} {sent : Sent}

/-- A frame is not empty. -/
private theorem unsent_ne_nil {p : Packet} {w w' : Frame.Writer} (hp : p.Announces)
    (hstage : w.stage p = .ok w') : w'.unsent ≠ [] := by
  intro hnil
  obtain ⟨-, -, hbytes⟩ := hp.size_eq (Frame.Writer.unsent_of_stage hstage).1
  have hlength := congrArg List.length hbytes
  rw [hnil, List.length_append, Header.length_encode, Header.length] at hlength
  simp only [List.length_nil] at hlength
  omega

/-- When the packet in progress is complete, what is owed for it stays so while the farewell is sent. -/
private theorem account_part {s : Sender} {scene : Scene} {outgoing : List UInt8}
    {deadline : Liveness.Instant} {farewell : Option ErrorCode} {count : Int}
    (hdead : scene.session.live = false) (h : Balanced base count caught.toNat outgoing [])
    (hnil : s.writer.unsent = []) :
    ∃ owed, Balanced base count owed outgoing (s.part deadline farewell scene).sender.writer.unsent ∧
      Owes (s.part deadline farewell scene).sender scene.session.live caught hindered owed := by
  refine ⟨caught.toNat, ?_⟩
  cases farewell with
  | none => exact ⟨hnil ▸ h, .inl ⟨hdead, rfl⟩⟩
  | some code =>
    obtain ⟨writer, hstage, hpart⟩ := Sender.exists_part s deadline code scene
    have hcode := Packet.announces_suspend code
    have hne := unsent_ne_nil hcode hstage
    rw [hpart]
    exact ⟨h.stage hcode (Frame.Writer.unsent_of_stage hstage).1 hne, hdead, hne, rfl⟩

/-- A step of sending keeps the account: it counts the frames that it completes, or owes them. -/
private theorem account_send (h : Tallied base caught hindered o)
    (hmoves : Sender.Moves o.linger o.now answer o.sender o.scene sent) :
    ∃ owed, Balanced base (counted sent.scene) owed (o.outgoing ++ sent.bytes)
        sent.sender.writer.unsent ∧
      Owes sent.sender sent.scene.session.live caught (hindered ∨ o.Hinders (.send answer)) owed := by
  obtain ⟨owed, hbalance, howes⟩ := h.account
  -- Without a write, nothing new is on the wire.
  have hstill {unsent : List UInt8} {count : Int} {owed : Nat}
      (h : Balanced base count owed o.outgoing unsent) :
      Balanced base count owed (o.outgoing ++ []) unsent := by
    rw [List.append_nil]
    exact h
  -- A write that leaves the writer idle takes all that is unsent.
  have hwhole {writer : Frame.Writer} {bytes : List UInt8}
      (hwrite : Sender.write o.sender.writer answer = some (writer, bytes)) (hidle : writer.isIdle) :
      writer.unsent = [] ∧ bytes = o.sender.writer.unsent := by
    have hnil := Frame.Writer.unsent_eq_nil_of_isIdle hidle
    have hbytes := (Sender.write_spec h.sound hwrite).2
    rw [hnil, List.append_nil] at hbytes
    exact ⟨hnil, hbytes⟩
  cases hmoves with
  | @takes p outbound writer hsending hlive htake hstage =>
    rw [Owes, hsending] at howes
    obtain ⟨hnil, howed, -⟩ := howes
    have hp : p.Announces := h.announced p (by
      rw [Queue.waiting_tryReceive htake]
      exact List.mem_cons_self)
    have hne := unsent_ne_nil hp hstage
    rw [hnil] at hbalance
    have hstaged := hbalance.stage hp (Frame.Writer.unsent_of_stage hstage).1 hne
    exact ⟨owed, hstill hstaged, hne, howed, fun hdead => by cases hlive.symm.trans hdead⟩
  | drops => exact ⟨owed, hstill hbalance, howes.mono .inl⟩
  | closes hsending hdead =>
    refine ⟨owed, hstill hbalance, hdead, ?_⟩
    rcases hsending with hsending | hsending
    · rw [Owes, hsending] at howes
      obtain ⟨hnil, howed, hcaught⟩ := howes
      exact ⟨iff_of_true hnil (hcaught hdead), howed⟩
    · rw [Owes, hsending] at howes
      obtain ⟨hne, howed, hcaught⟩ := howes
      refine ⟨iff_of_false hne ?_, howed⟩
      rw [hcaught hdead]
      exact Bool.noConfusion
  | @writes writer bytes hbusy hgoing _ hwrite hleft =>
    obtain ⟨hsound, hunsent⟩ := Sender.write_spec h.sound hwrite
    have hne : writer.unsent ≠ [] := fun hnil => by
      rw [(Frame.Writer.isIdle_iff hsound).mpr hnil] at hleft
      cases hleft
    have hbefore : o.sender.writer.unsent ≠ [] := fun hnil => by
      rw [hnil] at hunsent
      exact hne (List.append_eq_nil_iff.mp hunsent).2
    exact ⟨owed, hbalance.write hunsent hne, (howes.write hbusy hgoing hbefore hne).mono .inl⟩
  | completes hsending hlive hwrite hidle =>
    rw [Owes, hsending] at howes
    obtain ⟨hne, howed, -⟩ := howes
    obtain ⟨hnil, rfl⟩ := hwhole hwrite hidle
    refine ⟨owed, ?_, hnil, howed, fun hdead => by cases hlive.symm.trans hdead⟩
    rw [counted_frame, hnil]
    exact (hbalance.finish hne).1
  | givesUp hsending hlive hwrite =>
    have hcut := hinders_of_givesUp hsending hlive hwrite
    rw [Owes, hsending] at howes
    refine ⟨owed, hstill ?_, .inr ⟨.inr hcut, howes.2.1⟩⟩
    rw [show counted (Sender.giveUp _ _).scene = _ from counted_incident o.scene .socket]
    exact hbalance
  | parts hsending hidle =>
    rw [Owes, hsending] at howes
    obtain ⟨hdead, hcaught, rfl⟩ := howes
    have hnil := Frame.Writer.unsent_eq_nil_of_isIdle hidle
    rw [hnil] at hbalance
    rw [Sender.scene_part, Sender.bytes_part]
    refine account_part hdead (hstill ?_) hnil
    rw [hcaught.mp hnil]
    exact hbalance
  | @finishes deadline farewell writer bytes hsending hwrite hidle =>
    -- This is the frame that nobody counts.
    rw [Owes, hsending] at howes
    obtain ⟨hdead, hcaught, rfl⟩ := howes
    obtain ⟨hnil, rfl⟩ := hwhole hwrite hidle
    simp only [Sender.scene_part]
    by_cases hbefore : o.sender.writer.unsent = []
    · refine account_part hdead ?_ hnil
      rw [hbefore] at hbalance ⊢
      rw [hcaught.mp hbefore]
      exact hstill hbalance
    · refine account_part hdead ?_ hnil
      rw [show caught = true by simpa using mt hcaught.mpr hbefore]
      exact (hbalance.finish hbefore).2
  | parted hsending hwrite hidle =>
    rw [Owes, hsending] at howes
    obtain ⟨hdead, hne, howed⟩ := howes
    obtain ⟨hnil, rfl⟩ := hwhole hwrite hidle
    refine ⟨owed, ?_, .inl ⟨hdead, howed⟩⟩
    rw [counted_frame, hnil]
    exact (hbalance.finish hne).1
  | stops halarm hbusy hcause =>
    exact ⟨owed, hstill hbalance, howes.stop halarm (.inr (hinders_of_stops halarm hbusy hcause))⟩

/-- What waits after a step of sending was waiting before. -/
private theorem waiting_of_moves (hmoves : Sender.Moves o.linger o.now answer o.sender o.scene sent)
    {p : Packet} (h : p ∈ sent.scene.session.outbound.waiting) :
    p ∈ o.scene.session.outbound.waiting := by
  cases hmoves with
  | takes _ _ htake => exact Queue.waiting_tryReceive htake ▸ List.mem_cons_of_mem _ h
  | drops _ _ htake => exact Queue.waiting_tryReceive htake ▸ List.mem_cons_of_mem _ h
  | parts =>
    rw [Sender.scene_part] at h
    exact h
  | finishes =>
    simp only [Sender.scene_part] at h
    exact h
  | _ => exact h

/-! ### Steps and runs -/

variable {e : Event}

/-- The account allows for hindrances that were not met. -/
theorem Tallied.mono (h : Tallied base caught hindered o) (himp : hindered → hindered') :
    Tallied base caught hindered' o :=
  let ⟨owed, hbalance, howes⟩ := h.account
  { h with account := ⟨owed, hbalance, howes.mono himp⟩ }

/-- Every step but the one that kills the session keeps the account. -/
theorem tallied_step (h : Tallied base caught hindered o) (hstep : o.step? e = some o')
    (hposted : ∀ p ∈ e.posted, p.Announces) (halone : ¬o.Meddles e)
    (hsame : o.scene.session.live = false ∨ o'.scene.session.live = true) :
    Tallied base caught (hindered ∨ o.Hinders e) o' := by
  -- A step that is not one of sending leaves the sender, the wire and the count alone.
  have hbeside (hsender : o'.sender = o.sender) (houtgoing : o'.outgoing = o.outgoing)
      (hcounted : counted o'.scene = counted o.scene)
      (hlive : o'.scene.session.live = o.scene.session.live)
      (hwaiting : ∀ p ∈ o'.scene.session.outbound.waiting, p.Announces) :
      Tallied base caught (hindered ∨ o.Hinders e) o' := by
    refine Tallied.mono ⟨hsender ▸ h.sound, hwaiting, ?_⟩ .inl
    rw [hsender, houtgoing, hcounted, hlive]
    exact h.account
  cases e with
  | post p =>
    cases hstep
    refine hbeside rfl rfl rfl rfl fun q hq => ?_
    rcases Queue.mem_waiting_push hq with hq | rfl
    · exact h.announced q hq
    · exact hposted q List.mem_cons_self
  | requestFarewell code =>
    rw [step?] at hstep
    split at hstep
    · cases hstep
      exact hbeside rfl rfl rfl rfl h.announced
    · cases hstep
  | kill =>
    cases hstep
    rcases hsame with hdead | hlive
    · exact hbeside rfl rfl rfl hdead.symm h.announced
    · cases hlive
  | aside scene =>
    rw [step?] at hstep
    split at hstep
    · next hkept =>
      cases hstep
      exact hbeside rfl rfl (Decidable.not_not.mp halone) hkept.2.1 (hkept.1 ▸ h.announced)
    · cases hstep
  | wait duration =>
    cases hstep
    exact hbeside rfl rfl rfl rfl h.announced
  | send answer =>
    obtain ⟨sent, hsent, rfl⟩ := Option.map_eq_some_iff.mp hstep
    have hmoves := Sender.moves_of_step? hsent
    exact ⟨hmoves.sound h.sound, fun p hp => h.announced p (waiting_of_moves hmoves hp),
      account_send h hmoves⟩

/-- And so does every run before the session is killed, and every run after that. -/
theorem tallied_run {events : List Event} (h : Tallied base caught hindered o)
    (hrun : o.run? events = some o') (hposted : ∀ p ∈ events.flatMap Event.posted, p.Announces)
    (halone : ¬o.Meddled events)
    (hsame : o.scene.session.live = false ∨ o'.scene.session.live = true) :
    Tallied base caught (hindered ∨ o.Hindered events) o' := by
  induction events generalizing o hindered with
  | nil =>
    cases hrun
    exact h.mono .inl
  | cons e rest ih =>
    obtain ⟨o₁, hstep, hrest⟩ := Option.bind_eq_some_iff.mp hrun
    rw [List.flatMap_cons] at hposted
    -- A session that lives at the end has lived all the time.
    have hfirst : o.scene.session.live = false ∨ o₁.scene.session.live = true := by
      refine hsame.imp id fun hlive => ?_
      cases hlive₁ : o₁.scene.session.live with
      | true => rfl
      | false => exact (over_run hlive₁ hrest).1.symm.trans hlive
    have hrestSame : o₁.scene.session.live = false ∨ o'.scene.session.live = true :=
      hsame.imp (fun hdead => (over_step hdead hstep).1) id
    have h₁ := tallied_step h hstep (fun p hp => hposted p (List.mem_append_left _ hp))
      (fun hmeddles => halone (.inl hmeddles)) hfirst
    refine (ih h₁ hrest (fun p hp => hposted p (List.mem_append_right _ hp))
      (fun hmeddled => halone (.inr ⟨o₁, hstep, hmeddled⟩)) hrestSame).mono fun hhindered => ?_
    rcases hhindered with (hearlier | hnow) | hlater
    · exact .inl hearlier
    · exact .inr (.inl hnow)
    · exact .inr (.inr ⟨o₁, hstep, hlater⟩)

/-- Before the session is killed, as many frames are counted as are complete on the wire. After that the
count is one behind for as long as there is a frame on the wire, now complete, that was in progress when the
session was killed: if sending stops unhindered, the count is right exactly if none was. -/
theorem frames_counted_of_killed {linger : Duration} {chunk : Nat} {scene : Scene}
    {before after : List Event} {o₁ o₂ : Outlet}
    (hpackets : ∀ p ∈ scene.session.outbound.waiting ++ (before ++ after).flatMap Event.posted,
      p.Announces)
    (hbefore : (start linger chunk scene).run? before = some o₁)
    (hlive : o₁.scene.session.live = true) (hafter : o₁.run? (.kill :: after) = some o₂)
    (halone₁ : ¬(start linger chunk scene).Meddled before) (halone₂ : ¬o₁.Meddled (.kill :: after)) :
    counted o₁.scene = counted scene + Frame.completed o₁.outgoing ∧
      (counted o₂.scene = counted scene + Frame.completed o₂.outgoing ∨
        o₁.sender.writer.isIdle = false ∧
          counted o₂.scene + 1 = counted scene + Frame.completed o₂.outgoing) ∧
      (¬(start linger chunk scene).Hindered before → ¬o₁.Hindered (.kill :: after) →
        o₂.sender.isStopped = true →
        (counted o₂.scene = counted scene + Frame.completed o₂.outgoing ↔
          o₁.sender.writer.isIdle = true)) := by
  rw [List.flatMap_append] at hpackets
  -- First the account up to the kill: nothing has been caught yet.
  have h₁ : Tallied (counted scene) false (False ∨ (start linger chunk scene).Hindered before) o₁ :=
    tallied_run (tallied_start linger chunk fun p hp => hpackets p (List.mem_append_left _ hp)) hbefore
      (fun p hp => hpackets p (List.mem_append_right _ (List.mem_append_left _ hp))) halone₁ (.inr hlive)
  obtain ⟨killed, hkill, hrest⟩ := Option.bind_eq_some_iff.mp hafter
  cases hkill
  obtain ⟨owed, hbalance, howes⟩ := h₁.account
  rw [hlive] at howes
  -- The kill fixes whether the session is caught within a frame.
  have hkilled : Tallied (counted scene) (!o₁.sender.writer.isIdle)
      (False ∨ (start linger chunk scene).Hindered before) (o₁.withSession o₁.scene.session.kill) :=
    ⟨h₁.sound, h₁.announced, owed, hbalance, howes.kill h₁.sound⟩
  -- Then the account from the kill on, with the same base.
  have h₂ := tallied_run hkilled hrest
    (fun p hp => hpackets p (List.mem_append_right _ (List.mem_append_right _ hp)))
    (fun hmeddled => halone₂ (.inr ⟨_, rfl, hmeddled⟩)) (.inl rfl)
  obtain ⟨owed₂, hbalance₂, howes₂⟩ := h₂.account
  have hwire₁ := hbalance.completed_eq
  have hwire₂ := hbalance₂.completed_eq
  refine ⟨?_, ?_, fun hfree₁ hfree₂ hstopped => ?_⟩
  · rcases howes.nothing_or_one with rfl | ⟨hdead, -⟩
    · omega
    · cases hdead
  · rcases howes₂.nothing_or_one with rfl | ⟨-, hcaught, rfl⟩
    · exact .inl (by omega)
    · exact .inr ⟨by simpa using hcaught, by omega⟩
  · have hfree : ¬((False ∨ (start linger chunk scene).Hindered before) ∨
        (o₁.withSession o₁.scene.session.kill).Hindered after) := by
      rintro ((hnever | hearlier) | hlater)
      · exact hnever
      · exact hfree₁ hearlier
      · exact hfree₂ (.inr ⟨_, rfl, hlater⟩)
    rw [howes₂.of_isStopped hstopped hfree] at hwire₂
    cases hidle : o₁.sender.writer.isIdle with
    | true =>
      rw [hidle] at hwire₂
      exact iff_of_true ((Int.add_zero _).symm.trans hwire₂) rfl
    | false =>
      rw [hidle] at hwire₂
      have hbehind : counted o₂.scene + 1 = counted scene + Frame.completed o₂.outgoing := hwire₂
      exact iff_of_false (by omega) Bool.noConfusion

/-- Nobody meddles in a course of events in which nothing happens aside. -/
private theorem not_meddled {events : List Event} (h : ∀ scene, .aside scene ∉ events) (o : Outlet) :
    ¬o.Meddled events := by
  induction events generalizing o with
  | nil => exact id
  | cons e rest ih =>
    rintro (hnow | ⟨next, -, hlater⟩)
    · cases e with
      | aside scene => exact h scene List.mem_cons_self
      | _ => exact hnow
    · exact ih (fun scene hscene => h scene (List.mem_cons_of_mem e hscene)) next hlater

/-- Killed between two frames, sending goes on with the farewell, and both frames are counted. -/
theorem frames_counted_of_killed_between_frames :
    let before : List Event := [.post .connectionCheck, .send (.accept 9), .send (.accept 9),
      .send (.accept 9), .send (.accept 9), .requestFarewell .manualShutdown]
    let after : List Event := [.send (.accept 9), .send (.accept 9), .send (.accept 9), .send (.accept 9),
      .send (.accept 9)]
    ∃ o₁ o₂ : Outlet, (start ⟨1000⟩ 5 {}).run? before = some o₁ ∧ o₁.run? (.kill :: after) = some o₂ ∧
      o₂.sender.isStopped = true ∧ counted o₂.scene = Frame.completed o₂.outgoing := by
  intro before after
  obtain ⟨-, -, hcount⟩ := @frames_counted_of_killed ⟨1000⟩ 5 {} before after _ _
    (fun p hp => List.mem_singleton.mp hp ▸ rfl) rfl rfl rfl (not_meddled (by simp [before]) _)
    (not_meddled (by simp [after]) _)
  have hall := (hcount (not_hindered_of_isPrompt rfl _) (not_hindered_of_isPrompt rfl _) rfl).mpr rfl
  exact ⟨_, _, rfl, rfl, rfl, hall.trans (Int.zero_add _)⟩

/-- Killed when three bytes of a frame are written, sending goes on with the rest of it and the farewell.
Two frames are on the wire, and one is counted. -/
theorem frame_in_progress_uncounted :
    let before : List Event := [.post .connectionCheck, .send (.accept 9), .send (.accept 3),
      .requestFarewell .manualShutdown]
    let after : List Event := [.send (.accept 9), .send (.accept 9), .send (.accept 9), .send (.accept 9),
      .send (.accept 9), .send (.accept 9)]
    ∃ o₁ o₂ : Outlet, (start ⟨1000⟩ 5 {}).run? before = some o₁ ∧ o₁.run? (.kill :: after) = some o₂ ∧
      ¬(start ⟨1000⟩ 5 {}).Hindered before ∧ ¬o₁.Hindered (.kill :: after) ∧
      o₂.sender.isStopped = true ∧ counted o₂.scene = 1 ∧ Frame.completed o₂.outgoing = 2 := by
  refine ⟨_, _, rfl, rfl, not_hindered_of_isPrompt rfl _, not_hindered_of_isPrompt rfl _, rfl, rfl, ?_⟩
  refine @Frame.completed_eq [.connectionCheck, .suspend .manualShutdown] [] [] (fun p hp => ?_) .none
  rcases List.mem_cons.mp hp with rfl | hp
  · exact ⟨rfl, _, rfl⟩
  · exact List.mem_singleton.mp hp ▸ ⟨rfl, _, rfl⟩

end

end Outlet

end Connection

end Depot
