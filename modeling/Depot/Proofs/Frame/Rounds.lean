import Depot.Frame.Rounds
import Depot.Proofs.Frame.Chunks

/-!
# A reader always lacks something

The part in progress is never complete between two rounds: a header that has come in is looked at in the
round in which its last byte comes, and so is a payload, and a header that announces nothing is a packet
by itself. So a reader is `Lacking` at all times, and nothing more is needed for a round to be defined. It
takes a byte at least then, so there are no more rounds than bytes.

## Key results

- `complete?_eq`, `lacking_complete`: what a part that has come in whole comes to
- `exists_round`: what a round comes to, and that it comes to something
- `rounds?_eq_feed`: the loop is `feed`, and as many rounds as bytes are enough
- `Reached.lacking`: all states that a reader can be in
- `reader_never_slips`: all of it
-/

namespace Depot.Frame.Reader

/-- A reader that lacks a byte at least of the part in progress, which is not longer than allowed. -/
structure Lacking (limit : Nat) (r : Reader) : Prop where
  maxPayload_eq : r.maxPayload = limit
  length_lt : r.buffer.length < r.phase.target
  size_le : ∀ h, r.phase = .payload h → h.size.toNat ≤ limit

/-- The states that a reader can be in: between two calls, and between two rounds of one. -/
inductive Reached (limit : Nat) : Reader → Prop
  | new : Reached limit (.new limit)
  | call {r : Reader} (c : Call) (h : Reached limit r) : Reached limit (r.after c)
  | round {r : Reader} {chunk : List UInt8} {round : Round} (h : Reached limit r)
      (hround : r.round? chunk = .ok round) : Reached limit round.reader

section

variable {limit : Nat} {r : Reader}

theorem lacking_reset (h : r.maxPayload = limit) : r.reset.Lacking limit :=
  ⟨h, show 0 < 11 by decide, fun _ hphase => by cases hphase⟩

/-! ### Parts that have come in -/

/-- Whatever is done with a part that has come in whole is defined. -/
theorem complete?_eq (hfull : r.buffer.length = r.phase.target) : r.complete? = .ok r.complete := by
  cases hphase : r.phase with
  | payload header =>
    have hannounced : header.size.toNat = r.buffer.length := by
      rw [hfull, hphase]
      rfl
    simp only [complete?, complete, hphase, emit?, if_pos hannounced]
    rfl
  | header =>
    have hlength : r.buffer.length = Header.length := by
      rw [hfull, hphase]
      rfl
    simp only [complete?, complete, hphase, header?, if_pos hlength]
    cases Header.decode r.buffer with
    | error fault => rfl
    | ok header =>
      simp only
      split
      · rfl
      · split
        · next hzero =>
          -- Nothing is announced, and nothing is kept.
          rw [emit?, if_pos (by rw [hzero]; rfl)]
          rfl
        · rfl

/-- Behind a part a reader lacks the next one, and the packet that is complete is as long as its header
says. -/
theorem lacking_complete {packet : Option Packet} {next : Reader} (hlimit : r.maxPayload = limit)
    (hfull : r.buffer.length = r.phase.target) (h : r.complete = .ok (packet, next)) :
    next.Lacking limit ∧ ∀ p ∈ packet, p.header.size.toNat = p.payload.length := by
  -- A payload is complete with its packet. A header is followed by a payload, unless it announces none.
  unfold complete at h
  split at h
  · next header hphase =>
    rw [hphase] at hfull
    cases h
    refine ⟨lacking_reset hlimit, fun p hp => ?_⟩
    cases hp
    exact hfull.symm
  · split at h
    · cases h
    · next header hdecode =>
      split at h
      · cases h
      · next hsize =>
        split at h
        · next hzero =>
          cases h
          refine ⟨lacking_reset hlimit, fun p hp => ?_⟩
          cases hp
          show header.size.toNat = 0
          rw [hzero]
          rfl
        · next hpos =>
          cases h
          refine ⟨⟨hlimit, ?_, fun header' hphase => ?_⟩, fun p hp => by cases hp⟩
          · exact Nat.pos_of_ne_zero fun hzero => hpos (UInt32.toNat_inj.mp hzero)
          · cases hphase
            omega

/-! ### Rounds -/

/-- What a round leaves behind: a reader that lacks something, and at most a packet with the payload that
its header announces. -/
structure Leaves (limit : Nat) (round : Round) : Prop where
  lacking : round.reader.Lacking limit
  announced : ∀ p ∈ round.packet, p.header.size.toNat = p.payload.length

/-- What a round comes to, as the beginning of what is made of a chunk. -/
def intake (round : Round) : Intake :=
  { packets := round.packet.toList, reader := round.reader, fault := round.fault }

/-- A round moves the bytes that are lacking, or all that are there. -/
private theorem round?_cons {b : UInt8} {more : List UInt8} {lacked : Nat}
    (hlt : r.buffer.length < r.phase.target) (hlacked : r.wanted = lacked + 1) :
    r.round? (b :: more) = r.absorb? (b :: more.take lacked) (more.drop lacked) := by
  have htake : (b :: more).take (min (lacked + 1) (b :: more).length) = b :: more.take lacked := by
    rw [← List.take_eq_take_min, List.take_succ_cons]
  have hdrop : (b :: more).drop (min (lacked + 1) (b :: more).length) = more.drop lacked := by
    rw [← List.drop_eq_drop_min, List.drop_succ_cons]
  have hcut : cut? (b :: more) (min (lacked + 1) (b :: more).length) =
      .ok (b :: more.take lacked, more.drop lacked) := by
    rw [cut?, if_neg (Nat.not_lt.mpr (Nat.min_le_right _ _)), List.splitAt_eq, htake, hdrop]
  rw [round?, wanted?, if_neg (by omega), hlacked]
  simp only [hcut]

/-- A round comes to something: it takes a byte at least, and does with the chunk what `feed` begins
with. -/
theorem exists_round {chunk : List UInt8} (h : r.Lacking limit) (hne : chunk ≠ []) :
    ∃ round, r.round? chunk = .ok round ∧ round.rest.length < chunk.length ∧ Leaves limit round ∧
      r.feed chunk = (intake round).andThen (·.feed round.rest) := by
  obtain ⟨b, more, rfl⟩ := List.exists_cons_of_ne_nil hne
  have hlt := h.length_lt
  obtain ⟨lacked, hlacked⟩ : ∃ lacked, r.wanted = lacked + 1 := ⟨r.wanted - 1, by
    simp only [wanted]; omega⟩
  have hless : (more.drop lacked).length < (b :: more).length := by
    rw [List.length_drop, List.length_cons]
    omega
  rw [round?_cons hlt hlacked, feed]
  simp only [hlacked, Nat.add_sub_cancel, absorb?]
  by_cases hfull : (r.buffer ++ b :: more.take lacked).length = r.phase.target
  · simp only [hfull, ↓reduceIte, @complete?_eq { r with buffer := r.buffer ++ b :: more.take lacked } hfull]
    cases hcomplete : ({ r with buffer := r.buffer ++ b :: more.take lacked } : Reader).complete with
    | error fault =>
      exact ⟨_, rfl, hless, ⟨lacking_reset h.maxPayload_eq, fun p hp => absurd hp (Option.not_mem_none p)⟩,
        rfl⟩
    | ok done =>
      obtain ⟨packet, next⟩ := done
      obtain ⟨hlacking, hannounced⟩ :=
        @lacking_complete limit { r with buffer := r.buffer ++ b :: more.take lacked } packet next
          h.maxPayload_eq hfull hcomplete
      exact ⟨_, rfl, hless, ⟨hlacking, hannounced⟩, rfl⟩
  · simp only [hfull, ↓reduceIte]
    refine ⟨_, rfl, hless, ⟨⟨h.maxPayload_eq, ?_, h.size_le⟩, fun p hp => absurd hp (Option.not_mem_none p)⟩,
      rfl⟩
    -- Not more than what is lacking was moved.
    have hlength := List.length_take_le lacked more
    simp only [wanted] at hlacked
    simp only [List.length_append, List.length_cons] at hfull ⊢
    omega

/-- The loop does what `feed` does, without a slip, and in no more rounds than there are bytes. -/
theorem rounds?_eq_feed {chunk : List UInt8} {rounds : Nat} (h : r.Lacking limit)
    (hrounds : chunk.length ≤ rounds) : r.rounds? chunk rounds = .ok (r.feed chunk) := by
  -- Every round leaves fewer bytes, so there are rounds enough.
  induction rounds generalizing r chunk with
  | zero =>
    cases List.length_eq_zero_iff.mp (Nat.le_zero.mp hrounds)
    rw [feed_nil]
    rfl
  | succ rounds ih =>
    by_cases hne : chunk = []
    · cases hne
      rw [feed_nil]
      rfl
    · obtain ⟨round, hround, hless, hleaves, hfeed⟩ := exists_round h hne
      have hbusy : chunk.isEmpty = false := List.isEmpty_eq_false_iff.mpr hne
      simp only [rounds?, hbusy, Bool.false_eq_true, ↓reduceIte, hround, hfeed]
      cases hfault : round.fault with
      | some fault =>
        rw [Intake.andThen_of_fault (by rw [intake, hfault]; rfl), intake, hfault]
        rfl
      | none =>
        have hrest := ih hleaves.lacking (Nat.le_of_lt_succ (Nat.lt_of_lt_of_le hless hrounds))
        rw [Intake.andThen_of_none hfault, hrest]
        simp only [intake, hfault]
        rfl

/-- What a chunk leaves behind, and what it completes. -/
theorem lacking_feed (h : r.Lacking limit) (chunk : List UInt8) :
    (r.feed chunk).reader.Lacking limit ∧
      ∀ p ∈ (r.feed chunk).packets, p.header.size.toNat = p.payload.length := by
  -- By the length of the chunk: every round takes a byte of it at least.
  induction hn : chunk.length using Nat.strongRecOn generalizing r chunk with
  | ind n ih =>
    by_cases hne : chunk = []
    · rw [hne, feed_nil]
      exact ⟨h, List.forall_mem_nil _⟩
    · obtain ⟨round, -, hless, hleaves, hfeed⟩ := exists_round h hne
      have hpacket : ∀ p ∈ (intake round).packets, p.header.size.toNat = p.payload.length :=
        fun p hp => hleaves.announced p (Option.mem_toList.mp hp)
      rw [hfeed]
      cases hfault : round.fault with
      | some fault =>
        rw [Intake.andThen_of_fault (by rw [intake, hfault]; rfl)]
        exact ⟨hleaves.lacking, hpacket⟩
      | none =>
        obtain ⟨hreader, hpackets⟩ := ih _ (hn ▸ hless) hleaves.lacking round.rest rfl
        rw [Intake.andThen_of_none hfault]
        refine ⟨hreader, fun p hp => ?_⟩
        rcases List.mem_append.mp hp with hp | hp
        · exact hpacket p hp
        · exact hpackets p hp

/-! ### All states -/

/-- A round of nothing is not taken, but it would change nothing. -/
private theorem round?_nil (h : r.Lacking limit) :
    r.round? [] = .ok { packet := none, reader := r, fault := none, rest := [] } := by
  have hlt := h.length_lt
  rw [round?, wanted?, if_neg (by omega)]
  simp only [cut?, List.length_nil, Nat.min_zero, Nat.lt_irrefl, ↓reduceIte, List.splitAt_eq, List.take_nil,
    List.drop_nil, absorb?, List.append_nil, if_neg (Nat.ne_of_lt hlt)]

/-- Whatever a reader has been through, it lacks something. -/
theorem Reached.lacking (h : Reached limit r) : r.Lacking limit := by
  -- Along what the reader has been through.
  induction h with
  | new => exact lacking_reset (r := .new limit) rfl
  | call c _ ih =>
    cases c with
    | feed chunk => exact (lacking_feed ih chunk).1
    | finish => exact ih
    | reset => exact lacking_reset ih.maxPayload_eq
  | @round r chunk round _ hround ih =>
    by_cases hne : chunk = []
    · rw [hne, round?_nil ih] at hround
      cases hround
      exact ih
    · obtain ⟨round', hround', -, hleaves, -⟩ := exists_round ih hne
      rw [hround] at hround'
      cases hround'
      exact hleaves.lacking

/-- A reader lacks something at all times, whatever it has been through: fewer bytes are kept than the
header or the payload in progress has, which is not empty and not longer than allowed. So every round is
defined and takes a byte at least, no chunk needs more rounds than it has bytes, and what they come to is
what `feed` says; and every packet has the payload that its header announces. -/
theorem reader_never_slips (h : Reached limit r) :
    r.buffer.length < r.phase.target ∧
    (r.phase = .header → r.buffer.length < 11) ∧
    (∀ header, r.phase = .payload header →
      0 < header.size.toNat ∧ header.size.toNat ≤ limit ∧ r.buffer.length < header.size.toNat) ∧
    ∀ chunk,
      (chunk ≠ [] → ∃ round, r.round? chunk = .ok round ∧ round.rest.length < chunk.length) ∧
      r.rounds? chunk chunk.length = .ok (r.feed chunk) ∧
      ∀ p ∈ (r.feed chunk).packets, p.header.size.toNat = p.payload.length := by
  have hlacking := h.lacking
  have hlt := hlacking.length_lt
  refine ⟨hlt, fun hphase => ?_, fun header hphase => ?_, fun chunk => ⟨fun hne => ?_, ?_, ?_⟩⟩
  · rw [hphase] at hlt
    exact hlt
  · have hle := hlacking.size_le header hphase
    rw [hphase, Phase.target] at hlt
    exact ⟨by omega, hle, hlt⟩
  · obtain ⟨round, hround, hless, -⟩ := exists_round hlacking hne
    exact ⟨round, hround, hless⟩
  · exact rounds?_eq_feed hlacking (Nat.le_refl _)
  · exact (lacking_feed hlacking chunk).2

end

/-- A chunk with a frame without payload, a header and the first of two bytes that it announces leaves a
reader that lacks one byte, and takes it from the next chunk. -/
theorem reader_never_slips_within_a_payload :
    let announced := (Packet.new .file [7, 8]).header
    let chunk := (Packet.new .idRequest []).header.encode ++ announced.encode ++ [7]
    let r : Reader := { maxPayload := 4, phase := .payload announced, buffer := [7] }
    Reached 4 r ∧ (new 4).feed chunk = { packets := [.new .idRequest []], reader := r, fault := none } ∧
      r.buffer.length < announced.size.toNat ∧
      (∃ round, r.round? [8, 1] = .ok round ∧ round.packet = some (.new .file [7, 8]) ∧
        round.rest.length < 2) ∧
      r.rounds? [8, 1] 2 = .ok (r.feed [8, 1]) ∧
      ∀ p ∈ (r.feed [8, 1]).packets, p.header.size.toNat = p.payload.length := by
  intro announced chunk r
  have hfeed : (new 4).feed chunk = { packets := [.new .idRequest []], reader := r, fault := none } := by
    have hloop := rounds?_eq_feed (show Reached 4 (new 4) from .new).lacking (Nat.le_refl chunk.length)
    have hrun : (new 4).rounds? chunk chunk.length =
        .ok { packets := [.new .idRequest []], reader := r, fault := none } := by cbv
    exact Except.ok.inj (hloop.symm.trans hrun)
  have hreached : Reached 4 r := by
    have hcall := Reached.call (.feed chunk) (show Reached 4 (new 4) from .new)
    rw [after, hfeed] at hcall
    exact hcall
  obtain ⟨hlt, -, -, hchunk⟩ := reader_never_slips hreached
  obtain ⟨hround, hrounds, hannounced⟩ := hchunk [8, 1]
  obtain ⟨round, hround, hless⟩ := hround (by simp)
  exact ⟨hreached, hfeed, hlt, ⟨round, hround, by cases hround; rfl, hless⟩, hrounds, hannounced⟩

end Depot.Frame.Reader
