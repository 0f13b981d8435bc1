import Depot.Frame.Reader

/-!
# Chunks do not matter

A `Reader` takes in chunk after chunk, and where one chunk ends and the next begins says nothing about
the frames. The loop of `feed` moves as many bytes at a time as it can; `feed_cons` says that it might
as well move one, and from it follows all that is said here by induction on the bytes.

## Key results

- `feed_cons`: taking in a chunk is taking in its first byte and then the rest
- `feed_append`: taking in two chunks is taking in the second behind the first
- `feedAll_eq_feed`: taking in chunks one after another is taking them in as one
-/

namespace Depot.Frame

/-- Goes on after a chunk with whatever comes next, unless there was a fault. -/
def Intake.andThen (i : Intake) (f : Reader → Intake) : Intake :=
  if i.fault.isSome then i
  else
    { packets := i.packets ++ (f i.reader).packets
      reader := (f i.reader).reader
      fault := (f i.reader).fault }

namespace Intake

/-- A chunk that completes nothing leaves everything to what comes next. -/
theorem andThen_pure (r : Reader) (f : Reader → Intake) :
    Intake.andThen { packets := [], reader := r, fault := none } f = f r := rfl

/-- Behind a fault nothing is taken in. -/
theorem andThen_of_fault {i : Intake} (h : i.fault.isSome) (f : Reader → Intake) :
    i.andThen f = i := by
  rw [andThen, if_pos h]

/-- Without a fault what comes next is added. -/
theorem andThen_of_none {i : Intake} (h : i.fault = none) (f : Reader → Intake) :
    i.andThen f = { f i.reader with packets := i.packets ++ (f i.reader).packets } := by
  rw [andThen, h]
  rfl

/-- It does not matter what is taken together. -/
theorem andThen_assoc (i : Intake) (f g : Reader → Intake) :
    (i.andThen f).andThen g = i.andThen fun r => (f r).andThen g := by
  by_cases hi : i.fault.isSome
  · rw [andThen_of_fault hi, andThen_of_fault hi, andThen_of_fault hi]
  · by_cases hf : (f i.reader).fault.isSome
    · simp only [andThen, hi, hf, ↓reduceIte, Bool.false_eq_true]
    · simp only [andThen, hi, hf, ↓reduceIte, Bool.false_eq_true, List.append_assoc]

end Intake

namespace Reader

@[simp] theorem feed_nil (r : Reader) : r.feed [] = { packets := [], reader := r, fault := none } := by
  rw [feed]

/-- A byte that does not complete the part in progress is only kept. -/
private theorem feed_byte_of_wanted (r : Reader) (b : UInt8) (h : 2 ≤ r.wanted) :
    r.feed [b] =
      { packets := [], reader := { r with buffer := r.buffer ++ [b] }, fault := none } := by
  have hlen : (r.buffer ++ [b]).length ≠ r.phase.target := by
    simp only [wanted, List.length_append, List.length_singleton] at h ⊢; omega
  rw [feed]
  simp only [List.take_nil, List.drop_nil, hlen, ↓reduceIte, feed_nil]

/-- A reader that lacks more than the first byte of a chunk may take that byte in beforehand. -/
private theorem feed_cons_of_wanted (r : Reader) (b : UInt8) (rest : List UInt8)
    (h : 2 ≤ r.wanted) :
    r.feed (b :: rest) = { r with buffer := r.buffer ++ [b] }.feed rest := by
  cases rest with
  | nil => rw [feed_byte_of_wanted r b h, feed_nil]
  | cons c rest =>
    -- One byte less is lacking, and the bytes moved in the first round come in two parts.
    have hlack : ({ r with buffer := r.buffer ++ [b] } : Reader).wanted = r.wanted - 1 := by
      simp only [wanted, List.length_append, List.length_singleton]; omega
    obtain ⟨k, hk⟩ : ∃ k, r.wanted - 1 = k + 1 := ⟨r.wanted - 2, by omega⟩
    rw [feed, feed]
    simp only [hlack, hk, List.take_succ_cons, List.drop_succ_cons, Nat.add_sub_cancel,
      List.append_assoc, List.singleton_append]

/-- Taking in a chunk is taking in its first byte and then the rest. -/
theorem feed_cons (r : Reader) (b : UInt8) (rest : List UInt8) :
    r.feed (b :: rest) = (r.feed [b]).andThen (·.feed rest) := by
  by_cases h : 2 ≤ r.wanted
  · rw [feed_cons_of_wanted r b rest h, feed_byte_of_wanted r b h, Intake.andThen_pure]
  · -- Exactly one byte is moved in the first round, whatever else is there.
    have htaken : r.wanted - 1 = 0 := by omega
    rw [feed, feed]
    simp only [htaken, List.take_zero, List.drop_zero]
    split
    · split
      · rfl
      · simp only [feed_nil, List.append_nil]
        rfl
    · rw [feed_nil, Intake.andThen_pure]

/-- Taking in two chunks at once is taking in one behind the other. -/
theorem feed_append (r : Reader) (a b : List UInt8) :
    r.feed (a ++ b) = (r.feed a).andThen (·.feed b) := by
  induction a generalizing r with
  | nil => rw [List.nil_append, feed_nil, Intake.andThen_pure]
  | cons x a ih =>
    rw [List.cons_append, feed_cons, feed_cons r x a, Intake.andThen_assoc]
    congr 1
    funext r'
    exact ih r'

theorem feedAll_cons (r : Reader) (chunk : List UInt8) (chunks : List (List UInt8)) :
    r.feedAll (chunk :: chunks) = (r.feed chunk).andThen (·.feedAll chunks) := rfl

/-- If no chunk has a fault, neither has the first. -/
theorem fault_of_feedAll_cons {r : Reader} {chunk : List UInt8} {chunks : List (List UInt8)}
    (h : (r.feedAll (chunk :: chunks)).fault = none) : (r.feed chunk).fault = none := by
  cases hfault : (r.feed chunk).fault with
  | none => rfl
  | some fault =>
    rw [feedAll_cons, Intake.andThen_of_fault (by rw [hfault]; rfl), hfault] at h
    cases h

/-- The fault of a stream is that of one of its chunks, and the chunks before have none. -/
theorem exists_faulty_chunk {r : Reader} {chunks : List (List UInt8)} {fault : Fault}
    (h : (r.feedAll chunks).fault = some fault) :
    ∃ before chunk after, chunks = before ++ chunk :: after ∧ (r.feedAll before).fault = none ∧
      ((r.feedAll before).reader.feed chunk).fault = some fault := by
  -- Chunk by chunk, up to the first that has a fault.
  induction chunks generalizing r with
  | nil => cases h
  | cons chunk chunks ih =>
    rw [feedAll_cons] at h
    cases hfirst : (r.feed chunk).fault with
    | some found =>
      rw [Intake.andThen_of_fault (by rw [hfirst]; rfl), hfirst] at h
      cases h
      exact ⟨[], chunk, chunks, rfl, rfl, hfirst⟩
    | none =>
      rw [Intake.andThen_of_none hfirst] at h
      obtain ⟨before, bad, after, rfl, hbefore, hbad⟩ := ih h
      refine ⟨chunk :: before, bad, after, rfl, ?_, ?_⟩
      · rw [feedAll_cons, Intake.andThen_of_none hfirst, hbefore]
      · rw [feedAll_cons, Intake.andThen_of_none hfirst, hbad]

/-- Taking in chunks one after another is taking them in as one. -/
theorem feedAll_eq_feed (r : Reader) (chunks : List (List UInt8)) :
    r.feedAll chunks = r.feed chunks.flatten := by
  induction chunks generalizing r with
  | nil => rw [List.flatten_nil, feed_nil, feedAll]
  | cons chunk chunks ih =>
    rw [List.flatten_cons, feed_append, feedAll_cons]
    congr 1
    funext r'
    exact ih r'

/-- Whatever chunks a stream comes in, the packets, the fault that stops it and the state it leaves are
those of the stream as a whole, and so is what is said of its end. -/
theorem feedAll_agrees_with_feed (maxPayload : Nat) (chunks : List (List UInt8)) :
    let cut : Intake := (new maxPayload).feedAll chunks
    let whole : Intake := (new maxPayload).feed chunks.flatten
    cut.packets = whole.packets ∧ cut.fault = whole.fault ∧ cut.reader = whole.reader ∧
      cut.reader.finish = whole.reader.finish ∧ cut.reader.isIdle = whole.reader.isIdle := by
  rw [feedAll_eq_feed]
  exact ⟨rfl, rfl, rfl, rfl, rfl⟩

end Reader

end Depot.Frame
