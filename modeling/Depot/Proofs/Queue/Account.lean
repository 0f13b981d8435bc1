import Depot.Proofs.Queue.Counting
import Depot.Queue.Ends

/-!
# The account of a queue

Whatever is done with the ends of a queue, in whatever order and through whichever of its senders: what
was received is what was accepted, in that order, and the count says how much is still to come. An item is
refused only when the queue was closed or nobody is left to receive it, and what was accepted before goes
on to be received. A receiver is told of the end only when nothing waits and nothing can come.

## Key results

- `Call`, `answer`: what can be done with the ends of a queue, and what comes of it
- `Kept`: what is true of a queue after all that was done with it
- `kept_answer`, `kept_run`: one call preserves it, and so do all of them
- `account_in_order`: the account of a queue
-/

namespace Depot.Queue.Ends

/-- What can be done with the ends of a queue. -/
inductive Call (α : Type)
  | send (sender : Nat) (item : α)
  | clone (sender : Nat)
  | drop (sender : Nat)
  /-- Asks for the first item, ready to wait for it. -/
  | receive
  /-- Asks for the first item without waiting. -/
  | tryReceive
  | close
  | dropReceiver
  deriving DecidableEq, Repr

/-- What comes of a call. -/
inductive Answer (α : Type)
  /-- There is no such end. -/
  | absent
  | done
  | accepted
  /-- The item comes back. -/
  | refused (item : α)
  | item (a : α)
  /-- Nothing is there for somebody who does not wait. -/
  | nothing
  /-- Nothing is there yet for somebody who waits. -/
  | pending
  /-- Nothing is there, and nothing will come. -/
  | ended
  deriving DecidableEq, Repr

variable {α : Type}

/-- The answer of an end that may not exist. -/
def answerOf (e : Ends α) : Option (Ends α) → Answer α × Ends α
  | none => (.absent, e)
  | some e' => (.done, e')

/-- What comes of a call, with the ends after it. -/
def answer (e : Ends α) : Call α → Answer α × Ends α
  | .send i a =>
      match e.send? i a with
      | none => (.absent, e)
      | some (.error b) => (.refused b, e)
      | some (.ok e') => (.accepted, e')
  | .clone i => e.answerOf (e.clone? i)
  | .drop i => e.answerOf (e.drop? i)
  | .receive =>
      match e.receive? with
      | none => (.absent, e)
      | some (.item a, e') => (.item a, e')
      | some (.pending, e') => (.pending, e')
      | some (.ended, e') => (.ended, e')
  | .tryReceive =>
      match e.tryReceive? with
      | none => (.absent, e)
      | some (none, e') => (.nothing, e')
      | some (some a, e') => (.item a, e')
  | .close => e.answerOf e.close?
  | .dropReceiver => e.answerOf e.dropReceiver?

/-- What was done with the ends of a queue, call by call. -/
abbrev Log (α : Type) := List (Call α × Answer α)

/-- The ends after some calls, with the log of them. -/
def run (start : Log α × Ends α) (calls : List (Call α)) : Log α × Ends α :=
  calls.foldl (fun state call =>
    (state.1 ++ [(call, (state.2.answer call).1)], (state.2.answer call).2)) start

/-- The item that a call put into the queue. -/
def accepted? : Call α × Answer α → Option α
  | (.send _ a, .accepted) => some a
  | _ => none

/-- The item that a call got out of the queue. -/
def received? : Call α × Answer α → Option α
  | (_, .item a) => some a
  | _ => none

/-- Whether a call closed the queue or ended its receiver. -/
def closes : Call α × Answer α → Bool
  | (.close, .done) => true
  | (.dropReceiver, .done) => true
  | _ => false

/-- The items that were accepted, in the order in which they were sent. -/
def accepted (log : Log α) : List α := log.filterMap accepted?

/-- The items that were received, in that order. -/
def received (log : Log α) : List α := log.filterMap received?

/-- Whether the queue was closed, or its receiver ended. -/
def wasClosed (log : Log α) : Bool := log.any closes

/-- One more entry adds the item that it accepted. -/
@[simp] theorem accepted_concat (log : Log α) (entry : Call α × Answer α) :
    accepted (log ++ [entry]) = accepted log ++ (accepted? entry).toList := by
  simp only [accepted, List.filterMap_append, List.filterMap_cons, List.filterMap_nil]
  cases accepted? entry <;> rfl

/-- One more entry adds the item that it received. -/
@[simp] theorem received_concat (log : Log α) (entry : Call α × Answer α) :
    received (log ++ [entry]) = received log ++ (received? entry).toList := by
  simp only [received, List.filterMap_append, List.filterMap_cons, List.filterMap_nil]
  cases received? entry <;> rfl

/-- A queue was closed if it was before, or is by this entry. -/
@[simp] theorem wasClosed_concat (log : Log α) (entry : Call α × Answer α) :
    wasClosed (log ++ [entry]) = (wasClosed log || closes entry) := by
  simp [wasClosed]

/-- What is true of a queue after all that was done with it. -/
structure Kept (log : Log α) (e : Ends α) : Prop where
  order : received log <+: accepted log
  whole : e.hasReceiver = true → accepted log = received log ++ e.queue.waiting
  counted : e.queue.Counted
  closed_iff : e.queue.isClosed = true ↔ wasClosed log = true
  senders_eq : e.queue.senders = e.held.count true

section

variable {log : Log α} {e e' : Ends α}

/-- The receiver is held until it is gone. -/
theorem hasReceiver_iff : e.hasReceiver = true ↔ e.queue.receiver ≠ .gone := by simp [hasReceiver]

/-- A queue that listens has a receiver. -/
theorem hasReceiver_of_open (h : e.queue.isClosed = false) : e.hasReceiver = true := by
  rw [hasReceiver_iff]
  intro hgone
  simp [isClosed, hgone] at h

/-! ### One call -/

/-- A call that moves no item leaves what was accepted and received as it is. -/
theorem Kept.aside (h : Kept log e) {entry : Call α × Answer α} (haccepted : accepted? entry = none)
    (hreceived : received? entry = none) (hcloses : closes entry = false)
    (hreceiver : e'.queue.receiver = e.queue.receiver) (hwaiting : e'.queue.waiting = e.queue.waiting)
    (hcount : e'.queue.count = e.queue.count) (hsenders : e'.queue.senders = e'.held.count true) :
    Kept (log ++ [entry]) e' := by
  -- The four parts are read off one after another; none of them looks at anything but what is given to stay.
  have hhas : e'.hasReceiver = e.hasReceiver := by simp only [hasReceiver, hreceiver]
  have hclosed : e'.queue.isClosed = e.queue.isClosed := by simp only [isClosed, hreceiver]
  refine ⟨?_, fun hhere => ?_, fun hgone => ?_, ?_, hsenders⟩
  · simpa [haccepted, hreceived] using h.order
  · rw [hhas] at hhere
    simpa [haccepted, hreceived, hwaiting] using h.whole hhere
  · rw [hreceiver] at hgone
    rw [hcount, hwaiting, h.counted hgone]
  · simpa [hclosed, hcloses] using h.closed_iff

/-- A call that does nothing leaves the account as it is. -/
theorem Kept.still (h : Kept log e) {entry : Call α × Answer α} (haccepted : accepted? entry = none)
    (hreceived : received? entry = none) (hcloses : closes entry = false) : Kept (log ++ [entry]) e :=
  h.aside haccepted hreceived hcloses rfl rfl rfl h.senders_eq

/-- What comes of sending through a sender that is held. -/
theorem answer_send (e : Ends α) (i : Nat) (a : α) (h : e.hasSender i = true) :
    (e.queue.isClosed = true ∧ e.answer (.send i a) = (.refused a, e)) ∨
      ∃ q, e.queue.send a = .ok q ∧ e.answer (.send i a) = (.accepted, { e with queue := q }) := by
  cases hclosed : e.queue.isClosed with
  | true =>
    refine .inl ⟨rfl, ?_⟩
    simp [answer, send?, h, Queue.send, hclosed, Except.map]
  | false =>
    refine .inr ⟨_, by rw [Queue.send, if_neg (by simp [hclosed])], ?_⟩
    simp [answer, send?, h, Queue.send, hclosed, Except.map]

/-- A send that is accepted adds its item at the end. One that is refused does nothing. -/
theorem Kept.send (h : Kept log e) (i : Nat) (a : α) :
    Kept (log ++ [(.send i a, (e.answer (.send i a)).1)]) (e.answer (.send i a)).2 := by
  cases hheld : e.hasSender i with
  | false =>
    rw [answer, send?, hheld]
    exact h.still rfl rfl rfl
  | true =>
    rcases answer_send e i a hheld with ⟨hclosed, hanswer⟩ | ⟨q, hsend, hanswer⟩
    · rw [hanswer]
      exact h.still rfl rfl rfl
    · -- The item waits behind all others.
      have hwaiting := waiting_send hsend
      obtain ⟨hopen, hreceiver, hsenders⟩ := ends_send hsend
      have hwhole := h.whole (hasReceiver_of_open hopen)
      rw [hanswer]
      refine ⟨?_, fun _ => ?_, counted_send h.counted hsend, ?_, ?_⟩
      · have hprefix := h.order.trans (List.prefix_append (accepted log) [a])
        simpa [accepted?, received?] using hprefix
      · rw [accepted_concat, received_concat, hwhole, hwaiting]
        simp [accepted?, received?]
      · rw [wasClosed_concat, show q.isClosed = e.queue.isClosed by simp only [isClosed, hreceiver]]
        simpa [closes] using h.closed_iff
      · rw [show q.senders = e.queue.senders from hsenders]
        exact h.senders_eq

/-- A clone is one more sender. -/
theorem Kept.clone (h : Kept log e) (i : Nat) :
    Kept (log ++ [(.clone i, (e.answer (.clone i)).1)]) (e.answer (.clone i)).2 := by
  rw [answer, clone?]
  split
  · refine h.aside rfl rfl rfl rfl rfl rfl ?_
    simp [answerOf, addSender, h.senders_eq]
  · exact h.still rfl rfl rfl

/-- A sender that is dropped is one less. -/
theorem Kept.drop (h : Kept log e) (i : Nat) :
    Kept (log ++ [(.drop i, (e.answer (.drop i)).1)]) (e.answer (.drop i)).2 := by
  rw [answer, drop?]
  split
  · next hheld =>
    refine h.aside rfl rfl rfl rfl rfl rfl ?_
    -- One of the senders that are held is not held any more.
    obtain ⟨hi, hget⟩ : ∃ hi : i < e.held.length, e.held[i] = true := by
      rw [hasSender] at hheld
      by_cases hi : i < e.held.length
      · exact ⟨hi, by simpa [List.getElem?_eq_getElem hi] using hheld⟩
      · simp [List.getElem?_eq_none (Nat.not_lt.mp hi)] at hheld
    simp [answerOf, dropSender, h.senders_eq, List.count_set hi, hget]
  · exact h.still rfl rfl rfl

/-- An item that is received was the first to wait. -/
theorem Kept.taken (h : Kept log e) (hhere : e.hasReceiver = true) {call : Call α} {a : α} {q : Queue α}
    (htry : e.queue.tryReceive = some (a, q)) (haccepted : accepted? (call, .item a) = none)
    (hcloses : closes (call, .item a) = false) :
    Kept (log ++ [(call, .item a)]) { e with queue := q } := by
  have hwaiting := waiting_tryReceive htry
  obtain ⟨hreceiver, hsenders⟩ := ends_tryReceive htry
  -- What waited first is now what was received last.
  have hwhole : accepted (log ++ [(call, .item a)]) =
      received (log ++ [(call, .item a)]) ++ q.waiting := by
    rw [accepted_concat, received_concat, h.whole hhere, hwaiting, haccepted]
    simp [received?]
  refine ⟨⟨q.waiting, hwhole.symm⟩, fun _ => hwhole, counted_tryReceive h.counted htry, ?_, ?_⟩
  · rw [wasClosed_concat, show q.isClosed = e.queue.isClosed by simp only [isClosed, hreceiver]]
    simpa [hcloses] using h.closed_iff
  · rw [show q.senders = e.queue.senders from hsenders]
    exact h.senders_eq

/-- Receiving without waiting takes the first item, if there is one. -/
theorem Kept.tryReceive (h : Kept log e) :
    Kept (log ++ [(.tryReceive, (e.answer .tryReceive).1)]) (e.answer .tryReceive).2 := by
  rw [answer, tryReceive?]
  cases hhere : e.hasReceiver with
  | false => exact h.still rfl rfl rfl
  | true =>
    cases htry : e.queue.tryReceive with
    | none => exact h.still rfl rfl rfl
    | some taken => exact h.taken hhere htry rfl rfl

/-- So does receiving with the readiness to wait. -/
theorem Kept.receive (h : Kept log e) :
    Kept (log ++ [(.receive, (e.answer .receive).1)]) (e.answer .receive).2 := by
  rw [answer, receive?, Queue.receive]
  cases hhere : e.hasReceiver with
  | false => exact h.still rfl rfl rfl
  | true =>
    cases htry : e.queue.tryReceive with
    | none =>
      -- Whether it waits or ends, nothing is taken.
      cases hend : e.queue.isClosed || e.queue.senders == 0 with
      | false => exact h.still rfl rfl rfl
      | true => exact h.still rfl rfl rfl
    | some taken => exact h.taken hhere htry rfl rfl

/-- Closing moves no item, and from then on the queue is closed. -/
theorem Kept.close (h : Kept log e) :
    Kept (log ++ [(.close, (e.answer .close).1)]) (e.answer .close).2 := by
  rw [answer, close?]
  cases hhere : e.hasReceiver with
  | false => exact h.still rfl rfl rfl
  | true =>
    have hclosed := isClosed_close e.queue
    have hsenders := (ends_close e.queue).2.1
    refine ⟨?_, fun _ => ?_, counted_close h.counted, ?_, ?_⟩
    · simpa [accepted?, received?, answerOf] using h.order
    · simpa [accepted?, received?, answerOf] using h.whole hhere
    · simp [answerOf, hclosed, closes]
    · simp only [answerOf, ↓reduceIte, hsenders]
      exact h.senders_eq

/-- When the receiver is gone nothing waits any more. What was accepted and not received is lost. -/
theorem Kept.dropReceiver (h : Kept log e) :
    Kept (log ++ [(.dropReceiver, (e.answer .dropReceiver).1)]) (e.answer .dropReceiver).2 := by
  rw [answer, dropReceiver?]
  cases hhere : e.hasReceiver with
  | false => exact h.still rfl rfl rfl
  | true =>
    refine ⟨?_, fun hgone => ?_, counted_dropReceiver e.queue, ?_, h.senders_eq⟩
    · simpa [accepted?, received?, answerOf] using h.order
    · simp [answerOf, hasReceiver, Queue.dropReceiver] at hgone
    · simp [answerOf, isClosed, Queue.dropReceiver, closes]

/-- Whatever is done with the ends, the account goes on to be right. -/
theorem kept_answer (h : Kept log e) (call : Call α) :
    Kept (log ++ [(call, (e.answer call).1)]) (e.answer call).2 := by
  cases call with
  | send i a => exact h.send i a
  | clone i => exact h.clone i
  | drop i => exact h.drop i
  | receive => exact h.receive
  | tryReceive => exact h.tryReceive
  | close => exact h.close
  | dropReceiver => exact h.dropReceiver

/-! ### All calls -/

/-- Nothing was accepted or received yet, and there is one sender. -/
theorem kept_start : Kept [] ({} : Ends α) := by
  refine ⟨List.prefix_rfl, fun _ => rfl, fun _ => rfl, ?_, rfl⟩
  simp [isClosed, wasClosed]

/-- Every call keeps the account, and so does every list of calls. -/
theorem kept_run {start : Log α × Ends α} (h : Kept start.1 start.2) (calls : List (Call α)) :
    Kept (run start calls).1 (run start calls).2 := by
  induction calls generalizing start with
  | nil => exact h
  | cons call rest ih => exact ih (kept_answer h call)

/-! ### What a receiver is told -/

/-- An item is got by taking the first that waits. -/
theorem tryReceive_of_item {call : Call α} {a : α} (h : e.answer call = (.item a, e')) :
    e.hasReceiver = true ∧ e.queue.tryReceive = some (a, e'.queue) := by
  -- Of all calls only two ever answer with an item.
  cases call with
  | send i b =>
    cases hheld : e.hasSender i with
    | false => simp [answer, send?, hheld] at h
    | true => rcases answer_send e i b hheld with ⟨-, hanswer⟩ | ⟨q, -, hanswer⟩ <;> simp [hanswer] at h
  | clone i => simp only [answer, clone?] at h; split at h <;> simp [answerOf] at h
  | drop i => simp only [answer, drop?] at h; split at h <;> simp [answerOf] at h
  | close => simp only [answer, close?] at h; split at h <;> simp [answerOf] at h
  | dropReceiver => simp only [answer, dropReceiver?] at h; split at h <;> simp [answerOf] at h
  | receive =>
    cases hhere : e.hasReceiver with
    | false => simp [answer, receive?, hhere] at h
    | true =>
      cases htry : e.queue.tryReceive with
      | none =>
        cases hend : e.queue.isClosed || e.queue.senders == 0 <;>
          simp [answer, receive?, Queue.receive, hhere, htry, hend] at h
      | some taken =>
        simp only [answer, receive?, Queue.receive, hhere, htry, ↓reduceIte, Prod.mk.injEq,
          Answer.item.injEq] at h
        obtain ⟨rfl, rfl⟩ := h
        exact ⟨rfl, rfl⟩
  | tryReceive =>
    cases hhere : e.hasReceiver with
    | false => simp [answer, tryReceive?, hhere] at h
    | true =>
      cases htry : e.queue.tryReceive with
      | none => simp [answer, tryReceive?, hhere, htry] at h
      | some taken =>
        simp only [answer, tryReceive?, hhere, htry, ↓reduceIte, Prod.mk.injEq, Answer.item.injEq] at h
        obtain ⟨rfl, rfl⟩ := h
        exact ⟨rfl, rfl⟩

/-- The answer to a receiver that is ready to wait. -/
theorem answer_receive (h : e.hasReceiver = true) :
    (∃ a q, e.queue.tryReceive = some (a, q) ∧ e.answer .receive = (.item a, { e with queue := q })) ∨
      e.queue.waiting = [] ∧ e.answer .receive =
        (if e.queue.isClosed = true ∨ e.queue.senders = 0 then .ended else .pending, e) := by
  -- Whether there is an item decides first. Only an empty queue asks whether one may still come.
  cases htry : e.queue.tryReceive with
  | some taken =>
    refine .inl ⟨taken.1, taken.2, rfl, ?_⟩
    simp [answer, receive?, Queue.receive, h, htry]
  | none =>
    refine .inr ⟨tryReceive_eq_none_iff.mp htry, ?_⟩
    by_cases hend : e.queue.isClosed = true ∨ e.queue.senders = 0
    · have hflag : (e.queue.isClosed || e.queue.senders == 0) = true := by simpa using hend
      simp [answer, receive?, Queue.receive, h, htry, hflag, hend]
    · have hflag : (e.queue.isClosed || e.queue.senders == 0) = false := by simpa using hend
      simp [answer, receive?, Queue.receive, h, htry, hflag, hend]

/-- A receiver that comes away with nothing finds the queue as it was, with nothing that waits. -/
theorem waiting_of_nothing (h : e.answer .tryReceive = (.nothing, e')) :
    e.hasReceiver = true ∧ e.queue.waiting = [] ∧ e' = e := by
  cases hhere : e.hasReceiver with
  | false => simp [answer, tryReceive?, hhere] at h
  | true =>
    cases htry : e.queue.tryReceive with
    | none =>
      simp only [answer, tryReceive?, hhere, htry, ↓reduceIte, Prod.mk.injEq, true_and] at h
      exact ⟨rfl, tryReceive_eq_none_iff.mp htry, h.symm⟩
    | some taken => simp [answer, tryReceive?, hhere, htry] at h

/-- The same of a receiver that is ready to wait. It waits or is told of the end. -/
theorem waiting_of_no_item {outcome : Answer α} (h : e.answer .receive = (outcome, e'))
    (houtcome : outcome = .pending ∨ outcome = .ended) :
    e.hasReceiver = true ∧ e.queue.waiting = [] ∧ e' = e ∧
      (outcome = .ended → e.queue.isClosed = true ∨ e.queue.senders = 0) := by
  -- Without a receiver there is no such answer.
  cases hhere : e.hasReceiver with
  | false =>
    rw [answer, receive?, if_neg (by simp [hhere])] at h
    cases h
    rcases houtcome with h | h <;> cases h
  | true =>
    rcases answer_receive hhere with ⟨a, q, -, hanswer⟩ | ⟨hnil, hanswer⟩
    · rw [hanswer] at h
      cases h
      rcases houtcome with h | h <;> cases h
    · rw [hanswer] at h
      cases h
      refine ⟨rfl, hnil, rfl, fun hended => ?_⟩
      split at hended
      · assumption
      · cases hended

/-- Nobody is left to send when no sender is held. -/
theorem Kept.senders_eq_zero_iff (h : Kept log e) :
    e.queue.senders = 0 ↔ ∀ i, e.hasSender i = false := by
  rw [h.senders_eq, List.count_eq_zero]
  -- The senders are counted by the flags of those who hold one.
  constructor
  · intro hnone i
    cases hget : e.held[i]? with
    | none => simp [hasSender, hget]
    | some held =>
      cases held with
      | false => simp [hasSender, hget]
      | true => exact absurd (List.mem_of_getElem? hget) hnone
  · intro hnone hmem
    obtain ⟨i, hget⟩ := List.mem_iff_getElem?.mp hmem
    have hheld := hnone i
    simp [hasSender, hget] at hheld

/-- Whoever goes on to receive gets all that waits, in order, and nothing else changes. -/
theorem drained_run {n : Nat} {log : Log α} {e : Ends α} (h : e.hasReceiver = true)
    (hn : n = e.queue.waiting.length) :
    accepted (run (log, e) (List.replicate n .receive)).1 = accepted log ∧
      received (run (log, e) (List.replicate n .receive)).1 = received log ++ e.queue.waiting := by
  -- By induction on the number of items that wait.
  induction n generalizing log e with
  | zero =>
    have hnil : e.queue.waiting = [] := List.length_eq_zero_iff.mp hn.symm
    simp [run, hnil]
  | succ n ih =>
    rcases answer_receive h with ⟨a, q, htry, hanswer⟩ | ⟨hnil, -⟩
    · -- One item is received, and the rest waits as before.
      have hwaiting := waiting_tryReceive htry
      have hhere : ({ e with queue := q } : Ends α).hasReceiver = true := by
        rw [hasReceiver_iff] at h ⊢
        rwa [(ends_tryReceive htry).1]
      obtain ⟨haccepted, hreceived⟩ := @ih (log ++ [(.receive, .item a)]) _ hhere (by simp_all)
      have hstep : run (log, e) (List.replicate (n + 1) .receive) =
          run (log ++ [(.receive, .item a)], { e with queue := q }) (List.replicate n .receive) := by
        rw [List.replicate_succ, run, List.foldl_cons, hanswer]
        rfl
      rw [hstep, haccepted, hreceived, hwaiting]
      simp [accepted?, received?]
    · simp [hnil] at hn

/-! ### The account -/

/-- The account of a queue, whatever was done with its ends. What was received is what was accepted first,
in that order. As long as there is a receiver the rest waits, and the count is its number: it is above zero
whenever an item is received and goes down by one. An item is refused only when the queue was closed or
its receiver ended; it comes back as it was, and nothing changes. Whoever goes on to receive gets all that
was accepted, even from a closed queue, and is told of the end only when all of it was received and the
queue was closed or no sender is held. If calls are taken apart from here on and mixed, still none lowers
the count below zero, and it is what waits, and one for every call that is not over. -/
theorem account_in_order (calls : List (Call α)) :
    let log := (run ([], {}) calls).1
    let e := (run ([], {}) calls).2
    received log <+: accepted log ∧
    (e.hasReceiver = true → accepted log = received log ++ e.queue.waiting ∧
      e.queue.count + (received log).length = (accepted log).length) ∧
    (∀ i a b e', e.answer (.send i a) = (.refused b, e') → b = a ∧ e' = e ∧ wasClosed log = true) ∧
    (∀ call a e', e.answer call = (.item a, e') →
      (accepted log)[(received log).length]? = some a ∧ e.queue.count = e'.queue.count + 1) ∧
    (∀ e', e.answer .tryReceive = (.nothing, e') ∨ e.answer .receive = (.pending, e') →
      received log = accepted log ∧ e' = e) ∧
    (∀ e', e.answer .receive = (.ended, e') → received log = accepted log ∧ e' = e ∧
      (wasClosed log = true ∨ ∀ i, e.hasSender i = false)) ∧
    (e.hasReceiver = true →
      let log' := (run (log, e) (List.replicate e.queue.count .receive)).1
      accepted log' = accepted log ∧ received log' = accepted log) ∧
    ∀ parts : List (Part α), ∃ s, InUse.run? { queue := e.queue } parts = some s ∧
      (s.queue.receiver ≠ .gone → s.queue.count = s.queue.waiting.length + s.raised + s.owed) := by
  intro log e
  have h : Kept log e := kept_run kept_start calls
  have hall : e.hasReceiver = true → e.queue.waiting = [] → received log = accepted log := by
    intro hhere hnil
    rw [h.whole hhere, hnil, List.append_nil]
  refine ⟨h.order, fun hhere => ⟨h.whole hhere, ?_⟩, fun i a b e' hanswer => ?_,
    fun call a e' hanswer => ?_, fun e' hanswer => ?_, fun e' hanswer => ?_, fun hhere => ?_,
    fun parts => ?_⟩
  · -- What is received and what waits add up to what was accepted.
    rw [h.whole hhere, h.counted (hasReceiver_iff.mp hhere), List.length_append, Nat.add_comm]
  · -- Only a closed queue refuses.
    cases hheld : e.hasSender i with
    | false => simp [answer, send?, hheld] at hanswer
    | true =>
      rcases answer_send e i a hheld with ⟨hclosed, heq⟩ | ⟨q, -, heq⟩
      · rw [heq] at hanswer
        cases hanswer
        exact ⟨rfl, rfl, h.closed_iff.mp hclosed⟩
      · simp [heq] at hanswer
  · -- The item was the first to wait, and it was counted.
    obtain ⟨hhere, htry⟩ := tryReceive_of_item hanswer
    have hwaiting := waiting_tryReceive htry
    have hreceiver := (ends_tryReceive htry).1
    have hgone := hasReceiver_iff.mp hhere
    have hcount := h.counted hgone
    have hcount' := counted_tryReceive h.counted htry (by rwa [hreceiver])
    rw [hwaiting, List.length_cons, ← hcount'] at hcount
    refine ⟨?_, hcount⟩
    simp [h.whole hhere, hwaiting]
  · rcases hanswer with hanswer | hanswer
    · obtain ⟨hhere, hnil, heq⟩ := waiting_of_nothing hanswer
      exact ⟨hall hhere hnil, heq⟩
    · obtain ⟨hhere, hnil, heq, -⟩ := waiting_of_no_item hanswer (.inl rfl)
      exact ⟨hall hhere hnil, heq⟩
  · obtain ⟨hhere, hnil, heq, hend⟩ := waiting_of_no_item hanswer (.inr rfl)
    refine ⟨hall hhere hnil, heq, ?_⟩
    rw [← h.closed_iff, ← h.senders_eq_zero_iff]
    exact hend rfl
  · -- The count is how often it takes to receive all that waits.
    have hcount := h.counted (hasReceiver_iff.mp hhere)
    obtain ⟨haccepted, hreceived⟩ := @drained_run α _ log e hhere hcount
    exact ⟨haccepted, hreceived.trans (h.whole hhere).symm⟩
  · obtain ⟨s, hrun, hbalanced⟩ := InUse.balanced_run (InUse.balanced_of_counted h.counted) parts
    exact ⟨s, hrun, hbalanced.exact⟩

end

end Depot.Queue.Ends
