import Depot.Proofs.Queue.Receive
import Depot.Proofs.Switchboard.Bisection
import Depot.Switchboard.Lines

/-!
# The table of the lines

Whatever lines are opened and hung up, in whatever order, and whatever becomes of the inboxes in between,
the table of the lines ascends by operation id, and its entries are those of the connected lines, one for
each. So an operation has one connected line at most, and everything that is looked up in the table is
about that line: whether another may be connected, where a packet for the operation goes, and which entry
goes when the line is hung up.

## Key results

- `Sound`: the table ascends and has the entries of the connected lines
- `Sound.connected`, `Sound.hungUp`: what is changed at a place that bisection found keeps it so
- `putAll_eq`: what a packet for some inboxes does to each of them
- `Sound.after`, `orderly_run`: what one call preserves, and what holds after any calls
-/

namespace Depot.Switchboard.Lines

open Roster

/-- What can be asked of lines, and of the inboxes that they lead to. -/
inductive Call
  /-- An inbox is made. -/
  | addInbox
  /-- A line to an inbox is asked for. -/
  | connect (operation : UInt8) (inbox : InboxNumber)
  /-- A line to an inbox of its own is asked for. -/
  | connectNew (operation : UInt8)
  | hangUp (n : LineNumber)
  | route (operation : UInt8) (p : Packet)
  | broadcast (p : Packet)
  /-- Whoever has an inbox does anything to it: he takes packets, closes it or drops it. -/
  | change (inbox : InboxNumber) (f : Queue Packet → Queue Packet)

/-- The lines after a call. A call that fails leaves them as they are. -/
def after (l : Lines) : Call → Lines
  | .addInbox => l.addInbox.2
  | .connect operation inbox => ((l.connect? operation inbox).map (·.2)).getD l
  | .connectNew operation => ((l.open? operation).map (·.2)).getD l
  | .hangUp n => (l.hangUp? n).getD l
  | .route operation p => (l.route operation p).2
  | .broadcast p => (l.broadcast p).2
  | .change inbox f => l.update inbox f

/-- The lines after some calls. -/
def run (l : Lines) (calls : List Call) : Lines := calls.foldl after l

/-- The connected lines. -/
def live (l : Lines) : List Line := l.opened.filter (·.connected)

/-- Whether the line of a number is connected for an operation. -/
def Holds (l : Lines) (n : LineNumber) (line : Line) (operation : UInt8) : Prop :=
  l.line? n = some line ∧ line.connected = true ∧ line.operation = operation

/-- The entry of a line in the table. -/
def entry (line : Line) : UInt8 × InboxNumber := (line.operation, line.inbox)

/-- The table ascends and has the entries of the connected lines. -/
structure Sound (l : Lines) : Prop where
  ascending : l.table.Ascending
  entries : l.table.entries.Perm (l.live.map entry)

section

variable {l l' : Lines} {operation : UInt8} {inbox : InboxNumber} {line : Line} {n : LineNumber}

/-! ### Who has an entry -/

/-- The lines that are alive are those that are opened and connected. -/
theorem mem_live_iff : line ∈ l.live ↔ ∃ n, l.line? n = some line ∧ line.connected = true := by
  rw [live, List.mem_filter, List.mem_iff_getElem?]
  exact exists_and_right.symm

/-- What is found in the table under an operation is the inbox of its connected line. -/
theorem Sound.find?_iff (h : l.Sound) :
    l.table.find? operation = some inbox ↔ ∃ n line, l.Holds n line operation ∧ line.inbox = inbox := by
  -- The table is a rearrangement of the live lines, so it has an entry for each of them and no others.
  constructor
  · intro hfind
    obtain ⟨before, after, hentries, -⟩ := List.lookup_eq_some_iff.mp hfind
    have hmem : (operation, inbox) ∈ l.table.entries := by
      rw [hentries]
      exact List.mem_append_right before List.mem_cons_self
    obtain ⟨line, hline, hentry⟩ := List.mem_map.mp (h.entries.mem_iff.mp hmem)
    obtain ⟨n, hn, hconnected⟩ := mem_live_iff.mp hline
    obtain ⟨hoperation, hinbox⟩ := Prod.mk.inj hentry
    exact ⟨n, line, ⟨hn, hconnected, hoperation⟩, hinbox⟩
  · rintro ⟨n, line, ⟨hn, hconnected, rfl⟩, rfl⟩
    have hmem := h.entries.mem_iff.mpr (List.mem_map_of_mem (mem_live_iff.mpr ⟨n, hn, hconnected⟩))
    exact find?_of_mem h.ascending hmem

/-- What looking up the inbox of an operation comes to. -/
theorem Sound.inbox?_eq (h : l.Sound) (operation : UInt8) :
    l.inbox? operation = l.table.find? operation := seek?_eq h.ascending operation

/-- An operation is not in the table if no connected line is its own. -/
theorem Sound.find?_none_iff (h : l.Sound) :
    l.table.find? operation = none ↔ ∀ n line, ¬l.Holds n line operation := by
  rw [Option.eq_none_iff_forall_ne_some]
  constructor
  · intro hnone n line hholds
    exact hnone line.inbox (h.find?_iff.mpr ⟨n, line, hholds, rfl⟩)
  · intro hnone inbox hfind
    obtain ⟨n, line, hholds, -⟩ := h.find?_iff.mp hfind
    exact hnone n line hholds

/-- No operation is in the table twice. -/
theorem Sound.distinct (h : l.Sound) : l.table.entries.Pairwise fun e f => e.1 ≠ f.1 := by
  refine List.Pairwise.imp (fun hlt heq => ?_) h.ascending
  rw [heq] at hlt
  exact UInt8.lt_irrefl _ hlt

/-- So no two connected lines have the same operation. -/
theorem Sound.pairwise (h : l.Sound) :
    l.live.Pairwise fun line line' => line.operation ≠ line'.operation := by
  have hlive := List.pairwise_map.mp (h.entries.pairwise h.distinct fun hne => Ne.symm hne)
  exact hlive

/-- An operation has one connected line at most. -/
theorem Sound.eq_of_holds (h : l.Sound) {m : LineNumber} {line' : Line} (hm : l.Holds m line operation)
    (hn : l.Holds n line' operation) : m = n := by
  have hpairwise := List.pairwise_iff_getElem.mp (List.pairwise_filter.mp h.pairwise)
  obtain ⟨hm, hconnected, rfl⟩ := hm
  obtain ⟨hn, hconnected', hsame⟩ := hn
  obtain ⟨hmlt, rfl⟩ := List.getElem?_eq_some_iff.mp hm
  obtain ⟨hnlt, rfl⟩ := List.getElem?_eq_some_iff.mp hn
  -- Of two lines one was opened first, and the two cases are alike.
  rcases Nat.lt_trichotomy m n with hlt | heq | hgt
  · exact absurd hsame.symm (hpairwise m n hmlt hnlt hlt hconnected hconnected')
  · exact heq
  · exact absurd hsame (hpairwise n m hnlt hmlt hgt hconnected' hconnected)

/-! ### Connecting and hanging up -/

/-- Without lines there is nothing to say. -/
theorem sound_empty : ({} : Lines).Sound := ⟨.nil, .refl _⟩

/-- What changes nothing but inboxes changes nothing that the table is about. -/
theorem Sound.congr (h : l.Sound) (hopened : l'.opened = l.opened) (htable : l'.table = l.table) :
    l'.Sound := by
  refine ⟨htable ▸ h.ascending, ?_⟩
  rw [live, hopened, htable]
  exact h.entries

/-- What connecting a line comes to. -/
theorem Sound.connect?_eq (h : l.Sound) (operation : UInt8) (inbox : InboxNumber) :
    l.connect? operation inbox = (l.table.enroll? operation inbox).map fun table =>
      (l.opened.length,
        { l.update inbox (·.addSender) with opened := l.opened ++ [{ operation, inbox }], table }) := by
  rw [connect?, enlist?_eq h.ascending]

/-- A line is refused if its operation has one. -/
theorem Sound.connect?_none_iff (h : l.Sound) :
    l.connect? operation inbox = none ↔ ∃ n line, l.Holds n line operation := by
  rw [h.connect?_eq, Option.map_eq_none_iff, enroll?_eq_none_iff h.ascending]
  constructor
  · rintro ⟨inbox', hfind⟩
    obtain ⟨n, line, hholds, -⟩ := h.find?_iff.mp hfind
    exact ⟨n, line, hholds⟩
  · rintro ⟨n, line, hholds⟩
    exact ⟨line.inbox, h.find?_iff.mpr ⟨n, line, hholds, rfl⟩⟩

/-- What is new after a line was connected. -/
structure Connected (l : Lines) (operation : UInt8) (inbox : InboxNumber) (n : LineNumber) (l' : Lines) :
    Prop where
  number : n = l.opened.length
  opened : l'.opened = l.opened ++ [{ operation := operation, inbox := inbox }]
  entries : l'.table.entries.Perm ((operation, inbox) :: l.table.entries)

/-- A line that is connected is the only new one, and the table gets its entry. -/
theorem Sound.connected (h : l.Sound) (hconnect : l.connect? operation inbox = some (n, l')) :
    l.Connected operation inbox n l' ∧ l'.Sound := by
  rw [h.connect?_eq] at hconnect
  obtain ⟨table, henroll, heq⟩ := Option.map_eq_some_iff.mp hconnect
  cases heq
  have hperm := perm_enroll? henroll
  refine ⟨⟨rfl, rfl, hperm⟩, ascending_enroll? h.ascending henroll, ?_⟩
  -- The new line is behind all others, and its entry among them.
  show table.entries.Perm (((l.opened ++ [Line.mk operation inbox true]).filter Line.connected).map entry)
  rw [List.filter_append, List.map_append]
  exact (hperm.trans (h.entries.cons _)).trans (List.perm_append_singleton _ _).symm

/-- What has changed after a line was hung up. -/
structure HungUp (l : Lines) (n : LineNumber) (line : Line) (l' : Lines) : Prop where
  opened : l'.opened = l.opened.modify n fun line => { line with connected := false }
  entries : l.table.entries.Perm (entry line :: l'.table.entries)
  others : ∀ operation, l'.inbox? operation =
    if operation = line.operation then none else l.inbox? operation

/-- Only a line that is connected can be hung up. -/
theorem exists_of_hangUp? (h : l.hangUp? n = some l') :
    ∃ line, l.line? n = some line ∧ line.connected = true := by
  simp only [hangUp?] at h
  split at h
  · next line hline =>
    split at h
    · next hconnected => exact ⟨line, hline, hconnected⟩
    · cases h
  · cases h

/-- The lines before one of them and those behind it are not changed with it. -/
theorem exists_split (h : l.line? n = some line) (f : Line → Line) :
    ∃ before behind, l.opened = before ++ line :: behind ∧
      l.opened.modify n f = before ++ f line :: behind := by
  obtain ⟨hn, rfl⟩ := List.getElem?_eq_some_iff.mp h
  refine ⟨l.opened.take n, l.opened.drop (n + 1), ?_, List.modify_eq_take_cons_drop hn⟩
  rw [← List.drop_eq_getElem_cons hn, List.take_append_drop]

/-- A line that is connected can be hung up, and the table loses its entry. -/
theorem Sound.hungUp (h : l.Sound) (hline : l.line? n = some line) (hconnected : line.connected = true) :
    ∃ l', l.hangUp? n = some l' ∧ l.HungUp n line l' ∧ l'.Sound := by
  simp only [hangUp?, hline, hconnected, ↓reduceIte, strike_eq h.ascending]
  refine ⟨_, rfl, ?_⟩
  obtain ⟨before, behind, hopened, hmodified⟩ :=
    exists_split hline fun line => { line with connected := false }
  -- The connected lines were those before it, the line itself and those behind it.
  have hlive : l.live = before.filter (·.connected) ++ line :: behind.filter (·.connected) := by
    rw [live, hopened, List.filter_append, List.filter_cons_of_pos hconnected]
  have hentries : l.table.entries.Perm (entry line ::
      (before.filter (·.connected) ++ behind.filter (·.connected)).map entry) := by
    rw [List.map_append]
    have := h.entries
    rw [hlive, List.map_append, List.map_cons] at this
    exact this.trans List.perm_middle
  -- No other line has its operation, so only its entry goes.
  have hothers := (List.pairwise_cons.mp (hentries.pairwise h.distinct fun hne => Ne.symm hne)).1
  have hdismiss : (l.table.dismiss line.operation).entries.Perm
      ((before.filter (·.connected) ++ behind.filter (·.connected)).map entry) := by
    have hkept := List.filter_eq_self.mpr fun e he => bne_iff_ne.mpr (Ne.symm (hothers e he))
    have hfilter := hentries.filter fun e => e.1 != line.operation
    rw [List.filter_cons_of_neg (by simp [entry])] at hfilter
    exact hfilter.trans (.of_eq hkept)
  have hascending := ascending_dismiss line.operation h.ascending
  refine ⟨⟨rfl, hentries.trans (hdismiss.symm.cons _), fun operation => ?_⟩, hascending, ?_⟩
  · show (l.table.dismiss line.operation).seek? operation = _
    rw [seek?_eq hascending, find?_dismiss, h.inbox?_eq]
  show (l.table.dismiss line.operation).entries.Perm
    (((l.opened.modify n fun line => { line with connected := false }).filter Line.connected).map entry)
  rw [hmodified, List.filter_append]
  exact hdismiss

/-! ### Putting packets through -/

/-- Whether somebody listens to an inbox. -/
def accepts (l : Lines) (inbox : InboxNumber) : Bool := (l.inboxes[inbox]?).any (!·.isClosed)

/-- Only one inbox is changed. -/
theorem inboxes_update (l : Lines) (inbox : InboxNumber) (f : Queue Packet → Queue Packet)
    (other : InboxNumber) : (l.update inbox f).inboxes[other]? =
      if inbox = other then (l.inboxes[other]?).map f else l.inboxes[other]? := by
  rw [update, List.getElem?_modify]
  split
  · rfl
  · exact Option.map_id'

/-- Changing an inbox in one of two ways that come to the same. -/
theorem update_congr {f g : Queue Packet → Queue Packet}
    (h : ∀ q, l.inboxes[inbox]? = some q → f q = g q) : l.update inbox f = l.update inbox g := by
  -- Nothing but the inboxes differs, and those are equal one by one.
  have hinboxes : (l.update inbox f).inboxes = (l.update inbox g).inboxes := by
    refine List.ext_getElem? fun other => ?_
    rw [inboxes_update, inboxes_update]
    split
    · next heq =>
      cases hq : l.inboxes[other]? with
      | none => rfl
      | some q => rw [Option.map_some, Option.map_some, h q (heq ▸ hq)]
    · rfl
  simp only [update] at hinboxes ⊢
  rw [hinboxes]

/-- Changing an inbox in a way that leaves it as it is. -/
theorem update_of_same {f : Queue Packet → Queue Packet}
    (h : ∀ q, l.inboxes[inbox]? = some q → f q = q) : l.update inbox f = l := by
  have hinboxes : l.inboxes.modify inbox id = l.inboxes := List.modify_id inbox l.inboxes
  rw [update_congr h (g := id), update, hinboxes]

/-- A packet that is put into an inbox is pushed there, and it is reported whether somebody listens. -/
theorem put_eq (l : Lines) (inbox : InboxNumber) (p : Packet) :
    (l.put inbox p).2 = l.update inbox (·.push p) ∧
      ((l.put inbox p).1 = .sent ↔ l.accepts inbox = true) := by
  unfold put
  -- By whether there is such an inbox, and then by whether it is closed.
  split
  · next hnone =>
    refine ⟨(update_of_same fun q hq => ?_).symm, by simp [accepts, hnone]⟩
    rw [hnone] at hq
    cases hq
  · next q hq =>
    have hone : ∀ q', l.inboxes[inbox]? = some q' → q' = q := by
      intro q' hq'
      rw [hq] at hq'
      exact (Option.some.inj hq').symm
    cases hclosed : q.isClosed with
    | true =>
      simp only [Queue.send, hclosed, ↓reduceIte]
      refine ⟨(update_of_same fun q' hq' => ?_).symm, by simp [accepts, hq, hclosed]⟩
      rw [hone q' hq', Queue.push_of_closed p hclosed]
    | false =>
      simp only [Queue.send, hclosed, Bool.false_eq_true, ↓reduceIte]
      refine ⟨update_congr fun q' hq' => ?_, by simp [accepts, hq, hclosed]⟩
      rw [hone q' hq']
      simp only [Queue.push, Queue.send, hclosed, Bool.false_eq_true, ↓reduceIte]

/-- Nobody stops listening because of a packet. -/
theorem accepts_push (l : Lines) (inbox : InboxNumber) (p : Packet) (other : InboxNumber) :
    (l.update inbox (·.push p)).accepts other = l.accepts other := by
  rw [accepts, accepts, inboxes_update]
  split
  · cases l.inboxes[other]? with
    | none => rfl
    | some q => simp only [Option.map_some, Option.any_some, Queue.isClosed, (Queue.ends_push q p).1]
  · rfl

/-- A packet for some inboxes is pushed into each of them, as often as the inbox is among them, and those
are counted that somebody listens to. -/
theorem putAll_eq (l : Lines) (p : Packet) (inboxes : List InboxNumber) :
    (l.putAll p inboxes).1 = inboxes.countP l.accepts ∧
      (l.putAll p inboxes).2.opened = l.opened ∧ (l.putAll p inboxes).2.table = l.table ∧
      ∀ inbox, (l.putAll p inboxes).2.inboxes[inbox]? = (l.inboxes[inbox]?).map fun q =>
        (List.replicate (inboxes.count inbox) p).foldl Queue.push q := by
  induction inboxes generalizing l with
  | nil =>
    exact ⟨rfl, rfl, rfl, fun _ => Option.map_id'.symm⟩
  | cons first rest ih =>
    obtain ⟨hupdated, hsent⟩ := l.put_eq first p
    obtain ⟨hcount, hopened, htable, hinboxes⟩ := ih (l.update first (·.push p))
    have haccepts : (l.update first (·.push p)).accepts = l.accepts := funext (accepts_push l first p)
    rw [haccepts] at hcount
    -- The first inbox has one copy more, whether it is among the rest or not.
    have hall (inbox : InboxNumber) :
        ((l.update first (·.push p)).putAll p rest).2.inboxes[inbox]? =
          (l.inboxes[inbox]?).map fun q =>
            (List.replicate ((first :: rest).count inbox) p).foldl Queue.push q := by
      rw [hinboxes, inboxes_update, List.count_cons]
      by_cases hfirst : first = inbox
      · simp only [hfirst, ↓reduceIte, BEq.rfl, Option.map_map]
        rfl
      · simp only [hfirst, ↓reduceIte, beq_iff_eq, Nat.add_zero]
    cases hput : l.put first p with
    | mk routed l' =>
      rw [hput] at hupdated hsent
      simp only at hupdated hsent
      subst hupdated
      cases routed with
      | sent =>
        simp only [putAll, hput]
        refine ⟨?_, hopened, htable, hall⟩
        rw [List.countP_cons_of_pos (hsent.mp rfl), hcount]
      | closed | absent =>
        simp only [putAll, hput]
        refine ⟨?_, hopened, htable, hall⟩
        rw [List.countP_cons_of_neg (fun h => by cases hsent.mpr h), hcount]

/-- A packet for all lines is pushed once for each connected line. -/
theorem Sound.broadcast_eq (h : l.Sound) (p : Packet) :
    (l.broadcast p).1 = l.live.countP (fun line => l.accepts line.inbox) ∧
      (l.broadcast p).2.opened = l.opened ∧ (l.broadcast p).2.table = l.table ∧
      ∀ inbox, (l.broadcast p).2.inboxes[inbox]? = (l.inboxes[inbox]?).map fun q =>
        (List.replicate (l.live.countP (·.inbox == inbox)) p).foldl Queue.push q := by
  obtain ⟨hcount, hopened, htable, hinboxes⟩ := putAll_eq l p l.table.values
  -- The table is in the order of ids, the lines are in that of opening. For counting it makes no difference.
  have hvalues : l.table.values.Perm (l.live.map Line.inbox) := by
    have := h.entries.map Prod.snd
    rw [List.map_map] at this
    exact this
  refine ⟨?_, hopened, htable, fun inbox => ?_⟩
  · rw [broadcast, hcount, hvalues.countP_eq, List.countP_map]
    rfl
  · rw [broadcast, hinboxes, hvalues.count_eq, List.count, List.countP_map]
    rfl

/-! ### Any calls -/

/-- Every call keeps the table in step with the lines. -/
theorem Sound.after (h : l.Sound) (call : Call) : (l.after call).Sound := by
  have hadded : l.addInbox.2.Sound := h.congr rfl rfl
  -- Only calls that connect and hang up change the table. The others change inboxes.
  cases call with
  | addInbox => exact hadded
  | connect operation inbox =>
    cases hconnect : l.connect? operation inbox with
    | none =>
      rw [Lines.after, hconnect]
      exact h
    | some connected =>
      rw [Lines.after, hconnect]
      exact (h.connected hconnect).2
  | connectNew operation =>
    cases hconnect : l.addInbox.2.connect? operation l.addInbox.1 with
    | none =>
      rw [Lines.after, open?, hconnect]
      exact h
    | some connected =>
      rw [Lines.after, open?, hconnect]
      exact (hadded.connected hconnect).2
  | hangUp n =>
    cases hhangUp : l.hangUp? n with
    | none =>
      rw [Lines.after, hhangUp]
      exact h
    | some l' =>
      obtain ⟨line, hline, hconnected⟩ := exists_of_hangUp? hhangUp
      obtain ⟨l'', hl'', -, hsound⟩ := h.hungUp hline hconnected
      rw [Lines.after, hl'']
      exact hsound
  | route operation p =>
    rw [Lines.after, route]
    split
    · exact h
    · next inbox _ =>
      rw [(l.put_eq inbox p).1]
      exact h.congr rfl rfl
  | broadcast p =>
    obtain ⟨-, hopened, htable, -⟩ := h.broadcast_eq p
    exact h.congr hopened htable
  | change inbox f => exact h.congr rfl rfl

/-- So does every list of calls. -/
theorem Sound.run (h : l.Sound) (calls : List Call) : (l.run calls).Sound := by
  induction calls generalizing l with
  | nil => exact h
  | cons call calls ih => exact ih (h.after call)

/-- What the table is good for: every question about an operation is answered about its connected line. -/
structure Orderly (l : Lines) : Prop where
  ascending : l.table.Ascending
  /-- The entries are those of the connected lines, one for each. -/
  entries : l.table.entries.Perm (l.live.map entry)
  holder : ∀ operation m n line line',
    l.Holds m line operation → l.Holds n line' operation → m = n ∧ line = line'
  refused : ∀ operation inbox, l.connect? operation inbox = none ↔ ∃ n line, l.Holds n line operation
  /-- What refuses a line changes nothing. -/
  kept : ∀ operation inbox, l.connect? operation inbox = none → l.after (.connect operation inbox) = l
  connected : ∀ operation inbox n l',
    l.connect? operation inbox = some (n, l') → l.Connected operation inbox n l'
  found : ∀ operation inbox,
    l.inbox? operation = some inbox ↔ ∃ n line, l.Holds n line operation ∧ line.inbox = inbox
  missing : ∀ operation, l.inbox? operation = none ↔ ∀ n line, ¬l.Holds n line operation
  active : ∀ operation, operation ∈ l.activeIds ↔ ∃ n line, l.Holds n line operation
  hungUp : ∀ n line, l.line? n = some line → line.connected = true →
    ∃ l', l.hangUp? n = some l' ∧ l.HungUp n line l'
  /-- A packet is put through to the inbox of the connected line and to no other. -/
  routed : ∀ operation p n line, l.Holds n line operation →
    l.route operation p = l.put line.inbox p ∧ (l.put line.inbox p).2 = l.update line.inbox (·.push p)
  counted : ∀ p, (l.broadcast p).1 = l.live.countP fun line => l.accepts line.inbox
  /-- A packet for all lines is pushed once for each connected line. -/
  delivered : ∀ p inbox, (l.broadcast p).2.inboxes[inbox]? = (l.inboxes[inbox]?).map fun q =>
    (List.replicate (l.live.countP (·.inbox == inbox)) p).foldl Queue.push q

/-- Lines whose table is in step are orderly. -/
theorem Sound.orderly (h : l.Sound) : l.Orderly where
  ascending := h.ascending
  entries := h.entries
  holder operation m n line line' hm hn := by
    have heq := h.eq_of_holds hm hn
    subst heq
    exact ⟨rfl, Option.some.inj (hm.1.symm.trans hn.1)⟩
  refused _ _ := h.connect?_none_iff
  kept operation inbox hrefused := by
    rw [Lines.after, hrefused]
    rfl
  connected _ _ _ _ hconnect := (h.connected hconnect).1
  found operation inbox := by
    rw [h.inbox?_eq]
    exact h.find?_iff
  missing operation := by
    rw [h.inbox?_eq]
    exact h.find?_none_iff
  active operation := by
    rw [activeIds, mem_ids_iff]
    constructor
    · rintro ⟨inbox, hfind⟩
      obtain ⟨n, line, hholds, -⟩ := h.find?_iff.mp hfind
      exact ⟨n, line, hholds⟩
    · rintro ⟨n, line, hholds⟩
      exact ⟨line.inbox, h.find?_iff.mpr ⟨n, line, hholds, rfl⟩⟩
  hungUp n line hline hconnected := by
    obtain ⟨l', hhangUp, hungUp, -⟩ := h.hungUp hline hconnected
    exact ⟨l', hhangUp, hungUp⟩
  routed operation p n line hholds := by
    have hinbox : l.inbox? operation = some line.inbox :=
      (h.inbox?_eq operation).trans (h.find?_iff.mpr ⟨n, line, hholds, rfl⟩)
    refine ⟨?_, (l.put_eq line.inbox p).1⟩
    rw [route, hinbox]
  counted p := (h.broadcast_eq p).1
  delivered p := (h.broadcast_eq p).2.2.2

end

/-- Whatever lines are opened and hung up in whatever order, and whatever becomes of the inboxes in
between, the table has one entry for each connected line, in ascending order. So a line is refused just
if the operation has one, a packet goes to the inbox of the connected line, hanging up takes away that
line's entry alone, and a packet for all lines is tried once for each of them. -/
theorem orderly_run (calls : List Call) : (run {} calls).Orderly := (sound_empty.run calls).orderly

end Depot.Switchboard.Lines
