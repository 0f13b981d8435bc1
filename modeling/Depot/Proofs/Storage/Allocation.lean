import Depot.Proofs.Storage.Files
import Depot.Proofs.Storage.Proper
import Depot.Proofs.Text.Decimal

/-!
# Giving out user ids

The directories of the user root are the register: an id is given out if it is above every id that a
directory there denotes and no entry has its number for a name. `Tries` is the loop that looks for one,
without a bound on the number of tries, and it always comes to an end. Directories are never taken away,
so every id that is given out is above all those that were given out before, whatever else was stored
or read in between.

## Key results

- `tries_claim`: the loop comes to an end
- `claimed_of_tries`: the id that it finds is the first one without an entry
- `allocation`: what becomes of a single request for an id
- `allocation_in_any_run`: the same at any time of any run, and the ids of a run ascend
-/

namespace Depot.Storage.Store

variable {s : Store} {t t' : Tree} {base : Place} {candidate tries : Nat}
  {outcome : Except StoreError (UInt32 × Tree)}

/-! ### Ids and the entries that denote them -/

/-- Whether a directory of the user root has a name that is read as an id. -/
def Denoted (t : Tree) (base : Place) (id : Nat) : Prop :=
  ∃ name, t.get? (base ++ [name]) = some .directory ∧ Text.Decimal.natural? maxUser name = some id

/-- An id that can be given out. Zero is nobody's. -/
structure Vacant (t : Tree) (base : Place) (id : Nat) : Prop where
  pos : 0 < id
  le : id ≤ maxUser
  above : ∀ other, Denoted t base other → other < id
  free : t.get? (base ++ [toString id]) = none

/-- Whether the system takes the path of an id's directory. -/
def Fits (s : Store) (id : Nat) : Prop :=
  (s.userRoot.child (toString id)).text.utf8ByteSize ≤ Tree.maxPath

/-- An id in decimal is a plain name: it is neither empty nor one of the two names that are made of dots. -/
theorem ofPiece_toString (n : Nat) : Path.Step.ofPiece (toString n) = .down (toString n) := by
  have hdigit (c : Char) (hc : c ∈ (toString n).toList) := Text.Decimal.isDigit_of_mem_toString hc
  have hdot : Char.isDigit '.' ≠ true := by simp
  unfold Path.Step.ofPiece
  split
  · next hempty => exact absurd hempty (by rw [Nat.toString_eq_repr]; exact Nat.repr_ne_empty)
  · next hname =>
    rw [hname] at hdigit
    exact absurd (hdigit '.' (by simp)) hdot
  · next hname =>
    rw [hname] at hdigit
    exact absurd (hdigit '.' (by simp)) hdot
  · rfl

/-- The name of an id is short enough to be looked up. -/
theorem lookUp_toString {id : Nat} (h : id ≤ maxUser) :
    t.lookUp base (toString id) = .ok (t.get? (base ++ [toString id])) := by
  have hbytes : (toString id).utf8ByteSize ≤ 10 :=
    Text.Decimal.utf8ByteSize_toString_le (by omega) (Nat.lt_of_le_of_lt h (by decide))
  rw [Tree.lookUp, if_neg]
  simp only [Tree.maxName]
  omega

/-- The path of an id is well-formed as soon as it is short enough. -/
theorem checkPath_toString (hbase : t.directory? s.userRoot = some base) {id : Nat} (h : s.Fits id) :
    Tree.checkPath (s.userRoot.child (toString id)) = .ok () := by
  refine Tree.checkPath_child hbase (Tree.name_ne_empty (ofPiece_toString id)) (fun c hc hzero => ?_) h
  have hdigit := Text.Decimal.isDigit_of_mem_toString hc
  simp only [Char.isDigit, Bool.and_eq_true, decide_eq_true_eq, ge_iff_le, UInt32.le_iff_toNat_le] at hdigit
  change c.val.toNat = 0 at hzero
  rw [hzero] at hdigit
  exact absurd hdigit.1 (by simp)

/-! ### The loop -/

/-- The loop that looks for an id without an entry, with the number of its tries. It goes on as long as
entries are in the way and there is a next id. -/
inductive Tries (s : Store) (t : Tree) : Nat → Nat → Except StoreError (UInt32 × Tree) → Prop
  | made {candidate : Nat} {t' : Tree}
      (h : t.createDirectory (s.userRoot.child (toString candidate)) = .ok t') :
      Tries s t candidate 1 (.ok (UInt32.ofNat candidate, t'))
  | refused {candidate : Nat} {fault : Fault}
      (h : t.createDirectory (s.userRoot.child (toString candidate)) = .error fault)
      (hfault : fault ≠ .alreadyExists) : Tries s t candidate 1 (.error (.io fault.message))
  | spent {candidate : Nat}
      (h : t.createDirectory (s.userRoot.child (toString candidate)) = .error .alreadyExists)
      (hlast : ¬candidate < maxUser) : Tries s t candidate 1 (.error .noMoreIds)
  | again {candidate tries : Nat} {outcome : Except StoreError (UInt32 × Tree)}
      (h : t.createDirectory (s.userRoot.child (toString candidate)) = .error .alreadyExists)
      (hnext : candidate < maxUser) (hrest : Tries s t (candidate + 1) tries outcome) :
      Tries s t candidate (tries + 1) outcome

/-- The loop comes to an end: every try brings it closer to the largest id. -/
theorem tries_claim (s : Store) (t : Tree) {candidate count : Nat}
    (hcount : candidate + count = maxUser + 1) (hle : candidate ≤ maxUser) :
    ∃ tries ≤ count, Tries s t candidate tries (s.claim t candidate count) := by
  -- By induction on the number of tries that are left, which are just those up to the largest id.
  induction count generalizing candidate with
  | zero => omega
  | succ count ih =>
    cases hmade : t.createDirectory (s.userRoot.child (toString candidate)) with
    | ok t' =>
      have hclaim : s.claim t candidate (count + 1) = .ok (UInt32.ofNat candidate, t') := by
        rw [claim, hmade]
      rw [hclaim]
      exact ⟨1, by omega, .made hmade⟩
    | error fault =>
      by_cases hfault : fault = .alreadyExists
      · rw [hfault] at hmade
        have hclaim : s.claim t candidate (count + 1) = s.claim t (candidate + 1) count := by
          rw [claim, hmade]
        rw [hclaim]
        by_cases hnext : candidate < maxUser
        · have hnextle : candidate + 1 ≤ maxUser := hnext
          obtain ⟨tries, hle, hrest⟩ := ih (by omega) hnextle
          -- Taken, with ids left to try.
          exact ⟨tries + 1, by omega, .again hmade hnext hrest⟩
        · have hzero : count = 0 := by omega
          rw [hzero]
          exact ⟨1, by omega, .spent hmade hnext⟩
      · have hclaim : s.claim t candidate (count + 1) = .error (.io fault.message) := by
          cases fault with
          | alreadyExists => exact absurd rfl hfault
          | _ => rw [claim, hmade]
        rw [hclaim]
        exact ⟨1, by omega, .refused hmade hfault⟩

/-- What the loop comes to when it starts with a candidate. -/
inductive Claimed (s : Store) (t : Tree) (base : Place) (candidate : Nat) :
    Except StoreError (UInt32 × Tree) → Prop
  | made {id : Nat} (hle : candidate ≤ id) (hmax : id ≤ maxUser)
      (hfree : t.get? (base ++ [toString id]) = none)
      (htaken : ∀ other, candidate ≤ other → other < id → t.get? (base ++ [toString other]) ≠ none) :
      Claimed s t base candidate
        (.ok (UInt32.ofNat id, t.set (base ++ [toString id]) .directory))
  | spent (htaken : ∀ other, candidate ≤ other → other ≤ maxUser →
      t.get? (base ++ [toString other]) ≠ none) : Claimed s t base candidate (.error .noMoreIds)
  | refused {id : Nat} (hmax : id ≤ maxUser) (hlong : ¬s.Fits id) (fault : Fault) :
      Claimed s t base candidate (.error (.io fault.message))

/-- Making the directory of an id. -/
theorem createDirectory_toString (hbase : t.directory? s.userRoot = some base) {id : Nat}
    (h : id ≤ maxUser) (hfits : s.Fits id) :
    t.createDirectory (s.userRoot.child (toString id)) =
      if t.get? (base ++ [toString id]) = none then .ok (t.set (base ++ [toString id]) .directory)
      else .error .alreadyExists := by
  simp only [Tree.createDirectory, bind, Tree.site_child hbase (ofPiece_toString id),
    checkPath_toString hbase hfits, lookUp_toString h, Except.bind]
  cases t.get? (base ++ [toString id]) <;> rfl

/-- The system does not take a path that is too long. -/
theorem createDirectory_of_not_fits {id : Nat} (hlong : ¬s.Fits id) :
    ∃ fault, t.createDirectory (s.userRoot.child (toString id)) = .error fault ∧
      fault ≠ .alreadyExists := by
  simp only [Tree.createDirectory, Tree.site, Tree.checkPath, bind, Except.bind]
  -- The characters are looked at before the length, so the fault is one of two.
  by_cases hnul : (s.userRoot.child (toString id)).pieces.any
      (fun name => name.toList.any fun c => c.toNat == 0) = true
  · rw [if_pos hnul]
    exact ⟨.badName, rfl, by simp⟩
  · have hempty := Path.isEmpty_child s.userRoot (Tree.name_ne_empty (ofPiece_toString id))
    rw [if_neg hnul, hempty, if_neg Bool.false_ne_true, if_pos (Nat.not_le.mp hlong)]
    exact ⟨.nameTooLong, rfl, by simp⟩

/-- The directory of an id is made unless an entry is in the way, provided that the system takes the
path. -/
theorem createDirectory_cases (hbase : t.directory? s.userRoot = some base) {id : Nat}
    (hmax : id ≤ maxUser) {made : Except Fault Tree}
    (h : t.createDirectory (s.userRoot.child (toString id)) = made) :
    (t.get? (base ++ [toString id]) = none ∧ made = .ok (t.set (base ++ [toString id]) .directory)) ∨
      (t.get? (base ++ [toString id]) ≠ none ∧ made = .error .alreadyExists) ∨
      ¬s.Fits id ∧ ∃ fault, made = .error fault ∧ fault ≠ .alreadyExists := by
  by_cases hfits : s.Fits id
  · rw [createDirectory_toString hbase hmax hfits] at h
    split at h
    · next hfree => exact .inl ⟨hfree, h.symm⟩
    · next htaken => exact .inr (.inl ⟨htaken, h.symm⟩)
  · obtain ⟨fault, hfault, hne⟩ := createDirectory_of_not_fits (t := t) hfits
    exact .inr (.inr ⟨hfits, fault, h.symm.trans hfault, hne⟩)

/-- The id that the loop finds is the first one without an entry. -/
theorem claimed_of_tries (hbase : t.directory? s.userRoot = some base) (hle : candidate ≤ maxUser)
    (h : Tries s t candidate tries outcome) : Claimed s t base candidate outcome := by
  -- By induction on the tries. What making the directory comes to tells what is at the place of the
  -- candidate, and only an entry there leads to another try.
  induction h with
  | @made candidate t' hmade =>
    rcases createDirectory_cases hbase hle hmade with ⟨hfree, heq⟩ | ⟨-, heq⟩ | ⟨-, fault, heq, -⟩
    · cases heq
      refine .made (Nat.le_refl _) hle hfree fun other hlow hhigh => ?_
      omega
    · cases heq
    · cases heq
  | @refused candidate fault hmade hfault =>
    rcases createDirectory_cases hbase hle hmade with ⟨-, heq⟩ | ⟨-, heq⟩ | ⟨hlong, -⟩
    · cases heq
    · cases heq
      exact absurd rfl hfault
    · exact .refused hle hlong fault
  | @spent candidate hmade hlast =>
    rcases createDirectory_cases hbase hle hmade with ⟨-, heq⟩ | ⟨htaken, -⟩ | ⟨-, fault, heq, hne⟩
    · cases heq
    · refine .spent fun other hlow hhigh => ?_
      have heq : other = candidate := by omega
      rwa [heq]
    · cases heq
      exact absurd rfl hne
  | @again candidate tries outcome hmade hnext hrest ih =>
    rcases createDirectory_cases hbase hle hmade with ⟨-, heq⟩ | ⟨htaken, -⟩ | ⟨-, fault, heq, hne⟩
    · cases heq
    · -- The candidate is taken, and from the next one on it is as it says there.
      have hfrom {other : Nat} (hlow : candidate ≤ other)
          (hrest : candidate + 1 ≤ other → t.get? (base ++ [toString other]) ≠ none) :
          t.get? (base ++ [toString other]) ≠ none := by
        by_cases heq : other = candidate
        · rwa [heq]
        · exact hrest (by omega)
      cases ih hnext with
      | made hlow hmax hfree hothers =>
        exact .made (by omega) hmax hfree fun other hlow hhigh =>
          hfrom hlow fun hlow => hothers other hlow hhigh
      | spent hothers => exact .spent fun other hlow hhigh => hfrom hlow fun hlow => hothers other hlow hhigh
      | refused hmax hlong fault => exact .refused hmax hlong fault
    · cases heq
      exact absurd rfl hne

/-! ### A request -/

/-- A number is above the largest of a list just when it is above all of them. -/
theorem foldl_max_lt {ids : List Nat} {least bound : Nat} :
    ids.foldl max least < bound ↔ least < bound ∧ ∀ id ∈ ids, id < bound := by
  induction ids generalizing least with
  | nil => simp
  | cons id rest ih =>
    rw [List.foldl_cons, ih, List.forall_mem_cons, Nat.max_lt, and_assoc]

/-- The highest id is below just those ids that are above all that directories denote. -/
theorem highestUser_spec (h : t.Proper) (hbase : t.directory? s.userRoot = some base) :
    ∃ highest, s.highestUser t = .ok highest ∧ highest ≤ maxUser ∧
      ∀ id, highest < id ↔ 0 < id ∧ ∀ other, Denoted t base other → other < id := by
  -- The names that are read are those of directories in the tree, each under the user root.
  have hmem (id : Nat) : id ∈ (t.children base).filterMap userId? ↔ Denoted t base id := by
    rw [List.mem_filterMap]
    constructor
    · rintro ⟨⟨name, node⟩, hmem, hid⟩
      rw [h.mem_children_iff] at hmem
      cases node with
      | directory => exact ⟨name, hmem, hid⟩
      | file content => cases hid
    · rintro ⟨name, hget, hid⟩
      exact ⟨(name, .directory), h.mem_children_iff.mpr hget, hid⟩
  refine ⟨((t.children base).filterMap userId?).foldl max 0, ?_, ?_, fun id => ?_⟩
  · rw [highestUser, hbase]
  · refine Nat.le_of_lt_succ (foldl_max_lt.mpr ⟨by simp, fun id hid => ?_⟩)
    obtain ⟨name, -, hread⟩ := (hmem id).mp hid
    exact Nat.lt_succ_of_le (Text.Decimal.natural?_le hread)
  · simp only [foldl_max_lt, hmem]

/-- What has become of a tree in which the directory of an id was made: it is there and empty, and all
else is as it was. -/
structure Granted (t : Tree) (base : Place) (id : Nat) (t' : Tree) : Prop where
  here : t'.get? (base ++ [toString id]) = some .directory
  empty : ∀ below, below ≠ [] → t'.get? (base ++ [toString id] ++ below) = none
  elsewhere : ∀ q, q ≠ base ++ [toString id] → t'.get? q = t.get? q

/-- A directory that is put where there was nothing changes that one place. -/
theorem granted_set (h : t.Proper) {id : Nat} (hfree : t.get? (base ++ [toString id]) = none) :
    Granted t base id (t.set (base ++ [toString id]) .directory) := by
  have hset (q : Place) := Tree.get?_set t (base ++ [toString id]) q .directory (by simp)
  refine ⟨?_, fun below hbelow => ?_, fun q hq => ?_⟩
  · rw [hset, if_pos rfl]
  · rw [hset, if_neg (by simpa using hbelow)]
    -- Nothing is below a place where there was nothing.
    cases hget : t.get? (base ++ [toString id] ++ below) with
    | none => rfl
    | some node =>
      rw [h.directory_of_get?_append hbelow hget] at hfree
      cases hfree
  · rw [hset, if_neg hq]

/-- A request for an id, with the tree after it. -/
def request (s : Store) (t : Tree) : Except StoreError UInt32 × Tree :=
  match s.allocate t with
  | .ok (id, t) => (.ok id, t)
  | .error e => (.error e, t)

/-- What a request for an id may come to. -/
structure Allocation (s : Store) (t : Tree) (answer : Except StoreError UInt32) (t' : Tree) : Prop where
  /-- The id is the least that can be given out, and its directory is made. -/
  ok : ∀ id, answer = .ok id → ∃ base, t.directory? s.userRoot = some base ∧ Vacant t base id.toNat ∧
    (∀ other, Vacant t base other → id.toNat ≤ other) ∧ Granted t base id.toNat t'
  /-- Where there is no id the tree stays as it is. -/
  error : ∀ e, answer = .error e → t' = t ∧ (e = .noMoreIds ∨ ∃ detail, e = .io detail)
  /-- Unless the system has a fault, there are no more ids just if the user root is no directory or no
  id is vacant. -/
  noMoreIds : (∀ detail, answer ≠ .error (.io detail)) →
    (answer = .error .noMoreIds ↔ t.directory? s.userRoot = none ∨
      ∃ base, t.directory? s.userRoot = some base ∧ ∀ id, ¬Vacant t base id)
  /-- The only fault of the system is that it does not take the path of an id. -/
  io : ∀ detail, answer = .error (.io detail) → ∃ id ≤ maxUser, ¬s.Fits id
  /-- The loop that looks for the id comes to an end, before it has gone past the largest id. -/
  ends : ∀ highest, s.highestUser t = .ok highest → highest < maxUser →
    ∃ tries ≤ maxUser - highest, Tries s t (highest + 1) tries (s.allocate t)

/-- With the highest id known, allocating is the loop that starts one above it. -/
theorem allocate_eq {highest : Nat} (h : s.highestUser t = .ok highest) :
    s.allocate t = s.claim t (highest + 1) (maxUser - highest) := by
  rw [allocate, h]
  rfl

/-- What allocating comes to, with the highest id that was given out. -/
theorem allocate_cases (h : t.Proper) :
    (t.directory? s.userRoot = none ∧ s.allocate t = .error .noMoreIds) ∨
      ∃ base highest, t.directory? s.userRoot = some base ∧
        (∀ id, highest < id ↔ 0 < id ∧ ∀ other, Denoted t base other → other < id) ∧
        Claimed s t base (highest + 1) (s.allocate t) := by
  cases hbase : t.directory? s.userRoot with
  | none =>
    left
    rw [allocate, highestUser, hbase]
    exact ⟨rfl, rfl⟩
  | some base =>
    right
    obtain ⟨highest, hhighest, hmax, hspec⟩ := highestUser_spec h hbase
    refine ⟨base, highest, rfl, hspec, ?_⟩
    rw [allocate_eq hhighest]
    -- Above the largest id there is nothing to try.
    by_cases hlast : highest = maxUser
    · rw [hlast, Nat.sub_self]
      exact .spent fun other hlow hhigh => by omega
    · have hfirst : highest + 1 ≤ maxUser := by omega
      have hcount : highest + 1 + (maxUser - highest) = maxUser + 1 := by omega
      obtain ⟨tries, -, htries⟩ := tries_claim s t hcount hfirst
      exact claimed_of_tries hbase hfirst htries

/-- A request that gets an id leaves the tree with the new directory. -/
theorem request_of_ok {id : UInt32} (h : s.allocate t = .ok (id, t')) : s.request t = (.ok id, t') := by
  rw [request, h]

/-- A request that fails leaves the tree as it was. -/
theorem request_of_error {e : StoreError} (h : s.allocate t = .error e) :
    s.request t = (.error e, t) := by
  rw [request, h]

/-- What a request for an id comes to. -/
theorem allocation (h : t.Proper) : Allocation s t (s.request t).1 (s.request t).2 := by
  have hends : ∀ highest, s.highestUser t = .ok highest → highest < maxUser →
      ∃ tries ≤ maxUser - highest, Tries s t (highest + 1) tries (s.allocate t) := by
    intro highest hhighest hlt
    rw [allocate_eq hhighest]
    exact tries_claim s t (by omega) (by omega)
  -- Where no id is vacant there is nothing else to say.
  have hspent (heq : s.allocate t = .error .noMoreIds)
      (hnone : t.directory? s.userRoot = none ∨
        ∃ base, t.directory? s.userRoot = some base ∧ ∀ id, ¬Vacant t base id) :
      Allocation s t (s.request t).1 (s.request t).2 := by
    rw [request_of_error heq]
    refine ⟨fun id hid => ?_, fun e he => ?_, fun _ => ⟨fun _ => hnone, fun _ => rfl⟩,
      fun detail hdetail => ?_, hends⟩
    · cases hid
    · cases he
      exact ⟨rfl, .inl rfl⟩
    · cases hdetail
  rcases allocate_cases (s := s) h with ⟨hnone, heq⟩ | ⟨base, highest, hbase, hspec, hclaimed⟩
  · exact hspent heq (.inl hnone)
  · generalize heq : s.allocate t = outcome at hclaimed
    cases hclaimed with
    | @made id hlow hmax hfree htaken =>
      have hvacant : Vacant t base id :=
        ⟨((hspec id).mp hlow).1, hmax, ((hspec id).mp hlow).2, hfree⟩
      have hid : (UInt32.ofNat id).toNat = id := toNat_ofNat_length hmax
      rw [request_of_ok heq]
      refine ⟨fun id' hid' => ?_, fun e he => ?_, fun _ => ⟨fun he => ?_, ?_⟩,
        fun detail hdetail => ?_, hends⟩
      · cases hid'
        rw [hid]
        refine ⟨base, hbase, hvacant, fun other hother => ?_, granted_set h hfree⟩
        -- A smaller one from the candidate on has an entry, and one before it is not above all.
        have habove := (hspec other).mpr ⟨hother.pos, hother.above⟩
        by_cases hlt : other < id
        · exact absurd hother.free (htaken other habove hlt)
        · exact Nat.le_of_not_lt hlt
      · cases he
      · cases he
      · rintro (hnone | ⟨base', hbase', hnone⟩)
        · rw [hbase] at hnone
          cases hnone
        · rw [hbase] at hbase'
          cases hbase'
          exact absurd hvacant (hnone id)
      · cases hdetail
    | spent htaken =>
      refine hspent heq (.inr ⟨base, hbase, fun id hvacant => ?_⟩)
      have habove := (hspec id).mpr ⟨hvacant.pos, hvacant.above⟩
      exact htaken id habove hvacant.le hvacant.free
    | refused hmax hlong fault =>
      rw [request_of_error heq]
      refine ⟨fun id hid => ?_, fun e he => ?_, fun hsound => absurd rfl (hsound _),
        fun _ _ => ⟨_, hmax, hlong⟩, hends⟩
      · cases hid
      · cases he
        exact ⟨rfl, .inr ⟨_, rfl⟩⟩

/-! ### Runs -/

/-- What is asked of a store. -/
inductive Call
  | allocate
  | save (kind : FileKind) (user : UInt32) (name : String) (data : List UInt8)
  | openFile (kind : FileKind) (user : UInt32) (name : String)

/-- The answer to a call. -/
inductive Answer
  | allocated (answer : Except StoreError UInt32)
  | saved (answer : Except StoreError Unit)
  | opened (answer : Except StoreError (Place × UInt32))

/-- The id that an answer gives out. -/
def Answer.id? : Answer → Option UInt32
  | .allocated (.ok id) => some id
  | _ => none

/-- The answer to a call, with the tree after it. -/
def perform (s : Store) (t : Tree) : Call → Answer × Tree
  | .allocate =>
      let (answer, t) := s.request t
      (.allocated answer, t)
  | .save kind user name data =>
      match s.save t kind user name data with
      | .ok t => (.saved (.ok ()), t)
      | .error e => (.saved (.error e), t)
  | .openFile kind user name => (.opened (s.openFile t kind user name), t)

/-- The tree after one call after another. -/
def after (s : Store) (t : Tree) (calls : List Call) : Tree :=
  calls.foldl (fun t call => (s.perform t call).2) t

/-- The ids that are given out in the course of calls, in this order. -/
def ids (s : Store) (t : Tree) : List Call → List UInt32
  | [] => []
  | call :: rest =>
      let (answer, t) := s.perform t call
      answer.id?.toList ++ s.ids t rest

/-- The directory that is claimed is that of the id which is given out. -/
theorem createDirectory_of_claim {count : Nat} {id : UInt32} (hcount : count ≤ maxUser + 1 - candidate)
    (h : s.claim t candidate count = .ok (id, t')) : t.createDirectory (s.userDirectory id) = .ok t' := by
  -- The tries before the last one have not changed the tree, so the induction is on them.
  induction count generalizing candidate with
  | zero => cases h
  | succ count ih =>
    rw [claim] at h
    split at h
    · next hmade =>
      cases h
      rw [userDirectory, toNat_ofNat_length (by simp only [maxLength, maxUser] at hcount ⊢; omega)]
      exact hmade
    · exact ih (by omega) h
    · cases h

/-- The directory that allocating makes is the one of the id it gives out. -/
theorem createDirectory_of_allocate {id : UInt32} (h : s.allocate t = .ok (id, t')) :
    t.createDirectory (s.userDirectory id) = .ok t' := by
  cases hhighest : s.highestUser t with
  | error e =>
    rw [allocate, hhighest] at h
    cases h
  | ok highest =>
    rw [allocate_eq hhighest] at h
    exact createDirectory_of_claim (by omega) h

/-- A file that is stored is written at its path. -/
theorem writeFile_of_save {kind : FileKind} {user : UInt32} {name : String} {data : List UInt8} {path : Path}
    (h : s.save t kind user name data = .ok t') (hpath : s.resolve kind user name = .ok path) :
    t.writeFile path { bytes := data } = .ok t' := by
  obtain ⟨hplain, dir, hdir, rfl⟩ := resolve_eq_ok hpath
  rw [save_eq hplain hdir] at h
  split at h
  -- A store of files that fails has written nothing, so only a write that worked is left.
  · cases hmade : t.writeFile (dir.child name) { bytes := data } with
    | error fault =>
      rw [hmade] at h
      cases h
    | ok made =>
      rw [hmade] at h
      cases h
      rfl
  · cases h

/-- Every call leaves a tree proper and takes no directory away. -/
theorem perform_extends (h : t.Proper) (call : Call) :
    (s.perform t call).2.Proper ∧ t.Extends (s.perform t call).2 := by
  have hset {place : Place} {node : Node} (hsite : t.Site place) :
      (t.set place node).Proper ∧ t.Extends (t.set place node) :=
    ⟨hsite.proper_set h node, hsite.extends_set node⟩
  have hsame : t.Proper ∧ t.Extends t := ⟨h, .refl t⟩
  -- An id and a file change one place each, at which there may be something of that kind. To open a file
  -- changes nothing.
  cases call with
  | allocate =>
    show (s.request t).2.Proper ∧ t.Extends (s.request t).2
    cases hallocate : s.allocate t with
    | error e =>
      rw [request_of_error hallocate]
      exact hsame
    | ok made =>
      obtain ⟨id, t'⟩ := made
      rw [request_of_ok hallocate]
      obtain ⟨place, hsite, rfl⟩ :=
        Tree.site_of_createDirectory h (createDirectory_of_allocate hallocate)
      exact hset hsite
  | save kind user name data =>
    simp only [perform]
    split
    · next t' hsave =>
      obtain ⟨path, hpath, -⟩ := stored_of_save hsave
      obtain ⟨place, hsite, rfl⟩ := Tree.site_of_writeFile h (writeFile_of_save hsave hpath)
      exact hset hsite
    · exact hsame
  | openFile kind user name => exact hsame

/-- Calls leave a tree proper. -/
theorem proper_after (h : t.Proper) (calls : List Call) : (s.after t calls).Proper := by
  induction calls generalizing t with
  | nil => exact h
  | cons call rest ih => exact ih (perform_extends h call).1

/-- An id that a directory denotes is denoted as long as no directory is taken away. -/
theorem Denoted.of_extends {id : Nat} (h : t.Extends t') (hid : Denoted t base id) :
    Denoted t' base id := by
  obtain ⟨name, hget, hread⟩ := hid
  exact ⟨name, h _ hget, hread⟩

/-- The directory that was made for an id denotes this id. -/
theorem Granted.denoted {id : Nat} (h : Granted t base id t') (hmax : id ≤ maxUser) :
    Denoted t' base id := ⟨toString id, h.here, Text.Decimal.natural?_toString hmax⟩

/-- Only a request for an id gives one out. -/
theorem mem_id?_perform {call : Call} {id : UInt32} (h : id ∈ (s.perform t call).1.id?.toList) :
    (s.request t).1 = .ok id ∧ (s.perform t call).2 = (s.request t).2 := by
  cases call with
  | allocate =>
    change id ∈ (Answer.allocated (s.request t).1).id?.toList at h
    cases hanswer : (s.request t).1 with
    | error e =>
      rw [hanswer] at h
      cases h
    | ok first =>
      rw [hanswer] at h
      cases List.mem_singleton.mp h
      exact ⟨rfl, rfl⟩
  | save kind user name data =>
    simp only [perform] at h
    split at h <;> cases h
  | openFile kind user name => cases h

/-- Every id of a run is above all ids that were denoted before. -/
theorem lt_of_mem_ids (h : t.Proper) (hbase : t.directory? s.userRoot = some base) {calls : List Call}
    {id : UInt32} (hid : id ∈ s.ids t calls) {other : Nat} (hother : Denoted t base other) :
    other < id.toNat := by
  -- By induction on the calls, for every tree they may begin with.
  induction calls generalizing t with
  | nil => cases hid
  | cons call rest ih =>
    rcases List.mem_append.mp hid with hfirst | hrest
    · obtain ⟨base', hbase', hvacant, -, -⟩ := (allocation h).ok id (mem_id?_perform hfirst).1
      rw [hbase] at hbase'
      cases hbase'
      exact hvacant.above other hother
    · -- Whatever the call did, the directory is still there.
      obtain ⟨hproper, hextends⟩ := perform_extends (s := s) h call
      exact ih hproper (Tree.directory?_of_extends hextends hbase) hrest (hother.of_extends hextends)

/-- The ids of a run ascend. -/
theorem ids_ascend (h : t.Proper) (calls : List Call) : (s.ids t calls).Pairwise (· < ·) := by
  induction calls generalizing t with
  | nil => exact .nil
  | cons call rest ih =>
    obtain ⟨hproper, hextends⟩ := perform_extends (s := s) h call
    refine List.pairwise_append.mpr ⟨?_, ih hproper, fun id hid later hlater => ?_⟩
    · have hone (id? : Option UInt32) : id?.toList.Pairwise (· < ·) := by
        cases id? with
        | none => exact .nil
        | some id => exact List.pairwise_singleton _ _
      exact hone _
    -- The directory of an id that is given out denotes it for all later calls.
    · obtain ⟨hanswer, htree⟩ := mem_id?_perform hid
      obtain ⟨base, hbase, hvacant, -, hgranted⟩ := (allocation h).ok id hanswer
      rw [← htree] at hgranted
      exact UInt32.lt_iff_toNat_lt.mpr (lt_of_mem_ids hproper
        (Tree.directory?_of_extends hextends hbase) hlater (hgranted.denoted hvacant.le))

/-- At any time of any run a request for an id comes to what it should, and the ids that are given out
in the course of it ascend. -/
theorem allocation_in_any_run (s : Store) (h : t.Proper) (calls : List Call) :
    Allocation s (s.after t calls) (s.request (s.after t calls)).1 (s.request (s.after t calls)).2 ∧
      (s.ids t calls).Pairwise (· < ·) :=
  ⟨allocation (proper_after h calls), ids_ascend h calls⟩

/-- A directory whose name starts with zeros counts, a file does not but is in the way. -/
theorem allocation_past_a_file :
    let t : Tree := ⟨[(["user"], .directory), (["user", "007"], .directory), (["user", "8"], .file {}),
      (["user", "12x"], .directory)]⟩
    let s : Store := { dlcRoot := ⟨["dlc"]⟩, userRoot := ⟨["user"]⟩ }
    let calls : List Call := [.allocate, .save .user 9 "n" [1], .allocate]
    t.Proper ∧ s.ids t calls = [9, 10] ∧
      Allocation s (s.after t calls) (s.request (s.after t calls)).1 (s.request (s.after t calls)).2 ∧
      (s.ids t calls).Pairwise (· < ·) := by
  intro t s calls
  have hproper : t.Proper := by
    refine ⟨by decide, by decide⟩
  exact ⟨hproper, by decide +kernel, allocation_in_any_run s hproper calls⟩

end Depot.Storage.Store
