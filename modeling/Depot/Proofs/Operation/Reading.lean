import Depot.Proofs.Operation.Downloads
import Depot.Proofs.Storage.Confinement

/-!
# What a download reads

A download that came to be in the ordinary way looks for the file that it was asked for and then reads
it, block by block. It sees nothing of the tree but what is on the ways to the files of the store: where
two trees agree on these it does the same in both. And what it reads the content of is a file of the
store, with a plain name, whatever was asked for.

## Key results

- `Arises.fetching`: what a download is about, at any stage
- `Arises.step_withTree`: a step in another tree that agrees on the ways to the files of the store
-/

namespace Depot

open Storage

namespace Operation

/-! ### The files of a store -/

/-- What operations may come to be, whatever they are given and whatever happens between their steps. -/
inductive Arises (service : Service) : Operation → Prop
  | opened (id : UInt8) (kind : OperationKind) : Arises service { id, kind }
  | given {op : Operation} (hop : Arises service op) (inbox : Queue Packet) :
      Arises service { op with inbox }
  | stepped {op op' : Operation} {scene scene' : Scene} (hop : Arises service op)
      (h : op.step service scene = .running op' scene') : Arises service op'

/-- The stages of a download, which sends nothing but a file of the store. -/
inductive Fetching (service : Service) : Stage → Prop
  | opening : Fetching service .opening
  | locating (kind : FileKind) (r : FileRequest) : Fetching service (.locating kind r)
  | sending {t : Transfer} {kind : FileKind} {user : UInt32} {name : String} {path : Path}
      (hpath : service.store.resolve kind user name = .ok path) (hplace : t.place = path.destination) :
      Fetching service (.sending t)

/-- What is sent is the file of some name. -/
theorem Fetching.place {service : Service} {t : Transfer} (h : Fetching service (.sending t)) :
    ∃ kind user name, service.store.filePlace? kind user name = some t.place := by
  cases h with
  | @sending _ kind user name path hpath hplace =>
    refine ⟨kind, user, name, ?_⟩
    rw [hplace]
    exact Store.filePlace?_of_resolve hpath

section

variable {service : Service} {op : Operation}

/-- What was located is a file of the store. -/
private theorem fetching_of_locate {kind : FileKind} {r : FileRequest} {scene : Scene} {t : Transfer}
    (h : Download.locate service scene kind r = .ok t) : Fetching service (.sending t) := by
  obtain ⟨path, content, hpath, hfound⟩ := Download.locate_eq_ok h
  exact .sending hpath (Tree.eq_reached_of_walk (Tree.locate_eq_ok_iff.mp hfound).2)

/-- A turn of a download leads to a stage of a download. -/
private theorem turn_fetching (hkind : op.kind = .download) (h : Fetching service op.stage)
    (scene : Scene) :
    Turn.Ensures True (fun stage _ _ => Fetching service stage) (fun _ _ => True)
      (op.turn service scene) := by
  -- A download is never at a stage of another kind of operation, so three of the stages do not occur.
  cases hstage : op.stage with
  | opening =>
    simp only [turn, hstage, hkind]
    refine Turn.ensures_read (fun _ => trivial) trivial fun p rest _ _ _ => ?_
    exact Turn.ensures_proceed (fun _ _ => trivial) fun request _ => .locating request.1 request.2
  | locating kind r =>
    simp only [turn, hstage]
    exact Turn.ensures_proceed (fun _ _ => trivial) fun t ht => fetching_of_locate ht
  | sending t =>
    rw [hstage] at h
    cases h with
    | sending hpath hplace =>
      simp only [turn, hstage, Download.sendBlock]
      refine Turn.ensures_proceed (fun _ _ => trivial) fun block _ => ?_
      refine Turn.ensures_proceed (fun _ _ => trivial) fun scene₁ _ => ?_
      split
      · trivial
      · split
        · trivial
        · split
          · trivial
          · -- Another block of the same file follows.
            exact .sending hpath hplace
  | collecting u => rw [hstage] at h; cases h
  | saving u => rw [hstage] at h; cases h
  | allocating => rw [hstage] at h; cases h

/-- What a download sends is a file of the store. -/
theorem Arises.fetching (h : op.Arises service) (hkind : op.kind = .download) :
    Fetching service op.stage := by
  -- Along the life of the operation. Packets in its inbox do not move it to another stage.
  induction h with
  | opened id kind => exact .opening
  | given _ inbox ih => exact ih hkind
  | @stepped op op' scene scene' _ hstep ih =>
    rw [(step_running_same hstep).2] at hkind
    have hturn := turn_fetching hkind (ih hkind) scene
    obtain ⟨stage, inbox, hnext, rfl⟩ := exists_next_of_running hstep
    rwa [hnext] at hturn

end

/-! ### The same in another tree -/

/-- A turn with another tree left behind. -/
def Turn.withTree (tree : Tree) : Turn → Turn
  | .wait => .wait
  | .next stage inbox scene => .next stage inbox { scene with tree }
  | .done result scene => .done result { scene with tree }

/-- A step with another tree left behind. -/
def Progress.withTree (tree : Tree) : Progress → Progress
  | .waiting => .waiting
  | .running op scene => .running op { scene with tree }
  | .ended outcome scene => .ended outcome { scene with tree }

section

variable {service : Service} {op : Operation} (scene : Scene) (tree : Tree)

/-- What is said does not depend on the files. -/
theorem Scene.send?_withTree (id : UInt8) (p : Packet) :
    Scene.send? { scene with tree } id p = (scene.send? id p).map fun s => { s with tree } := by
  have hsame : Scene.reachesPeer { scene with tree } = scene.reachesPeer := rfl
  simp only [Scene.send?, hsame]
  split
  · rfl
  · rfl

/-- Announcing a file does not depend on the files. -/
theorem Download.announce_withTree (id : UInt8) (t : Transfer) :
    announce id t { scene with tree } = (announce id t scene).map fun s => { s with tree } := by
  unfold announce
  split
  · rfl
  · cases infoPacket t with
    | error failure => rfl
    | ok p =>
      simp only [Scene.send?_withTree]
      cases scene.send? id p with
      | none => rfl
      | some scene₁ => rfl

/-- Reporting a result does not depend on the files. -/
theorem conclude_withTree (result : Except Failure Unit) :
    op.conclude result { scene with tree } = { op.conclude result scene with tree } := by
  cases result with
  | ok _ => rfl
  | error failure =>
    simp only [conclude, report]
    cases failure.code? with
    | none => rfl
    | some code =>
      simp only [Scene.send?_withTree]
      cases scene.send? op.id (.error op.kind.request code op.id) with
      | none => rfl
      | some scene₁ => rfl

/-- A check with the same result goes on in the same way. -/
theorem Turn.withTree_proceed {α : Type} (result : Except Failure α) {go go' : α → Turn}
    (h : ∀ a, result = .ok a → go' a = (go a).withTree tree) :
    Turn.proceed { scene with tree } result go' = (Turn.proceed scene result go).withTree tree := by
  cases hresult : result with
  | error failure => rfl
  | ok a => exact h a hresult

/-- What is read does not depend on the files. -/
theorem Turn.withTree_read (inbox : Queue Packet) {go go' : Packet → Queue Packet → Turn}
    (h : ∀ p rest, go' p rest = (go p rest).withTree tree) :
    Turn.read inbox { scene with tree } go' = (Turn.read inbox scene go).withTree tree := by
  unfold Turn.read
  split
  · rfl
  · rfl
  · split
    · rfl
    · exact h _ _

variable {scene tree}

/-- A block is read in one place, so all other places may be different. -/
private theorem sendBlock_withTree {id : UInt8} {t : Transfer} {inbox : Queue Packet}
    (h : tree.get? t.place = scene.tree.get? t.place) :
    Download.sendBlock service id t inbox { scene with tree } =
      (Download.sendBlock service id t inbox scene).withTree tree := by
  simp only [Download.sendBlock, Download.readBlock_congr h, Download.announce_withTree]
  refine Turn.withTree_proceed scene tree _ fun block _ => ?_
  -- From here on the files do not come in: there is the session to be looked at, and something to be said.
  cases Download.announce id t scene with
  | error failure => rfl
  | ok scene₁ =>
    simp only [Except.map, Turn.proceed, Scene.send?_withTree]
    split
    · rfl
    · cases scene₁.send? id _ with
      | none => rfl
      | some scene₂ =>
        simp only [Option.map_some]
        split
        · rfl
        · rfl

/-- A turn of a download in another tree, if the two agree on the ways to the files of the store. -/
private theorem Fetching.turn_withTree (h : Fetching service op.stage) (hkind : op.kind = .download)
    (hagree : ∀ kind user name path, service.store.resolve kind user name = .ok path →
      Tree.AgreeOn path.way scene.tree tree) :
    op.turn service { scene with tree } = (op.turn service scene).withTree tree := by
  cases hstage : op.stage with
  | opening =>
    simp only [turn, hstage, hkind]
    refine Turn.withTree_read scene tree _ fun p rest => ?_
    exact Turn.withTree_proceed scene tree _ fun request _ => rfl
  | locating kind r =>
    have hlocate : Download.locate service { scene with tree } kind r =
        Download.locate service scene kind r :=
      Download.locate_congr fun path hpath => hagree kind r.user r.name path hpath
    simp only [turn, hstage, hlocate]
    exact Turn.withTree_proceed scene tree _ fun t _ => rfl
  | sending t =>
    rw [hstage] at h
    cases h with
    | sending hpath hplace =>
      simp only [turn, hstage]
      apply sendBlock_withTree
      rw [hplace]
      exact hagree _ _ _ _ hpath _ (Store.mem_way_of_resolve hpath)
  | collecting u => rw [hstage] at h; cases h
  | saving u => rw [hstage] at h; cases h
  | allocating => rw [hstage] at h; cases h

/-- A download reads nothing but what is on the ways to the files of the store. In another tree it does
the same step, if the two agree on these. -/
theorem Arises.step_withTree (h : op.Arises service) (hkind : op.kind = .download)
    (hagree : ∀ kind user name path, service.store.resolve kind user name = .ok path →
      Tree.AgreeOn path.way scene.tree tree) :
    op.step service { scene with tree } = (op.step service scene).withTree tree := by
  have hturn := (h.fetching hkind).turn_withTree hkind hagree
  unfold step
  rw [hturn]
  cases op.turn service scene with
  | wait => rfl
  | next stage inbox scene₁ => rfl
  | done result scene₁ => simp only [Turn.withTree, Progress.withTree, conclude_withTree]

end

end Operation

end Depot
