import Depot.Connection.Link

/-!
# Scripted peers

A script says what a peer does, step by step, and how long it waits after each step. A series of scripts
plays against one slot, which is recycled between two of them unless the next one asks for it as it is.
-/

namespace Depot.Connection

/-- What a peer does besides writing. -/
inductive Act
  /-- It writes no more. -/
  | endWriting
  /-- It leaves. -/
  | leave
  /-- It is the server that begins to shut down. -/
  | shutdown
  deriving DecidableEq, Repr

/-- One step of a script. -/
structure Step where
  /-- What somebody else does to the storage. -/
  prepare : Storage.Tree → Storage.Tree := id
  /-- What the peer writes. -/
  bytes : List UInt8 := []
  act : Option Act := none
  /-- How long it waits, in milliseconds. -/
  wait : Nat := 1
  /-- Whether it reads nothing while it waits. -/
  hold : Bool := false

/-- What a peer has seen after a step. -/
structure Report where
  /-- What became of its bytes, if it wrote any. -/
  written : Option Link.WriteResult
  packets : List Packet
  /-- The bytes of a frame that has come in part. -/
  partialBytes : Nat
  sawEnd : Bool
  /-- Whether the server has done with the connection. -/
  served : Bool
  deriving DecidableEq, Repr

/-- A script over a link of a given kind. -/
structure Script where
  steps : List Step
  wire : Wire := {}
  /-- Whether the slot is used as the last connection left it. -/
  stale : Bool := false

/-- Plays one step. The peer reads only while it waits, and it writes nothing once it has left. -/
def Step.play (s : Step) (l : Link) : Report × Link :=
  let l := l.modifyTree s.prepare
  -- Nothing is read while the peer writes, so that a server that waits for room does not go on meanwhile.
  let (written, l) :=
    if s.bytes.isEmpty || l.wire.gone then (none, l)
    else
      let (result, l) := (l.listen false).write s.bytes
      (some result, l)
  let l := match s.act with
    | none => l
    | some .endWriting => l.endWriting
    | some .leave => l.hangUp
    | some .shutdown => l.shutDown
  let (packets, l) := ((l.listen !s.hold).collect.pass s.wait).look
  ({ written, packets
     partialBytes := l.partialBytes
     sawEnd := l.peer.sawEnd
     served := l.isClosed }, l)

/-- Plays steps one after another. -/
def Link.playAll (l : Link) : List Step → List Report × Link
  | [] => ([], l)
  | s :: rest =>
      let (report, l) := s.play l
      let (reports, l) := l.playAll rest
      (report :: reports, l)

/-- What is left of a script that was played. -/
structure Outcome where
  reports : List Report
  /-- The code that the connection was suspended with. -/
  code : ErrorCode
  slot : Slot
  tree : Storage.Tree
  metrics : Metrics

/-- Plays a script against a slot. Only an interval without ticks makes that impossible. -/
def Script.play? (s : Script) (config : Config) (store : Storage.Store) (slot : Slot)
    (tree : Storage.Tree) (metrics : Metrics) : Option Outcome :=
  let link (server : ServerEnd) : Link := { server, wire := s.wire, readBuffer := config.readBuffer }
  match Connection.start config store tree metrics false slot with
  | .error .noInterval => none
  -- Nobody is at the other end, but the steps are played all the same, and the storage is prepared by them.
  | .error .stale =>
      let (reports, _) := (link .refused).playAll s.steps
      let tree := s.steps.foldl (fun tree step => step.prepare tree) tree
      some { reports, code := .unknown, slot, tree, metrics }
  | .ok c =>
      let (reports, l) := (link (.serving c)).playAll s.steps
      match l.finish.server with
      | .refused => none
      | .serving c =>
          some {
            reports
            code := c.verdict.getD .unknown
            slot := c.leave slot
            tree := c.scene.tree
            metrics := c.scene.metrics }

/-- What a series of scripts comes to. -/
structure Course where
  slot : Slot
  tree : Storage.Tree
  metrics : Metrics := {}
  deriving DecidableEq, Repr

/-- What is seen of one script of a series. -/
structure Episode where
  /-- Whether the slot was pristine after it was recycled, if it was. -/
  recycled : Option Bool
  reports : List Report
  code : ErrorCode
  /-- The slot afterwards. -/
  slot : Slot

/-- Plays scripts one after another. The connections are numbered from `number` on. -/
def Course.playFrom (config : Config) (store : Storage.Store) (c : Course) (number : Nat) :
    List Script → Option (List Episode × Course)
  | [] => some ([], c)
  | s :: rest => do
      let again := number > 1 && !s.stale
      let slot := if again then c.slot.recycle else c.slot
      let recycled := if again then some slot.isPristine else none
      let o ← s.play? config store (slot.attach number none) c.tree c.metrics
      let c : Course := { slot := o.slot, tree := o.tree, metrics := o.metrics }
      let (episodes, c) ← c.playFrom config store (number + 1) rest
      return ({ recycled, reports := o.reports, code := o.code, slot := o.slot } :: episodes, c)

/-- Plays scripts one after another against a new slot, if there is room for one. -/
def Course.play (config : Config) (store : Storage.Store) (tree : Storage.Tree)
    (scripts : List Script) : Option (List Episode × Course) :=
  (Slot.new? config).bind fun slot =>
    ({ slot, tree } : Course).playFrom config store 1 scripts

end Depot.Connection
