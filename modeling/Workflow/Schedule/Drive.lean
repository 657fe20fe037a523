import Workflow.Schedule.Prepare
import Workflow.Schedule.Table

/-!
# Driving a run

A run is driven by passes. While it is not cancelled, a pass decides every pending node whose
predecessors are all terminal and starts ready nodes while workers are free; once it is cancelled, a
pass skips every node that has not started. Between passes the drive waits for an event: the ending
of a body, the cancellation, or the end of the grace period. It is over when no body runs after a
pass.

A body runs in a task. The tasks that have been spawned and not been joined are kept apart from the
map that tells the node for which a task runs, and both apart from the node table. The state keeps
the writes to the tracker and the invocations of bodies in order, so that both can be carried out by
whoever drives.
-/
namespace Workflow

/-- What stays the same while a run is driven. -/
structure Plan where
  manifest : Manifest
  graph : TaskGraph
  /-- The nodes in topological order. -/
  order : List String
  run : String
  workers : Nat
  /-- Refuses nodes that have no body. -/
  resolveBody : String → BodyRef → Outcome Unit
  /-- The location of an artifact output of a node. -/
  location : String → String → String

/-- How a body ends by itself. -/
inductive Ending where
  | returned (outputs : TaskOutputs)
  | failed (reason : String)
  | panicked

/-- How a task is joined: its body has ended, or the task was told to stop before that. -/
inductive Joined where
  | ended (ending : Ending)
  | aborted

/-- A body that is started, the task in which it runs, and what it receives. -/
structure Invocation where
  task : Nat
  body : BodyRef
  context : TaskContext
  deriving Repr

/-- What a node makes of the ending of its body: its checked outputs, or the fault with which it
fails. -/
def ManifestNode.results (n : ManifestNode) : Ending → Except NodeFault (Dict Value)
  | .returned outputs => checkOutputs n.outputs outputs Dict.empty
  | .failed reason => .error (.body reason)
  | .panicked => .error .panicked

/-- The state of a run that is driven. -/
structure Drive where
  table : NodeTable
  artifacts : ArtifactStore
  /-- How many tasks have been spawned; the next task takes this number. -/
  spawned : Nat
  /-- The tasks that have been spawned and not been joined, in the order of their start. -/
  tasks : List Nat
  /-- The node for which each task runs. -/
  running : List (Nat × String)
  /-- The cancellation has been seen. -/
  cancelling : Bool
  /-- The grace period is over and the bodies have been told to stop. -/
  aborted : Bool
  /-- Node states to be recorded, the latest first. -/
  writes : List (String × NodeState)
  /-- Bodies started, the latest first. -/
  invocations : List Invocation

namespace Drive

/-- The state before the first pass. -/
def start (m : Manifest) (params : Dict Scalar) (nodes : Dict NodeState) : Drive :=
  ⟨nodes, seedArtifacts m params, 0, [], [], false, false, [], []⟩

/-- Change the state of a node and note the write; there is nothing to do for a node that is not in
the first status. -/
def move? (d : Drive) (id : String) (source target : NodeStatus) (now : Instant)
    (details : NodeState → NodeState) : Option Drive :=
  (d.table.transition? id source target now details).map fun (table, state) =>
    { d with table, writes := (id, state) :: d.writes }

def move (d : Drive) (id : String) (source target : NodeStatus) (now : Instant)
    (details : NodeState → NodeState) : Drive :=
  (d.move? id source target now details).getD d

def withReason (reason : String) (n : NodeState) : NodeState := { n with reason := some reason }

/-- What the predecessors of a node say about it. -/
inductive Readiness where
  | blocked (reason : String)
  | waiting
  | clear
  deriving DecidableEq, Repr

/-- The first predecessor that failed or was skipped blocks; otherwise all must have succeeded. -/
def readiness (table : NodeTable) : List String → Bool → Readiness
  | [], waiting => if waiting then .waiting else .clear
  | dep :: rest, waiting =>
    match table.status? dep with
    | some .succeeded => readiness table rest waiting
    | some .failed => .blocked ("upstream node '" ++ dep ++ "' failed")
    | some .skipped => .blocked ("upstream node '" ++ dep ++ "' was skipped")
    | _ => readiness table rest true

/-- Decide a pending node, if it can be decided. -/
def resolveNode (p : Plan) (now : Instant) (d : Drive) (id : String) : Drive :=
  if d.table.status? id ≠ some .pending then d
  else
    match p.manifest.node? id with
    | none => d
    | some n =>
      -- in topological order all predecessors have had their turn in this pass
      match readiness d.table (p.graph.dependencies id) false with
      | .waiting => d
      | .blocked reason => d.move id .pending .skipped now (withReason reason)
      | .clear =>
        match clausesHold d.artifacts n.condition.clauses with
        | .ok true => d.move id .pending .ready now fun s => { s with reason := none }
        | .ok false =>
          d.move id .pending .skipped now
            (withReason ("condition not met: " ++ n.condition.display))
        | .error f => d.move id .pending .failed now (withReason f.message)

def resolvePending (p : Plan) (now : Instant) (d : Drive) : Drive :=
  p.order.foldl (resolveNode p now) d

/-- The inputs of a node that has a body. -/
def prepare (p : Plan) (n : ManifestNode) (store : ArtifactStore) :
    Except NodeFault (Dict Value) :=
  match p.resolveBody n.id n.body with
  | .error f => .error (.unavailable f.message)
  | .ok () => resolveInputs store n.inputs Dict.empty

/-- What the body of a node receives. -/
def contextOf (p : Plan) (n : ManifestNode) (inputs : Dict Value) : TaskContext where
  run := p.run
  node := n.id
  inputs := inputs
  locations := Dict.ofList ((n.outputs.filter fun o => o.dataType.isArtifact).map fun o =>
    (o.name, p.location n.id o.name))
  resources := n.resources

/-- Spawn a task for a node and enter it into the map of running nodes. -/
def spawn (d : Drive) (id : String) (body : BodyRef) (context : TaskContext) : Drive :=
  { d with
    spawned := d.spawned + 1
    tasks := d.tasks ++ [d.spawned]
    running := d.running ++ [(d.spawned, id)]
    invocations := ⟨d.spawned, body, context⟩ :: d.invocations }

/-- Start a ready node if a worker is free. A node that cannot be prepared fails. -/
def startNode (p : Plan) (now : Instant) (d : Drive) (id : String) : Drive :=
  if p.workers ≤ d.tasks.length || d.table.status? id ≠ some .ready then d
  else
    match p.manifest.node? id with
    | none => d
    | some n =>
      match prepare p n d.artifacts with
      | .error f => d.move id .ready .failed now (withReason f.message)
      | .ok inputs =>
        -- a node that cannot be claimed runs already
        match d.move? id .ready .running now fun s => s with
        | none => d
        | some d => d.spawn id n.body (contextOf p n inputs)

def startReady (p : Plan) (now : Instant) (d : Drive) : Drive :=
  p.order.foldl (startNode p now) d

/-- Mark a node as cancelled. -/
def cancelled (n : NodeState) : NodeState :=
  { n with cancelled := true, reason := some "cancelled" }

def skipNode (now : Instant) (d : Drive) (id : String) : Drive :=
  (d.move id .pending .skipped now cancelled).move id .ready .skipped now cancelled

def skipUnstarted (p : Plan) (now : Instant) (d : Drive) : Drive :=
  p.order.foldl (skipNode now) d

/-- One pass; `cancel` tells whether the run has been cancelled by now. -/
def pass (p : Plan) (cancel : Bool) (now : Instant) (d : Drive) : Drive :=
  if cancel then skipUnstarted p now { d with cancelling := true }
  else startReady p now (resolvePending p now d)

def isIdle (d : Drive) : Bool := d.tasks.isEmpty

/-- Take a joined task off the books. -/
def join (d : Drive) (task : Nat) : Drive :=
  { d with tasks := d.tasks.erase task, running := d.running.filter fun r => r.1 ≠ task }

/-- Take a joined task into account. -/
def finish (p : Plan) (now : Instant) (d : Drive) (task : Nat) (joined : Joined) : Drive :=
  match d.running.lookup task with
  -- a task that belongs to no node changes none
  | none => d.join task
  | some id =>
    let d := d.join task
    match joined with
    | .aborted => d.move id .running .skipped now cancelled
    | .ended ending =>
      match p.manifest.node? id with
      | none => d
      | some n =>
        match n.results ending with
        | .error f => d.move id .running .failed now (withReason f.message)
        | .ok values =>
          { d with artifacts := storeOutputs n.outputs values d.artifacts }.move id .running
            .succeeded now fun s => { s with outputs := values }

/-- The grace period is over: all bodies are told to stop. -/
def abort (d : Drive) : Drive := { d with aborted := true }

end Drive
end Workflow
