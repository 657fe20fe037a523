import Workflow.Orchestrator.Submission
import Workflow.Schedule.Drive

/-!
# Runs in virtual time

Runs are executed on a clock that counts milliseconds and moves only when everything waits, straight
to the next point at which something ends. A body is carried out when it is started; what it takes
and how it ends is known from then on. Bodies that end at one point do so in the order of their
start.
-/
namespace Workflow

/-- A task that has been spawned. -/
structure Job where
  task : Nat
  due : Nat
  joined : Joined

/-- How runs are executed on a state. -/
structure Engine (σ : Type) where
  services : Services σ
  /-- How many bodies of a run may run at once; at least one may. -/
  workers : Nat
  /-- Milliseconds for which bodies may go on after a cancellation. -/
  grace : Nat
  resolveBody : String → BodyRef → Outcome Unit
  /-- The location of an artifact output, by run, node and output. -/
  location : String → String → String → String
  /-- Carry out a body; the result is the time that it takes, and its ending. -/
  invoke : Invocation → StateM σ (Nat × Ending)
  /-- The instant at which the clock begins. -/
  origin : Instant

/-- A run that is being executed. -/
structure ActiveRun where
  manifest : Manifest
  run : Run
  drive : Drive
  begun : Bool
  cancelRequested : Bool
  /-- When the grace period ends. -/
  deadline : Option Nat
  /-- The bodies that run, in the order of their start. -/
  jobs : List Job

/-- How far a run has got. -/
inductive Progress where
  /-- It waits after a pass. -/
  | waiting (r : ActiveRun)
  /-- It is over; `waited` tells whether it ever had to wait. -/
  | over (time : Nat) (waited : Bool) (result : Outcome Run)

/-- Something that a run waits for. -/
inductive Awaited where
  | job (j : Job)
  | deadline
  deriving Inhabited

namespace ActiveRun

def start (m : Manifest) (run : Run) : ActiveRun :=
  ⟨m, run, .start m run.params run.nodes, false, false, none, []⟩

variable {σ : Type}

def plan (e : Engine σ) (r : ActiveRun) (order : List String) : Plan where
  manifest := r.manifest
  graph := r.manifest.graph
  order := order
  run := r.run.id
  workers := max 1 e.workers
  resolveBody := e.resolveBody
  location := e.location r.run.id

/-- Pass the noted node states on to the tracker, the oldest first. -/
def recordWrites (e : Engine σ) (r : ActiveRun) : StateM σ ActiveRun := do
  r.drive.writes.reverse.forM fun (node, state) => do
    -- a state that the tracker refuses is lost there
    let _ ← (e.services.tracker.updateNode r.run.id node state).run
  return { r with drive := { r.drive with writes := [] } }

/-- Carry out the bodies that a pass has started. -/
def carryOut (e : Engine σ) (time : Nat) (r : ActiveRun) : StateM σ ActiveRun := do
  let jobs ← r.drive.invocations.reverse.mapM fun i => do
    let (duration, ending) ← e.invoke i
    return (⟨i.task, time + duration, .ended ending⟩ : Job)
  return { r with jobs := r.jobs ++ jobs, drive := { r.drive with invocations := [] } }

/-- One pass at a point of the clock, with all that follows from it at once. -/
def turn (e : Engine σ) (p : Plan) (time : Nat) (r : ActiveRun) : StateM σ ActiveRun := do
  let r := { r with
    drive := r.drive.pass p r.cancelRequested (e.origin.addMillis time)
    -- the first pass that sees the cancellation begins the grace period
    deadline := if r.cancelRequested then r.deadline <|> some (time + e.grace) else r.deadline }
  (← r.recordWrites e).carryOut e time

/-- The first of the bodies that end next. -/
def nextJob? (jobs : List Job) : Option Job :=
  jobs.foldl (fun found j =>
    match found with
    | none => some j
    | some k => if j.due < k.due then some j else some k) none

/-- What the run waits for next, and when that is. -/
def next? (r : ActiveRun) : Option (Nat × Awaited) :=
  let deadline := if r.drive.aborted then none else r.deadline
  match nextJob? r.jobs, deadline with
  | none, none => none
  | some j, none => some (j.due, .job j)
  | none, some t => some (t, .deadline)
  -- a body that ends at the deadline is in time
  | some j, some t => some (if j.due ≤ t then (j.due, .job j) else (t, .deadline))

/-- What is waited for has come. At the deadline all bodies that run are stopped. -/
def receive (p : Plan) (now : Instant) (time : Nat) (r : ActiveRun) : Awaited → ActiveRun
  | .job j => { r with
      drive := r.drive.finish p now j.task j.joined
      jobs := r.jobs.filter fun k => k.task ≠ j.task }
  | .deadline => { r with
      drive := r.drive.abort
      jobs := r.jobs.map fun j => { j with due := time, joined := .aborted } }

/-- The run as it is when nothing runs any more. -/
def ended (r : ActiveRun) (now : Instant) : Run :=
  { r.run with nodes := r.drive.table, status := finalStatus r.drive.table, finishedAt := some now }

/-- Wait for what comes next, and go on from there; what comes after the limit is not waited for. -/
def await (e : Engine σ) (p : Plan) (limit : Option Nat) (r : ActiveRun)
    (next : Nat → ActiveRun → StateM σ Progress) : StateM σ Progress :=
  match r.next? with
  | none => return .waiting r
  | some (due, awaited) =>
    if limit.all fun t => due ≤ t then
      next due (r.receive p (e.origin.addMillis due) due awaited)
    else return .waiting r

/-- Pass and wait by turns, up to a limit if there is one. -/
def go (e : Engine σ) (p : Plan) (limit : Option Nat) (fuel time : Nat) (waited : Bool)
    (r : ActiveRun) : StateM σ Progress := do
  let r ← r.turn e p time
  if r.drive.isIdle then
    let now := e.origin.addMillis time
    let run := r.ended now
    let written ← (e.services.tracker.updateRun run.id run.status now).run
    return .over time waited (written.map fun () => run)
  else
    match fuel with
    | 0 => return .waiting r
    | fuel + 1 => r.await e p limit fun due r => go e p limit fuel due true r

/-- The cancellation has been asked for, and there has been no pass since. -/
def notices (r : ActiveRun) : Bool := r.cancelRequested && r.deadline.isNone

/-- Execute a run from a point of the clock on, up to a limit if there is one. -/
def progress (e : Engine σ) (limit : Option Nat) (time : Nat) (r : ActiveRun) :
    StateM σ Progress := do
  match r.manifest.graph.topologicalOrder with
  | .error f => return .over time false (.error f)
  | .ok order =>
    let p := r.plan e order
    -- every body ends once, and so does the grace period, which bounds the number of turns
    let fuel := r.manifest.nodes.length + 2
    if r.begun then
      -- a run that waits does not pass again for nothing
      if r.notices then go e p limit fuel time false r
      else r.await e p limit fun due r => go e p limit fuel due true r
    else
      match ← (e.services.tracker.updateRun r.run.id .running (e.origin.addMillis time)).run with
      | .error f => return .over time false (.error f)
      | .ok () => go e p limit fuel time false { r with begun := true }

end ActiveRun

/-! ## All runs -/

/-- An orchestrator and its clock. -/
structure Timeline (σ : Type) where
  orchestrator : Orchestrator σ ActiveRun
  clock : Nat

namespace Timeline

variable {σ : Type}

def onState {α : Type} (operation : StateM σ α) (t : Timeline σ) : α × Timeline σ :=
  let (a, state) := operation.run t.orchestrator.state
  (a, { t with orchestrator := { t.orchestrator with state } })

/-- A run that ends with a fault is marked as failed, if the tracker lets that happen. -/
def markFailed (e : Engine σ) (id : String) (time : Nat) : Outcome Run → StateM σ Unit
  | .ok _ => return
  | .error _ => do
    let _ ← (e.services.tracker.updateRun id .failed (e.origin.addMillis time)).run

/-- Execute an active run; the result is the point at which it is over. -/
def runOne (e : Engine σ) (limit : Option Nat) (t : Timeline σ) (id : String) :
    Option Nat × Timeline σ :=
  match t.orchestrator.active.get? id with
  | none => (none, t)
  | some r =>
    let (progress, t) := t.onState (r.progress e limit t.clock)
    let active := t.orchestrator.active
    match progress with
    | .waiting r =>
      (none, { t with orchestrator := { t.orchestrator with active := active.insert id r } })
    | .over time _ result =>
      let ((), t) := t.onState (markFailed e id time result)
      (some time, { t with orchestrator := { t.orchestrator with active := active.erase id } })

/-- Let all active runs go on up to a point of the clock. -/
def runAll (e : Engine σ) (limit : Nat) (t : Timeline σ) : Timeline σ :=
  t.orchestrator.active.keys.foldl (fun t id => (t.runOne e (some limit) id).2) t

/-- Let all runs go on up to a point and move the clock there. -/
def moveTo (e : Engine σ) (time : Nat) (t : Timeline σ) : Timeline σ :=
  { t.runAll e time with clock := time }

/-- Let time pass. No run goes on when no time passes. -/
def advance (e : Engine σ) (ms : Nat) (t : Timeline σ) : Timeline σ :=
  if ms = 0 then t else t.moveTo e (t.clock + ms)

/-- Carry out an interruptible computation that need not wait. -/
def carryOut {α : Type} (c : Interruptible (Orchestrator σ ActiveRun) α) (t : Timeline σ) :
    Option (Outcome α × Timeline σ) :=
  (c.run.run? t.orchestrator).map fun (result, orchestrator) =>
    (result, { t with orchestrator })

def submit (e : Engine σ) (stamp : Stamp) (request : Submission) (t : Timeline σ) :
    Option (Outcome String × Timeline σ) :=
  t.carryOut (Orchestrator.submit e.services ActiveRun.start stamp request)

/-- Wait until a run is over. The clock moves to that point, and other runs go on up to it. -/
def wait (e : Engine σ) (id : String) (t : Timeline σ) : Option (Outcome Run × Timeline σ) :=
  let t :=
    match t.runOne e none id with
    | (some time, t) => t.moveTo e time
    | (none, t) => t
  t.carryOut (Orchestrator.wait e.services id)

/-- Ask for the cancellation of a run, which notices when it goes on. -/
def cancel (e : Engine σ) (id : String) (t : Timeline σ) : Outcome Bool × Timeline σ :=
  let (result, orchestrator) :=
    (Orchestrator.cancel e.services (fun r => { r with cancelRequested := true }) id).run.run
      t.orchestrator
  (result, { t with orchestrator })

/-- Execute a manifest to its end. Others go on meanwhile if there is something to wait for. -/
def execute (e : Engine σ) (stamp : Stamp) (m : Manifest) (supplied : Dict Scalar)
    (t : Timeline σ) : Outcome Run × Timeline σ :=
  let (recorded, t) := t.onState (recordExecution e.services stamp m supplied).run
  match recorded with
  | .error f => (.error f, t)
  | .ok run =>
    let (progress, t) := t.onState ((ActiveRun.start m run).progress e none t.clock)
    match progress with
    -- without a limit no run is left waiting
    | .waiting r => (.ok r.run, t)
    | .over time waited result => (result, if waited then t.moveTo e time else t)

end Timeline
end Workflow
