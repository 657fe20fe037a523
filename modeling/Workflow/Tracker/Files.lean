import Workflow.Digest.Framing
import Workflow.Json.Read
import Workflow.Storage.Program
import Workflow.Tracker.Basic

/-!
# A tracker in files

Experiments and runs are JSON documents below a root directory: `experiments/<digest of the
name>.json`, `runs/<run id>.json`, and `keys/<idempotency key>`, which holds the id of the run.
Documents are written to a temporary file first and then renamed. Experiments and keys are created
by linking, which fails when the target exists, so that of many who try only one succeeds.
-/
namespace Workflow

/-- Where a tracker keeps its documents. -/
structure FileTracker where
  root : String
  deriving DecidableEq, Repr

namespace FileTracker

def experimentPath (t : FileTracker) (name : String) : String :=
  Path.join (Path.join t.root "experiments") (textDigest name ++ ".json")

def runPath (t : FileTracker) (id : String) : String :=
  Path.join (Path.join t.root "runs") (id ++ ".json")

def keyPath (t : FileTracker) (key : String) : String := Path.join (Path.join t.root "keys") key

/-- A name beside a path that nobody else uses; `tag` makes it differ from others. -/
def temporaryPath (tag path : String) : String :=
  Path.withFileName path ("." ++ (Path.fileName? path).getD "doc" ++ "." ++ tag ++ ".tmp")

def failure (action path : String) (e : FileError) : Fault :=
  .trackerError ("Failed to " ++ action ++ " " ++ path ++ ": " ++ e.message)

/-- Go on after a program that succeeded. -/
def andThen {α β : Type} (p : FileProgram (Outcome α)) (f : α → FileProgram (Outcome β)) :
    FileProgram (Outcome β) :=
  p.bind fun
    | .ok a => f a
    | .error e => .done (.error e)

/-- Read a document that may be missing. -/
def readDocument {α : Type} (decode? : Document → Option α) (path : String) :
    FileProgram (Outcome (Option α)) := do
  match ← FileProgram.readText path with
  | .error .notFound => return .ok none
  | .error e => return .error (failure "read" path e)
  | .ok text =>
    match (Json.read? text).bind decode? with
    | some v => return .ok (some v)
    | none => return .error (.json ("unexpected content of " ++ path))

/-- Replace the content of a path at once. -/
def writeAtOnce (tag path content : String) : FileProgram (Outcome Unit) := do
  let temporary := temporaryPath tag path
  match ← FileProgram.tryStep (.write temporary content) with
  | .error e => return .error (failure "write" temporary e)
  | .ok () =>
    -- a reader of the path finds the old content or all of the new one
    match ← FileProgram.tryStep (.rename temporary path) with
    | .ok () => return .ok ()
    | .error e =>
      let _ ← FileProgram.tryStep (.unlink temporary)
      return .error (failure "rename" path e)

/-- Create a path unless it exists; the answer tells whether it was created. -/
def createOnce (tag path content : String) : FileProgram (Outcome Bool) := do
  let temporary := temporaryPath tag path
  match ← FileProgram.tryStep (.write temporary content) with
  | .error e => return .error (failure "write" temporary e)
  | .ok () =>
    -- a link to a path that exists is refused, so that one of several calls creates it
    let linked ← FileProgram.tryStep (.link temporary path)
    let _ ← FileProgram.tryStep (.unlink temporary)
    match linked with
    | .ok () => return .ok true
    | .error .alreadyExists => return .ok false
    | .error e => return .error (failure "create" path e)

/-- Make the directories of a tracker. -/
def prepare (t : FileTracker) : FileProgram (Outcome Unit) := do
  let rec make : List String → FileProgram (Outcome Unit)
    | [] => return .ok ()
    | name :: rest => do
      let path := Path.join t.root name
      match ← FileProgram.tryStep (.makeDirectories path) with
      | .ok () => make rest
      | .error e =>
        return .error (.trackerError
          ("Failed to create tracker directory " ++ path ++ ": " ++ e.message))
  make ["experiments", "runs", "keys"]

/-- The experiment with a name; of many that create it at once, one succeeds and the others read
what it wrote. -/
def getOrCreateExperiment (t : FileTracker) (tag name : String) (description : Option String)
    (id : String) (now : Instant) : FileProgram (Outcome Experiment) :=
  let path := t.experimentPath name
  let candidate : Experiment := ⟨id, name, description, now⟩
  andThen (createOnce tag path (Json.pretty candidate.encode)) fun
    | true => .done (.ok candidate)
    | false =>
      andThen (readDocument Experiment.decode? path) fun
        | some e => .done (.ok e)
        | none =>
          .done (.error (.trackerError ("experiment document " ++ path ++ " vanished")))

def loadRun (t : FileTracker) (id : String) : FileProgram (Outcome Run) :=
  andThen (readDocument Run.decode? (t.runPath id)) fun
    | some r => .done (.ok r)
    | none => .done (.error (.runNotFound id))

/-- Record a run, unless its key belongs to another one. -/
def recordRun (t : FileTracker) (tag : String) (run : Run) :
    FileProgram (Outcome RecordOutcome) :=
  let path := t.runPath run.id
  let key := t.keyPath run.idempotencyKey
  -- the document comes before the key, so that a key that is found leads to a document
  andThen (writeAtOnce tag path (Json.pretty run.encode)) fun () =>
  andThen (createOnce (tag ++ "-key") key run.id) fun
    | true => .done (.ok .created)
    | false => do
      -- the key is taken, and the document that has just been written is removed again
      let _ ← FileProgram.tryStep (.unlink path)
      match ← FileProgram.readText key with
      | .error e => return .error (failure "read" key e)
      | .ok id =>
        andThen (t.loadRun (trimText id)) fun existing => .done (.ok (.existing existing))

def modifyRun (t : FileTracker) (tag id : String) (f : Run → Outcome Run) :
    FileProgram (Outcome Unit) :=
  andThen (t.loadRun id) fun run =>
    match f run with
    | .ok run => writeAtOnce tag (t.runPath id) (Json.pretty run.encode)
    | .error e => .done (.error e)

/-- The documents of a directory; what cannot be read is left out. -/
def readAll {α : Type} (decode? : Document → Option α) (directory : String) :
    FileProgram (Outcome (List α)) := do
  match ← FileProgram.listNames directory with
  | .error e => return .error (failure "read" directory e)
  | .ok names =>
    let paths := (names.map (Path.join directory)).filter fun p => Path.extension? p = some "json"
    let documents ← paths.mapM fun p => do
      match ← readDocument decode? p with
      | .ok (some d) => return [d]
      | _ => return []
    return .ok documents.flatten

/-! ## On a tree of its own -/

/-- A file tree with a count that makes names of temporary files. -/
structure Disk where
  tree : FileTree
  serial : Nat
  deriving Repr

/-- Carry out a program on a disk. -/
def onDisk {α : Type} (program : String → FileProgram (Outcome α)) : Stateful Disk α := do
  let disk ← get
  let (result, tree) := (program (toString disk.serial)).run disk.tree
  set (⟨tree, disk.serial + 1⟩ : Disk)
  match result with
  | .ok a => return a
  | .error e => throw e

def tracker (t : FileTracker) : Tracker Disk where
  getOrCreateExperiment name description id now :=
    onDisk fun tag => t.getOrCreateExperiment tag name description id now
  experiment? name := onDisk fun _ => readDocument Experiment.decode? (t.experimentPath name)
  experiments := do
    return orderExperiments
      (← onDisk fun _ => readAll Experiment.decode? (Path.join t.root "experiments"))
  recordRun run := onDisk fun tag => t.recordRun tag run
  updateNode run node state := onDisk fun tag => t.modifyRun tag run fun r =>
    match r.setNode? node state with
    | some r => .ok r
    | none => .error (unknownNode r.id node)
  updateRun run status now := onDisk fun tag => t.modifyRun tag run fun r =>
    .ok (r.setStatus status now)
  run id := onDisk fun _ => t.loadRun id
  runs experiment := do
    return orderRuns experiment (← onDisk fun _ => readAll Run.decode? (Path.join t.root "runs"))

end FileTracker
end Workflow
