import Workflow.Document.Decode
import Workflow.Fault.Basic
import Workflow.Storage.FileTree
import Workflow.Toml.Read

/-!
# Configuration

Settings come from a TOML file, and the command line may override some of them. The file is the one
that is named, else the one in the working directory, else the user's; without any, everything has
its default.
-/
namespace Workflow

/-- Settings that may be left open. -/
structure Config where
  workers : Option Nat
  graceMillis : Option Nat
  stateDirectory : Option String
  artifactDirectory : Option String
  deriving DecidableEq, Repr

namespace Config

def empty : Config := ⟨none, none, none, none⟩

instance : Inhabited Config := ⟨empty⟩

def fileName : String := "dagflow.toml"

/-- A list in place of a section gives its fields in order; what is too much does not matter. -/
def section? (names : List String) : Document → Option Fields
  | .sequence items => some (names.zip items)
  | .mapping entries => Document.collectFields? names entries
  | _ => none

def decode? (d : Document) : Option Config := do
  let sections ← section? ["scheduler", "storage"] d
  let scheduler ← Fields.defaulted sections "scheduler" []
    (section? ["max_workers", "cancel_grace_ms"])
  let storage ← Fields.defaulted sections "storage" []
    (section? ["state_dir", "artifact_root"])
  let workers ← Fields.optional scheduler "max_workers" Document.asNat?
  let graceMillis ← Fields.optional scheduler "cancel_grace_ms" Document.asNat?
  let stateDirectory ← Fields.optional storage "state_dir" Document.asText?
  let artifactDirectory ← Fields.optional storage "artifact_root" Document.asText?
  return ⟨workers, graceMillis, stateDirectory, artifactDirectory⟩

def ofToml (text : String) : Outcome Config :=
  match (Toml.read? text).bind decode? with
  | some c => .ok c
  | none => .error (.toml "malformed configuration")

def ofFile (files : FileTree) (path : String) : Outcome Config :=
  match files.read path with
  | .ok text => ofToml text
  | .error e => .error (.fileRead path e.message)

/-- Find the settings: in a file that must be there, in the working directory, or in the directory
of the user. -/
def load (files : FileTree) (explicit : Option String) (userDirectory : String) :
    Outcome Config :=
  match explicit with
  | some path => ofFile files path
  | none =>
    let user := Path.join userDirectory fileName
    if files.exists? fileName then ofFile files fileName
    else if files.exists? user then ofFile files user
    else .ok empty

/-- Put settings of the command line in place of others. -/
def withOverrides (c : Config) (stateDirectory : Option String) (workers : Option Nat) : Config :=
  { c with
    stateDirectory := stateDirectory <|> c.stateDirectory
    workers := workers <|> c.workers }

def stateDir (c : Config) : String := c.stateDirectory.getD ".dagflow"

/-- Unless they are set apart, artifacts lie in the state directory. -/
def artifactRoot (c : Config) : String :=
  c.artifactDirectory.getD (Path.join c.stateDir "artifacts")

/-- The number of workers, if it is set: one at least. -/
def workerCount? (c : Config) : Option Nat := c.workers.map fun n => max n 1

/-- How long running bodies may go on after a cancellation. -/
def grace (c : Config) : Nat := c.graceMillis.getD 30000

end Config
end Workflow
