import Workflow.Json.Read
import Workflow.Schedule.Drive
import Workflow.Shell.Run
import Workflow.Task.Location
import Workflow.Text.Blank

/-!
# Shell commands as task bodies

A command finds the run, the node, its inputs and the locations of its artifact outputs in
variables. If the last line that it writes is a JSON object, the fields are its outputs. Artifact
outputs that it does not mention are taken to be where they were expected.
-/
namespace Workflow

/-- Why a shell command gives no outputs. -/
inductive ShellFault where
  | missingTool (interpreter : String)
  | notStarted (interpreter : String)
  /-- It ended with a status or by a signal. -/
  | ended (status : Option Nat) (errors : String)
  | notAValue (output : String)
  deriving DecidableEq, Repr

namespace ShellFault

def message : ShellFault → String
  | missingTool interpreter => (Fault.missingTool interpreter).message
  | notStarted interpreter => "failed to spawn '" ++ interpreter ++ "'"
  | ended status errors =>
    "command exited with " ++ status.elim "signal" toString ++ ": " ++ trimText errors
  | notAValue output => "output '" ++ output ++ "' is not a scalar or artifact"

/-- The message with its cause. -/
def reason (f : ShellFault) : String :=
  match f with
  | notStarted _ => f.message ++ ": nul byte found in provided data"
  | notAValue _ => f.message ++ ": data did not match any variant of untagged enum Value"
  | f => f.message

end ShellFault

/-- The path of a shell that is installed. -/
def installedShell? (interpreter : String) : Option String :=
  if interpreter = "sh" then some "/usr/bin/sh"
  else if interpreter = "/bin/sh" || interpreter = "/usr/bin/sh" then some interpreter
  else none

namespace ShellTask

/-- The name of a variable: letters in capitals, and other characters than letters and digits
replaced. -/
def variableName (start name : String) : String :=
  start ++ String.ofList (name.toList.map fun c => if c.isAlphanum then c.toUpper else '_')

/-- Texts are exported as they are, other values as they are shown. -/
def variableText : Value → String
  | .scalar (.text s) => s
  | v => v.display

/-- Add a variable, after one with a local path if there is a path. -/
def withVariable (bindings : Dict String) (name text : String) (path : Option String) :
    Dict String :=
  let bindings :=
    match path with
    | some p => bindings.insert (name ++ "_PATH") p
    | none => bindings
  bindings.insert name text

/-- The variables that a command finds. Where names meet, the last one wins. -/
def bindings (own : Dict String) (c : TaskContext) : Dict String :=
  let ids := (own.insert "DAGFLOW_RUN_ID" c.run).insert "DAGFLOW_NODE_ID" c.node
  let inputs := c.inputs.entries.foldl (fun vs (name, v) =>
    withVariable vs (variableName "DAGFLOW_INPUT_" name) (variableText v)
      (v.asArtifact?.bind fun a => localPath? a.uri)) ids
  c.locations.entries.foldl (fun vs (name, uri) =>
    withVariable vs (variableName "DAGFLOW_OUTPUT_" name) uri (localPath? uri)) inputs

/-- The last line that is not blank. -/
def lastLine? (text : String) : Option String :=
  ((text.splitOn "\n").filter fun line => ! isBlankText line).getLast?

/-- The outputs that the text of a command states. -/
def statedOutputs (text : String) : Except ShellFault TaskOutputs := do
  match (lastLine? text).bind fun line => Json.read? (trimText line) with
  | some (.mapping entries) =>
    match Document.asDict? some (.mapping entries) with
    | none => return Dict.empty
    | some fields =>
      fields.entries.foldlM (fun outputs (name, d) => do
        match Value.decode? d with
        | some v => return outputs.insert name v
        | none => throw (.notAValue name)) Dict.empty
  | _ => return Dict.empty

/-- Artifact outputs that are not stated are at their locations. -/
def withLocations (c : TaskContext) (outputs : TaskOutputs) : TaskOutputs :=
  c.locations.entries.foldl (fun outputs (name, uri) =>
    if outputs.contains name then outputs
    else outputs.insert name (.artifact ⟨uri, Dict.empty⟩)) outputs

structure Result where
  outcome : Except ShellFault TaskOutputs
  millis : Nat
  files : FileTree

def run (command interpreter : String) (own : Dict String) (c : TaskContext) (files : FileTree) :
    Result :=
  match installedShell? interpreter with
  | none => ⟨.error (.missingTool interpreter), 0, files⟩
  | some path =>
    let bindings := bindings own c
    if (command :: bindings.keys ++ bindings.values).any fun s => s.toList.contains '\x00' then
      ⟨.error (.notStarted interpreter), 0, files⟩
    else
      let r := Shell.runText path bindings files command
      let outcome :=
        if r.status = some 0 then (statedOutputs r.output).map (withLocations c)
        else .error (.ended r.status r.errors)
      ⟨outcome, r.millis, r.files⟩

def Result.ending (r : Result) : Ending :=
  match r.outcome with
  | .ok outputs => .returned outputs
  | .error f => .failed f.reason

end ShellTask
end Workflow
