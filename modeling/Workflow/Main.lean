import Workflow.CommandLine.Execute

/-!
# The program

The files of the working directory, and those that the command line names, are read into a tree. The
command line is carried out on it, and what has changed is written back.
-/
namespace Workflow.Program

open CommandLine

/-- The variables of the environment that the command line looks at. -/
def variableNames : List String := ["DAGFLOW_CONFIG", "DAGFLOW_STATE_DIR", "DAGFLOW_WORKERS"]

def environment : IO (Dict String) := do
  let found ← variableNames.filterMapM fun name => do return (← IO.getEnv name).map (name, ·)
  return Dict.ofList found

def userDirectory : IO String := do
  let base ← match ← IO.getEnv "XDG_CONFIG_HOME" with
    | some path => pure path
    | none => pure (Path.join ((← IO.getEnv "HOME").getD "/") ".config")
  return Path.join base "dagflow"

def now : IO Instant :=
  IO.FS.withTempFile fun _ path => do
    let t := (← path.metadata).modified
    return ⟨t.sec, t.nsec.toNat⟩

/-- An id of sixteen random bytes, in five groups. -/
def uniqueId : IO String := do
  let bytes := (← IO.getRandomBytes 16).toList
  let digits := String.join (bytes.map fun b => hexPadded 2 b.toNat)
  let group (start size : Nat) : String := ((digits.drop start).take size).toString
  return "-".intercalate [group 0 8, group 8 4, "4" ++ group 13 3, "8" ++ group 17 3, group 20 12]

/-- A tree that also has a file, or all that is in a directory. What is no text is left out. -/
def read (tree : FileTree) (place : String) : IO FileTree := do
  match ← (IO.FS.realPath place).toBaseIO with
  | .error _ => return tree
  | .ok place =>
    let tree := (tree.makeDirectories (Path.parent place.toString)).toOption.getD tree
    let found ← if ← place.isDir then place.walkDir else pure #[]
    (#[place] ++ found).foldlM (fun tree p => do
      if ← p.isDir then return tree.put p.toString .directory
      match ← (IO.FS.readFile p).toBaseIO with
      | .ok text => return tree.put p.toString (.file text)
      | .error _ => return tree) tree

/-- Write what differs between a tree and the one that was read. -/
def write (before after : FileTree) : IO Unit := do
  for (path, entry) in after.entries.entries do
    if before.entries.get? path ≠ some entry then
      match entry with
      | .directory => IO.FS.createDirAll path
      | .file text => IO.FS.writeFile path text
  for (path, entry) in before.entries.entries.reverse do
    if ! after.entries.contains path then
      match entry with
      | .directory => IO.FS.removeDir path
      | .file _ => IO.FS.removeFile path

/-- The answer to a question that the request may ask. -/
def answerFor (request : Request) : IO String := do
  match request with
  | .storeClear false => (← IO.getStdin).getLine
  | _ => return ""

/-- What is said about a failure. -/
def failureText : Failure → String
  | .report message => "Error: " ++ message
  | .fault f => "Error: " ++ f.message ++ (f.hint?.map ("\n  help: " ++ ·)).getD ""

/-- Carry out a command line. The result is the status with which the program ends. -/
def run (arguments : List String) : IO UInt32 := do
  let environment ← environment
  match Call.ofArguments environment arguments with
  | .error f =>
    IO.eprintln ("dagflow: " ++ f.name)
    return UInt32.ofNat f.status
  | .ok call =>
    let cwd := (← IO.currentDir).toString
    let userDirectory ← userDirectory
    let places := [cwd, userDirectory] ++ call.directory.toList ++ call.config.toList ++
      call.stateDirectory.toList
    let before ← places.foldlM read (FileTree.empty cwd)
    let stamp : Stamp := ⟨← uniqueId, ← uniqueId, ← uniqueId, ← now⟩
    let input ← answerFor call.request
    match execute ⟨stamp, environment, userDirectory, 4⟩ ⟨before, 0⟩ input arguments with
    | .error f => return UInt32.ofNat f.status
    | .ok reply =>
      write before reply.terminal.disk.tree
      IO.print reply.terminal.output
      IO.eprint reply.terminal.errors
      match reply.result with
      | .ok _ => return 0
      | .error failure =>
        IO.eprintln (failureText failure)
        return 1

end Workflow.Program

def main (arguments : List String) : IO UInt32 := Workflow.Program.run arguments
