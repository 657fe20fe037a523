import Workflow.Shell.Syntax
import Workflow.Storage.FileTree

/-!
# The state of a shell

A shell has variables, files, and streams: what it reads, and where it writes. Time passes only when
it sleeps. A command gives a status, or it interrupts those around it.
-/
namespace Workflow.Shell

inductive Sink where
  /-- What is written is kept for whoever carries out the command. -/
  | kept
  | complaints
  | discarded
  | file (path : String)
  deriving DecidableEq, Repr

structure State where
  /-- The name of the shell. -/
  name : String
  /-- What stands before the errors of the shell itself. -/
  label : String
  bindings : Dict String
  /-- The positional parameters. -/
  arguments : List String
  functions : Dict Command
  /-- Variables that get a value back, or go, at the end of a function. -/
  locals : List (String × Option String)
  /-- The line of the command that is carried out. -/
  line : Nat
  /-- The command that carries out others, as it stands before errors. -/
  carrier : String
  files : FileTree
  /-- What is left to be read. -/
  input : String
  output : Sink
  errors : Sink
  written : String
  complaints : String
  status : Nat
  millis : Nat
  /-- A command that fails ends the shell. -/
  strict : Bool
  /-- A variable that is not set ends the shell. -/
  declaredOnly : Bool
  /-- Commands are shown before they are carried out. -/
  traced : Bool
  /-- What is carried out at the end. -/
  farewell : Option String

/-- What ends more than one command. -/
inductive Interruption where
  | exit (status : Nat)
  | killed
  /-- Leave so many loops. -/
  | leave (loops : Nat)
  /-- Go on with the next turn of a loop that is so far out. -/
  | again (loops : Nat)
  /-- Leave a function. -/
  | handBack (status : Nat)
  deriving DecidableEq, Repr

abbrev Run (α : Type) := ExceptT Interruption (StateM State) α

/-- A tool gets its arguments and gives a status. -/
abbrev Tool := List String → Run Nat

namespace State

/-- A shell of a name with exported variables, on files. -/
def start (name : String) (bindings : Dict String) (files : FileTree) : State where
  name := name
  label := ""
  bindings := bindings.insert "PWD" files.cwd
  arguments := []
  functions := Dict.empty
  locals := []
  line := 1
  carrier := ""
  files := files
  input := ""
  output := .kept
  errors := .complaints
  written := ""
  complaints := ""
  status := 0
  millis := 0
  strict := false
  declaredOnly := false
  traced := false
  farewell := none

/-- Write to a sink. What cannot be written to a file is lost. -/
def emit (s : State) (sink : Sink) (text : String) : State :=
  match sink with
  | .kept => { s with written := s.written ++ text }
  | .complaints => { s with complaints := s.complaints ++ text }
  | .discarded => s
  | .file path =>
    let before := (s.files.read path).toOption.getD ""
    match s.files.write path (before ++ text) with
    | .ok files => { s with files }
    | .error _ => s

end State

def put (text : String) : Run Unit := modify fun s => s.emit s.output text

def putLine (text : String) : Run Unit := put (text ++ "\n")

def complain (text : String) : Run Unit :=
  modify fun s => s.emit s.errors (s.label ++ text ++ "\n")

def failWith (status : Nat) (text : String) : Run Nat := do
  complain text
  return status

/-- The words of the system for a fault of a file. -/
def fileFaultText (e : FileError) : String :=
  match e with
  | .notFound => "No such file or directory"
  | .alreadyExists => "File exists"
  | .isDirectory => "Is a directory"
  | .notDirectory => "Not a directory"
  | .directoryNotEmpty => "Directory not empty"

/-- The name of the place that swallows everything. -/
def nullDevice : String := "/dev/null"

def readFile (path : String) : Run (Except FileError String) := do
  if path = nullDevice then return .ok "" else return (← get).files.read path

/-- Change the files, if that can be done. -/
def changeFiles (change : FileTree → Except FileError FileTree) : Run (Option FileError) := do
  match change (← get).files with
  | .ok files =>
    modify fun s => { s with files }
    return none
  | .error e => return some e

def takeInput : Run String := do
  let text := (← get).input
  modify fun s => { s with input := "" }
  return text

/-- The lines of a text; the end of a line ends the last one, too. -/
def linesOf (text : String) : List String :=
  match (text.splitOn "\n").reverse with
  | "" :: rest => rest.reverse
  | lines => lines.reverse

/-- How tools name a file that they cannot read. -/
def unreadable (tool path : String) : String :=
  match tool with
  | "head" | "tail" => "cannot open '" ++ path ++ "' for reading"
  | "sort" => "cannot read: " ++ path
  | "sed" => "can't read " ++ path
  | _ => path

/-- The texts of files in their order, or the input if there is none. A file that cannot be read is
complained about. -/
def readAll (tool : String) (paths : List String) : Run (Nat × List String) := do
  if paths.isEmpty then return (0, [← takeInput])
  let mut status := 0
  let mut texts : Array String := #[]
  for path in paths do
    if path = "-" then texts := texts.push (← takeInput)
    else
      match ← readFile path with
      | .ok text => texts := texts.push text
      | .error e =>
        complain (tool ++ ": " ++ unreadable tool path ++ ": " ++ fileFaultText e)
        status := 1
  return (status, texts.toList)

end Workflow.Shell
