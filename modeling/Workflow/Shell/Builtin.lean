import Workflow.Shell.Awk
import Workflow.Shell.Command
import Workflow.Shell.Sed

/-!
# Commands that a shell has of its own, and tools
-/
namespace Workflow.Shell

/-- The number by which processes know a shell. -/
def processNumber : String := "2"

/-- A status is a byte. -/
def statusOf (text : String) : Option Nat := (text.toNat?).map (· % 256)

def exitShell : Tool := fun arguments => do
  match arguments with
  | [] => throw (.exit (← get).status)
  | a :: _ =>
    match statusOf a with
    | some n => throw (.exit n)
    | none =>
      complain ("exit: Illegal number: " ++ a)
      throw (.exit 2)

def handBack : Tool := fun arguments => do
  let n := (arguments.head?.bind statusOf).getD (← get).status
  throw (.handBack n)

def assign (name value : String) : Run Unit :=
  modify fun s => { s with bindings := s.bindings.insert name value }

/-- The variables with one that has a value or not. -/
def restored (bindings : Dict String) (name : String) (value : Option String) : Dict String :=
  match value with
  | some value => bindings.insert name value
  | none => bindings.erase name

/-- Have variables as before at the end of the function, and give values to some of them. -/
def declareLocal : Tool := fun arguments => do
  arguments.forM fun a => do
    let name := String.ofList (a.toList.takeWhile (· ≠ '='))
    modify fun s => { s with locals := (name, s.bindings.get? name) :: s.locals }
    if name.length < a.length then assign name (a.drop (name.length + 1)).toString
  return 0

def assignAll : Tool := fun arguments => do
  arguments.forM fun a => do
    match a.splitOn "=" with
    | name :: value :: rest => assign name ("=".intercalate (value :: rest))
    | _ => return
  return 0

def unset : Tool := fun arguments => do
  arguments.forM fun a =>
    modify fun s => { s with
      bindings := s.bindings.erase a
      functions := s.functions.erase a }
  return 0

def setSwitches : Tool := fun arguments => do
  let isSwitch (a : String) : Bool := (a.startsWith "-" || a.startsWith "+") && a ≠ "--"
  let switches := arguments.takeWhile isSwitch
  switches.forM fun a => do
    let on := a.startsWith "-"
    if a.toList.contains 'e' then modify fun s => { s with strict := on }
    if a.toList.contains 'u' then modify fun s => { s with declaredOnly := on }
    if a.toList.contains 'x' then modify fun s => { s with traced := on }
  match arguments.drop switches.length with
  | [] => return 0
  | ["errexit"] =>
    modify fun s => { s with strict := switches.getLast? = some "-o" }
    return 0
  | ["nounset"] =>
    modify fun s => { s with declaredOnly := switches.getLast? = some "-o" }
    return 0
  | rest =>
    if switches.getLast? = some "-o" then
      complain ("set: Illegal option -o " ++ rest.headD "")
      throw (.exit 2)
    modify fun s => { s with arguments := if rest.head? = some "--" then rest.tail else rest }
    return 0

def shift : Tool := fun arguments => do
  let n := ((arguments.headD "1").toNat?).getD 1
  if (← get).arguments.length < n then failWith 2 "shift: can't shift that many"
  else
    modify fun s => { s with arguments := s.arguments.drop n }
    return 0

/-- Say what is carried out at the end. -/
def setFarewell : Tool := fun arguments => do
  match arguments with
  | [text, "EXIT"] | [text, "0"] =>
    modify fun s => { s with farewell := if text = "-" then none else some text }
  | _ => pure ()
  return 0

/-- The values that the names get from the words of a line; the last one gets all that is left. -/
def shareOut : List String → List Char → List (String × String)
  | [], _ => []
  | [name], cs =>
    let trimmed := (cs.dropWhile Char.isWhitespace).reverse.dropWhile Char.isWhitespace
    [(name, String.ofList trimmed.reverse)]
  | name :: rest, cs =>
    let cs := cs.dropWhile Char.isWhitespace
    let word := cs.takeWhile fun c => ! c.isWhitespace
    (name, String.ofList word) :: shareOut rest (cs.drop word.length)

/-- Read a line into variables. -/
def readLine : Tool := fun arguments => do
  let names := arguments.filter fun a => a ≠ "-r"
  if names.isEmpty then return ← failWith 2 "read: arg count"
  let input := (← get).input.toList
  let line := input.takeWhile (· ≠ '\n')
  modify fun s => { s with input := String.ofList (input.drop (line.length + 1)) }
  (shareOut names line).forM fun (name, value) =>
    assign name value
  return if line.length < input.length then 0 else 1

def changeDirectory : Tool := fun arguments => do
  let s ← get
  let path := arguments.head?.getD ((s.bindings.get? "HOME").getD "/")
  if s.files.isDirectory path then
    let cwd := Path.absolute s.files.cwd path
    set { s with files := { s.files with cwd }, bindings := s.bindings.insert "PWD" cwd }
    return 0
  else failWith 2 ("cd: can't cd to " ++ path)

/-- The milliseconds of a duration, which may have a unit. -/
def durationMillis (text : String) : Option Nat :=
  let (digits, unit) : List Char × Nat :=
    match text.toList.reverse with
    | 's' :: rest => (rest.reverse, 1)
    | 'm' :: rest => (rest.reverse, 60)
    | 'h' :: rest => (rest.reverse, 3600)
    | _ => (text.toList, 1)
  let whole := digits.takeWhile isAsciiDigit
  match digits.drop whole.length with
  | [] => if whole.isEmpty then none else some (1000 * unit * decimalValue whole)
  | '.' :: fraction =>
    if fraction.all isAsciiDigit then
      some (1000 * unit * decimalValue (whole ++ fraction) / Nat.pow 10 fraction.length)
    else none
  | _ => none

def sleep : Tool := fun arguments => do
  if arguments.isEmpty then return ← failWith 1 (withHint "sleep" "missing operand")
  match arguments.mapM durationMillis with
  | some durations =>
    modify fun s => { s with millis := durations.foldl (· + ·) s.millis }
    return 0
  | none =>
    let wrong := arguments.filter fun a => (durationMillis a).isNone
    failWith 1 (withHint "sleep" ("invalid time interval '" ++ wrong.headD "" ++ "'"))

/-- Send a signal. Only the shell itself can be reached. -/
def kill : Tool := fun arguments => do
  if arguments.contains processNumber then
    if arguments.contains "-0" then return 0 else throw .killed
  else failWith 1 "kill: No such process"

/-- How many loops are left or gone on with. -/
def loopCount (arguments : List String) : Nat := max 1 (((arguments.headD "1").toNat?).getD 1)

/-- The commands that a shell has of its own. -/
def builtin? (name : String) : Option Tool :=
  match name with
  | ":" | "true" => some fun _ => return 0
  | "false" => some fun _ => return 1
  | "echo" => some echo
  | "printf" => some printf
  | "test" => some (test "test")
  | "[" => some testInBrackets
  | "exit" => some exitShell
  | "return" => some handBack
  | "trap" => some setFarewell
  | "local" => some declareLocal
  | "export" | "readonly" => some assignAll
  | "unset" => some unset
  | "set" => some setSwitches
  | "shift" => some shift
  | "read" => some readLine
  | "cd" => some changeDirectory
  | "pwd" => some fun _ => do
    putLine (← get).files.cwd
    return 0
  | "break" => some fun arguments => throw (.leave (loopCount arguments))
  | "continue" => some fun arguments => throw (.again (loopCount arguments))
  | "kill" => some kill
  | "wait" => some fun _ => return 0
  | _ => none

/-- The tools that a shell finds. -/
def tool? (name : String) : Option Tool :=
  match name with
  | "cat" => some cat
  | "cp" => some (transferAll "cp" false)
  | "mv" => some (transferAll "mv" true)
  | "rm" => some remove
  | "mkdir" => some makeDirectory
  | "touch" => some touch
  | "sleep" => some sleep
  | "sed" => some sed
  | "awk" => some awk
  | "head" => some head
  | "tail" => some tail
  | "wc" => some wordCount
  | "tr" => some translate
  | "sort" => some sortLines
  | "grep" => some grep
  | "seq" => some sequence
  | "basename" => some baseName
  | "dirname" => some directoryName
  | "ls" => some listNames
  | "cut" => some cutLines
  | "uniq" => some mergeRepeats
  | "tee" => some tee
  | "rmdir" => some removeDirectory
  | "printenv" => some printVariable
  | _ => none

end Workflow.Shell
