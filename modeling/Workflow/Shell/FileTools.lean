import Workflow.Shell.Arithmetic
import Workflow.Shell.State

/-!
# Tools for files, and tests
-/
namespace Workflow.Shell

/-- Arguments that are options, as single letters, and the others. -/
def splitOptions (arguments : List String) : List Char × List String :=
  let isOption (a : String) : Bool := a.startsWith "-" && a ≠ "-" && a ≠ "--"
  let options := arguments.takeWhile isOption
  let rest := arguments.drop options.length
  ((options.flatMap fun a => (a.drop 1).toString.toList),
    if rest.head? = some "--" then rest.tail else rest)

/-- A complaint of a tool about how it is called. -/
def withHint (tool text : String) : String :=
  tool ++ ": " ++ text ++ "\nTry '" ++ tool ++ " --help' for more information."

def cat : Tool := fun arguments => do
  let (status, texts) ← readAll "cat" arguments
  texts.forM put
  return status

/-- A path inside a directory, if the target is one. -/
def targetPath (source target : String) : Run String := do
  if (← get).files.isDirectory target then
    return Path.join target ((Path.fileName? source).getD source)
  else return target

/-- Copy or move one file. -/
def transfer (tool : String) (move : Bool) (source target : String) : Run Nat := do
  match ← readFile source with
  | .error .isDirectory =>
    failWith 1 (tool ++ ": -r not specified; omitting directory '" ++ source ++ "'")
  | .error e => failWith 1 (tool ++ ": cannot stat '" ++ source ++ "': " ++ fileFaultText e)
  | .ok text =>
    let path ← targetPath source target
    match ← changeFiles fun t => t.write path text with
    | some e =>
      failWith 1 (tool ++ ": cannot create regular file '" ++ path ++ "': " ++ fileFaultText e)
    | none =>
      if move then
        let _ ← changeFiles fun t => t.unlink source
      return 0

def transferAll (tool : String) (move : Bool) : Tool := fun arguments => do
  match (splitOptions arguments).2.reverse with
  | [] => failWith 1 (withHint tool "missing file operand")
  | [source] =>
    failWith 1 (withHint tool ("missing destination file operand after '" ++ source ++ "'"))
  | target :: sources =>
    sources.reverse.foldlM (fun status source => do
      return max status (← transfer tool move source target)) 0

/-- Remove files, and directories with all that is in them if that is asked for. -/
def remove : Tool := fun arguments => do
  let (options, paths) := splitOptions arguments
  let deep := options.contains 'r' || options.contains 'R'
  let force := options.contains 'f'
  if paths.isEmpty && ! force then return ← failWith 1 (withHint "rm" "missing operand")
  paths.foldlM (fun status path => do
    if (← get).files.isDirectory path then
      if deep then
        modify fun s => { s with files := s.files.removeAll path }
        return status
      else failWith 1 ("rm: cannot remove '" ++ path ++ "': Is a directory")
    else
      match ← changeFiles fun t => t.unlink path with
      | none => return status
      | some e =>
        if force then return status
        else failWith 1 ("rm: cannot remove '" ++ path ++ "': " ++ fileFaultText e)) 0

/-- Make directories, with those that hold them if that is asked for. -/
def makeDirectory : Tool := fun arguments => do
  let (options, paths) := splitOptions arguments
  if paths.isEmpty then return ← failWith 1 (withHint "mkdir" "missing operand")
  paths.foldlM (fun status path => do
    let made (t : FileTree) : Except FileError FileTree :=
      if options.contains 'p' then t.makeDirectories path
      else if t.exists? path then .error .alreadyExists
      else
        match t.parentError? path with
        | some e => .error e
        | none => .ok (t.put path .directory)
    match ← changeFiles made with
    | none => return status
    | some e =>
      failWith 1 ("mkdir: cannot create directory '" ++ path ++ "': " ++ fileFaultText e)) 0

def removeDirectory : Tool := fun arguments => do
  (splitOptions arguments).2.foldlM (fun status path => do
    let failed : Option FileError :=
      match (← get).files.list path with
      | .error e => some e
      | .ok [] => none
      | .ok _ => some .directoryNotEmpty
    match failed with
    | some e => failWith 1 ("rmdir: failed to remove '" ++ path ++ "': " ++ fileFaultText e)
    | none =>
      modify fun s => { s with files := s.files.drop path }
      return status) 0

/-- The names in a directory but for those that begin with a point. -/
def shownNames (files : FileTree) (path : String) : List String :=
  ((files.list path).toOption.getD []).filter fun name => ! name.startsWith "."

def listNames : Tool := fun arguments => do
  let (_, paths) := splitOptions arguments
  (if paths.isEmpty then ["."] else paths).foldlM (fun status path => do
    let files := (← get).files
    if files.isDirectory path then
      (shownNames files path).forM putLine
      return status
    else if files.exists? path then
      putLine path
      return status
    else failWith 2 ("ls: cannot access '" ++ path ++ "': No such file or directory")) 0

def tee : Tool := fun arguments => do
  let (options, paths) := splitOptions arguments
  let text ← takeInput
  put text
  paths.foldlM (fun status path => do
    let kept (t : FileTree) : String :=
      if options.contains 'a' then (t.read path).toOption.getD "" else ""
    match ← changeFiles fun t => t.write path (kept t ++ text) with
    | none => return status
    | some e => failWith 1 ("tee: " ++ path ++ ": " ++ fileFaultText e)) 0

/-- Write the values of variables that are set. -/
def printVariable : Tool := fun arguments => do
  arguments.foldlM (fun status name => do
    match (← get).bindings.get? name with
    | some value =>
      putLine value
      return status
    | none => return 1) 0

def touch : Tool := fun arguments => do
  (splitOptions arguments).2.foldlM (fun status path => do
    if (← get).files.exists? path then return status
    else
      match ← changeFiles fun t => t.write path "" with
      | none => return status
      | some e => failWith 1 ("touch: cannot touch '" ++ path ++ "': " ++ fileFaultText e)) 0

/-! ## Tests -/

def testOne (op argument : String) : Run Bool := do
  let files := (← get).files
  return match op with
    | "-n" => ! argument.isEmpty
    | "-z" => argument.isEmpty
    | "-f" => files.isFile argument
    | "-d" => files.isDirectory argument
    | "-s" => ((files.read argument).toOption).any fun text => ! text.isEmpty
    | "-e" | "-r" | "-w" => files.exists? argument
    | "-x" => files.isDirectory argument
    | _ => false

/-- The integer that an argument of a test must be. -/
def testInteger (s : String) : Except String Int :=
  let text := s.trimAscii.toString
  let digits := if text.startsWith "-" then (text.drop 1).toString else text
  match (digits.toNat?).filter fun _ => digits.toList.all isAsciiDigit with
  | some n => .ok (if text.startsWith "-" then -(n : Int) else n)
  | none => .error ("Illegal number: " ++ s)

def testTwo (left op right : String) : Option (Except String Bool) :=
  let compared (f : Int → Int → Bool) : Option (Except String Bool) :=
    some do return f (← testInteger left) (← testInteger right)
  match op with
  | "=" | "==" => some (.ok (left == right))
  | "!=" => some (.ok (left != right))
  | "<" => some (.ok (left < right))
  | ">" => some (.ok (right < left))
  | "-eq" => compared (· == ·)
  | "-ne" => compared (· != ·)
  | "-lt" => compared (· < ·)
  | "-le" => compared (· ≤ ·)
  | "-gt" => compared (· > ·)
  | "-ge" => compared (· ≥ ·)
  | _ => none

/-- The value of a test, by the number of its arguments. -/
def testAll : Nat → List String → Run (Except String Bool)
  | 0, _ | _, [] => return .ok false
  | fuel + 1, arguments => do
    match arguments with
    | [a] => return .ok (! a.isEmpty)
    | ["!", a] => return .ok a.isEmpty
    | [op, a] =>
      if ["-n", "-z", "-f", "-d", "-s", "-e", "-r", "-w", "-x", "-h", "-L", "-t"].contains op then
        return .ok (← testOne op a)
      else if (testTwo "" a "").isSome then return .error (a ++ ": argument expected")
      else return .error (op ++ ": unexpected operator")
    | ["!", op, a] => return .ok (! (← testOne op a))
    | [a, op, b] =>
      match testTwo a op b with
      | some result => return result
      | none =>
        match op with
        | "-a" => return .ok (! a.isEmpty && ! b.isEmpty)
        | "-o" => return .ok (! a.isEmpty || ! b.isEmpty)
        | _ => return .error (a ++ ": unexpected operator")
    | "!" :: rest => return (← testAll fuel rest).map (! ·)
    | arguments =>
      let combined (op : String) : Option (List String × List String) :=
        (arguments.findIdx? (· == op)).map fun i => (arguments.take i, arguments.drop (i + 1))
      match combined "-o", combined "-a" with
      | some (a, b), _ =>
        let x ← testAll fuel a
        let y ← testAll fuel b
        return do return (← x) || (← y)
      | none, some (a, b) =>
        let x ← testAll fuel a
        let y ← testAll fuel b
        return do return (← x) && (← y)
      | none, none => return .error "too many arguments"

/-- The tool that tests its arguments. -/
def test (name : String) : Tool := fun arguments => do
  match ← testAll (arguments.length + 1) arguments with
  | .ok b => return if b then 0 else 1
  | .error text => failWith 2 (name ++ ": " ++ text)

/-- The form of the test that is closed by a bracket. -/
def testInBrackets : Tool := fun arguments => do
  if arguments.getLast? = some "]" then test "[" arguments.dropLast
  else failWith 2 "[: missing ]"

end Workflow.Shell
