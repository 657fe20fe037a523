import Workflow.Shell.Builtin

/-!
# Carrying out commands

Words are expanded and split into fields, streams are redirected, and commands are carried out one
after the other. The stages of a pipeline run one at a time, each on what the one before it wrote.
-/
namespace Workflow.Shell

/-- A piece of an expanded word. Pieces that split are cut where separators stand. -/
inductive Piece where
  | text (s : String) (quoted splits : Bool)
  /-- The end of a field. -/
  | fieldEnd
  /-- Nothing, which is no field even in quotes. -/
  | absent

/-- A field being put together: characters, each quoted or not. -/
abbrev Field := List (Char × Bool)

/-- The fields of pieces, with the one that is open. `afterBlank` tells that a blank has closed the
last one, so that a separator that follows does not close another. -/
structure Fields where
  complete : List Field
  current : Option Field
  afterBlank : Bool

namespace Fields

def close (f : Fields) : Fields :=
  match f.current with
  | none => f
  | some cs => ⟨f.complete ++ [cs], none, false⟩

def add (f : Fields) (cs : Field) : Fields :=
  { f with current := some (f.current.getD [] ++ cs), afterBlank := false }

/-- Go on after a separator. Blanks count as one; any other separator ends a field, be it empty. -/
def separate (f : Fields) (c : Char) : Fields :=
  if c == ' ' || c == '\t' || c == '\n' then
    match f.current with
    | some _ => { f.close with afterBlank := true }
    | none => f
  else if f.afterBlank then { f with afterBlank := false }
  else (f.add []).close

def addPiece (separators : List Char) (f : Fields) : Piece → Fields
  | .fieldEnd => f.close
  | .absent => f
  | .text s quoted splits =>
    if splits then
      s.toList.foldl (fun f c =>
        if separators.contains c then f.separate c else f.add [(c, false)]) f
    else if s.isEmpty && ! quoted then f
    else f.add (s.toList.map fun c => (c, quoted))

def ofPieces (separators : List Char) (pieces : List Piece) : List Field :=
  let isAbsent (p : Piece) : Bool :=
    match p with
    | .absent => true
    | _ => false
  let isEmpty (p : Piece) : Bool :=
    match p with
    | .text s _ _ => s.isEmpty
    | _ => true
  if pieces.any isAbsent && pieces.all isEmpty then []
  else ((pieces.foldl (addPiece separators) ⟨[], none, false⟩).close).complete

end Fields

/-- What separates fields: the value of a variable, or blanks. -/
def separatorsOf (s : State) : List Char := ((s.bindings.get? "IFS").getD " \t\n").toList

namespace Field

def text (f : Field) : String := String.ofList (f.map (·.1))

/-- Does the field describe names of files? -/
def isPattern (f : Field) : Bool := f.any fun (c, quoted) => ! quoted && "*?[".toList.contains c

/-- The parts of a path that the field describes. -/
def parts : Field → List Field
  | [] => [[]]
  | (c, quoted) :: rest =>
    if c = '/' then [] :: parts rest
    else
      match parts rest with
      | [] => [[(c, quoted)]]
      | first :: others => ((c, quoted) :: first) :: others

/-- The paths that go on from a path with the parts. -/
def pathsFrom (files : FileTree) : List Field → String → List String
  | [], path => if files.exists? path then [path] else []
  | part :: rest, path =>
    let go (name : String) : List String :=
      pathsFrom files rest (path ++ name ++ if rest.isEmpty then "" else "/")
    if part.isPattern then
      let p := Pattern.ofChars (part.length + 1) part
      let hidden := part.head?.any fun c => c.1 = '.'
      let names := (files.list (if path.isEmpty then "." else path)).toOption.getD []
      (names.filter fun name =>
        (hidden || ! name.startsWith ".") && p.matches? name.toList).flatMap go
    else go part.text

/-- The paths that the field describes, or its text if there is none. -/
def paths (files : FileTree) (f : Field) : List String :=
  if f.isPattern then
    match pathsFrom files f.parts "" with
    | [] => [f.text]
    | paths => paths
  else [f.text]

end Field

def textOf (pieces : List Piece) : String :=
  String.join (pieces.map fun p =>
    match p with
    | .text s _ _ => s
    | .fieldEnd => " "
    | .absent => "")

def patternOf (pieces : List Piece) : Pattern :=
  let cs := pieces.flatMap fun p =>
    match p with
    | .text s quoted _ => s.toList.map fun c => (c, quoted)
    | .fieldEnd => [(' ', true)]
    | .absent => []
  Pattern.ofChars (cs.length + 1) cs

def parameter? (s : State) (name : String) : Option String :=
  match name with
  | "?" => some (toString s.status)
  | "#" => some (toString s.arguments.length)
  | "$" => some processNumber
  | "0" => some s.name
  | "@" | "*" =>
    let separator := (((s.bindings.get? "IFS").getD " ").take 1).toString
    if s.arguments.isEmpty then none else some (separator.intercalate s.arguments)
  | "-" | "!" => some ""
  | name =>
    match name.toNat? with
    | some n => s.arguments[n - 1]?
    | none => s.bindings.get? name

/-- What stands before errors that arise on a line. -/
def lineLabel (s : State) (line : Nat) : String := s.name ++ ": " ++ toString line ++ ": "

/-- End the shell with an error of its own. -/
def abandon {α : Type} (text : String) : Run α := do
  modify fun s => { s with label := lineLabel s s.line ++ s.carrier }
  complain text
  throw (.exit 2)

def parameterPieces (name : String) (quoted : Bool) : Run (List Piece) := do
  let s ← get
  if name = "@" && quoted then
    if s.arguments.isEmpty then return [.absent]
    else return ((s.arguments.map fun a => Piece.text a true false).intersperse .fieldEnd)
  else
    match parameter? s name with
    | some value => return [.text value quoted (! quoted)]
    | none =>
      if s.declaredOnly && name ≠ "@" && name ≠ "*" then abandon (name ++ ": parameter not set")
      else return [.text "" quoted (! quoted)]

/-- Carry out something with its output kept. -/
def keeping (c : Run Nat) : Run (Nat × String) := do
  let before ← get
  set { before with written := "", output := .kept }
  let restore (s : State) : State := { s with written := before.written, output := before.output }
  try
    let status ← c
    let text := (← get).written
    modify restore
    return (status, text)
  catch e =>
    modify restore
    throw e

/-- Carry out something apart: variables and switches are as before afterwards, and it ends nothing
but itself. -/
def apart (c : Run Nat) : Run Nat := do
  let before ← get
  let restore (s : State) : State := { s with
    bindings := before.bindings
    arguments := before.arguments
    functions := before.functions
    strict := before.strict
    declaredOnly := before.declaredOnly
    files := { s.files with cwd := before.files.cwd } }
  try
    let status ← c
    modify restore
    return status
  catch e =>
    modify restore
    match e with
    | .exit status | .handBack status => return status
    | .killed => throw .killed
    | _ => return 0

/-- Where a stream of a command leads, from then on. -/
def leadTo (stream : Nat) (sink : Sink) : Run Unit :=
  modify fun s =>
    if stream = 1 then { s with output := sink }
    else if stream = 2 then { s with errors := sink }
    else s

/-- Open a file for writing; the result is a complaint. -/
def openFor (path : String) (append : Bool) : Run (Option String) := do
  if path = nullDevice then return none
  let before := (← get).files.read path
  let content := if append then before.toOption.getD "" else ""
  match ← changeFiles fun t => t.write path content with
  | none => return none
  | some .notFound => return some ("cannot create " ++ path ++ ": Directory nonexistent")
  | some e => return some ("cannot create " ++ path ++ ": " ++ fileFaultText e)

/-- A turn of a loop, and whether the loop goes on after it. -/
def turnOf (body : Run Nat) : Run (Nat × Bool) := do
  try
    return (← body, true)
  catch
    | .leave n => if n ≤ 1 then return (0, false) else throw (.leave (n - 1))
    | .again n => if n ≤ 1 then return (0, true) else throw (.again (n - 1))
    | e => throw e

/-- Remember the status of a command. A failure that nobody looks at ends a strict shell. -/
def settle (tested : Bool) (status : Nat) : Run Nat := do
  modify fun s => { s with status }
  if status ≠ 0 && ! tested && (← get).strict then throw (.exit status)
  return status

/-- Does a redirection change what is read? -/
def Redirection.isInput : Redirection → Bool
  | .read .. | .here .. => true
  | _ => false

/-- Do something with redirections, and have the streams as before afterwards. -/
def withStreams (redirections : List Redirection) (c : Run Nat) : Run Nat := do
  let before ← get
  let restore (s : State) : State := { s with
    output := before.output
    errors := before.errors
    label := before.label
    input := if redirections.any Redirection.isInput then before.input else s.input }
  try
    let status ← c
    modify restore
    return status
  catch e =>
    modify restore
    throw e

mutual

/-- The pieces of a word. -/
def expand : Nat → Word → Run (List Piece)
  | 0, _ => throw .killed
  | _ + 1, [] => return []
  | fuel + 1, part :: rest => do
    let pieces ← match part with
      | .text s quoted => pure [Piece.text s quoted false]
      | .parameter name quoted => parameterPieces name quoted
      | .lengthOf name quoted => do
        let value := (parameter? (← get) name).getD ""
        pure [Piece.text (toString value.length) quoted (! quoted)]
      | .treated name t w quoted => expandTreated fuel name t w quoted
      | .arithmetic w quoted => do
        let text := textOf (← expand fuel w)
        match Arithmetic.ofText text with
        | .error f => abandon (f.message text)
        | .ok a =>
          match a.eval.run (← get).bindings with
          | .error f => abandon (f.message text)
          | .ok (n, bindings) => do
            modify fun s => { s with bindings }
            pure [Piece.text (toString n) quoted (! quoted)]
      | .output command quoted => do
        let line := (← get).line
        let (status, text) ← keeping (apart (carryOutScript fuel (Script.ofText command)))
        modify fun s => { s with status, line }
        let kept := String.ofList (text.toList.reverse.dropWhile (· = '\n')).reverse
        pure [Piece.text kept quoted (! quoted)]
    return pieces ++ (← expand fuel rest)
termination_by structural fuel => fuel

/-- The pieces of a parameter with a treatment. -/
def expandTreated : Nat → String → Treatment → Word → Bool → Run (List Piece)
  | 0, _, _, _, _ => throw .killed
  | fuel + 1, name, t, w, quoted => do
    let value := parameter? (← get) name
    let present (emptyToo : Bool) : Bool := value.any fun v => ! (emptyToo && v.isEmpty)
    let own : List Piece := [.text (value.getD "") quoted (! quoted)]
    let cut (f : Pattern → List Char → List Char) : Run (List Piece) := do
      let p := patternOf (← expand fuel w)
      return [.text (String.ofList (f p (value.getD "").toList)) quoted (! quoted)]
    match t with
    | .orElse emptyToo => if present emptyToo then return own else expand fuel w
    | .ifPresent emptyToo => if present emptyToo then expand fuel w else return []
    | .orAssign emptyToo =>
      if present emptyToo then return own
      else
        let text := textOf (← expand fuel w)
        assign name text
        return [.text text quoted (! quoted)]
    | .orFail emptyToo =>
      if present emptyToo then return own
      else
        let text := textOf (← expand fuel w)
        abandon (name ++ ": " ++ if text.isEmpty then "parameter not set" else text)
    | .withoutStart longest =>
      cut fun p cs => cs.drop ((p.startLength? longest cs).getD 0)
    | .withoutEnd longest =>
      cut fun p cs => cs.take (cs.length - (p.endLength? longest cs).getD 0)
termination_by structural fuel => fuel

def expandAll : Nat → List Word → Run (List String)
  | 0, _ => throw .killed
  | _ + 1, [] => return []
  | fuel + 1, w :: rest => do
    let pieces ← expand fuel w
    let s ← get
    let fields := Fields.ofPieces (separatorsOf s) pieces
    return fields.flatMap (Field.paths s.files) ++ (← expandAll fuel rest)
termination_by structural fuel => fuel

/-- Lead streams elsewhere; the result is a complaint. -/
def redirect : Nat → List Redirection → Run (Option String)
  | 0, _ => throw .killed
  | _ + 1, [] => return none
  | fuel + 1, r :: rest => do
    let failed : Option String ← match r with
      | .duplicate stream source => do
        let s ← get
        leadTo stream (if source = 2 then s.errors else s.output)
        pure none
      | .here _ w => do
        let text := textOf (← expand fuel w)
        modify fun s => { s with input := text }
        pure none
      | .read _ w => do
        let path := textOf (← expand fuel w)
        match ← readFile path with
        | .ok text => do
          modify fun s => { s with input := text }
          pure none
        | .error .notFound => pure (some ("cannot open " ++ path ++ ": No such file"))
        | .error e => pure (some ("cannot open " ++ path ++ ": " ++ fileFaultText e))
      | .write stream w append => do
        let path := textOf (← expand fuel w)
        leadTo stream (if path = nullDevice then .discarded else .file path)
        openFor path append
    match failed with
    | some text => return some text
    | none => redirect fuel rest
termination_by structural fuel => fuel

def assignWords : Nat → List (String × Word) → Run Unit
  | 0, _ => throw .killed
  | _ + 1, [] => return
  | fuel + 1, (name, w) :: rest => do
    assign name (textOf (← expand fuel w))
    assignWords fuel rest
termination_by structural fuel => fuel

def invoke : Nat → Bool → Nat → List String → Run Nat
  | 0, _, _, _ => throw .killed
  | _ + 1, _, _, [] => return 0
  | fuel + 1, tested, line, name :: arguments => do
    let s ← get
    let labelled (label : String) (c : Run Nat) : Run Nat := do
      modify fun s => { s with label }
      c
    match name with
    | "eval" =>
      modify fun s => { s with carrier := "eval: ", line := 1 }
      let status ← carryOutScript fuel (Script.ofText (" ".intercalate arguments))
      modify fun after => { after with carrier := s.carrier, line := s.line }
      return status
    | "exec" =>
      modify fun s => { s with carrier := "exec: " }
      throw (.exit (← invoke fuel tested line arguments))
    | "." =>
      let path := arguments.headD ""
      match ← readFile path with
      | .ok text => carryOutScript fuel (Script.ofText text)
      | .error _ => abandon (".: cannot open " ++ path ++ ": No such file")
    | "sh" | "dash" | "/bin/sh" | "/usr/bin/sh" => invokeShell fuel name arguments
    | "command" =>
      match arguments with
      | "-v" :: sought :: _ =>
        if (builtin? sought).isSome then
          putLine sought
          return 0
        else if (tool? sought).isSome then
          putLine ("/usr/bin/" ++ sought)
          return 0
        else return 127
      | arguments => invoke fuel tested line arguments
    | name =>
      -- functions go before builtins, and these before tools
      match s.functions.get? name, builtin? name, tool? name with
      | some body, _, _ => callFunction fuel tested arguments body
      | none, some run, _ => labelled (lineLabel s line) (run arguments)
      | none, none, some run => labelled "" (run arguments)
      | none, none, none =>
        labelled (lineLabel s line ++ s.carrier) (failWith 127 (name ++ ": not found"))
termination_by structural fuel => fuel

def invokeShell : Nat → String → List String → Run Nat
  | 0, _, _ => throw .killed
  | fuel + 1, name, arguments => do
    let before ← get
    let begin (name : String) (arguments : List String) (text : String) : Run Nat := do
      set { State.start name before.bindings before.files with
        arguments
        input := before.input
        output := before.output
        errors := before.errors
        written := before.written
        complaints := before.complaints
        millis := before.millis }
      let status ← apart (carryOutScript fuel (Script.ofText text))
      modify fun after => { before with
        files := { after.files with cwd := before.files.cwd }
        input := after.input
        written := after.written
        complaints := after.complaints
        millis := after.millis }
      return status
    match arguments with
    | "-c" :: text :: rest => begin (rest.headD name) rest.tail text
    | path :: rest =>
      match ← readFile path with
      | .ok text => begin path rest text
      | .error _ =>
        modify fun s => { s with label := name ++ ": 0: " }
        failWith 2 ("cannot open " ++ path ++ ": No such file")
    | [] => begin name [] (← takeInput)
termination_by structural fuel => fuel

def callFunction : Nat → Bool → List String → Command → Run Nat
  | 0, _, _, _ => throw .killed
  | fuel + 1, tested, arguments, body => do
    let before ← get
    set { before with arguments, locals := [] }
    let restore (s : State) : State := { s with
      arguments := before.arguments
      locals := before.locals
      bindings := s.locals.foldl (fun b (name, value) => restored b name value) s.bindings }
    try
      let status ← carryOut fuel tested body
      modify restore
      return status
    catch e =>
      modify restore
      match e with
      | .handBack status => return status
      | e => throw e
termination_by structural fuel => fuel

/-- Carry out the commands of a script, up to a fault of it. -/
def carryOutScript : Nat → Script → Run Nat
  | 0, _ => throw .killed
  | fuel + 1, script => do
    let status ← carryOutAll fuel false script.commands 0
    match script.fault with
    | none => return status
    | some (f, line) =>
      modify fun s => { s with line }
      abandon f.message
termination_by structural fuel => fuel

def carryOutStages : Nat → List Command → Run Nat
  | 0, _ => throw .killed
  | _ + 1, [] => return 0
  | fuel + 1, [c] => apart (carryOut fuel true c)
  | fuel + 1, c :: rest => do
    let (_, text) ← keeping (apart (carryOut fuel true c))
    modify fun s => { s with input := text }
    carryOutStages fuel rest
termination_by structural fuel => fuel

def carryOutLoop : Nat → Bool → Bool → Command → Command → Nat → Run Nat
  | 0, _, _, _, _, _ => throw .killed
  | fuel + 1, tested, untilTrue, condition, body, last => do
    let (held, goOn) ← turnOf (carryOut fuel true condition)
    if ! goOn || (held = 0) = untilTrue then return last
    else
      let (status, goOn) ← turnOf (carryOut fuel tested body)
      if goOn then carryOutLoop fuel tested untilTrue condition body status else return status
termination_by structural fuel => fuel

/-- Carry out a body for each value of a variable. -/
def carryOutEach : Nat → Bool → String → List String → Command → Nat → Run Nat
  | 0, _, _, _, _, _ => throw .killed
  | _ + 1, _, _, [], _, last => return last
  | fuel + 1, tested, name, value :: rest, body, _ => do
    assign name value
    let (status, goOn) ← turnOf (carryOut fuel tested body)
    if goOn then carryOutEach fuel tested name rest body status else return status
termination_by structural fuel => fuel

/-- The first arm of a choice with a pattern that describes a text. -/
def chooseArm : Nat → List Char → List (List Word × Command) → Run Command
  | 0, _, _ => throw .killed
  | _ + 1, _, [] => return .nothing
  | fuel + 1, cs, ([], _) :: rest => chooseArm fuel cs rest
  | fuel + 1, cs, (w :: ws, c) :: rest => do
    if (patternOf (← expand fuel w)).matches? cs then return c
    else
      match ws with
      | [] => chooseArm fuel cs rest
      | ws => chooseArm fuel cs ((ws, c) :: rest)
termination_by structural fuel => fuel

def carryOutAll : Nat → Bool → List Command → Nat → Run Nat
  | 0, _, _, _ => throw .killed
  | _ + 1, _, [], last => return last
  | fuel + 1, tested, c :: rest, _ => do
    let status ← carryOut fuel tested c
    carryOutAll fuel tested rest status
termination_by structural fuel => fuel

/-- Carry out a command; the result is its status. `tested` tells that somebody looks at it. -/
def carryOut : Nat → Bool → Command → Run Nat
  | 0, _, _ => throw .killed
  | fuel + 1, tested, c => do
    match c with
    | .simple line assignments words redirections =>
      modify fun s => { s with status := if words.isEmpty then 0 else s.status, line }
      let fields ← expandAll fuel words
      let before ← get
      -- what `exec` redirects stays so
      let within (c : Run Nat) : Run Nat :=
        if fields == ["exec"] then c else withStreams redirections c
      let status ← within do
        match ← redirect fuel redirections with
        | some text =>
          modify fun s => { s with label := lineLabel s line ++ s.carrier }
          failWith 2 text
        | none =>
          assignWords fuel assignments
          if (← get).traced then
            let s ← get
            let assigned := assignments.map fun (name, _) =>
              name ++ "=" ++ (s.bindings.get? name).getD ""
            modify fun s => s.emit s.errors ("+ " ++ " ".intercalate (assigned ++ fields) ++ "\n")
          if fields.isEmpty || fields == ["exec"] then return (← get).status
          else
            let status ← invoke fuel tested line fields
            -- assignments before a command last no longer than the command
            assignments.forM fun (name, _) =>
              modify fun s => { s with
                bindings := restored s.bindings name (before.bindings.get? name) }
            return status
      settle tested status
    | .pipeline negated stages =>
      let input := (← get).input
      let status ← carryOutStages fuel stages
      if stages.length > 1 then modify fun s => { s with input }
      if negated then settle true (if status = 0 then 1 else 0) else settle tested status
    | .both first second =>
      let status ← carryOut fuel true first
      if status = 0 then carryOut fuel tested second else return status
    | .either first second =>
      let status ← carryOut fuel true first
      if status = 0 then return status else carryOut fuel tested second
    | .sequence commands => carryOutAll fuel tested commands 0
    | .branch condition yes no =>
      let held ← carryOut fuel true condition
      settle true (← carryOut fuel tested (if held = 0 then yes else no))
    | .loop untilTrue condition body =>
      settle true (← carryOutLoop fuel tested untilTrue condition body 0)
    | .each name items body =>
      let values ← match items with
        | some ws => expandAll fuel ws
        | none => do pure (← get).arguments
      settle true (← carryOutEach fuel tested name values body 0)
    | .choice subject arms =>
      let cs := (textOf (← expand fuel subject)).toList
      let arm ← chooseArm fuel cs arms
      settle true (← carryOut fuel tested arm)
    | .block isApart body redirections =>
      let status ← withStreams redirections do
        match ← redirect fuel redirections with
        | some text =>
          modify fun s => { s with label := lineLabel s s.line ++ s.carrier }
          failWith 2 text
        | none =>
          let c := carryOut fuel tested body
          if isApart then apart c else c
      settle (tested || ! isApart) status
    | .define name body =>
      modify fun s => { s with functions := s.functions.insert name body }
      settle true 0
termination_by structural fuel => fuel

end

/-- How deep commands may be nested, turns of loops included. -/
def depthLimit : Nat := 100000

/-- What has come of a command. The working directory is that of the start. -/
structure Result where
  /-- The status, unless the shell was killed. -/
  status : Option Nat
  output : String
  errors : String
  millis : Nat
  files : FileTree

def runText (name : String) (bindings : Dict String) (files : FileTree) (text : String) :
    Result :=
  let whole : Run Nat := do
    let status ← try carryOutScript depthLimit (Script.ofText text) catch
      | .exit status => pure status
      | e => throw e
    match (← get).farewell with
    | none => return status
    | some text =>
      modify fun s => { s with status }
      let _ ← carryOutScript depthLimit (Script.ofText text)
      return status
  let (ending, s) := whole.run.run (.start name bindings files)
  let status : Option Nat :=
    match ending with
    | .ok status => some status
    | .error (.exit status) | .error (.handBack status) => some status
    | .error .killed => none
    | .error _ => some 0
  ⟨status, s.written, s.complaints, s.millis, { s.files with cwd := files.cwd }⟩

end Workflow.Shell
