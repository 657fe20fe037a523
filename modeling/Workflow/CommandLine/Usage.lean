import Workflow.Data.Dict
import Workflow.Text.Digits

/-!
# Reading a command line

A command has options, places for values, and subcommands. A command line is read from left to
right, each command taking its options until the name of a subcommand comes. Options that are
common to all commands may stand at any of them; what stands deeper counts.

A value is checked as soon as the next option or value is met, and variables of the environment are
looked at when all arguments of a command have been read.
-/
namespace Workflow.CommandLine

/-- Why a command line is answered by the reader of it. -/
inductive UsageFault where
  | help
  | version
  | helpOnMissing
  | missingSubcommand
  | invalidSubcommand
  | unknownArgument
  | argumentConflict
  | invalidValue
  | valueValidation
  | tooManyValues
  | missingRequiredArgument
  deriving DecidableEq, Repr

namespace UsageFault

def name : UsageFault → String
  | help => "DisplayHelp"
  | version => "DisplayVersion"
  | helpOnMissing => "DisplayHelpOnMissingArgumentOrSubcommand"
  | missingSubcommand => "MissingSubcommand"
  | invalidSubcommand => "InvalidSubcommand"
  | unknownArgument => "UnknownArgument"
  | argumentConflict => "ArgumentConflict"
  | invalidValue => "InvalidValue"
  | valueValidation => "ValueValidation"
  | tooManyValues => "TooManyValues"
  | missingRequiredArgument => "MissingRequiredArgument"

/-- Only what has been asked for is a success. -/
def status : UsageFault → Nat
  | help | version => 0
  | _ => 2

end UsageFault

/-- What is accepted as a value. -/
inductive ValueKind where
  | text
  /-- A text that is not empty. -/
  | path
  | count
  | choice (names : List String)
  deriving DecidableEq, Repr

/-- A count is an unsigned number of 64 bits; a plus sign may stand before it. -/
def count? (s : String) : Option Nat :=
  let digits := if s.startsWith "+" then (s.drop 1).toString.toList else s.toList
  if digits.isEmpty || ! digits.all isAsciiDigit then none
  else
    let n := decimalValue digits
    if n < Nat.pow 2 64 then some n else none

def ValueKind.check (kind : ValueKind) (value : String) : Except UsageFault Unit :=
  match kind with
  | .text => .ok ()
  | .path => if value.isEmpty then .error .invalidValue else .ok ()
  | .count => if (count? value).isSome then .ok () else .error .valueValidation
  | .choice names => if names.contains value then .ok () else .error .invalidValue

/-- An argument that a command knows. One without a kind is a switch. -/
structure ArgumentSpec where
  name : String
  short : Option Char
  kind : Option ValueKind
  repeatable : Bool
  /-- A variable of the environment that gives the value if no argument does. -/
  fallback : Option String
  required : Bool
  deriving Repr

namespace ArgumentSpec

def switch (name : String) (short : Option Char) : ArgumentSpec :=
  ⟨name, short, none, false, none, false⟩

def option (name : String) (short : Option Char) (kind : ValueKind) : ArgumentSpec :=
  ⟨name, short, some kind, false, none, false⟩

end ArgumentSpec

inductive CommandSpec where
  | mk (name : String) (options places : List ArgumentSpec) (conflicts : List (String × String))
    (subcommands : List CommandSpec)

namespace CommandSpec

def name : CommandSpec → String
  | mk name .. => name

def options : CommandSpec → List ArgumentSpec
  | mk _ options .. => options

def places : CommandSpec → List ArgumentSpec
  | mk _ _ places .. => places

def conflicts : CommandSpec → List (String × String)
  | mk _ _ _ conflicts _ => conflicts

def subcommands : CommandSpec → List CommandSpec
  | mk _ _ _ _ subcommands => subcommands

def subcommand? (c : CommandSpec) (name : String) : Option CommandSpec :=
  c.subcommands.find? fun b => b.name == name

/-- The command that words after `help` name. -/
def explain : CommandSpec → List String → UsageFault
  | _, [] => .help
  | c, name :: rest =>
    if name = "help" && ! c.subcommands.isEmpty then explainHelp rest
    else
      match c.subcommand? name with
      | some b => explain b rest
      | none => .invalidSubcommand
where
  /-- The command `help` has no subcommands. -/
  explainHelp : List String → UsageFault
    | [] => .help
    | _ => .invalidSubcommand

end CommandSpec

/-- An option whose value has yet to come or to be checked. -/
structure Pending where
  spec : ArgumentSpec
  value : Option String

/-- How far the arguments of one command have been read. -/
structure Reading where
  /-- Values by name; a switch that is on has the value empty. -/
  values : Dict (List String)
  pending : Option Pending
  /-- The next argument may be the value of the pending option. -/
  expecting : Bool
  /-- The values that have stood at places. -/
  placed : Nat
  /-- Only values follow. -/
  trailing : Bool

namespace Reading

def start : Reading := ⟨Dict.empty, none, false, 0, false⟩

/-- Take the values of an argument. Only repeatable ones may be given twice. -/
def take (r : Reading) (spec : ArgumentSpec) (values : List String) :
    Except UsageFault Reading := do
  let before := (r.values.get? spec.name).getD []
  if r.values.contains spec.name && ! spec.repeatable then throw .argumentConflict
  if let some kind := spec.kind then values.forM kind.check
  return { r with values := r.values.insert spec.name (before ++ values) }

/-- Take the pending option. One without a value is refused. -/
def resolve (r : Reading) : Except UsageFault Reading :=
  match r.pending with
  | none => .ok r
  | some ⟨_, none⟩ => .error .invalidValue
  | some ⟨spec, some value⟩ => { r with pending := none }.take spec [value]

def turnOn (r : Reading) (spec : ArgumentSpec) : Except UsageFault Reading := do
  let r ← r.resolve
  if spec.name = "help" then throw .help
  if spec.name = "version" then throw .version
  return { (← r.take spec [""]) with expecting := false }

def meet (r : Reading) (spec : ArgumentSpec) (attached : Option String) :
    Except UsageFault Reading := do
  let r ← r.resolve
  match attached with
  | some value => return { (← r.take spec [value]) with expecting := false }
  | none => return { r with pending := some ⟨spec, none⟩, expecting := true }

/-- An argument with two dashes before its name. -/
def readLong (c : CommandSpec) (r : Reading) (text : String) : Except UsageFault Reading := do
  let name := String.ofList (text.toList.takeWhile (· ≠ '='))
  let attached := if name.length < text.length then some (text.drop (name.length + 1)).toString
    else none
  match c.options.find? fun o => o.name == name with
  | none => throw .unknownArgument
  | some spec =>
    match spec.kind, attached with
    | none, some _ => throw .tooManyValues
    | none, none => r.turnOn spec
    | some _, _ => r.meet spec attached

/-- An argument of letters after one dash. What follows the letter of an option is its value. -/
def readShort (c : CommandSpec) : List Char → Reading → Except UsageFault Reading
  | [], r => .ok r
  | letter :: rest, r => do
    match c.options.find? fun o => o.short == some letter with
    | none => throw .unknownArgument
    | some spec =>
      if spec.kind.isNone then readShort c rest (← r.turnOn spec)
      else
        let value := if rest.head? = some '=' then rest.tail else rest
        r.meet spec (if rest.isEmpty then none else some (String.ofList value))

def readPlace (c : CommandSpec) (r : Reading) (text : String) : Except UsageFault Reading := do
  match c.places[r.placed]? with
  | some spec =>
    let r ← r.resolve
    return { r with
      pending := some ⟨spec, some text⟩, expecting := false, placed := r.placed + 1 }
  | none =>
    if c.subcommands.isEmpty || (r.trailing && (c.subcommand? text).isSome) then
      throw .unknownArgument
    else throw .invalidSubcommand

/-- Read arguments up to the name of a subcommand. -/
def read (c : CommandSpec) :
    List String → Reading → Except UsageFault (Reading × Option (CommandSpec × List String))
  | [], r => .ok (r, none)
  | a :: rest, r => do
    if r.trailing then read c rest (← r.readPlace c a)
    else
      let sub? := if r.expecting then none else c.subcommand? a
      match sub? with
      | some b => return (r, some (b, rest))
      | none =>
        if a = "help" && ! r.expecting && ! c.subcommands.isEmpty then throw (c.explain rest)
        else if a = "--" then read c rest { r with trailing := true }
        else if a.startsWith "--" then read c rest (← r.readLong c (a.drop 2).toString)
        else if a.startsWith "-" && a ≠ "-" then
          read c rest (← readShort c (a.drop 1).toString.toList r)
        else
          match r.pending with
          | some ⟨spec, none⟩ =>
            read c rest { r with pending := some ⟨spec, some a⟩, expecting := false }
          | _ => read c rest (← r.readPlace c a)

end Reading

/-- Where a value comes from, the weaker first. -/
inductive Origin where
  | environment
  | arguments
  deriving DecidableEq, Repr

structure Given where
  name : String
  values : Dict (Origin × List String)

namespace Given

def texts (g : Given) (name : String) : List String := ((g.values.get? name).map (·.2)).getD []

def text? (g : Given) (name : String) : Option String := (g.texts name).head?

def has (g : Given) (name : String) : Bool := g.values.contains name

/-- Values of a command with those of one above it; above counts only what is stronger. -/
def withAbove (g above : Given) : Given :=
  { g with values := above.values.entries.foldl (fun values (name, origin, texts) =>
      match values.get? name with
      | some (.arguments, _) => values
      | some (.environment, _) =>
        if origin = .arguments then values.insert name (origin, texts) else values
      | none => values.insert name (origin, texts)) g.values }

end Given

/-- The values of a command, those of the environment included, and whether they will do. -/
def finish (c : CommandSpec) (environment : Dict String) (goesOn : Bool) (r : Reading) :
    Except UsageFault Given := do
  let r ← r.resolve
  let own := r.values.map fun texts => (Origin.arguments, texts)
  let values ← c.options.foldlM (fun values spec => do
    match (if values.contains spec.name then none else spec.fallback.bind environment.get?) with
    | none => return values
    | some value =>
      if let some kind := spec.kind then kind.check value
      return values.insert spec.name (Origin.environment, [value])) own
  if ! goesOn && ! c.subcommands.isEmpty then
    throw (if values.isEmpty then .helpOnMissing else .missingSubcommand)
  if c.conflicts.any fun (a, b) => values.contains a && values.contains b then
    throw .argumentConflict
  if c.places.any fun spec => spec.required && ! values.contains spec.name then
    throw .missingRequiredArgument
  return ⟨c.name, values⟩

/-- Read a command line. The result names the commands from the first one down, without that at the
top, and has the values of the last one. -/
def readCommands (environment : Dict String) :
    Nat → CommandSpec → List String → Except UsageFault (List String × Given)
  | 0, _, _ => .error .unknownArgument
  | fuel + 1, c, arguments => do
    let (r, sub) ← Reading.read c arguments .start
    match sub with
    | none => return ([], ← finish c environment false r)
    | some (b, rest) =>
      let (names, given) ← readCommands environment fuel b rest
      let above ← finish c environment true r
      return (b.name :: names, given.withAbove above)

end Workflow.CommandLine
