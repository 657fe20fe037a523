import Workflow.Schedule.Drive
import Workflow.Task.Context

/-!
# Scripted bodies

A scripted body takes a fixed time and then performs a few simple actions, each of which adds an
output or ends the body. Scripts stand in for real bodies when a pipeline is rehearsed.
-/
namespace Workflow

inductive Action where
  /-- Add fixed outputs. -/
  | constants (values : Dict Value)
  /-- Fail with a chain of causes, the outermost first. -/
  | fail (chain : List String)
  | panic
  /-- Add up numeric inputs; the sum may be cut to an integer. -/
  | sum (inputs : List String) (out : String) (whole : Bool)
  /-- Is one numeric input at least another? -/
  | atLeast (left right out : String)
  | echo (source out : String)
  | negate (source out : String)
  /-- A text input with an exclamation mark. -/
  | exclaim (source out : String)
  /-- An artifact at the location that is set aside for it. -/
  | artifact (out : String) (metadata : Dict Document)
  /-- The location of an artifact input. -/
  | uriOf (source out : String)

namespace Action

/-- The keys that tell actions apart, in the order in which they are looked for. -/
def ofFields? (fields : List (String × Document)) : Option Action :=
  let texts (key : String) : Option (List String) :=
    (fields.lookup key).bind (Document.asList? Document.asText?)
  let name (key : String) : Option String := (fields.lookup key).bind Document.asText?
  let out := (name "out").getD "out"
  match fields.lookup "const", texts "fail", fields.lookup "panic", texts "sum", texts "ge" with
  | some values, _, _, _, _ => (Document.asDict? Value.decode? values).map constants
  | _, some chain, _, _, _ => some (fail chain)
  | _, _, some _, _, _ => some panic
  | _, _, _, some inputs, _ => some (sum inputs out (fields.lookup "int").isSome)
  | _, _, _, _, some [left, right] => some (atLeast left right out)
  | _, _, _, _, _ =>
    (name "echo").map (echo · out) <|> (name "bool").map (negate · out) <|>
    (name "str").map (exclaim · out) <|> (name "uri_of").map (uriOf · out) <|>
    (do
      let metadata ← Fields.defaulted fields "metadata" Dict.empty
        (Document.asDict? fun d => some d.sortKeys)
      return artifact (← name "artifact") metadata)

def decode? (d : Document) : Option Action := do
  ofFields? (← d.asMappingFields?
    ["const", "fail", "panic", "sum", "ge", "echo", "bool", "str", "artifact", "uri_of", "out",
      "int", "metadata"])

/-- What an action adds to the outputs, or how it ends the body. -/
def perform (c : TaskContext) (outputs : TaskOutputs) (a : Action) : Except Ending TaskOutputs :=
  let value (out : String) (v : BodyResult Value) : Except Ending TaskOutputs :=
    match v with
    | .ok v => .ok (outputs.insert out v)
    | .error reason => .error (.failed reason)
  match a with
  | constants values => .ok (outputs.overlay values)
  | fail chain => .error (.failed (": ".intercalate chain))
  | panic => .error .panicked
  | sum inputs out whole => value out do
    let numbers ← inputs.mapM c.number
    let total := numbers.foldl (· + ·) (Binary64.zero false)
    return .scalar (if whole then
      .int (Int64.ofInt (total.toIntClamped Document.leastInt64 Document.greatestInt64))
      else .float total)
  | atLeast left right out => value out do
    return .scalar (.bool ((← c.number right).numLe (← c.number left)))
  | echo source out => value out (c.input source)
  | negate source out => value out do return .scalar (.bool !(← c.bool source))
  | exclaim source out => value out do return .scalar (.text ((← c.text source) ++ "!"))
  | artifact out metadata => value out do return .artifact ⟨← c.location out, metadata⟩
  | uriOf source out => value out do return .scalar (.text (← c.artifact source).uri)

end Action

/-- A duration in milliseconds and what is done after it. -/
structure Script where
  duration : Nat
  actions : List Action

namespace Script

def decode? (d : Document) : Option Script := do
  let fields ← d.asMappingFields? ["sleep", "do"]
  let duration ← Fields.defaulted fields "sleep" 0 Document.asNat?
  let actions ← Fields.defaulted fields "do" [] (Document.asList? Action.decode?)
  return ⟨duration, actions⟩

def ending (s : Script) (c : TaskContext) : Ending :=
  match s.actions.foldlM (Action.perform c) Dict.empty with
  | .ok outputs => .returned outputs
  | .error e => e

end Script

/-- A script, with others in its place for some nodes. -/
structure ScriptedBody where
  script : Script
  byNode : Dict Script

namespace ScriptedBody

def decode? (d : Document) : Option ScriptedBody := do
  let fields ← d.asMappingFields? ["by_node"]
  return ⟨← Script.decode? d,
    ← Fields.defaulted fields "by_node" Dict.empty (Document.asDict? Script.decode?)⟩

def scriptFor (b : ScriptedBody) (node : String) : Script := (b.byNode.get? node).getD b.script

end ScriptedBody
end Workflow
