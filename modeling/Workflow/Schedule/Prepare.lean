import Workflow.Artifact.Store
import Workflow.Manifest.Basic
import Workflow.Task.Context

/-!
# Preparing nodes and checking results

A node's condition and inputs are read from the values that the run has made so far; the outputs of
its body are checked against their declarations.
-/
namespace Workflow

/-- Why a node failed. -/
inductive NodeFault where
  | unresolvedCondition (gate : String)
  | unresolvedInput (input : String)
  | inputType (input : String) (expected : DataType) (actual : String)
  | missingOutput (output : String)
  | outputType (output : String) (expected : DataType) (actual : String)
  | unavailable (reason : String)
  | body (reason : String)
  | panicked
  deriving DecidableEq, Repr

namespace NodeFault

def message : NodeFault → String
  | unresolvedCondition gate => s!"UnresolvedCondition: gate '{gate}' has no usable value"
  | unresolvedInput input => s!"UnresolvedInput: input '{input}' has no value"
  | inputType input expected actual => s!"input '{input}' expects {expected.name}, got {actual}"
  | missingOutput output => s!"output '{output}' was not produced"
  | outputType output expected actual =>
    s!"output '{output}' expects {expected.name}, got {actual}"
  | unavailable reason => s!"no body available: {reason}"
  | body reason => reason
  | panicked => "task body panicked"

end NodeFault

/-- The store of a run that begins: the parameters of the manifest that have a value. -/
def seedArtifacts (m : Manifest) (params : Dict Scalar) : ArtifactStore :=
  m.parameters.foldl (fun store spec =>
    match params.get? spec.name with
    | none => store
    | some value =>
      match spec.dataType.coerce (.scalar value) with
      | .ok value => store.insert (.param spec.name) value
      | .error _ => store) .empty

/-- Does every clause hold? The first clause without a scalar to look at, or that does not hold,
decides. -/
def clausesHold (store : ArtifactStore) : List ConditionClause → Except NodeFault Bool
  | [] => .ok true
  | c :: rest =>
    match (store.get? c.gate.artifact).bind Value.asScalar? with
    | none => .error (.unresolvedCondition c.gate.display)
    | some value => if value.looselyEquals c.equals then clausesHold store rest else .ok false

/-- The value that an input gets before coercion. -/
def inputSource? (store : ArtifactStore) (i : NodeInput) : Option Value :=
  match i.binding with
  | some (.param name) => store.get? (.param name)
  | some (.output task result) => store.get? (.output task result)
  | some (.literal value) => some (.scalar value)
  | none => i.defaultValue.map .scalar

/-- The value of an input. -/
def resolveInput (store : ArtifactStore) (i : NodeInput) : Except NodeFault Value :=
  match inputSource? store i with
  | none => .error (.unresolvedInput i.name)
  | some value =>
    match i.dataType.coerce value with
    | .ok value => .ok value
    | .error actual => .error (.inputType i.name i.dataType actual)

/-- The values of all inputs; the first one that has none decides. -/
def resolveInputs (store : ArtifactStore) : List NodeInput → Dict Value →
    Except NodeFault (Dict Value)
  | [], values => .ok values
  | i :: rest, values => do resolveInputs store rest (values.insert i.name (← resolveInput store i))

/-- Check the values of a body against the declared outputs; other values are left out. -/
def checkOutputs : List NodeOutput → TaskOutputs → Dict Value → Except NodeFault (Dict Value)
  | [], _, checked => .ok checked
  | o :: rest, produced, checked =>
    match produced.get? o.name with
    | none => .error (.missingOutput o.name)
    | some value =>
      match o.dataType.coerce value with
      -- a value serves one output
      | .ok value => checkOutputs rest (produced.erase o.name) (checked.insert o.name value)
      | .error actual => .error (.outputType o.name o.dataType actual)

/-- Store the outputs of a node under their artifact ids. -/
def storeOutputs (outputs : List NodeOutput) (values : Dict Value) (store : ArtifactStore) :
    ArtifactStore :=
  outputs.foldl (fun store o =>
    match values.get? o.name with
    | some value => store.insert o.artifact value
    | none => store) store

end Workflow
