import Workflow.Pipeline.Definition

/-!
# Binding parameters

The parameters of a submission are bound against the declarations: defaults fill in, types are
checked, and nothing undeclared is let through.
-/
namespace Workflow

/-- The value of one declaration: supplied or default, coerced to the declared type. -/
def ParameterSpec.bind (spec : ParameterSpec) (supplied : Dict Scalar) : Outcome Scalar :=
  match supplied.get? spec.name <|> spec.defaultValue with
  | none => .error (.missingParameter spec.name)
  | some value =>
    match spec.dataType.coerceScalar value with
    | .ok value => .ok value
    | .error actual => .error (.parameterType spec.name spec.dataType actual.name)

/-- Bind declarations in their order. -/
def bindSpecs (supplied : Dict Scalar) : List ParameterSpec → Dict Scalar → Outcome (Dict Scalar)
  | [], bound => .ok bound
  | spec :: rest, bound => do
    bindSpecs supplied rest (bound.insert spec.name (← spec.bind supplied))

/-- Bind the parameters of a submission. The first undeclared name is refused before anything else
is looked at. -/
def bindParameters (specs : List ParameterSpec) (supplied : Dict Scalar) : Outcome (Dict Scalar) :=
  match supplied.keys.find? fun k => ¬ specs.any fun s => s.name = k with
  | some unknown => .error (.unexpectedParameter unknown)
  | none => bindSpecs supplied specs Dict.empty

end Workflow
