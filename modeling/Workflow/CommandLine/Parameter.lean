import Workflow.Data.Dict
import Workflow.Text.Blank
import Workflow.Value.Lenient

/-!
# Parameters on the command line

A parameter is written `KEY=VALUE`; the key loses its surrounding blanks, the value is a loose text.
-/
namespace Workflow.CommandLine

/-- What is wrong with the text of a parameter. -/
inductive ParameterFlaw where
  | noEquals (item : String)
  | emptyKey (item : String)
  deriving DecidableEq, Repr

def ParameterFlaw.message : ParameterFlaw → String
  | noEquals item => s!"Invalid parameter '{item}': expected KEY=VALUE"
  | emptyKey item => s!"Invalid parameter '{item}': empty key"

def readParameter (item : String) : Except ParameterFlaw (String × Scalar) :=
  let key := item.toList.takeWhile (· != '=')
  match item.toList.drop key.length with
  | [] => .error (.noEquals item)
  | _ :: value =>
    let key := trimBlanks key
    if key.isEmpty then .error (.emptyKey item)
    else .ok (String.ofList key, .ofLooseText (String.ofList value))

/-- Parameters by key; of a repeated key the last one counts. -/
def readParameters (items : List String) : Except ParameterFlaw (Dict Scalar) :=
  (items.mapM readParameter).map Dict.ofList

end Workflow.CommandLine
