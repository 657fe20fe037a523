import Workflow.Digest.Framing
import Workflow.Graph.Order
import Workflow.Pipeline.Binding
import Workflow.Pipeline.Definition

/-!
# Manifests

A manifest is the self-contained form of a sealed pipeline: what is stored, exchanged and executed.
Its digest is the hash of its compact JSON text.
-/
namespace Workflow

/-- The name and description that a manifest carries. -/
structure PipelineInfo where
  name : String
  description : Option String
  deriving DecidableEq, Repr

structure NodeInput where
  name : String
  dataType : DataType
  binding : Option Binding
  defaultValue : Option Scalar
  deriving DecidableEq, Repr

structure NodeOutput where
  name : String
  dataType : DataType
  artifact : ArtifactId
  deriving DecidableEq, Repr

/-- A task of a manifest. -/
structure ManifestNode where
  id : String
  name : String
  component : String
  inputs : List NodeInput
  /-- Outputs in the order of their declaration. -/
  outputs : List NodeOutput
  resources : ResourceProfile
  condition : Condition
  body : BodyRef
  deriving DecidableEq, Repr

namespace ManifestNode

def output? (n : ManifestNode) (name : String) : Option NodeOutput :=
  n.outputs.find? fun o => o.name = name

def isGated (n : ManifestNode) : Bool := ¬ n.condition.isEmpty

end ManifestNode

/-- The compiled form of a pipeline. -/
structure Manifest where
  apiVersion : String
  pipeline : PipelineInfo
  parameters : List ParameterSpec
  nodes : List ManifestNode
  /-- Pairs of producer and consumer. -/
  edges : List (String × String)
  deriving DecidableEq, Repr

/-- The format version that is written and understood. -/
def manifestVersion : String := "dagflow/v1"

namespace Manifest

def name (m : Manifest) : String := m.pipeline.name

def node? (m : Manifest) (id : String) : Option ManifestNode := m.nodes.find? fun n => n.id = id

def parameter? (m : Manifest) (name : String) : Option ParameterSpec :=
  m.parameters.find? fun p => p.name = name

def graph (m : Manifest) : TaskGraph := .ofEdges (m.nodes.map (·.id)) m.edges

end Manifest

/-! ## Documents -/

namespace PipelineInfo

def decode? (d : Document) : Option PipelineInfo := do
  let fields ← d.asFields? ["name", "description"]
  let name ← Fields.required fields "name" Document.asText?
  let description ← Fields.optional fields "description" Document.asText?
  return ⟨name, description⟩

def encode (p : PipelineInfo) : Document :=
  .record ([("name", .text p.name)] ++
    Document.optionalField "description" Document.text p.description)

end PipelineInfo

namespace NodeInput

def decode? (d : Document) : Option NodeInput := do
  let fields ← d.asFields? ["name", "type", "binding", "default"]
  let name ← Fields.required fields "name" Document.asText?
  let dataType ← Fields.required fields "type" DataType.decode?
  let binding ← Fields.optional fields "binding" Binding.decode?
  let defaultValue ← Fields.optional fields "default" Scalar.decode?
  return ⟨name, dataType, binding, defaultValue⟩

def encode (i : NodeInput) : Document :=
  .record ([("name", .text i.name), ("type", i.dataType.encode)] ++
    Document.optionalField "binding" Binding.encode i.binding ++
    Document.optionalField "default" Scalar.encode i.defaultValue)

end NodeInput

namespace NodeOutput

def decode? (d : Document) : Option NodeOutput := do
  let fields ← d.asFields? ["name", "type", "artifact"]
  let name ← Fields.required fields "name" Document.asText?
  let dataType ← Fields.required fields "type" DataType.decode?
  let artifact ← Fields.required fields "artifact" ArtifactId.decode?
  return ⟨name, dataType, artifact⟩

def encode (o : NodeOutput) : Document :=
  .record [("name", .text o.name), ("type", o.dataType.encode), ("artifact", o.artifact.encode)]

end NodeOutput

namespace ManifestNode

def decode? (d : Document) : Option ManifestNode := do
  let fields ← d.asFields?
    ["id", "name", "component", "inputs", "outputs", "resources", "condition", "body"]
  let id ← Fields.required fields "id" Document.asText?
  let name ← Fields.required fields "name" Document.asText?
  let component ← Fields.required fields "component" Document.asText?
  let inputs ← Fields.defaulted fields "inputs" [] (Document.asList? NodeInput.decode?)
  let outputs ← Fields.defaulted fields "outputs" [] (Document.asList? NodeOutput.decode?)
  let resources ← Fields.defaulted fields "resources" .empty ResourceProfile.decode?
  let condition ← Fields.defaulted fields "condition" .always Condition.decode?
  let body ← Fields.required fields "body" BodyRef.decode?
  return ⟨id, name, component, inputs, outputs, resources, condition, body⟩

def encode (n : ManifestNode) : Document :=
  .record ([("id", .text n.id), ("name", .text n.name), ("component", .text n.component),
      ("inputs", .sequence (n.inputs.map (·.encode))),
      ("outputs", .sequence (n.outputs.map (·.encode)))] ++
    n.resources.field ++
    (if n.condition.isEmpty then [] else [("condition", n.condition.encode)]) ++
    [("body", n.body.encode)])

end ManifestNode

namespace Manifest

def decodeEdge? (d : Document) : Option (String × String) := do
  let fields ← d.asFields? ["from", "to"]
  let source ← Fields.required fields "from" Document.asText?
  let target ← Fields.required fields "to" Document.asText?
  return (source, target)

def encodeEdge (e : String × String) : Document :=
  .record [("from", .text e.1), ("to", .text e.2)]

def decode? (d : Document) : Option Manifest := do
  let fields ← d.asFields? ["api_version", "pipeline", "parameters", "nodes", "edges"]
  let apiVersion ← Fields.required fields "api_version" Document.asText?
  let pipeline ← Fields.required fields "pipeline" PipelineInfo.decode?
  let parameters ← Fields.defaulted fields "parameters" [] (Document.asList? ParameterSpec.decode?)
  let nodes ← Fields.required fields "nodes" (Document.asList? ManifestNode.decode?)
  let edges ← Fields.defaulted fields "edges" [] (Document.asList? decodeEdge?)
  return ⟨apiVersion, pipeline, parameters, nodes, edges⟩

def encode (m : Manifest) : Document :=
  .record [("api_version", .text m.apiVersion), ("pipeline", m.pipeline.encode),
    ("parameters", .sequence (m.parameters.map (·.encode))),
    ("nodes", .sequence (m.nodes.map (·.encode))),
    ("edges", .sequence (m.edges.map encodeEdge))]

/-- The JSON text of which the digest is taken. -/
def compactText (m : Manifest) : String := Json.compact m.encode

/-- The content digest, by which a manifest is referred to. -/
def digest (m : Manifest) : String := textDigest m.compactText

end Manifest
end Workflow
