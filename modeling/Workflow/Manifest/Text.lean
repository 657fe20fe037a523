import Workflow.Json.Read
import Workflow.Manifest.Check
import Workflow.Storage.FileTree
import Workflow.Yaml.Node
import Workflow.Yaml.Write

/-!
# Texts of manifests

A manifest is written and read as JSON or as YAML. In files, the extension of the path tells which.
-/
namespace Workflow

/-- The text formats of manifests. -/
inductive TextFormat where
  | json
  | yaml
  deriving DecidableEq, Repr

/-- Files called `.yaml` or `.yml` hold YAML, all others JSON. -/
def TextFormat.ofPath (path : String) : TextFormat :=
  match Path.extension? path with
  | some "yaml" | some "yml" => .yaml
  | _ => .json

namespace Manifest

def prettyText (m : Manifest) : String := Json.pretty m.encode

def yamlText (m : Manifest) : String := Yaml.write m.encode

def text (m : Manifest) : TextFormat → String
  | .json => m.prettyText
  | .yaml => m.yamlText

def ofJson (text : String) : Outcome Manifest :=
  match (Json.read? text).bind decode? with
  | some m => .ok m
  | none => .error (.json "not a manifest")

def ofYaml (text : String) : Outcome Manifest :=
  match (Yaml.read? text).bind decode? with
  | some m => .ok m
  | none => .error (.yaml "not a manifest")

def ofText (format : TextFormat) (text : String) : Outcome Manifest :=
  match format with
  | .json => ofJson text
  | .yaml => ofYaml text

/-- The manifest of a file, checked. -/
def ofFile (files : FileTree) (path : String) : Outcome Manifest :=
  match files.read path with
  | .error e => .error (.fileRead path e.message)
  | .ok text => do
    let m ← ofText (.ofPath path) text
    m.validate
    return m

def writeTo (m : Manifest) (files : FileTree) (path : String) : Outcome FileTree :=
  match files.write path (m.text (.ofPath path)) with
  | .ok files => .ok files
  | .error e => .error (.fileWrite path e.message)

end Manifest

end Workflow
