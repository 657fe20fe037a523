import Workflow.Pipeline.File
import Workflow.Storage.FileTree
import Workflow.Yaml.Node
import Workflow.Yaml.Write

/-!
# Texts of pipeline files

Pipeline files are YAML texts.
-/
namespace Workflow.PipelineFile

def ofYaml (text : String) : Outcome PipelineFile :=
  match (Yaml.read? text).bind decode? with
  | some f => .ok f
  | none => .error (.yaml "not a pipeline file")

def yamlText (f : PipelineFile) : String := Yaml.write f.encode

/-- The pipeline of a file that must be there. -/
def ofFile (files : FileTree) (path : String) : Outcome PipelineFile :=
  if ¬ files.exists? path then .error (.pipelineNotFound path)
  else
    match files.read path with
    | .ok text => ofYaml text
    | .error e => .error (.fileRead path e.message)

end Workflow.PipelineFile
