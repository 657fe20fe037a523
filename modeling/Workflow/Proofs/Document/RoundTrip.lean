import Workflow.Manifest.Text
import Workflow.Proofs.Document.Legible

/-!
# Documents that are written and read again

A manifest is the same after it was written as JSON or as YAML and read again, and so is a run after
it was written as JSON: the readers of values undo what the writers of values do, for every value
and every choice of what is left out. Of a text format it is needed that it gives back the document
that was written; for JSON this is so when doubles are read as they were written.
-/
namespace Workflow

open Document

/-! ## Characters of texts -/

theorem eq_ofList_of_bytes {s : String} {cs : List Char}
    (h : s.toByteArray.data.toList = cs.flatMap String.utf8EncodeChar) : s = String.ofList cs := by
  rw [← String.toByteArray_inj, String.toByteArray_ofList, List.utf8Encode]
  apply ByteArray.ext
  rw [← Array.toList_inj, h, List.toList_data_toByteArray]

theorem Yaml.tokens?_ofList (cs : List Char) : tokens? (String.ofList cs) =
    if cs.all isAllowed then
      Lexer.run (cs.length + 2) { Lexer.start "" with cursor := ⟨cs, 0, 0, 0⟩ }
    else none := by
  simp [tokens?, Lexer.start, Cursor.ofText]

/-! ## Manifests and runs -/

/-- Manifests are the same after they were written and read again, in both formats, and keep their
digests; so are runs with the states of their nodes, their outputs and all metadata. -/
theorem documents_read_again :
    (∀ m : Manifest, m.Stable →
      (m.encode.Restored Json.read? Json.pretty →
        Manifest.ofJson m.prettyText = .ok m ∧
          (Manifest.ofJson m.prettyText).map (·.digest) = .ok m.digest) ∧
      (m.encode.Restored Yaml.read? Yaml.write →
        Manifest.ofYaml m.yamlText = .ok m ∧
          (Manifest.ofYaml m.yamlText).map (·.digest) = .ok m.digest)) ∧
    ∀ r : Run, r.Stable → r.encode.Restored Json.read? Json.pretty →
      (Json.read? (Json.pretty r.encode)).bind Run.decode? = some r := by
  refine ⟨fun m hm => ⟨fun hjson => ?_, fun hyaml => ?_⟩, fun r hr hjson => ?_⟩
  · have hread : Manifest.ofJson m.prettyText = .ok m := by
      rw [Manifest.ofJson, Manifest.prettyText, (Manifest.restores hm).read_text hjson]
    exact ⟨hread, by rw [hread]; rfl⟩
  · have hread : Manifest.ofYaml m.yamlText = .ok m := by
      rw [Manifest.ofYaml, Manifest.yamlText, (Manifest.restores hm).read_text hyaml]
    exact ⟨hread, by rw [hread]; rfl⟩
  · exact (Run.restores hr).read_text hjson

/-- A manifest with a constant that is no whole number, and with a quantity. -/
def trainManifest : Manifest where
  apiVersion := manifestVersion
  pipeline := ⟨"train", none⟩
  parameters := [⟨"rate", .float, some (.float (.ofDecimal false 5 (-1)))⟩]
  nodes := [⟨"a", "a", "fit", [], [], ⟨some ⟨500⟩, none, none, none, Dict.empty⟩, .always,
    .registered "fit"⟩]
  edges := []

/-- The YAML text of the manifest, line by line. -/
def trainLines : List String :=
  ["api_version: dagflow/v1", "pipeline:", "  name: train", "parameters:", "- name: rate",
   "  type: float", "  default: 0.5", "nodes:", "- id: a", "  name: a", "  component: fit",
   "  inputs: []", "  outputs: []", "  resources:", "    cpu_request: 500m", "  body:",
   "    type: registered", "    name: fit", "edges: []"]

def modelArtifact : ArtifactPayload :=
  ⟨"file:m", Dict.empty.insert "sizes" (.sequence [.int 3, .null])⟩

def trainedNode : NodeState :=
  ⟨.succeeded, false, none, none, none, Dict.empty.insert "model" (.artifact modelArtifact)⟩

def trainRun : Run where
  id := "r"
  name := "first"
  experiment := "e"
  pipeline := "train"
  manifest := "m"
  params := Dict.empty.insert "rate" (.float (.ofDecimal false 5 (-1)))
  status := .succeeded
  nodes := Dict.empty.insert "a" trainedNode
  idempotencyKey := "k"
  createdAt := ⟨1700000000, 250000000⟩
  finishedAt := none

theorem readsBack_half : Json.ReadsBack (.ofDecimal false 5 (-1)) := by decide +kernel

theorem stable_trainManifest : trainManifest.Stable := by
  have hhalf : CpuQuantity.parse (CpuQuantity.text ⟨500⟩) = .ok ⟨500⟩ := by decide +kernel
  refine List.forall_mem_singleton.mpr ⟨?_, nofun, nofun, nofun⟩
  rintro q ⟨⟩
  exact hhalf

theorem yamlText_trainManifest : trainManifest.yamlText =
    String.ofList (trainLines.flatMap fun line => line.toList ++ ['\n']) :=
  eq_ofList_of_bytes (by decide +kernel)

theorem restored_trainManifest : trainManifest.encode.Restored Yaml.read? Yaml.write := by
  have htext : Yaml.write trainManifest.encode = _ := yamlText_trainManifest
  rw [Restored, htext, Yaml.read?, Yaml.tokens?_ofList]
  decide +kernel

theorem sorted_modelArtifact : modelArtifact.Sorted := by
  intro k d hd
  obtain rfl := Dict.eq_of_get?_single hd
  rfl

theorem stable_trainedNode : trainedNode.Stable := by
  refine ⟨nofun, nofun, fun name v hv => ?_⟩
  obtain rfl := Dict.eq_of_get?_single hv
  exact sorted_modelArtifact

theorem stable_trainRun : trainRun.Stable := by
  have hcreated : Instant.ofText? (Instant.text ⟨1700000000, 250000000⟩) =
      some ⟨1700000000, 250000000⟩ := by decide +kernel
  refine ⟨hcreated, nofun, fun id n hn => ?_⟩
  obtain rfl := Dict.eq_of_get?_single hn
  exact stable_trainedNode

theorem legible_trainRun : trainRun.Legible := by
  refine ⟨fun name s hs => ?_, fun id n hn name v hv => ?_⟩
  · obtain rfl := Dict.eq_of_get?_single hs
    exact readsBack_half
  · obtain rfl := Dict.eq_of_get?_single hn
    obtain rfl := Dict.eq_of_get?_single hv
    intro k d hd
    obtain rfl := Dict.eq_of_get?_single hd
    exact ⟨by decide, ⟨rfl, by decide, by decide⟩, ⟨rfl, trivial⟩, trivial⟩

theorem documents_read_again_train :
    (trainManifest.encode.Restored Json.read? Json.pretty ∧
      Manifest.ofJson trainManifest.prettyText = .ok trainManifest) ∧
    (trainManifest.encode.Restored Yaml.read? Yaml.write ∧
      Manifest.ofYaml trainManifest.yamlText = .ok trainManifest) ∧
    (trainRun.encode.Restored Json.read? Json.pretty ∧
      (Json.read? (Json.pretty trainRun.encode)).bind Run.decode? = some trainRun) := by
  have hjson : trainManifest.encode.Restored Json.read? Json.pretty :=
    Manifest.restored_json (List.forall_mem_singleton.mpr readsBack_half)
  have hrun : trainRun.encode.Restored Json.read? Json.pretty := Run.restored_json legible_trainRun
  obtain ⟨hread, hread'⟩ := documents_read_again.1 trainManifest stable_trainManifest
  exact ⟨⟨hjson, (hread hjson).1⟩,
    ⟨restored_trainManifest, (hread' restored_trainManifest).1⟩, hrun,
    documents_read_again.2 trainRun stable_trainRun hrun⟩

end Workflow
