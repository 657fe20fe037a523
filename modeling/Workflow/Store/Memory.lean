import Workflow.Store.Basic

/-!
# A manifest store in memory
-/
namespace Workflow

/-- Entries by digest. -/
structure MemoryStore where
  entries : Dict StoredEntry
  deriving Repr

namespace MemoryStore

def empty : MemoryStore := ⟨Dict.empty⟩

instance : Inhabited MemoryStore := ⟨empty⟩

def put (m : Manifest) (now : Instant) : Stateful MemoryStore String := do
  let digest := m.digest
  modify fun s =>
    if s.entries.contains digest then s else ⟨s.entries.insert digest ⟨now, digest, m⟩⟩
  return digest

def store : ManifestStore MemoryStore where
  get? digest := do return ((← get).entries.get? digest).map (·.manifest)
  store := put
  remove digest := modify fun s => ⟨s.entries.erase digest⟩
  clear := set empty
  list := do return newestFirst (← get).entries.values
  stats := do
    let entries := (← get).entries.values
    let size := entries.foldl (fun n e => n + e.manifest.compactText.utf8ByteSize) 0
    return .ofEntries (entries.map (·.summary)) size

end MemoryStore
end Workflow
