import Workflow.Run.Record

/-!
# The node table of a run

Every change of a node's state compares the status with the expected one first, so that a node can
be claimed once only.
-/
namespace Workflow

/-- Node states by node id. -/
abbrev NodeTable := Dict NodeState

namespace NodeTable

def status? (t : NodeTable) (id : String) : Option NodeStatus := (t.get? id).map (·.status)

/-- The state with a new status and the time that goes with it. -/
def stamp (n : NodeState) (status : NodeStatus) (now : Instant) : NodeState :=
  let n := { n with status }
  if status = .running then { n with startedAt := some now }
  else if status.isTerminal then { n with finishedAt := some now }
  else n

/-- Move a node from one status to another and fill in details. Nothing happens to a node that is
not in the first status. -/
def transition? (t : NodeTable) (id : String) (source target : NodeStatus) (now : Instant)
    (details : NodeState → NodeState) : Option (NodeTable × NodeState) :=
  match t.get? id with
  | none => none
  | some n =>
    if n.status = source then
      let n := details (stamp n target now)
      some (t.insert id n, n)
    else none

end NodeTable
end Workflow
