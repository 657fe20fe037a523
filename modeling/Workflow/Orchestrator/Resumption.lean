import Workflow.Tracker.Basic

/-!
# Interruptible computations

A `Resumption` carries out operations on a shared state one by one. Between two of its operations
others may change the state, and it may have to wait until the state allows it to go on. `run?`
carries one out while nobody else acts.
-/
namespace Workflow

/-- A computation on a shared state that can be interrupted between its operations. -/
inductive Resumption (σ α : Type) : Type 1 where
  | done (value : α)
  /-- Carry out an operation at once and go on with its result. -/
  | act {β : Type} (operation : Stateful σ β) (next : Except Fault β → Resumption σ α)
  /-- Wait until the state is as wanted. -/
  | await (ready : σ → Bool) (next : Resumption σ α)

namespace Resumption

variable {σ α β : Type}

/-- One operation, if there is one left and nothing has to be waited for. -/
def step? (s : σ) : Resumption σ α → Option (Resumption σ α × σ)
  | .done _ => none
  | .act operation next =>
    let (result, s) := operation.run.run s
    some (next result, s)
  | .await ready next => if ready s then some (next, s) else none

/-- Carry out everything, unless something has to be waited for. -/
def run? : Resumption σ α → σ → Option (α × σ)
  | .done value, s => some (value, s)
  | .act operation next, s =>
    let (result, s) := operation.run.run s
    (next result).run? s
  | .await ready next, s => if ready s then next.run? s else none

def bind : Resumption σ α → (α → Resumption σ β) → Resumption σ β
  | .done value, f => f value
  | .act operation next, f => .act operation fun r => (next r).bind f
  | .await ready next, f => .await ready (next.bind f)

instance : Monad (Resumption σ) where
  pure := .done
  bind := bind

end Resumption

/-- An interruptible computation that may fail. -/
abbrev Interruptible (σ α : Type) := ExceptT Fault (Resumption σ) α

namespace Interruptible

variable {σ α : Type}

def once (operation : Stateful σ α) : Interruptible σ α := .mk (.act operation .done)

/-- Wait until the state is as wanted. -/
def await (ready : σ → Bool) : Interruptible σ Unit := .mk (.await ready (.done (.ok ())))

end Interruptible
end Workflow
