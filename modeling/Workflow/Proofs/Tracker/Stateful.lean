import Workflow.Proofs.Storage.Program
import Workflow.Tracker.Files

/-!
# Operations on a state

What an operation gives and leaves that is made of others, and what one on a disk does to the tree.
-/
namespace Workflow

namespace Stateful
variable {σ α β : Type} {s s' : σ}

theorem run_get_bind (f : σ → Stateful σ α) : (get >>= f).run.run s = (f s).run.run s := rfl

theorem run_bind_ok {x : Stateful σ α} {a : α} (h : x.run.run s = (.ok a, s'))
    (f : α → Stateful σ β) : (x >>= f).run.run s = (f a).run.run s' := by
  have hbind : (x >>= f).run.run s = (ExceptT.bindCont f (x.run.run s).1).run (x.run.run s).2 := rfl
  rw [hbind, h]
  rfl

theorem run_bind_error {x : Stateful σ α} {fault : Fault} (h : x.run.run s = (.error fault, s'))
    (f : α → Stateful σ β) : (x >>= f).run.run s = (.error fault, s') := by
  have hbind : (x >>= f).run.run s = (ExceptT.bindCont f (x.run.run s).1).run (x.run.run s).2 := rfl
  rw [hbind, h]
  rfl

theorem run_map (f : α → β) (x : Stateful σ α) :
    (f <$> x).run.run s = ((x.run.run s).1.map f, (x.run.run s).2) := by
  rcases h : x.run.run s with ⟨fault | a, s'⟩
  · exact run_bind_error h _
  · exact run_bind_ok h _

end Stateful

namespace FileTracker
variable {α β : Type} {p : FileProgram (Outcome α)} {f : α → FileProgram (Outcome β)}
  {t t' : FileTree}

theorem run_andThen {a : α} (h : p.run t = (.ok a, t')) :
    (andThen p f).run t = (f a).run t' := by
  rw [andThen, FileProgram.run_bind, h]

theorem run_andThen_ok {b : β} (h : (andThen p f).run t = (.ok b, t')) :
    ∃ a t₁, p.run t = (.ok a, t₁) ∧ (f a).run t₁ = (.ok b, t') := by
  rw [andThen, FileProgram.run_bind] at h
  rcases hp : p.run t with ⟨fault | a, t₁⟩
  · rw [hp] at h
    cases h
  · rw [hp] at h
    exact ⟨a, t₁, rfl, h⟩

/-- A program on a disk is carried out on the tree, and the next one takes another number. -/
theorem run_onDisk (program : String → FileProgram (Outcome α)) (disk : Disk) :
    (onDisk program).run.run disk =
      (((program (toString disk.serial)).run disk.tree).1,
        ⟨((program (toString disk.serial)).run disk.tree).2, disk.serial + 1⟩) := by
  rw [onDisk, Stateful.run_get_bind]
  rcases (program (toString disk.serial)).run disk.tree with ⟨fault | a, tree⟩ <;> rfl

end FileTracker
end Workflow
