import Workflow.Proofs.Storage.FileTree
import Workflow.Storage.Program

/-!
# What programs of file steps can do

A program is kept in bounds by what all its steps have in common, whatever the replies to them are:
then it stays in these bounds alone on a tree, and also while others change the tree.
-/
namespace Workflow

/-- The step looks at a path or removes the file there. -/
inductive FileStep.Visits (path : String) : FileStep → Prop
  | probe : Visits path (.probe path)
  | read : Visits path (.read path)
  | unlink : Visits path (.unlink path)

/-- A visit leaves the tree as it was, or without what is at the path. -/
theorem FileStep.Visits.perform {path : String} {s : FileStep} (h : s.Visits path) (t : FileTree) :
    (s.perform t).2 = t ∨ (s.perform t).2 = t.clear (t.spot path) := by
  cases h with
  | probe => exact .inl rfl
  | read =>
    rw [FileStep.perform]
    cases t.read path <;> exact .inl rfl
  | unlink =>
    rw [FileStep.perform, FileTree.unlink, ← FileTree.drop_eq]
    split
    · exact .inl rfl
    · exact .inl rfl
    · exact .inr rfl

namespace FileProgram
open Workflow.Path

variable {α β : Type} {P : FileStep → Prop} {Q : α → Prop} {R : β → Prop}

/-! ## Programs carried out alone -/

theorem run_bind (p : FileProgram α) (f : α → FileProgram β) (tree : FileTree) :
    (p.bind f).run tree = (f (p.run tree).1).run (p.run tree).2 := by
  induction p generalizing tree with
  | done value => rfl
  | step s next ih => exact ih _ _

theorem run_step {s : FileStep} (next : FileReply → FileProgram α) {tree tree' : FileTree}
    {reply : FileReply} (h : s.perform tree = (reply, tree')) :
    (FileProgram.step s next).run tree = (next reply).run tree' := by
  have hrun : (FileProgram.step s next).run tree =
      (next (s.perform tree).1).run (s.perform tree).2 := rfl
  rw [hrun, h]

theorem run_once (s : FileStep) (t : FileTree) : (once s).run t = s.perform t := rfl

theorem run_exists?_bind (path : String) (f : Bool → FileProgram α) (t : FileTree) :
    (exists? path >>= f).run t = (f (t.exists? path)).run t := run_bind _ f t

theorem run_readText (path : String) (t : FileTree) :
    (readText path).run t = (t.read path, t) := by
  refine (run_bind _ _ t).trans ?_
  rw [run_once, FileStep.perform]
  cases t.read path <;> rfl

theorem run_readText_bind (path : String) (f : Except FileError String → FileProgram α)
    (t : FileTree) : (readText path >>= f).run t = (f (t.read path)).run t :=
  (run_bind _ f t).trans (by rw [run_readText])

/-- A step that changes the tree succeeds when the change does. -/
theorem run_tryStep {s : FileStep} {t : FileTree} {change : Except FileError FileTree}
    (h : s.perform t = FileStep.changed t change) :
    (tryStep s).run t = (change.map fun _ => (), change.toOption.getD t) := by
  refine (run_bind _ _ t).trans ?_
  rw [run_once, h]
  cases change <;> rfl

theorem run_tryStep_bind {s : FileStep} {t : FileTree} {change : Except FileError FileTree}
    (h : s.perform t = FileStep.changed t change) (f : Except FileError Unit → FileProgram α) :
    (tryStep s >>= f).run t = (f (change.map fun _ => ())).run (change.toOption.getD t) :=
  (run_bind _ f t).trans (by rw [run_tryStep h])

/-! ## Programs kept in bounds -/

/-- Every step that the program can take has one property, and every value that it can end with has
another. -/
def Keeps (P : FileStep → Prop) (Q : α → Prop) : FileProgram α → Prop
  | done value => Q value
  | step s next => P s ∧ ∀ reply, (next reply).Keeps P Q

theorem Keeps.bind {p : FileProgram α} {f : α → FileProgram β} (hp : p.Keeps P Q)
    (hf : ∀ a, Q a → (f a).Keeps P R) : (p >>= f).Keeps P R := by
  induction p with
  | done value => exact hf value hp
  | step s next ih => exact ⟨hp.1, fun reply => ih reply (hp.2 reply)⟩

theorem Keeps.run {p : FileProgram α} (hp : p.Keeps P Q) (t : FileTree) : Q (p.run t).1 := by
  induction p generalizing t with
  | done value => exact hp
  | step s next ih => exact ih _ (hp.2 _) _

/-! ## Single steps -/

theorem keeps_once {s : FileStep} (hs : P s) : (once s).Keeps P fun _ => True :=
  ⟨hs, fun _ => trivial⟩

theorem keeps_tryStep {s : FileStep} (hs : P s) : (tryStep s).Keeps P fun _ => True :=
  (keeps_once hs).bind fun reply _ => by cases reply <;> trivial

theorem keeps_readText {path : String} (hs : P (.read path)) :
    (readText path).Keeps P fun _ => True :=
  (keeps_once hs).bind fun reply _ => by cases reply <;> trivial

theorem keeps_exists? {path : String} (hs : P (.probe path)) :
    (exists? path).Keeps P fun _ => True :=
  (keeps_once hs).bind fun reply _ => by cases reply <;> trivial

/-! ## Programs about one path -/

/-- A program that visits one path only leaves everything else as it was, and makes nothing. -/
theorem Keeps.entry_run {path : String} {p : FileProgram α} (hp : p.Keeps (·.Visits path) Q)
    (t : FileTree) (q : Place) :
    (p.run t).2.entry q = t.entry q ∨ q = t.spot path ∧ (p.run t).2.entry q = none := by
  induction p generalizing t with
  | done value => exact .inl rfl
  | step s next ih =>
    rw [FileProgram.run]
    rcases hp.1.perform t with ht | ht
    · simp only [ht]
      exact ih _ (hp.2 _) t
    · simp only [ht]
      rcases ih _ (hp.2 _) (t.clear (t.spot path)) with h | ⟨hq, h⟩
      · rw [h, FileTree.entry_clear]
        by_cases hq : q = t.spot path
        · exact .inr ⟨hq, if_pos hq⟩
        · exact .inl (if_neg hq)
      · exact .inr ⟨hq, h⟩

end FileProgram
end Workflow
