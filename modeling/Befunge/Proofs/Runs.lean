import Befunge.Proofs.Effect
import Befunge.Session

/-!
# Runs

A process is a machine together with the state of its streams, which may be streams of any kind. What
one step keeps is kept by every run, and two processes that stay related step by step give the same
answers all along.
-/

namespace Befunge

/-- Calls `step` exactly `n` times, whatever it answers, in one dialogue. -/
def Machine.steps : Nat → Machine → Dialogue (List (Except StepError Progress) × Machine)
  | 0, m => pure ([], m)
  | n + 1, m => do
    let r ← m.step
    let rs ← steps n r.2
    pure (r.1 :: rs.1, rs.2)

/-- A machine, and the state of the streams it is bound to. -/
structure Process (σ : Type) where
  machine : Machine
  streams : σ

namespace Process

variable {σ τ : Type}

def start (p : Program) (clock : UInt64) (s : σ) : Process σ := ⟨.start p clock, s⟩

/-- A copy of the machine at other streams. -/
def fork (x : Process σ) (t : τ) : Process τ := ⟨x.machine, t⟩

/-- Makes one step, with `f` answering the requests. -/
def step (f : Responder σ) (x : Process σ) : Except StepError Progress × Process σ :=
  let r := x.machine.step.run f x.streams
  (r.1.1, ⟨r.1.2, r.2⟩)

/-- Calls `step` exactly `n` times, whatever it answers, and collects the answers. -/
def steps (f : Responder σ) : Nat → Process σ → List (Except StepError Progress) × Process σ
  | 0, x => ([], x)
  | n + 1, x =>
    let r := x.step f
    let rs := steps f n r.2
    (r.1 :: rs.1, rs.2)

/-- A run is a dialogue of its own, which the streams answer. -/
theorem steps_eq_run (f : Responder σ) (n : Nat) (x : Process σ) :
    x.steps f n =
      let r := (x.machine.steps n).run f x.streams
      (r.1.1, ⟨r.1.2, r.2⟩) := by
  induction n generalizing x with
  | zero => rfl
  | succ n ih =>
      simp only [steps, Machine.steps, ih, Dialogue.run_bind, Dialogue.run_pure]
      rfl

/-- A session is a process whose streams are those of a console. -/
theorem session_step_eq (s : Session) :
    s.step =
      let r := Process.step Console.answer ⟨s.machine, s.console⟩
      (r.1, ⟨r.2.machine, r.2.streams⟩) := rfl

theorem stepped (f : Responder σ) (x : Process σ) :
    Machine.Stepped x.machine (x.step f).1 (x.step f).2.machine :=
  x.machine.stepped f x.streams

theorem steps_succ (f : Responder σ) (n : Nat) (x : Process σ) :
    x.steps f (n + 1) =
      let r := x.steps f n
      let l := r.2.step f
      (r.1 ++ [l.1], l.2) := by
  induction n generalizing x with
  | zero => rfl
  | succ n ih =>
      rw [steps, ih]
      rfl

theorem steps_add (f : Responder σ) (k n : Nat) (x : Process σ) :
    x.steps f (k + n) =
      let r := x.steps f k
      let l := r.2.steps f n
      (r.1 ++ l.1, l.2) := by
  induction k generalizing x with
  | zero => simp [steps]
  | succ k ih =>
      rw [Nat.add_right_comm, steps, ih]
      rfl

theorem options_steps (f : Responder σ) (n : Nat) (x : Process σ) :
    (x.steps f n).2.machine.options = x.machine.options := by
  induction n generalizing x with
  | zero => rfl
  | succ n ih => exact (ih _).trans (x.stepped f).options_eq

/-! ## Reachable processes -/

/-- The processes of a program: those at its start, those that a step leaves, and the forks of these
onto other streams. -/
inductive Reachable (p : Program) (clock : UInt64) : {σ : Type} → Responder σ → Process σ → Prop
  | start {σ : Type} (f : Responder σ) (s : σ) : Reachable p clock f (start p clock s)
  | step {σ : Type} {f : Responder σ} {x : Process σ} (h : Reachable p clock f x) :
      Reachable p clock f (x.step f).2
  | fork {σ τ : Type} {f : Responder σ} {x : Process σ} (h : Reachable p clock f x)
      (g : Responder τ) (t : τ) : Reachable p clock g (x.fork t)

theorem Reachable.steps {p : Program} {clock : UInt64} {f : Responder σ} {x : Process σ}
    (h : Reachable p clock f x) (n : Nat) : Reachable p clock f (x.steps f n).2 := by
  induction n with
  | zero => exact h
  | succ n ih =>
      rw [steps_succ]
      exact ih.step

/-- What holds at the start and is kept by every step holds of every reachable process. -/
theorem Reachable.invariant {p : Program} {clock : UInt64} {I : Machine → Prop}
    (hstart : I (.start p clock))
    (hstep : ∀ m r m', I m → Machine.Stepped m r m' → I m')
    {f : Responder σ} {x : Process σ} (h : Reachable p clock f x) : I x.machine := by
  induction h with
  | start f s => exact hstart
  | step _ ih => exact hstep _ _ _ ih (stepped _ _)
  | fork _ g t ih => exact ih

/-! ## Simulation -/

section

variable {f : Responder σ} {g : Responder τ} {S : Process σ → Process τ → Prop}

/-- If related processes answer alike and stay related, unless the first one's answer is in `B`, then so
do their runs, as long as no answer of the first one is in `B`. -/
theorem steps_of_step_unless {B : Except StepError Progress → Prop}
    (h : ∀ x y, S x y → ¬ B (x.step f).1 →
      (y.step g).1 = (x.step f).1 ∧ S (x.step f).2 (y.step g).2)
    (n : Nat) {x : Process σ} {y : Process τ} (hxy : S x y)
    (hgood : ∀ r ∈ (x.steps f n).1, ¬ B r) :
    (y.steps g n).1 = (x.steps f n).1 ∧ S (x.steps f n).2 (y.steps g n).2 := by
  induction n generalizing x y with
  | zero => exact ⟨rfl, hxy⟩
  | succ n ih =>
      simp only [Process.steps, List.mem_cons, forall_eq_or_imp] at hgood
      obtain ⟨hr, hS⟩ := h x y hxy hgood.1
      obtain ⟨hrs, hS⟩ := ih hS hgood.2
      exact ⟨by simp only [Process.steps, hr, hrs], hS⟩

theorem steps_of_step
    (h : ∀ x y, S x y → (y.step g).1 = (x.step f).1 ∧ S (x.step f).2 (y.step g).2)
    (n : Nat) {x : Process σ} {y : Process τ} (hxy : S x y) :
    (y.steps g n).1 = (x.steps f n).1 ∧ S (x.steps f n).2 (y.steps g n).2 :=
  steps_of_step_unless (B := fun _ => False) (fun x y hxy _ => h x y hxy) n hxy (fun _ _ => id)

end

end Process

end Befunge
