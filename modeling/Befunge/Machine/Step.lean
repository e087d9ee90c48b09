import Befunge.Machine.Execute

/-!
# Steps and runs

A step executes one instruction and moves on. A machine that has stopped makes no more steps: it
answers every further one with the same error and does nothing.
-/

namespace Befunge

inductive Progress
  | running
  | terminated
  deriving DecidableEq, Repr

/-- A number of steps that were tried, and the outcome of the last one. -/
structure Run where
  calls : Nat
  result : Except StepError Progress

namespace Machine

def create (program : Program) (clock : UInt64) : Dialogue Machine := do
  let m := start program clock
  Dialogue.note (.created m.seed program.grid.width program.grid.height)
  pure m

/-- Flushes the output of a program that is about to stop with a fault. -/
def lastFlush : Dialogue Unit := do
  match ← Dialogue.flush .output with
  | .ok () => pure ()
  | .error e => Dialogue.note (.lastFlushFailed e)

/-- Ends the step of an instruction on the machine that it has left, once it is known how its execution
went. -/
def finish (m : Machine) : Except Fault Flow → Dialogue (Except StepError Progress × Machine)
  | .ok .next => pure (.ok .running, m.advance)
  | .ok .stop => do
    Dialogue.note (.terminated m.pos)
    pure (.ok .terminated, m.stopped)
  | .error f => do
    lastFlush
    Dialogue.note (.crashed m.pos f)
    pure (.error (.crash (m.report f)), m.stopped)

/-- Executes the instruction under a machine that is not in the middle of a string. -/
def dispatch (m : Machine) : Dialogue (Except StepError Progress × Machine) := do
  let i := Instruction.decode m.fetch
  Dialogue.note (.dispatched m.pos i)
  let (r, m') ← (Handler.execute m.options i).run.run m
  m'.finish r

def step (m : Machine) : Dialogue (Except StepError Progress × Machine) :=
  if m.done then pure (.error .alreadyExecuted, m)
  else if m.stringMode ∧ m.fetch ≠ '"' then
    pure (.ok .running, (m.push (Cell.value m.fetch)).advance)
  else m.dispatch

/-- Makes steps until the program ends or an error occurs; `none` if that takes more than `fuel`
steps. -/
def exec (fuel : Nat) (m : Machine) : Dialogue (Option (Except StepError Unit) × Machine) :=
  match fuel with
  | 0 => pure (none, m)
  | n + 1 => do
    match ← m.step with
    | (.ok .running, m) => exec n m
    | (.ok .terminated, m) => pure (some (.ok ()), m)
    | (.error e, m) => pure (some (.error e), m)

/-- Makes at most `limit` steps, after `calls` earlier ones, and stops at the program's end or at an
error. -/
def runWithin (limit : Nat) (m : Machine) (calls : Nat) : Dialogue (Run × Machine) :=
  match limit with
  | 0 => pure (⟨calls, .ok .running⟩, m)
  | n + 1 => do
    match ← m.step with
    | (.ok .running, m) => runWithin n m (calls + 1)
    | (r, m) => pure (⟨calls + 1, r⟩, m)

end Machine

end Befunge
