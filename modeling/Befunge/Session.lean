import Befunge.Console
import Befunge.Machine.Step

/-!
# Sessions

A machine at a console. Machine and console change together, one request after another.
-/

namespace Befunge

/-- A machine and the streams it is bound to. -/
structure Session where
  machine : Machine
  console : Console
  deriving DecidableEq, Repr

namespace Session

/-- Lets the console answer a dialogue of the machine. -/
def hold (s : Session) (d : Machine → Dialogue (α × Machine)) : α × Session :=
  let r := (d s.machine).run Console.answer s.console
  (r.1.1, ⟨r.1.2, r.2⟩)

def start (program : Program) (clock : UInt64) (console : Console) : Session :=
  let r := (Machine.create program clock).run Console.answer console
  ⟨r.1, r.2⟩

def step (s : Session) : Except StepError Progress × Session := s.hold Machine.step

/-- Runs the program to its end; `none` if that takes more than `fuel` steps. -/
def exec (s : Session) (fuel : Nat) : Option (Except StepError Unit) × Session :=
  s.hold (Machine.exec fuel)

def runWithin (s : Session) (limit : Nat) : Run × Session :=
  s.hold fun m => m.runWithin limit 0

/-- Makes at most `limit` steps, after those that left the given states, and collects the state after
each. -/
def trace (s : Session) (limit : Nat) (states : Array Machine) :
    Except StepError Progress × Array Machine × Session :=
  match limit with
  | 0 => (.ok .running, states, s)
  | n + 1 =>
    match s.step with
    | (.ok .running, s) => s.trace n (states.push s.machine)
    | (r, s) => (r, states.push s.machine, s)

/-- A copy of the machine at another console. -/
def fork (s : Session) (console : Console) : Session := { s with console }

end Session

end Befunge
