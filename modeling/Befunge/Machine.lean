import Befunge.Fault
import Befunge.Generator
import Befunge.Stack

/-!
# Machines

The state of a running program: its own copy of the playfield, a position and a direction on it, the
stack and the random generator.
-/

namespace Befunge

structure Machine where
  program : Program
  pos : Pos := ⟨0, 0⟩
  direction : Direction := .right
  /-- Characters are pushed instead of executed. -/
  stringMode : Bool := false
  stack : Stack := {}
  /-- The program has ended or faulted. -/
  done : Bool := false
  /-- The seed that the generator was started from. -/
  seed : UInt64
  generator : Generator
  deriving DecidableEq, Repr

namespace Machine

/-- The machine at the start of a program. The clock's seed is used if the options have none. -/
def start (program : Program) (clock : UInt64) : Machine :=
  let seed := if program.options.seed = 0 then clock else program.options.seed
  { program, seed, generator := .ofSeed seed }

def options (m : Machine) : Options := m.program.options

def fetch (m : Machine) : Char := m.program.grid.cell m.pos

def withStack (m : Machine) (s : Stack) : Machine := { m with stack := s }

def push (m : Machine) (v : Int64) : Machine := m.withStack (m.stack.push v)

def advance (m : Machine) : Machine :=
  { m with pos := m.pos.advance m.program.grid.width m.program.grid.height m.direction }

def stopped (m : Machine) : Machine := { m with done := true }

def store (m : Machine) (p : Pos) (c : Char) : Machine :=
  { m with program := { m.program with grid := m.program.grid.set p c } }

/-- The report of a fault in which the machine stops. -/
def report (m : Machine) (f : Fault) : Crash where
  message := f.message
  cause := f
  pos := m.pos
  program := m.program

end Machine

end Befunge
