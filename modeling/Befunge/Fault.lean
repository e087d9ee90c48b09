import Befunge.Program
import Befunge.StreamError
import Befunge.Text.Decimal

/-!
# Faults

What ends a program before it reaches its end, and the report made of it.
-/

namespace Befunge

open Text

inductive Fault
  | unknownInstruction (c : Char)
  | divisionByZero (op : Char) (dividend : Int64)
  | outOfBounds (x y : Int64)
  /-- A value is no code point of a character. -/
  | notACharacter (v : Int64)
  | stream (e : StreamError)
  /-- A sink took no byte of a write. -/
  | wroteNothing
  | endOfInput
  | notAnInteger (e : Decimal.Error)
  | notUtf8
  deriving DecidableEq, Repr

def Fault.message : Fault → String
  | .unknownInstruction c => s!"unknown opcode '{c}' ({c.toNat})"
  | .divisionByZero op b => s!"division by zero: {Decimal.text b} {op} 0"
  | .outOfBounds x y => s!"grid access out of bounds at ({Decimal.text x}, {Decimal.text y})"
  | .notACharacter v => s!"value {Decimal.text v} is not a valid character"
  | .stream e => s!"i/o error: {e.text}"
  | .wroteNothing => "wrote 0 bytes"
  | .endOfInput => "unexpected end of input"
  | .notAnInteger e => s!"invalid integer input: {e.message}"
  | .notUtf8 => "input is not valid UTF-8"

/-- The report of a fault: its message and cause, the place of the instruction, and the program as it
stood. -/
structure Crash where
  message : String
  cause : Fault
  pos : Pos
  program : Program
  deriving DecidableEq, Repr

def Crash.text (c : Crash) : String :=
  s!"runtime error at ({c.pos.x}, {c.pos.y}): {c.message}"

inductive StepError
  | alreadyExecuted
  | crash (c : Crash)
  deriving DecidableEq, Repr

def StepError.message : StepError → String
  | .alreadyExecuted => "process already executed"
  | .crash c => c.text

end Befunge
