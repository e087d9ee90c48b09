import Befunge.CommandLine
import Befunge.Grid.Render
import Befunge.Machine.Step

/-!
# Running a file

The work of an invocation, as a dialogue that ends in an exit code: 0 if the program reached its end,
1 if it could not be read or built, or stopped before its end. Everything but the program's own
output goes to the diagnostics.
-/

namespace Befunge

open Text

inductive FileError
  | notFound
  | isDirectory
  | notUtf8
  /-- Another failure, in the system's words. -/
  | other (text : String)
  deriving DecidableEq, Repr

def FileError.message : FileError → String
  | .notFound => "No such file or directory (os error 2)"
  | .isDirectory => "Is a directory (os error 21)"
  | .notUtf8 => "stream did not contain valid UTF-8"
  | .other text => text

/-- The exit code for arguments that are not well formed. -/
def usageCode : Nat := 2

/-- A run was broken off after as many steps as it was allowed. -/
structure StepLimit where
  limit : Nat
  /-- The place that was reached. -/
  pos : Pos
  deriving DecidableEq, Repr

def StepLimit.message (l : StepLimit) : String :=
  s!"Step limit of {l.limit} reached at ({l.pos.x}, {l.pos.y})"

/-- Runs the program to its end, unless that takes more than `limit` steps. -/
def Machine.runBounded (limit : Nat) (m : Machine) :
    Dialogue (Except StepLimit (Except StepError Unit) × Machine) := do
  match ← m.runWithin limit 0 with
  | (⟨_, .ok .running⟩, m) => pure (.error ⟨limit, m.pos⟩, m)
  | (⟨_, .ok .terminated⟩, m) => pure (.ok (.ok ()), m)
  | (⟨_, .error e⟩, m) => pure (.ok (.error e), m)

namespace Invocation

def load (content : Except FileError (List UInt8)) : Except FileError (List Char) :=
  match content with
  | .error e => .error e
  | .ok bytes =>
    match Utf8.decode? bytes with
    | some s => .ok s
    | none => .error .notUtf8

def report (line : List Char) : Dialogue Unit := do
  let _ ← Dialogue.write .diagnostics (Utf8.encode (line ++ ['\n']))

def fail (message : String) : Dialogue (Option Nat) := do
  report message.toList
  pure (some 1)

/-- Prints the playfield of a program, if that is asked for. -/
def print (inv : Invocation) (p : Program) : Dialogue Unit :=
  if inv.printProgram then report p.grid.render else pure ()

def conclude (inv : Invocation) : Except StepError Unit → Dialogue (Option Nat)
  | .ok () => pure (some 0)
  | .error (.crash c) => do
    inv.print c.program
    fail c.text
  | .error e => fail e.message

/-- Runs a program; `none` if it is still running after `fuel` steps and has no limit of its own. -/
def runProgram (inv : Invocation) (p : Program) (clock : UInt64) (fuel : Nat) :
    Dialogue (Option Nat) := do
  inv.print p
  let m ← Machine.create p clock
  match inv.maxSteps with
  | none =>
    match ← m.exec fuel with
    | (none, _) => pure none
    | (some r, _) => inv.conclude r
  | some limit =>
    match ← m.runBounded limit.toNat with
    | (.ok r, _) => inv.conclude r
    | (.error l, _) => fail l.message

/-- Runs the file of an invocation, given what was found in it. -/
def run (inv : Invocation) (content : Except FileError (List UInt8)) (clock : UInt64) (fuel : Nat) :
    Dialogue (Option Nat) :=
  match load content with
  | .error e => fail s!"Failed to read {inv.file}: {e.message}"
  | .ok source =>
    match Program.build source inv.options with
    | .error e => fail e.message
    | .ok p => inv.runProgram p clock fuel

end Invocation

end Befunge
