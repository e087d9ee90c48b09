import Befunge.Command

/-!
# The program

Answers the requests of a dialogue at the terminal. Log events are not shown.
-/

namespace Befunge.Terminal

/-- What a failed system call is to the machine. -/
def streamError (e : IO.Error) : StreamError :=
  let kind := match e with
    | .interrupted .. => .interrupted
    | .resourceVanished .. => .brokenPipe
    | .unexpectedEof => .endOfInput
    | _ => .other
  ⟨kind, toString e⟩

def attempt (act : IO α) : IO (Except StreamError α) := do
  match ← act.toBaseIO with
  | .ok a => pure (.ok a)
  | .error e => pure (.error (streamError e))

def stream : Channel → IO IO.FS.Stream
  | .output => IO.getStdout
  | .diagnostics => IO.getStderr

/-- Reads a byte, and repeats the call if it was interrupted. -/
partial def readByte (s : IO.FS.Stream) : IO (Option UInt8) := do
  match ← (s.read 1).toBaseIO with
  | .ok bytes => pure bytes.data.toList.head?
  | .error (.interrupted ..) => readByte s
  | .error e => throw e

/-- Reads up to and with the next line feed, or up to the end of the input. -/
partial def readLine (s : IO.FS.Stream) (line : Array UInt8) : IO (List UInt8) := do
  match ← readByte s with
  | none => pure line.toList
  | some 10 => pure (line.push 10).toList
  | some b => readLine s (line.push b)

def answer : (r : Request) → IO r.Answer
  | .write channel bytes => attempt do (← stream channel).write bytes.toByteArray
  | .flush channel => attempt do (← stream channel).flush
  | .readByte => attempt do readByte (← IO.getStdin)
  | .readLine => attempt do readLine (← IO.getStdin) #[]
  | .note _ => pure ()

def converse : Dialogue α → IO α
  | .done a => pure a
  | .ask r k => do converse (k (← answer r))

def contents (file : String) : IO (Except FileError (List UInt8)) := do
  match ← (IO.FS.readBinFile file).toBaseIO with
  | .ok bytes => pure (.ok bytes.data.toList)
  | .error (.noFileOrDirectory ..) => pure (.error .notFound)
  | .error (.inappropriateType ..) => pure (.error .isDirectory)
  | .error e => pure (.error (.other (toString e)))

/-- More steps than a program makes in a lifetime. -/
def fuel : Nat := Nat.pow 2 62

end Befunge.Terminal

open Befunge

def main (args : List String) : IO UInt32 := do
  match Invocation.parse? args with
  | none =>
    IO.eprintln "usage: befunge [OPTIONS] FILE"
    pure usageCode.toUInt32
  | some inv =>
    let clock ← IO.monoNanosNow
    let content ← Terminal.contents inv.file
    let code ← Terminal.converse (inv.run content clock.toUInt64 Terminal.fuel)
    (← IO.getStdout).flush
    pure (code.getD 1).toUInt32
