import Befunge.Dialogue
import Befunge.Text.Blank
import Befunge.Text.Utf8

/-!
# Requests that may fault

The requests of single instructions, with the policy on their failures. Unless the options make
stream errors fatal, a failed write or flush is logged and passed over, and so is a failed read, in
place of which the instruction has a value of its own.
-/

namespace Befunge

open Text

/-- A dialogue that may end in a fault. -/
abbrev Attempt := ExceptT Fault Dialogue

namespace Attempt

/-! ## Writing -/

/-- The policy on a failed write or flush. -/
def settle (o : Options) : Except StreamError Unit → Attempt Unit
  | .ok () => pure ()
  | .error e =>
    if o.strictStreams then
      throw (if e.kind = .wroteNothing then .wroteNothing else .stream e)
    else Dialogue.note (.streamErrorIgnored e)

def emit (o : Options) (bytes : List UInt8) : Attempt Unit := do
  settle o (← Dialogue.write .output bytes)

def flush (o : Options) : Attempt Unit := do
  settle o (← Dialogue.flush .output)

/-- Asks for the result of a division by zero on the diagnostics. -/
def prompt (o : Options) (dividend : Int64) : Attempt Unit := do
  let question := s!"What do you want {Decimal.text dividend}/0 to be?\n"
  match ← Dialogue.write .diagnostics (Utf8.encode question.toList) with
  | .ok () => settle o (← Dialogue.flush .diagnostics)
  | .error e => settle o (.error e)

/-! ## Reading -/

/-- Reads a line that holds an integer. What the output has accepted is flushed first. -/
def readInteger (o : Options) : Attempt Int64 := do
  flush o
  match ← Dialogue.readLine with
  | .error e => throw (.stream e)
  | .ok [] => throw .endOfInput
  | .ok line =>
    match Utf8.decode? line with
    | none => throw (.stream .notUtf8)
    | some s =>
      match Decimal.parse (trim s) with
      | .ok v => pure v
      | .error e => throw (.notAnInteger e)

def readByte : Attempt UInt8 := do
  match ← Dialogue.readByte with
  | .ok (some b) => pure b
  | .ok none => throw .endOfInput
  | .error e => throw (if e.kind = .endOfInput then .endOfInput else .stream e)

def readBytes : Nat → Attempt (List UInt8)
  | 0 => pure []
  | n + 1 => do
    let b ← readByte
    let bs ← readBytes n
    pure (b :: bs)

/-- Reads the rest of a character that starts with the given byte. -/
def readRest (lead : UInt8) : Attempt Char := do
  match Utf8.length? lead with
  | none => throw .notUtf8
  | some n =>
    match Utf8.decode? (lead :: (← readBytes (n - 1))) with
    | some [c] => pure c
    | _ => throw .notUtf8

/-- Reads a byte, or in Unicode mode a character, as its value. What the output has accepted is
flushed first. -/
def readChar (o : Options) : Attempt Int64 := do
  flush o
  let lead ← readByte
  if o.unicode then
    let c ← readRest lead
    pure (Int64.ofNat c.toNat)
  else pure (Int64.ofNat lead.toNat)

/-! ## Recovery -/

/-- Makes an attempt at reading. Unless stream errors are fatal, its fault is logged as the given
event and the answer is `none`. -/
def recover (o : Options) (event : Fault → Event) (x : Attempt α) : Attempt (Option α) :=
  ExceptT.mk do
    match ← x.run with
    | .ok a => pure (.ok (some a))
    | .error f =>
      if o.strictStreams then pure (.error f)
      else
        Dialogue.note (event f)
        pure (.ok none)

/-- The user's result of a division by zero, or zero if none can be read. -/
def askQuotient (o : Options) (dividend : Int64) : Attempt Int64 := do
  prompt o dividend
  return (← recover o .quotientInputFailed (readInteger o)).getD 0

end Attempt

end Befunge
