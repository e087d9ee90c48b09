import Befunge.Dialogue
import Befunge.Input
import Befunge.Sink

/-!
# Consoles

A console answers the requests of a machine out of an input and two sinks, and keeps a log.
-/

namespace Befunge

/-- The streams of a machine, and what has been observed on them. -/
structure Console where
  input : Input := []
  output : Sink := {}
  diagnostics : Sink := {}
  /-- What was visible of the output and of the diagnostics whenever the input was read, without
  immediate repetitions. -/
  seen : Array (Nat × Nat) := #[]
  /-- The least level that is logged; with `none` nothing is. -/
  threshold : Option Level := none
  log : Array Event := #[]
  deriving DecidableEq, Repr

namespace Console

/-- Notes what is visible at a read. -/
def observe (c : Console) : Console :=
  let now := (c.output.visible, c.diagnostics.visible)
  if c.seen.back? = some now then c else { c with seen := c.seen.push now }

def logs (c : Console) (e : Event) : Bool :=
  match c.threshold with
  | none => false
  | some l => l.rank ≤ e.level.rank

def answer : (r : Request) → Console → r.Answer × Console
  | .write .output bytes, c =>
    let r := c.output.write bytes
    (r.1, { c with output := r.2 })
  | .write .diagnostics bytes, c =>
    let r := c.diagnostics.write bytes
    (r.1, { c with diagnostics := r.2 })
  | .flush .output, c =>
    let r := c.output.flush
    (r.1, { c with output := r.2 })
  | .flush .diagnostics, c =>
    let r := c.diagnostics.flush
    (r.1, { c with diagnostics := r.2 })
  | .readByte, c =>
    let r := c.input.readByte
    (r.1, { c.observe with input := r.2 })
  | .readLine, c =>
    let r := c.input.readLine
    (r.1, { c.observe with input := r.2 })
  | .note e, c => ((), if c.logs e then { c with log := c.log.push e } else c)

end Console

end Befunge
