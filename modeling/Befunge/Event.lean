import Befunge.Fault
import Befunge.Instruction

/-!
# Log events

What a machine reports about its work, beside its streams.
-/

namespace Befunge

open Text

/-- How much an event matters. -/
inductive Level
  | trace
  | debug
  | warn
  deriving DecidableEq, Repr

namespace Level

def name : Level → String
  | .trace => "TRACE"
  | .debug => "DEBUG"
  | .warn => "WARN"

/-- The rank of a level: the more an event matters, the higher. -/
def rank : Level → Nat
  | .trace => 0
  | .debug => 1
  | .warn => 2

end Level

/-- Something worth logging. -/
inductive Event
  /-- A write or a flush failed, and the program goes on. -/
  | streamErrorIgnored (e : StreamError)
  | integerInputFailed (f : Fault)
  | characterInputFailed (f : Fault)
  | quotientInputFailed (f : Fault)
  /-- The flush after a fault failed. -/
  | lastFlushFailed (e : StreamError)
  | created (seed : UInt64) (width height : Nat)
  | terminated (p : Pos)
  | crashed (p : Pos) (f : Fault)
  | dispatched (p : Pos) (i : Instruction)
  /-- A value was to be stored off the playfield. -/
  | putDiscarded (x y v : Int64)
  deriving DecidableEq, Repr

namespace Event

def level : Event → Level
  | .streamErrorIgnored _ | .integerInputFailed _ | .characterInputFailed _
  | .quotientInputFailed _ | .lastFlushFailed _ => .warn
  | .created .. | .terminated _ | .crashed .. => .debug
  | .dispatched .. | .putDiscarded .. => .trace

def message : Event → String
  | .streamErrorIgnored _ => "ignoring i/o error"
  | .integerInputFailed _ => "integer input failed"
  | .characterInputFailed _ => "character input failed"
  | .quotientInputFailed _ => "division prompt input failed"
  | .lastFlushFailed _ => "output flush after fault failed"
  | .created .. => "process created"
  | .terminated _ => "terminated"
  | .crashed .. => "fault"
  | .dispatched .. => "dispatch"
  | .putDiscarded .. => "discarding out-of-bounds put"

def placeFields (p : Pos) : List (String × String) := [("x", p.x.repr), ("y", p.y.repr)]

def fields : Event → List (String × String)
  | .streamErrorIgnored e | .lastFlushFailed e => [("error", e.text)]
  | .integerInputFailed f | .characterInputFailed f | .quotientInputFailed f =>
    [("fault", f.message)]
  | .created seed w h =>
    [("seed", seed.toNat.repr), ("width", w.repr), ("height", h.repr)]
  | .terminated p => placeFields p
  | .crashed p f => placeFields p ++ [("cause", f.message)]
  | .dispatched p i => placeFields p ++ [("op", i.name)]
  | .putDiscarded x y v =>
    [("x", Decimal.text x), ("y", Decimal.text y), ("v", Decimal.text v)]

end Event

end Befunge
