import Befunge.StreamError

/-!
# Sinks

The far end of a stream that is written to. It keeps the bytes it has accepted, and how many of them
had been accepted when it was last flushed with success.
-/

namespace Befunge

/-- A sink and how it behaves: what it accepts, and how it fails. -/
structure Sink where
  data : Array UInt8 := #[]
  /-- The number of bytes accepted in all; `none` is no limit. -/
  capacity : Option Nat := none
  /-- The answer to a write that does not fit. -/
  writeError : StreamError := .full
  /-- The number of flushes so far, failed ones included. -/
  flushes : Nat := 0
  /-- The number of flushes that succeed before they begin to fail. -/
  goodFlushes : Nat := 0
  /-- The answer to a failing flush; with `none` they all succeed. -/
  flushError : Option StreamError := none
  /-- The number of bytes accepted at the last flush that succeeded. -/
  visible : Nat := 0
  deriving DecidableEq, Repr

namespace Sink

def room (s : Sink) (n : Nat) : Nat :=
  match s.capacity with
  | none => n
  | some c => min n (c - s.data.size)

def write (s : Sink) (bytes : List UInt8) : Except StreamError Unit × Sink :=
  let n := s.room bytes.length
  let answer := if n < bytes.length then .error s.writeError else .ok ()
  (answer, { s with data := s.data ++ bytes.take n })

/-- Makes the accepted bytes visible, or fails. -/
def flush (s : Sink) : Except StreamError Unit × Sink :=
  match s.flushError with
  | some e =>
    if s.flushes < s.goodFlushes then
      (.ok (), { s with flushes := s.flushes + 1, visible := s.data.size })
    else (.error e, { s with flushes := s.flushes + 1 })
  | none => (.ok (), { s with flushes := s.flushes + 1, visible := s.data.size })

/-- A sink keeps what it has and the part of a write that it has room for. -/
theorem toList_data_write (s : Sink) (bytes : List UInt8) :
    (s.write bytes).2.data.toList = s.data.toList ++ bytes.take (s.room bytes.length) := by
  simp [write]

@[simp] theorem data_flush (s : Sink) : s.flush.2.data = s.data := by
  unfold flush
  split
  · split <;> rfl
  · rfl

end Sink

end Befunge
