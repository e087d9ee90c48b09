/-!
# Stream errors
-/

namespace Befunge

inductive StreamError.Kind
  | brokenPipe
  /-- The request was interrupted and may be repeated. -/
  | interrupted
  /-- The input ended in the middle of a request. -/
  | endOfInput
  /-- A write made no progress. -/
  | wroteNothing
  | invalidData
  | other
  deriving DecidableEq, Repr

/-- A failure of a stream, with the text that describes it. -/
structure StreamError where
  kind : StreamError.Kind
  text : String
  deriving DecidableEq, Repr

namespace StreamError

def full : StreamError := ⟨.wroteNothing, "failed to write whole buffer"⟩

def notUtf8 : StreamError := ⟨.invalidData, "stream did not contain valid UTF-8"⟩

end StreamError

end Befunge
