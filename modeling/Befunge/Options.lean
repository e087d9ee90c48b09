/-!
# Options

The switches of the interpreter. All off, it follows the language's standard.
-/

namespace Befunge

def standardWidth : Nat := 80

def standardHeight : Nat := 25

/-- How a program is built and run. -/
structure Options where
  /-- A failed integer read gives a random value instead of -1. -/
  undefinedReads : Bool := false
  /-- Unknown instructions do nothing instead of ending the program with a fault. -/
  ignoreUnknown : Bool := false
  /-- Sources larger than the standard playfield are accepted. -/
  anySize : Bool := false
  /-- Sources may hold any character, and values stand for code points instead of bytes. -/
  unicode : Bool := false
  /-- Division by zero is a fault instead of a question to the user. -/
  strictDivision : Bool := false
  /-- The seed of the random generator; zero stands for a seed taken from the clock. -/
  seed : UInt64 := 0
  /-- Stream errors are faults instead of being passed over. -/
  strictStreams : Bool := false
  /-- Access outside the playfield is a fault instead of reading zero or storing nothing. -/
  strictBounds : Bool := false
  /-- Long lines are wrapped; not supported. -/
  wrapLongLines : Bool := false
  /-- A bridge over the playfield's edge is one cell short; not supported. -/
  wrapBridgesShort : Bool := false
  /-- Offsets are kept one too large; not supported. -/
  keepOffByOne : Bool := false
  deriving DecidableEq, Repr, Inhabited

/-- A switch that is recognised but not supported. -/
inductive UnsupportedOption
  | wrapLongLines
  | wrapBridgesShort
  | keepOffByOne
  deriving DecidableEq, Repr

def UnsupportedOption.name : UnsupportedOption → String
  | .wrapLongLines => "wrap_long_lines"
  | .wrapBridgesShort => "wrap_hash_inconsistently"
  | .keepOffByOne => "no_fix_off_by_one"

namespace Options

def has (o : Options) : UnsupportedOption → Bool
  | .wrapLongLines => o.wrapLongLines
  | .wrapBridgesShort => o.wrapBridgesShort
  | .keepOffByOne => o.keepOffByOne

def unsupported? (o : Options) : Option UnsupportedOption :=
  [.wrapLongLines, .wrapBridgesShort, .keepOffByOne].find? o.has

end Options

end Befunge
