import Befunge.Direction
import Befunge.Text.Printable

/-!
# Instructions

Every character of the playfield is an instruction, if only an unknown one. A binary instruction
takes `a` from the top of the stack and `b` from below it.
-/

namespace Befunge

/-- The binary operations that have a value for every pair of operands. -/
inductive BinaryOp
  | add
  | sub
  | mul
  | greater
  deriving DecidableEq, Repr

/-- The value of an operation on `b`, the lower operand, and `a`, the upper one. Arithmetic wraps
around modulo `2 ^ 64`. -/
def BinaryOp.eval : BinaryOp → Int64 → Int64 → Int64
  | .add, b, a => b + a
  | .sub, b, a => b - a
  | .mul, b, a => b * a
  | .greater, b, a => if a < b then 1 else 0

inductive Instruction
  | digit (d : Fin 10)
  | binary (op : BinaryOp)
  /-- Replaces `a` and `b` by `b / a`, rounded towards zero. -/
  | divide
  /-- Replaces `a` and `b` by the remainder of `b / a`. -/
  | remainder
  /-- Replaces zero by one and every other value by zero. -/
  | not
  | move (d : Direction)
  | random
  /-- Takes a value and goes right if it is zero, left otherwise. -/
  | horizontalIf
  /-- Takes a value and goes down if it is zero, up otherwise. -/
  | verticalIf
  | toggleString
  | duplicate
  | swap
  | discard
  /-- Writes a value as a decimal integer and a space. -/
  | writeInteger
  | writeChar
  /-- Jumps over the next cell. -/
  | bridge
  /-- Takes `y`, `x` and `v`, and stores `v` at `(x, y)`. -/
  | put
  /-- Takes `y` and `x`, and pushes the value stored at `(x, y)`. -/
  | get
  /-- Reads a line with an integer. -/
  | readInteger
  | readChar
  | stop
  | nop
  /-- A character without a meaning. -/
  | unknown (c : Char)
  deriving DecidableEq, Repr

namespace Instruction

def decode (c : Char) : Instruction :=
  if '0' ≤ c ∧ c ≤ '9' then .digit (Fin.ofNat 10 (c.toNat - '0'.toNat))
  else match c with
    | '+' => .binary .add
    | '-' => .binary .sub
    | '*' => .binary .mul
    | '/' => .divide
    | '%' => .remainder
    | '!' => .not
    | '\x60' => .binary .greater
    | '>' => .move .right
    | '<' => .move .left
    | '^' => .move .up
    | 'v' => .move .down
    | '?' => .random
    | '_' => .horizontalIf
    | '|' => .verticalIf
    | '"' => .toggleString
    | ':' => .duplicate
    | '\\' => .swap
    | '$' => .discard
    | '.' => .writeInteger
    | ',' => .writeChar
    | '#' => .bridge
    | 'p' => .put
    | 'g' => .get
    | '&' => .readInteger
    | '~' => .readChar
    | '@' => .stop
    | ' ' => .nop
    | c => .unknown c

/-- The number of values that an instruction takes from the stack. -/
def arity : Instruction → Nat
  | .put => 3
  | .binary _ | .divide | .remainder | .swap | .get => 2
  | .not | .horizontalIf | .verticalIf | .duplicate | .discard | .writeInteger | .writeChar => 1
  | .digit _ | .move _ | .random | .toggleString | .bridge | .readInteger | .readChar | .stop
  | .nop | .unknown _ => 0

def name : Instruction → String
  | .digit d => s!"Digit({d.val})"
  | .binary .add => "Add"
  | .binary .sub => "Sub"
  | .binary .mul => "Mul"
  | .binary .greater => "Greater"
  | .divide => "Div"
  | .remainder => "Mod"
  | .not => "Not"
  | .move .right => "Right"
  | .move .left => "Left"
  | .move .up => "Up"
  | .move .down => "Down"
  | .random => "Random"
  | .horizontalIf => "HorizontalIf"
  | .verticalIf => "VerticalIf"
  | .toggleString => "StringMode"
  | .duplicate => "Dup"
  | .swap => "Swap"
  | .discard => "Discard"
  | .writeInteger => "OutputInt"
  | .writeChar => "OutputChar"
  | .bridge => "Bridge"
  | .put => "Put"
  | .get => "Get"
  | .readInteger => "InputInt"
  | .readChar => "InputChar"
  | .stop => "End"
  | .nop => "Nop"
  | .unknown c => s!"Unknown({Text.quoted c})"

end Instruction

end Befunge
