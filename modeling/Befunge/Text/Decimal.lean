/-!
# Decimal integers

How a 64-bit integer is written and how one is read. Reading takes the characters from left to
right and stops at the first problem: a character that is no digit, or a digit that takes the value
out of range.
-/

namespace Befunge.Text.Decimal

inductive Error
  | empty
  /-- A sign stands alone, or a character after it is no digit. -/
  | invalidDigit
  | tooLarge
  | tooSmall
  deriving DecidableEq, Repr

def Error.message : Error → String
  | .empty => "cannot parse integer from empty string"
  | .invalidDigit => "invalid digit found in string"
  | .tooLarge => "number too large to fit in target type"
  | .tooSmall => "number too small to fit in target type"

/-! ## Writing -/

/-- The decimal digits of a number, without leading zeros. -/
def ofNat (n : Nat) : List Char := Nat.toDigits 10 n

/-- The digits of an integer's magnitude, after a minus sign if it is negative. -/
def ofInt (v : Int) : List Char :=
  if v < 0 then '-' :: ofNat v.natAbs else ofNat v.natAbs

def ofInt64 (v : Int64) : List Char := ofInt v.toInt

def text (v : Int64) : String := String.ofList (ofInt64 v)

/-! ## Reading -/

def digit? (c : Char) : Option Nat :=
  if '0' ≤ c ∧ c ≤ '9' then some (c.toNat - '0'.toNat) else none

/-- The value with one more digit at its end, counted away from zero. -/
def extend (negative : Bool) (v : Int) (d : Nat) : Int :=
  if negative then v * 10 - d else v * 10 + d

/-- A value as a 64-bit integer, or the side on which it falls out of range. -/
def inRange (v : Int) : Except Error Int64 :=
  if v < Int64.minValue.toInt then .error .tooSmall
  else if Int64.maxValue.toInt < v then .error .tooLarge
  else .ok (Int64.ofInt v)

/-- Reads digits onto the value `v`, which has to stay in range after every one of them. -/
def readDigits (negative : Bool) (v : Int64) : List Char → Except Error Int64
  | [] => .ok v
  | c :: cs =>
    match digit? c with
    | none => .error .invalidDigit
    | some d =>
      match inRange (extend negative v.toInt d) with
      | .error e => .error e
      | .ok w => readDigits negative w cs

/-- Reads an integer: at most one sign, then one or more digits. -/
def parse : List Char → Except Error Int64
  | [] => .error .empty
  | ['+'] => .error .invalidDigit
  | ['-'] => .error .invalidDigit
  | '+' :: cs => readDigits false 0 cs
  | '-' :: cs => readDigits true 0 cs
  | cs => readDigits false 0 cs

/-- Reads an unsigned 64-bit number: at most one plus sign, then one or more digits. -/
def parseUnsigned? (s : List Char) : Option UInt64 :=
  let ds := match s with
    | '+' :: cs => cs
    | cs => cs
  let n := Nat.ofDigitChars 10 ds 0
  if ds ≠ [] ∧ ds.all Char.isDigit ∧ n < UInt64.size then some (UInt64.ofNat n) else none

end Befunge.Text.Decimal
