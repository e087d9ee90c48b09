/-!
# Cells and values

A cell holds a character, the stack holds integers. In byte mode an integer stands for the character
of its lowest eight bits; in Unicode mode it has to be the code point of a character.
-/

namespace Befunge.Cell

def value (c : Char) : Int64 := Int64.ofNat c.toNat

def byte (v : Int64) : UInt8 := v.toUInt64.toUInt8

/-- The character with a given code point. -/
def ofCodePoint? (v : Int64) : Option Char :=
  let n := v.toInt.toNat
  if h : 0 ≤ v.toInt ∧ n.isValidChar then some (Char.ofNatAux n h.2) else none

/-- The character that a value stands for; only in Unicode mode may there be none. -/
def ofValue? (unicode : Bool) (v : Int64) : Option Char :=
  if unicode then ofCodePoint? v else some (Char.ofNat (byte v).toNat)

def read (unicode : Bool) (c : Char) : Int64 :=
  if unicode then value c else value c &&& 0xFF

end Befunge.Cell
