import Befunge.Grid
import Befunge.Text.Blank
import Befunge.Text.Decimal

/-!
# The playfield as a picture

Two rulers, one with the tens and one with the units of the column numbers, then the rows, each after
its number.
-/

namespace Befunge.Grid

open Text

/-- The width of the column that holds the row numbers. -/
def gutter (g : Grid) : Nat := (Decimal.ofNat (g.height - 1)).length

def unit (n : Nat) : Char := Nat.digitChar (n % 10)

/-- The tens of every tenth column's number, without the spaces after the last one. -/
def tensRuler (width : Nat) : List Char :=
  trimEnd ((List.range width).map fun x => if x % 10 = 0 then unit (x / 10) else ' ')

def unitsRuler (width : Nat) : List Char := (List.range width).map unit

/-- A number at the right end of a field of at least `n` characters. -/
def alignRight (n : Nat) (k : Nat) : List Char := (Decimal.ofNat k).leftpad n ' '

/-- A row of the picture: its number, a space and its cells. -/
def renderRow (g : Grid) (y : Nat) : List Char :=
  alignRight g.gutter y ++ ' ' :: (g.row? y).getD []

def renderLines (g : Grid) : List (List Char) :=
  let margin := List.replicate (g.gutter + 1) ' '
  (margin ++ tensRuler g.width) :: (margin ++ unitsRuler g.width) ::
    (List.range g.height).map g.renderRow

/-- The picture, every line closed by a line feed. -/
def render (g : Grid) : List Char := g.renderLines.flatMap (· ++ ['\n'])

end Befunge.Grid
