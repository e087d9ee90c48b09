/-!
# Directions and positions

The playfield is a torus: a walk that leaves it on one side comes back on the other. Columns grow to
the right and rows grow downwards, both from zero.
-/

namespace Befunge

inductive Direction
  | right
  | down
  | left
  | up
  deriving DecidableEq, Repr, Inhabited

/-- A cell's place on the playfield. -/
structure Pos where
  x : Nat
  y : Nat
  deriving DecidableEq, Repr, Inhabited

namespace Direction

/-- The change of column and row that one move makes. -/
def delta : Direction → Int × Int
  | .right => (1, 0)
  | .down => (0, 1)
  | .left => (-1, 0)
  | .up => (0, -1)

def opposite : Direction → Direction
  | .right => .left
  | .down => .up
  | .left => .right
  | .up => .down

@[simp] theorem opposite_opposite (d : Direction) : d.opposite.opposite = d := by
  cases d <;> rfl

theorem delta_opposite (d : Direction) :
    d.opposite.delta = (-d.delta.1, -d.delta.2) := by
  cases d <;> rfl

end Direction

/-- The next cell in a direction, on a torus of the given size. -/
def Pos.advance (width height : Nat) (d : Direction) (p : Pos) : Pos where
  x := ((p.x + d.delta.1) % width).toNat
  y := ((p.y + d.delta.2) % height).toNat

theorem Pos.advance_lt {width height : Nat} (hw : 0 < width) (hh : 0 < height) (d : Direction)
    (p : Pos) : (p.advance width height d).x < width ∧ (p.advance width height d).y < height := by
  have hx := Int.emod_lt_of_pos (p.x + d.delta.1) (b := width) (by omega)
  have hy := Int.emod_lt_of_pos (p.y + d.delta.2) (b := height) (by omega)
  have hx' := Int.emod_nonneg (p.x + d.delta.1) (b := width) (by omega)
  have hy' := Int.emod_nonneg (p.y + d.delta.2) (b := height) (by omega)
  simp only [Pos.advance]
  omega

end Befunge
