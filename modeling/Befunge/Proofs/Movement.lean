import Befunge.Proofs.Bounds

/-!
# Walks on the torus

A walk in one direction is addition modulo the size of the playfield. It comes back to where it started
after as many moves as there are cells on its line, and not before.
-/

namespace Befunge

namespace Direction

/-- The number of cells on a line in this direction. -/
def span (width height : Nat) : Direction → Nat
  | .right | .left => width
  | .down | .up => height

/-- The two places lie on one line in this direction: in a row or in a column. -/
def Along : Direction → Pos → Pos → Prop
  | .right, p, q | .left, p, q => q.y = p.y
  | .down, p, q | .up, p, q => q.x = p.x

end Direction

namespace Pos

/-- The place that lies `k` cells ahead in a direction. -/
def ahead (width height : Nat) (d : Direction) (k : Nat) (p : Pos) : Pos where
  x := ((p.x + k * d.delta.1) % width).toNat
  y := ((p.y + k * d.delta.2) % height).toNat

variable {w h : Nat} {p : Pos} (d : Direction)

theorem ahead_lt (hw : 0 < w) (hh : 0 < h) (k : Nat) :
    (p.ahead w h d k).x < w ∧ (p.ahead w h d k).y < h := by
  have hx := Int.emod_nonneg (p.x + k * d.delta.1) (b := w) (by omega)
  have hx' := Int.emod_lt_of_pos (p.x + k * d.delta.1) (b := w) (by omega)
  have hy := Int.emod_nonneg (p.y + k * d.delta.2) (b := h) (by omega)
  have hy' := Int.emod_lt_of_pos (p.y + k * d.delta.2) (b := h) (by omega)
  simp only [ahead]
  omega

theorem advance_ahead (hw : 0 < w) (hh : 0 < h) (k : Nat) :
    (p.ahead w h d k).advance w h d = p.ahead w h d (k + 1) := by
  have hstep : ∀ {a b : Int} {n : Nat}, 0 < n →
      (((((a + k * b) % n).toNat : Int) + b) % n).toNat = ((a + (k + 1 : Nat) * b) % n).toNat := by
    intro a b n hn
    rw [Int.toNat_of_nonneg (Int.emod_nonneg _ (by omega)), Int.emod_add_emod, Int.add_assoc,
      Int.natCast_add, Int.natCast_one, Int.add_mul, Int.one_mul]
  simp only [advance, ahead, hstep hw, hstep hh]

/-- A coordinate comes back if its change is a multiple of the size. -/
theorem toNat_emod_of_dvd {a n : Nat} {c : Int} (ha : a < n) (hc : (n : Int) ∣ c) :
    (((a : Int) + c) % n).toNat = a := by
  obtain ⟨b, rfl⟩ := hc
  rw [Int.add_mul_emod_self_left, Int.emod_eq_of_lt (by omega) (by omega), Int.toNat_natCast]

theorem dvd_of_toNat_emod {a n : Nat} {c : Int} (hn : 0 < n) (h : (((a : Int) + c) % n).toNat = a) :
    (n : Int) ∣ c := by
  have hnonneg := Int.emod_nonneg ((a : Int) + c) (b := n) (by omega)
  have hemod : ((a : Int) + c) % n = a := by omega
  have hdvd := Int.dvd_self_sub_of_emod_eq hemod
  have hc : (a : Int) + c - a = c := by omega
  rwa [hc] at hdvd

theorem ahead_zero (hx : p.x < w) (hy : p.y < h) : p.ahead w h d 0 = p := by
  simp only [ahead, Int.natCast_zero, Int.zero_mul, toNat_emod_of_dvd hx (Int.dvd_zero _),
    toNat_emod_of_dvd hy (Int.dvd_zero _)]

theorem ahead_span (hx : p.x < w) (hy : p.y < h) : p.ahead w h d (d.span w h) = p := by
  have hspan : (w : Int) ∣ (d.span w h : Nat) * d.delta.1 ∧
      (h : Int) ∣ (d.span w h : Nat) * d.delta.2 := by
    cases d <;> simp [Direction.span, Direction.delta]
  simp only [ahead, toNat_emod_of_dvd hx hspan.1, toNat_emod_of_dvd hy hspan.2]

/-- Before it has been all the way round, a walk is not back. -/
theorem ahead_ne (hx : p.x < w) (hy : p.y < h) {k : Nat} (hk : 0 < k) (hlt : k < d.span w h) :
    p.ahead w h d k ≠ p := by
  -- One of the two changes is `k` or `-k`, and the size that has to divide it is the span.
  intro hback
  have hxdvd := dvd_of_toNat_emod (Nat.zero_lt_of_lt hx) (congrArg Pos.x hback)
  have hydvd := dvd_of_toNat_emod (Nat.zero_lt_of_lt hy) (congrArg Pos.y hback)
  have hdvd : d.span w h ∣ k := by
    cases d <;> simp_all [Direction.span, Direction.delta, Int.natCast_dvd_natCast]
  exact absurd (Nat.le_of_dvd hk hdvd) (Nat.not_le_of_lt hlt)

theorem along_ahead (hx : p.x < w) (hy : p.y < h) (k : Nat) : d.Along p (p.ahead w h d k) := by
  have hcolumn : ((p.x + k * 0 : Int) % w).toNat = p.x := toNat_emod_of_dvd hx (by simp)
  have hrow : ((p.y + k * 0 : Int) % h).toNat = p.y := toNat_emod_of_dvd hy (by simp)
  cases d with
  | right => exact hrow
  | left => exact hrow
  | down => exact hcolumn
  | up => exact hcolumn

end Pos

end Befunge
