import Befunge.Direction

/-!
# The playfield

A rectangle of characters whose size never changes, stored row after row. The size of the storage is
part of the type, so an access inside the rectangle always finds its cell.
-/

namespace Befunge

structure Grid where
  width : Nat
  height : Nat
  /-- The cells of row 0 from left to right, then those of row 1, and so on. -/
  cells : Array Char
  size_cells : cells.size = width * height
  deriving DecidableEq, Repr

namespace Grid

/-! ## Building -/

/-- The list cut or filled with `a` to exactly `n` elements. -/
def fit (n : Nat) (a : α) (l : List α) : List α := (l.take n).rightpad n a

@[simp] theorem length_fit (n : Nat) (a : α) (l : List α) : (fit n a l).length = n := by
  simp only [fit, List.length_rightpad, List.length_take]
  omega

/-- The rows of a playfield: every row cut or filled with spaces to the width, and as many rows as
the height asks for. -/
def fitRows (width height : Nat) (rows : List (List Char)) : List (List Char) :=
  fit height (List.replicate width ' ') (rows.map (fit width ' '))

theorem length_of_mem_fitRows {width height : Nat} {rows : List (List Char)} {r : List Char}
    (h : r ∈ fitRows width height rows) : r.length = width := by
  simp only [fitRows, fit, List.rightpad, List.mem_append, List.mem_replicate] at h
  rcases h with h | h
  · obtain ⟨s, -, rfl⟩ := List.mem_map.1 (List.mem_of_mem_take h)
    exact length_fit ..
  · simp [h.2]

theorem length_flatten_of_forall {n : Nat} {rows : List (List α)}
    (h : ∀ r ∈ rows, r.length = n) : rows.flatten.length = n * rows.length := by
  induction rows with
  | nil => simp
  | cons r rows ih =>
    have hr := h r (by simp)
    have ih := ih fun s hs => h s (by simp [hs])
    simp only [List.flatten_cons, List.length_append, List.length_cons, ih, hr, Nat.mul_add]
    omega

/-- The playfield of the given size with the given rows, on a ground of spaces. -/
def ofRows (width height : Nat) (rows : List (List Char)) : Grid where
  width := width
  height := height
  cells := (fitRows width height rows).flatten.toArray
  size_cells := by
    have h : ∀ r ∈ fitRows width height rows, r.length = width :=
      fun r hr => length_of_mem_fitRows hr
    simpa [fitRows] using length_flatten_of_forall h

/-! ## Access -/

def Contains (g : Grid) (p : Pos) : Prop := p.x < g.width ∧ p.y < g.height

instance (g : Grid) (p : Pos) : Decidable (g.Contains p) :=
  inferInstanceAs (Decidable (_ ∧ _))

def index (g : Grid) (p : Pos) : Nat := p.y * g.width + p.x

theorem index_lt {g : Grid} {p : Pos} (h : g.Contains p) : g.index p < g.cells.size := by
  have h1 : p.y * g.width + g.width ≤ g.height * g.width := by
    rw [← Nat.succ_mul]
    exact Nat.mul_le_mul_right _ h.2
  have h2 := g.size_cells
  have h3 := h.1
  rw [Nat.mul_comm] at h2
  simp only [index]
  omega

/-- The character at a place, if it lies on the playfield. -/
def get? (g : Grid) (p : Pos) : Option Char :=
  if g.Contains p then g.cells[g.index p]? else none

/-- The character at a place of the playfield; off the playfield there are spaces. -/
def cell (g : Grid) (p : Pos) : Char := (g.get? p).getD ' '

/-- The playfield with another character at a place; nothing changes off the playfield. -/
def set (g : Grid) (p : Pos) (c : Char) : Grid :=
  if g.Contains p then
    { g with
      cells := g.cells.setIfInBounds (g.index p) c
      size_cells := by simp [g.size_cells] }
  else g

/-- The place that signed coordinates name, if it lies on the playfield. -/
def locate (g : Grid) (x y : Int64) : Option Pos :=
  let p : Pos := ⟨x.toInt.toNat, y.toInt.toNat⟩
  if 0 ≤ x.toInt ∧ 0 ≤ y.toInt ∧ g.Contains p then some p else none

def row? (g : Grid) (y : Nat) : Option (List Char) :=
  if y < g.height then some (g.cells.extract (y * g.width) ((y + 1) * g.width)).toList else none

def rows (g : Grid) : List (List Char) := (List.range g.height).filterMap g.row?

/-- The cells in which a playfield differs from an earlier one of its size, row after row, with
their present characters. -/
def changesFrom (g before : Grid) : List (Pos × Char) :=
  (List.range g.cells.size).filterMap fun i =>
    match g.cells[i]? with
    | none => none
    | some c =>
      if before.cells[i]? = some c then none else some (⟨i % g.width, i / g.width⟩, c)

/-! ## Facts -/

@[simp] theorem width_set (g : Grid) (p : Pos) (c : Char) : (g.set p c).width = g.width := by
  unfold set; split <;> rfl

@[simp] theorem height_set (g : Grid) (p : Pos) (c : Char) : (g.set p c).height = g.height := by
  unfold set; split <;> rfl

@[simp] theorem contains_set (g : Grid) (p q : Pos) (c : Char) :
    (g.set p c).Contains q ↔ g.Contains q := by
  simp [Contains]

theorem index_injective {g : Grid} {p q : Pos} (hp : g.Contains p) (hq : g.Contains q)
    (h : g.index p = g.index q) : p = q := by
  rcases p with ⟨x, y⟩
  rcases q with ⟨x', y'⟩
  have hx : x < g.width := hp.1
  have hx' : x' < g.width := hq.1
  have e : ∀ a b, a < g.width → (b * g.width + a) / g.width = b ∧ (b * g.width + a) % g.width = a := by
    intro a b ha
    have hw : 0 < g.width := by omega
    rw [Nat.mul_comm, Nat.mul_add_div hw, Nat.mul_add_mod, Nat.div_eq_of_lt ha, Nat.mod_eq_of_lt ha]
    simp
  have h' : y * g.width + x = y' * g.width + x' := h
  have e1 := e x y hx
  have e2 := e x' y' hx'
  rw [h'] at e1
  rw [Pos.mk.injEq]
  exact ⟨e1.2.symm.trans e2.2, e1.1.symm.trans e2.1⟩

/-- Every place of the playfield holds a character, and no other place does. -/
theorem get?_isSome_iff (g : Grid) (p : Pos) : (g.get? p).isSome ↔ g.Contains p := by
  unfold get?
  split
  · rename_i h
    simp [index_lt h, h]
  · simp_all

theorem get?_set (g : Grid) (p q : Pos) (c : Char) :
    (g.set p c).get? q = if g.Contains p ∧ p = q then some c else g.get? q := by
  by_cases hp : g.Contains p
  · by_cases hq : g.Contains q
    · have hi : ∀ r, (g.set p c).index r = g.index r := by simp [index]
      have hc : (g.set p c).cells = g.cells.setIfInBounds (g.index p) c := by simp [set, hp]
      simp only [get?, contains_set, hq, ↓reduceIte, hp, true_and, hi, hc]
      by_cases h : p = q
      · subst h
        simp [index_lt hp]
      · have : g.index p ≠ g.index q := fun e => h (index_injective hp hq e)
        simp [h, this]
    · have : p ≠ q := fun e => hq (e ▸ hp)
      simp [get?, hq, this]
  · simp [set, hp]

end Grid

end Befunge
