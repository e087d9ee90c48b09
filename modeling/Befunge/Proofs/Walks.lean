import Befunge.Proofs.Strings
import Mathlib.Algebra.Group.Int.Defs
import Mathlib.Algebra.Group.Nat.Defs
import Mathlib.Logic.Function.Iterate

/-!
# Moves of a machine

Any number of moves is one addition on the torus, and the moves can be calculated in signed 64-bit
integers: on a playfield that fits into memory, no sum overflows.
-/

namespace Befunge

/-! ## Moves in 64-bit integers -/

namespace Words

/-- The sum of two integers, unless it overflows. -/
def add? (a b : Int64) : Option Int64 :=
  if (a + b).toInt = a.toInt + b.toInt then some (a + b) else none

/-- The remainder by a positive size that is not negative, unless a sum overflows on the way: division
rounds towards zero, so the remainder may be one size too small. -/
def remainder? (a n : Int64) : Option Int64 := if a % n < 0 then add? (a % n) n else some (a % n)

/-- A coordinate after a move on a line of `n` cells, unless a sum overflows on the way. -/
def move? (n c : Nat) (delta : Int) : Option Nat := do
  let s ← add? (.ofNat c) (.ofInt delta)
  let r ← remainder? s (.ofNat n)
  pure r.toUInt64.toNat

theorem add?_eq_some_iff {a b c : Int64} : add? a b = some c ↔ c.toInt = a.toInt + b.toInt := by
  unfold add?
  constructor
  · intro h
    split at h
    · rename_i hsum
      cases h
      exact hsum
    · cases h
  · intro h
    have hc : a + b = c := by
      rw [← Int64.toInt_inj, h, Int64.toInt_add, ← h, Int64.toInt_bmod]
    rw [if_pos (hc ▸ h), hc]

/-- A sum that is in range does not overflow. -/
theorem exists_add? {a b : Int64} (hle : -2 ^ 63 ≤ a.toInt + b.toInt)
    (hlt : a.toInt + b.toInt < 2 ^ 63) :
    ∃ c, add? a b = some c ∧ c.toInt = a.toInt + b.toInt := by
  have hsum := Int64.toInt_ofInt_of_le hle hlt
  exact ⟨_, add?_eq_some_iff.mpr hsum, hsum⟩

theorem exists_remainder? (a : Int64) {n : Int64} (hn : 0 < n.toInt) :
    ∃ r, remainder? a n = some r ∧ r.toInt = a.toInt % n.toInt := by
  have htmod : (a % n).toInt = a.toInt % n.toInt ∨ (a % n).toInt = a.toInt % n.toInt - n.toInt := by
    rw [Int64.toInt_mod, Int.tmod_eq_emod]
    split <;> omega
  have hnonneg := Int.emod_nonneg a.toInt (Int.ne_of_gt hn)
  have hlt := Int.emod_lt_of_pos a.toInt hn
  have hrange := n.toInt_lt
  unfold remainder?
  by_cases hneg : a % n < 0
  · rw [if_pos hneg]
    rw [Int64.lt_iff_toInt_lt, Int64.toInt_zero] at hneg
    have hsum : (a % n).toInt + n.toInt = a.toInt % n.toInt := by omega
    rw [← hsum] at hnonneg hlt ⊢
    exact exists_add? (by omega) (by omega)
  · rw [if_neg hneg]
    rw [Int64.lt_iff_toInt_lt, Int64.toInt_zero] at hneg
    exact ⟨_, rfl, by omega⟩

/-- Nothing overflows when one moves by one cell. -/
theorem move?_eq {n c : Nat} {delta : Int} (hn : n < 2 ^ 62) (hc : c < n)
    (hdelta : -1 ≤ delta ∧ delta ≤ 1) : move? n c delta = some ((c + delta) % n).toNat := by
  have hcoord : (Int64.ofNat c).toInt = c := Int64.toInt_ofNat_of_lt (by omega)
  have hsize : (Int64.ofNat n).toInt = n := Int64.toInt_ofNat_of_lt (by omega)
  have hstep : (Int64.ofInt delta).toInt = delta := Int64.toInt_ofInt_of_le (by omega) (by omega)
  obtain ⟨s, hs, hsum⟩ := exists_add? (a := .ofNat c) (b := .ofInt delta) (by omega) (by omega)
  obtain ⟨r, hr, hrem⟩ := exists_remainder? s (n := .ofNat n) (by omega)
  rw [hsum, hcoord, hsize, hstep] at hrem
  have hnonneg : 0 ≤ r := by
    rw [Int64.le_iff_toInt_le, Int64.toInt_zero, hrem]
    exact Int.emod_nonneg _ (by omega)
  have hcast : r.toUInt64.toNat = ((c + delta) % n).toNat := by
    rw [Int64.toNat_toUInt64_of_le hnonneg, ← hrem]
    rfl
  simp only [move?, hs, hr, Option.bind_eq_bind, Option.bind_some, hcast]
  rfl

/-- A playfield of four bytes a cell that fits into memory has sides below `2 ^ 62`. -/
theorem lt_of_size {w h : Nat} (hw : 0 < w) (hh : 0 < h) (hsize : 4 * w * h < 2 ^ 63) :
    w < 2 ^ 62 ∧ h < 2 ^ 62 := by
  have hwidth : w ≤ w * h := Nat.le_mul_of_pos_right w hh
  have hheight : h ≤ w * h := Nat.le_mul_of_pos_left h hw
  rw [Nat.mul_assoc] at hsize
  omega

end Words

namespace Pos

variable {w h : Nat} {p : Pos} (d : Direction)

/-- The next cell in a direction, calculated in 64-bit integers; `none` if a sum overflows. -/
def advanceInWords? (width height : Nat) (d : Direction) (p : Pos) : Option Pos := do
  let x ← Words.move? width p.x d.delta.1
  let y ← Words.move? height p.y d.delta.2
  pure ⟨x, y⟩

theorem advanceInWords?_eq (hw : w < 2 ^ 62) (hh : h < 2 ^ 62) (hx : p.x < w) (hy : p.y < h) :
    p.advanceInWords? w h d = some (p.advance w h d) := by
  have hdelta : (-1 ≤ d.delta.1 ∧ d.delta.1 ≤ 1) ∧ (-1 ≤ d.delta.2 ∧ d.delta.2 ≤ 1) := by
    cases d <;> decide
  rw [advanceInWords?, Words.move?_eq hw hx hdelta.1, Words.move?_eq hh hy hdelta.2]
  rfl

theorem ahead_origin_right (w h n : Nat) : ahead w h .right n ⟨0, 0⟩ = ⟨n % w, 0⟩ := by
  have hx : ((0 : Nat) + (n : Int) * 1) % w = (n % w : Nat) := by simp
  have hy : ((0 : Nat) + (n : Int) * 0) % h = (0 : Nat) := by simp
  simp only [ahead, Direction.delta, hx, hy, Int.toNat_natCast]

/-- A move and one the other way. -/
theorem advance_opposite (hx : p.x < w) (hy : p.y < h) :
    (p.advance w h d).advance w h d.opposite = p := by
  have hback : ∀ {a n : Nat} {b : Int}, a < n →
      (((((a : Int) + b) % n).toNat : Int) + -b) % n = a := by
    intro a n b ha
    rw [Int.toNat_of_nonneg (Int.emod_nonneg _ (by omega)), Int.emod_add_emod,
      Int.add_neg_cancel_right, Int.emod_eq_of_lt (by omega) (by omega)]
  simp only [advance, Direction.delta_opposite, hback hx, hback hy, Int.toNat_natCast]

end Pos

/-! ## Machines -/

namespace Machine

variable {m : Machine}

theorem dispatches_of_eq_false (hd : m.done = false) (hs : m.stringMode = false) : m.Dispatches :=
  ⟨hd, fun h => by simp [hs] at h⟩

theorem iterate_advance (hpos : m.program.grid.Contains m.pos) (k : Nat) :
    advance^[k] m = { m with pos := m.posAhead k } := by
  induction k with
  | zero =>
      rw [posAhead_zero hpos]
      rfl
  | succ k ih =>
      rw [Function.iterate_succ_apply', ih, ← advance_posAhead hpos]
      rfl

/-- Of a walk in 64-bit integers, no move overflows. -/
theorem iterate_advanceInWords? (hpos : m.program.grid.Contains m.pos)
    (hw : m.program.grid.width < 2 ^ 62) (hh : m.program.grid.height < 2 ^ 62) (k : Nat) :
    (fun q => q.bind (Pos.advanceInWords? m.program.grid.width m.program.grid.height m.direction))^[k]
      (some m.pos) = some (m.posAhead k) := by
  induction k with
  | zero => rw [posAhead_zero hpos, Function.iterate_zero_apply]
  | succ k ih =>
      obtain ⟨hx, hy⟩ := contains_posAhead hpos k
      rw [Function.iterate_succ_apply', ih, Option.bind_some,
        Pos.advanceInWords?_eq m.direction hw hh hx hy, advance_posAhead hpos]

theorem advance_opposite (hpos : m.program.grid.Contains m.pos) :
    { m.advance with direction := m.direction.opposite }.advance =
      { m with direction := m.direction.opposite } := by
  simp only [advance, Pos.advance_opposite m.direction hpos.1 hpos.2]

theorem iterate_advance_span (hpos : m.program.grid.Contains m.pos) : advance^[m.span] m = m := by
  have hback : m.posAhead m.span = m.pos := Pos.ahead_span m.direction hpos.1 hpos.2
  rw [iterate_advance hpos, hback]

end Machine

namespace Process

variable {σ : Type} (f : Responder σ) {x : Process σ}

/-- A bridge is a move more. -/
theorem step_bridge (hd : x.machine.Dispatches) (hfetch : x.machine.fetch = '#') :
    x.step f = (.ok .running, ⟨Machine.advance^[2] x.machine,
      (f (.note (.dispatched x.machine.pos .bridge)) x.streams).2⟩) :=
  step_of_consult_pure hd (congrArg Instruction.decode hfetch) nofun rfl

theorem step_space (hd : x.machine.Dispatches) (hfetch : x.machine.fetch = ' ') :
    x.step f = (.ok .running, ⟨x.machine.advance,
      (f (.note (.dispatched x.machine.pos .nop)) x.streams).2⟩) :=
  step_of_consult_pure hd (congrArg Instruction.decode hfetch) nofun rfl

/-- Over an empty playfield a process walks on and on. -/
theorem steps_blank (hblank : ∀ q, x.machine.program.grid.cell q = ' ')
    (hd : x.machine.done = false) (hs : x.machine.stringMode = false) (n : Nat) :
    (x.steps f n).1 = List.replicate n (.ok .running) ∧
      (x.steps f n).2.machine = Machine.advance^[n] x.machine := by
  induction n generalizing x with
  | zero => exact ⟨rfl, rfl⟩
  | succ n ih =>
      rw [steps, step_space f (Machine.dispatches_of_eq_false hd hs) (hblank _)]
      obtain ⟨hanswers, hmachine⟩ := ih (x := ⟨x.machine.advance, _⟩) hblank hd hs
      exact ⟨congrArg (_ :: ·) hanswers, hmachine⟩

end Process

/-- Movement is addition on the torus: on a playfield that fits into memory, with four bytes a cell, any
number of moves adds as many steps to the place, modulo width and height, and nothing overflows. A
bridge makes two moves, and a program of spaces goes on along the top row. -/
theorem Machine.movement_is_addition {p : Program} (hw : 1 ≤ p.grid.width) (hh : 1 ≤ p.grid.height)
    (hsize : 4 * p.grid.width * p.grid.height < 2 ^ 63) :
    let w := p.grid.width
    let h := p.grid.height
    (∀ m : Machine, m.program = p → m.pos.x < w → m.pos.y < h →
      let d := m.direction
      (∀ k : Nat,
        let q : Pos := ⟨((m.pos.x + k * d.delta.1) % w).toNat, ((m.pos.y + k * d.delta.2) % h).toNat⟩
        advance^[k] m = { m with pos := q } ∧
          (fun q => q.bind (Pos.advanceInWords? w h d))^[k] (some m.pos) = some q) ∧
      { m.advance with direction := d.opposite }.advance = { m with direction := d.opposite } ∧
      advance^[d.span w h] m = m ∧
      (m.done = false → m.stringMode = false → m.fetch = '#' →
        ∀ {σ : Type} (f : Responder σ) (s : σ), Process.step f ⟨m, s⟩ =
          (.ok .running, ⟨advance^[2] m, (f (.note (.dispatched m.pos .bridge)) s).2⟩))) ∧
    ((∀ q, p.grid.Contains q → p.grid.cell q = ' ') →
      ∀ (clock : UInt64) {σ : Type} (f : Responder σ) (s : σ) (n : Nat),
        let run := (Process.start p clock s).steps f n
        run.1 = List.replicate n (.ok .running) ∧
          run.2.machine = { start p clock with pos := ⟨n % w, 0⟩ }) := by
  intro w h
  obtain ⟨hw', hh'⟩ := Words.lt_of_size hw hh hsize
  constructor
  · rintro m rfl hx hy d
    have hpos : m.program.grid.Contains m.pos := ⟨hx, hy⟩
    refine ⟨fun k => ⟨iterate_advance hpos k, iterate_advanceInWords? hpos hw' hh' k⟩,
      advance_opposite hpos, iterate_advance_span hpos, ?_⟩
    intro hd hs hfetch σ f s
    exact Process.step_bridge f (x := ⟨m, s⟩) (dispatches_of_eq_false hd hs) hfetch
  · intro hblank clock σ f s n run
    have hcells : ∀ q, p.grid.cell q = ' ' := by
      intro q
      by_contra hcell
      exact hcell (hblank q (Grid.contains_of_cell_ne hcell))
    obtain ⟨hanswers, hmachine⟩ :=
      Process.steps_blank f (x := .start p clock s) hcells rfl rfl n
    refine ⟨hanswers, hmachine.trans ?_⟩
    have hpos : (start p clock).program.grid.Contains (start p clock).pos := ⟨hw, hh⟩
    have hahead : (start p clock).posAhead n = ⟨n % w, 0⟩ := Pos.ahead_origin_right w h n
    exact (iterate_advance hpos n).trans (hahead ▸ rfl)

/-- A bridge on the last cell but one before the edge, walks that go around, and an empty playfield. -/
theorem Machine.movement_is_addition_edge :
    let p : Program := ⟨.ofRows 80 25 [[' ', '#']], {}⟩
    let m : Machine := { start p 1 with pos := ⟨1, 0⟩, direction := .left }
    let blank : Program := ⟨.ofRows 80 25 [[]], {}⟩
    (1 ≤ p.grid.width ∧ 1 ≤ p.grid.height ∧ 4 * p.grid.width * p.grid.height < 2 ^ 63) ∧
      m.fetch = '#' ∧ (Process.step Console.answer ⟨m, {}⟩).2.machine.pos = ⟨79, 0⟩ ∧
      (advance^[81] m).pos = ⟨0, 0⟩ ∧ advance^[80] m = m ∧
      (((Process.start blank 1 ({} : Console)).steps Console.answer 1000).2.machine.pos = ⟨40, 0⟩) := by
  intro p m blank
  have hsize : 1 ≤ p.grid.width ∧ 1 ≤ p.grid.height ∧ 4 * p.grid.width * p.grid.height < 2 ^ 63 := by
    decide
  have hfetch : m.fetch = '#' := by decide +kernel
  obtain ⟨hwalk, -, hspan, hbridge⟩ :=
    (movement_is_addition hsize.1 hsize.2.1 hsize.2.2).1 m rfl (by decide) (by decide)
  have hspaces : ∀ q, blank.grid.Contains q → blank.grid.cell q = ' ' := by
    intro q hq
    rcases Grid.mem_cells_ofRows (Array.mem_of_getElem? (Grid.getElem?_index hq)) with ⟨r, hr, hc⟩ | hc
    · rw [List.mem_singleton.mp hr] at hc
      cases hc
    · exact hc
  have hblank := (movement_is_addition (p := blank) hsize.1 hsize.2.1 hsize.2.2).2 hspaces 1
    Console.answer ({} : Console) 1000
  refine ⟨hsize, hfetch, ?_, ?_, hspan, ?_⟩
  · rw [hbridge rfl rfl hfetch]
    show (advance^[2] m).pos = _
    rw [(hwalk 2).1]
    decide
  · rw [(hwalk 81).1]
    decide
  · rw [hblank.2]
    decide

end Befunge
