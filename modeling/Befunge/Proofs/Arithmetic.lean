import Befunge.Proofs.Requests
import Mathlib.Data.Int.ModEq

/-!
# Arithmetic modulo a power of two

The instructions that calculate give the result of exact integer arithmetic, wrapped around to 64 bits.
Quotient and remainder go together: they give the dividend back, and the remainder is smaller than the
divisor.
-/

namespace Befunge

/-! ## Wrapping around -/

/-- The value is the only one in the range of 64-bit integers that is congruent to `n`. -/
def Wraps (n : Int) (v : Int64) : Prop :=
  ∀ k : Int, k = v.toInt ↔ (-2 ^ 63 ≤ k ∧ k < 2 ^ 63) ∧ k ≡ n [ZMOD 2 ^ 64]

theorem wraps_of_bmod {n : Int} {v : Int64} (h : v.toInt = n.bmod (2 ^ 64)) : Wraps n v := by
  intro k
  constructor
  · rintro rfl
    refine ⟨⟨v.le_toInt, v.toInt_lt⟩, ?_⟩
    rw [h]
    exact Int.bmod_emod
  · rintro ⟨⟨hle, hlt⟩, hk⟩
    have hemod : k % (2 ^ 64 : Nat) = n % (2 ^ 64 : Nat) := hk
    calc
      k = k.bmod (2 ^ 64) := (Int.bmod_eq_of_le (by omega) (by omega)).symm
      _ = (k % (2 ^ 64 : Nat)).bmod (2 ^ 64) := (Int.emod_bmod k _).symm
      _ = (n % (2 ^ 64 : Nat)).bmod (2 ^ 64) := by rw [hemod]
      _ = n.bmod (2 ^ 64) := Int.emod_bmod n _
      _ = v.toInt := h.symm

theorem wraps_toInt (v : Int64) : Wraps v.toInt v := by
  refine wraps_of_bmod (Int.bmod_eq_of_le ?_ ?_).symm
  · have := v.le_toInt
    omega
  · have := v.toInt_lt
    omega

/-! ## Operations -/

/-- The instructions that calculate with two operands. -/
inductive Operation
  | add
  | sub
  | mul
  | div
  | rem

namespace Operation

def symbol : Operation → Char
  | .add => '+'
  | .sub => '-'
  | .mul => '*'
  | .div => '/'
  | .rem => '%'

/-- The exact result for `b`, the lower operand, and `a`, the upper one. Quotients are rounded towards
zero. -/
def exact : Operation → Int → Int → Int
  | .add, b, a => b + a
  | .sub, b, a => b - a
  | .mul, b, a => b * a
  | .div, b, a => b.tdiv a
  | .rem, b, a => b - a * b.tdiv a

/-- Nothing can be divided by zero. -/
def Accepts : Operation → Int64 → Prop
  | .div, a | .rem, a => a ≠ 0
  | _, _ => True

/-- The result in 64-bit integers. -/
def value : Operation → Int64 → Int64 → Int64
  | .add, b, a => b + a
  | .sub, b, a => b - a
  | .mul, b, a => b * a
  | .div, b, a => b / a
  | .rem, b, a => b % a

theorem wraps_value (op : Operation) (b a : Int64) :
    Wraps (op.exact b.toInt a.toInt) (op.value b a) := by
  cases op with
  | add => exact wraps_of_bmod (Int64.toInt_add b a)
  | sub => exact wraps_of_bmod (Int64.toInt_sub b a)
  | mul => exact wraps_of_bmod (Int64.toInt_mul b a)
  | div => exact wraps_of_bmod (Int64.toInt_div b a)
  | rem =>
      have hrem : (b % a).toInt = b.toInt - a.toInt * b.toInt.tdiv a.toInt := by
        rw [Int64.toInt_mod, Int.tmod_def]
      show Wraps (b.toInt - a.toInt * b.toInt.tdiv a.toInt) (b % a)
      rw [← hrem]
      exact wraps_toInt (b % a)

/-- Whatever else is on its stack and on its playfield, and whatever its streams are: a process that comes
to the operation with `a` on top of the stack and `b` below makes a step that goes well, and that
replaces the two by `v`. -/
def Gives (op : Operation) (b a v : Int64) : Prop :=
  ∀ {σ : Type} (f : Responder σ) (x : Process σ), let m := x.machine
    m.Dispatches → m.fetch = op.symbol → m.stack.peek 0 = a → m.stack.peek 1 = b →
      x.step f = (.ok .running, ⟨(m.withStack ((m.stack.drop 2).push v)).advance,
        (f (.note (.dispatched m.pos (Instruction.decode op.symbol))) x.streams).2⟩)

/-- An operation asks nothing of the outside. -/
theorem exists_consult_eq {op : Operation} {m : Machine} (h : op.Accepts (m.stack.peek 0)) :
    ∃ w, m.program.consult m.stack.peek (Instruction.decode op.symbol) = pure w ∧
      m.effect (Instruction.decode op.symbol) w = m.withStack
        ((m.stack.drop 2).push (op.value (m.stack.peek 1) (m.stack.peek 0))) := by
  cases op with
  | div =>
      have ha : m.stack.peek 0 ≠ 0 := h
      refine ⟨some (m.stack.peek 1 / m.stack.peek 0), ?_, rfl⟩
      show some <$> Attempt.quotient m.program.options (m.stack.peek 1) (m.stack.peek 0) = _
      rw [Attempt.quotient, if_pos ha, map_pure]
  | rem => exact ⟨none, if_neg h, rfl⟩
  | _ => exact ⟨none, rfl, rfl⟩

theorem gives_of_value (op : Operation) {b a v : Int64} (h : op.Accepts a)
    (hv : op.value b a = v) : op.Gives b a v := by
  subst hv
  rintro σ f x m hd hfetch rfl rfl
  obtain ⟨w, hconsult, heffect⟩ := exists_consult_eq h
  have hstop : Instruction.decode op.symbol ≠ .stop := by cases op <;> decide
  rw [← heffect]
  exact Process.step_of_consult_pure hd (congrArg Instruction.decode hfetch) hstop hconsult

/-! ## Quotient and remainder -/

theorem div_mul_add_mod (b a : Int64) : b / a * a + b % a = b := by
  rw [← Int64.toInt_inj]
  calc
    (b / a * a + b % a).toInt =
        (((b.toInt.tdiv a.toInt).bmod (2 ^ 64) * a.toInt).bmod (2 ^ 64) +
          b.toInt.tmod a.toInt).bmod (2 ^ 64) := by
      rw [Int64.toInt_add, Int64.toInt_mul, Int64.toInt_div, Int64.toInt_mod]
    _ = (b.toInt.tdiv a.toInt * a.toInt + b.toInt.tmod a.toInt).bmod (2 ^ 64) := by
      rw [Int.bmod_mul_bmod, Int.bmod_add_bmod]
    _ = b.toInt.bmod (2 ^ 64) := by rw [Int.tdiv_mul_add_tmod]
    _ = b.toInt := b.toInt_bmod

theorem natAbs_mod_lt (b : Int64) {a : Int64} (h : a ≠ 0) :
    (b % a).toInt.natAbs < a.toInt.natAbs := by
  have ha : a.toInt ≠ 0 := fun h0 => h (Int64.toInt_inj.mp h0)
  rw [Int64.toInt_mod, Int.natAbs_tmod]
  exact Nat.mod_lt _ (Int.natAbs_pos.mpr ha)

theorem mod_eq_zero_or_sign_eq (b a : Int64) :
    b % a = 0 ∨ (b % a).toInt.sign = b.toInt.sign := by
  rw [← Int64.toInt_inj, Int64.toInt_mod, Int.sign_tmod]
  by_cases hdvd : a.toInt ∣ b.toInt
  · exact .inl (Int.tmod_eq_zero_of_dvd hdvd)
  · exact .inr (if_neg hdvd)

end Operation

/-- Arithmetic is exact modulo `2 ^ 64`: unless it is a division by zero, a step on an operation pushes
the only 64-bit integer that is congruent to the exact result, and dividend, quotient and remainder
fit together. -/
theorem Process.arithmetic_is_exact (b a : Int64) :
    (∀ op : Operation, op.Accepts a →
      ∃ v, op.Gives b a v ∧ Wraps (op.exact b.toInt a.toInt) v) ∧
      (a ≠ 0 → ∃ q r t, Operation.div.Gives b a q ∧ Operation.rem.Gives b a r ∧
        Operation.mul.Gives q a t ∧ Operation.add.Gives t r b ∧
        r.toInt.natAbs < a.toInt.natAbs ∧ (r = 0 ∨ r.toInt.sign = b.toInt.sign)) := by
  constructor
  · intro op h
    exact ⟨op.value b a, op.gives_of_value h rfl, op.wraps_value b a⟩
  · intro h
    refine ⟨b / a, b % a, b / a * a, ?_, ?_, ?_, ?_, Operation.natAbs_mod_lt b h,
      Operation.mod_eq_zero_or_sign_eq b a⟩
    · exact Operation.div.gives_of_value h rfl
    · exact Operation.rem.gives_of_value h rfl
    · exact Operation.mul.gives_of_value trivial rfl
    · exact Operation.add.gives_of_value trivial (Operation.div_mul_add_mod b a)

/-- The only quotient that does not fit: the least integer, divided by -1. -/
theorem Process.arithmetic_is_exact_least :
    let p : Program := ⟨.ofRows 80 25 [['/', '%']], {}⟩
    let x : Process Console :=
      ⟨{ Machine.start p 1 with stack := ⟨[-1, Int64.minValue]⟩ }, {}⟩
    (-1 : Int64) ≠ 0 ∧ Operation.div.Accepts (-1) ∧ x.machine.Dispatches ∧
      (x.step Console.answer).1 = .ok .running ∧
      (x.step Console.answer).2.machine.stack = ⟨[Int64.minValue]⟩ ∧
      Operation.rem.Gives Int64.minValue (-1) 0 := by
  intro p x
  have hd : x.machine.Dispatches := by decide
  have hne : (-1 : Int64) ≠ 0 := by decide
  obtain ⟨hexact, hboth⟩ := arithmetic_is_exact Int64.minValue (-1)
  obtain ⟨v, hgives, hwraps⟩ := hexact .div hne
  obtain rfl : Int64.minValue = v := by
    rw [← Int64.toInt_inj]
    exact (hwraps _).mpr ⟨by decide, by decide⟩
  obtain ⟨-, r, -, -, hrem, -, -, hlt, -⟩ := hboth hne
  obtain rfl : r = 0 := by
    rw [← Int64.toInt_inj]
    exact Int.natAbs_eq_zero.mp (Nat.lt_one_iff.mp hlt)
  have hfetch : x.machine.fetch = '/' := by decide +kernel
  have hstep := hgives Console.answer x hd hfetch rfl rfl
  rw [hstep]
  exact ⟨hne, hne, hd, rfl, rfl, hrem⟩

end Befunge
