import Befunge.Proofs.Runs

/-!
# Underflow

A stack never runs out: taking a value from an empty one gives zero. So zeros at the bottom of a stack
are never noticed. A machine and its copy with more of them answer alike and stay alike.
-/

namespace Befunge

/-! ## Stacks -/

namespace Stack

/-- The stack `t` is `s` with at most `k` zeros below it. -/
def Padded (k : Nat) (s t : Stack) : Prop := ∃ j ≤ k, t.values = s.values ++ List.replicate j 0

variable {k : Nat} {s t : Stack}

theorem Padded.peek_eq (h : Padded k s t) : t.peek = s.peek := by
  obtain ⟨j, -, ht⟩ := h
  funext i
  simp only [peek, List.getD, ht]
  by_cases hi : i < s.values.length
  · rw [List.getElem?_append_left hi]
  · rw [List.getElem?_append_right (by omega), List.getElem?_replicate,
      List.getElem?_eq_none (by omega)]
    split <;> rfl

theorem Padded.push (h : Padded k s t) (v : Int64) : Padded k (s.push v) (t.push v) := by
  obtain ⟨j, hj, ht⟩ := h
  exact ⟨j, hj, by simp only [Stack.push, ht, List.cons_append]⟩

theorem Padded.drop (h : Padded k s t) (n : Nat) : Padded k (s.drop n) (t.drop n) := by
  obtain ⟨j, hj, ht⟩ := h
  -- The zeros are taken only once the values above them are.
  refine ⟨j - (n - s.values.length), by omega, ?_⟩
  simp only [Stack.drop, ht, List.drop_append, List.drop_replicate]

end Stack

/-! ## Machines -/

/-- The two machines differ at most by zeros at the bottom of the second one's stack. -/
def Machine.Padded (k : Nat) (m m' : Machine) : Prop :=
  ∃ t, m.stack.Padded k t ∧ m' = m.withStack t

namespace Machine

variable {k : Nat} {m m' : Machine} {t : Stack}

@[simp] theorem stack_withStack (m : Machine) (t : Stack) : (m.withStack t).stack = t := rfl

@[simp] theorem program_withStack (m : Machine) (t : Stack) :
    (m.withStack t).program = m.program := rfl

@[simp] theorem pos_withStack (m : Machine) (t : Stack) : (m.withStack t).pos = m.pos := rfl

@[simp] theorem fetch_withStack (m : Machine) (t : Stack) : (m.withStack t).fetch = m.fetch := rfl

theorem Padded.advance (h : m.Padded k m') : m.advance.Padded k m'.advance := by
  obtain ⟨t, ht, rfl⟩ := h
  exact ⟨t, ht, rfl⟩

theorem Padded.effect (h : m.Padded k m') (i : Instruction) (v : Option Int64) :
    (m.effect i v).Padded k (m'.effect i v) := by
  obtain ⟨t, ht, rfl⟩ := h
  have hrest := ht.drop i.arity
  cases i with
  | digit d => exact ⟨_, ht.push _, rfl⟩
  | binary op =>
      simp only [Machine.effect, stack_withStack, ht.peek_eq]
      exact ⟨_, hrest.push _, rfl⟩
  | divide => exact ⟨_, hrest.push _, rfl⟩
  | remainder =>
      simp only [Machine.effect, stack_withStack, ht.peek_eq]
      exact ⟨_, hrest.push _, rfl⟩
  | not =>
      simp only [Machine.effect, stack_withStack, ht.peek_eq]
      exact ⟨_, hrest.push _, rfl⟩
  | horizontalIf =>
      simp only [Machine.effect, stack_withStack, ht.peek_eq]
      exact ⟨_, hrest, rfl⟩
  | verticalIf =>
      simp only [Machine.effect, stack_withStack, ht.peek_eq]
      exact ⟨_, hrest, rfl⟩
  | duplicate =>
      simp only [Machine.effect, stack_withStack, ht.peek_eq]
      exact ⟨_, (hrest.push _).push _, rfl⟩
  | swap =>
      simp only [Machine.effect, stack_withStack, ht.peek_eq]
      exact ⟨_, (hrest.push _).push _, rfl⟩
  | discard => exact ⟨_, hrest, rfl⟩
  | writeInteger => exact ⟨_, hrest, rfl⟩
  | writeChar => exact ⟨_, hrest, rfl⟩
  | put =>
      simp only [Machine.effect, stack_withStack, ht.peek_eq]
      exact ⟨_, hrest, rfl⟩
  | get =>
      simp only [Machine.effect, stack_withStack, ht.peek_eq]
      exact ⟨_, hrest.push _, rfl⟩
  | readInteger =>
      cases v with
      | some v => exact ⟨_, ht.push _, rfl⟩
      | none => exact ⟨_, ht.push _, rfl⟩
  | readChar => exact ⟨_, ht.push _, rfl⟩
  | stop => exact ⟨t, ht, rfl⟩
  | move d => exact ⟨t, ht, rfl⟩
  | random => exact ⟨t, ht, rfl⟩
  | toggleString => exact ⟨t, ht, rfl⟩
  | bridge => exact ⟨t, ht, rfl⟩
  | nop => exact ⟨t, ht, rfl⟩
  | unknown ch => exact ⟨t, ht, rfl⟩

end Machine

/-! ## Runs -/

namespace Process

variable {σ : Type} (f : Responder σ)

/-- The two processes are at the same streams and differ at most by zeros at the bottom of the second
one's stack. -/
def Padded (k : Nat) (x y : Process σ) : Prop :=
  x.machine.Padded k y.machine ∧ y.streams = x.streams

theorem Padded.step {k : Nat} (x y : Process σ) (h : x.Padded k y) :
    (y.step f).1 = (x.step f).1 ∧ (x.step f).2.Padded k (y.step f).2 := by
  obtain ⟨m, s⟩ := x
  obtain ⟨m', s'⟩ := y
  obtain ⟨⟨t, ht, (rfl : m' = m.withStack t)⟩, (rfl : s' = s)⟩ := h
  have hp : m.Padded k (m.withStack t) := ⟨t, ht, rfl⟩
  simp only [Process.step, Padded]
  rcases m.step_trichotomy with h | ⟨h, hs, hq⟩ | h
  · have h' : (m.withStack t).done = true := h
    rw [Machine.run_step_of_done f h, Machine.run_step_of_done f h']
    exact ⟨rfl, hp, rfl⟩
  · have h' : (m.withStack t).done = false := h
    rw [Machine.run_step_of_char f h hs hq, Machine.run_step_of_char f h' hs hq]
    exact ⟨rfl, ⟨_, ht.push _, rfl⟩, rfl⟩
  · have h' : (m.withStack t).Dispatches := h
    rw [Machine.run_step_of_dispatches f h, Machine.run_step_of_dispatches f h']
    simp only [Machine.stack_withStack, Machine.program_withStack, Machine.pos_withStack,
      Machine.fetch_withStack, ht.peek_eq]
    generalize (m.program.consult m.stack.peek _).run.run f _ = u
    obtain ⟨e | v, s'⟩ := u
    · simp only [Machine.run_conclude_error]
      exact ⟨rfl, ⟨_, ht.drop _, rfl⟩, rfl⟩
    · by_cases hi : Instruction.decode m.fetch = .stop
      · rw [hi]
        exact ⟨rfl, ⟨t, ht, rfl⟩, rfl⟩
      · rw [Machine.conclude_next _ hi, Machine.conclude_next _ hi]
        exact ⟨rfl, (hp.effect _ v).advance, rfl⟩

/-- Underflow is an endless supply of zeros. Take any process, at any streams, and put zeros below the
values of its stack: every run of the two gives the same answers and leaves the streams in the same
state, and the machines again differ at most by zeros at the bottom of the stack. -/
theorem underflow_is_zeros (m : Machine) (s : σ) (k n : Nat) :
    let run := steps f n ⟨m, s⟩
    let run' := steps f n ⟨m.withStack ⟨m.stack.values ++ List.replicate k 0⟩, s⟩
    run'.1 = run.1 ∧ run'.2.streams = run.2.streams ∧
      ∃ j ≤ k, run'.2.machine =
        run.2.machine.withStack ⟨run.2.machine.stack.values ++ List.replicate j 0⟩ := by
  have hp : (⟨m, s⟩ : Process σ).Padded k
      ⟨m.withStack ⟨m.stack.values ++ List.replicate k 0⟩, s⟩ :=
    ⟨⟨_, ⟨k, Nat.le_refl k, rfl⟩, rfl⟩, rfl⟩
  obtain ⟨ha, ⟨⟨t⟩, ⟨j, hj, ht⟩, hm⟩, hs⟩ := steps_of_step (Padded.step f) n hp
  refine ⟨ha, hs, j, hj, ?_⟩
  rw [hm, ← ht]

end Process

end Befunge
