import Befunge.Proofs.Drivers
import Befunge.Proofs.Faults

/-!
# Faults are atomic

An instruction that faults has taken its operands and done nothing else. What is reported of it is its
own place and the program as it stands, and the process makes no further step.
-/

namespace Befunge

/-- The number of values that an instruction has taken when it faults; `none` if it never does. -/
def Instruction.taken? : Instruction → Option Nat
  | .put => some 3
  | .divide | .remainder | .get => some 2
  | .writeInteger | .writeChar => some 1
  | .readInteger | .readChar | .stop | .unknown _ => some 0
  | _ => none

theorem Stack.toList_drop (s : Stack) (k : Nat) :
    (s.drop k).toList = s.toList.take (s.depth - k) := by
  simp only [toList, drop, depth, List.reverse_drop]

theorem Program.taken?_of_error {σ : Type} {f : Responder σ} {s : σ} {p : Program}
    {peek : Nat → Int64} {i : Instruction} {e : Fault}
    (h : ∃ t, (p.consult peek i).run.run f s = (.error e, t)) : i.taken? = some i.arity := by
  obtain ⟨t, h⟩ := h
  cases i with
  | divide => rfl
  | remainder => rfl
  | writeInteger => rfl
  | writeChar => rfl
  | put => rfl
  | get => rfl
  | readInteger => rfl
  | readChar => rfl
  | stop => rfl
  | unknown c => rfl
  | _ => cases h

/-- A step executes the instruction and ends on the machine that its handler leaves. -/
theorem Machine.run_step_of_execute {σ : Type} {f : Responder σ} {m m' : Machine}
    {r : Except Fault Flow} {s t : σ} (h : m.Dispatches)
    (hexecute : ((Handler.execute m.options (Instruction.decode m.fetch)).run.run m).run f
      (f (.note (.dispatched m.pos (Instruction.decode m.fetch))) s).2 = ((r, m'), t)) :
    m.step.run f s = (m'.finish r).run f t := by
  obtain ⟨hd, hs⟩ := h
  have hstep : m.step = m.dispatch := by simp only [step, hd, hs, Bool.false_eq_true, ↓reduceIte]
  rw [hstep, dispatch, Dialogue.run_bind, Dialogue.run_bind]
  exact congrArg (fun y => (Machine.finish y.1.2 y.1.1).run f y.2) hexecute

namespace Process

variable {σ : Type} {f : Responder σ} {x : Process σ}

/-! ## After the end -/

theorem step_of_done (h : x.machine.done = true) : x.step f = (.error .alreadyExecuted, x) := by
  rw [step, Machine.run_step_of_done f h]

theorem steps_of_done (h : x.machine.done = true) (n : Nat) :
    x.steps f n = (List.replicate n (.error .alreadyExecuted), x) := by
  induction n with
  | zero => rfl
  | succ n ih =>
      simp only [steps, step_of_done h, ih]
      rfl

theorem exec_of_done (h : x.machine.done = true) (fuel : Nat) :
    x.exec f (fuel + 1) = (some (.error .alreadyExecuted), x) := by
  have hhalts : HaltsAt f 1 (.error .alreadyExecuted) x :=
    haltsAt_one_iff.mpr ⟨by rw [step_of_done h], nofun⟩
  have hexec := hhalts.exec_after hhalts.pos (fuel + 1)
  rw [if_pos (by omega)] at hexec
  simp only [steps_of_done h] at hexec
  exact hexec

/-! ## Faults -/

/-- A crash is a fault of the instruction under the machine. What is reported, and what is left to stop,
is the machine as the handler of the instruction has left it. -/
theorem exists_fault_of_crash {c : Crash} (h : (x.step f).1 = .error (.crash c)) :
    let m := x.machine
    let i := Instruction.decode m.fetch
    m.Dispatches ∧ ∃ e m' t,
      ((Handler.execute m.options i).run.run m).run f (f (.note (.dispatched m.pos i)) x.streams).2 =
        ((.error e, m'), t) ∧
      c = m'.report e ∧ (x.step f).2.machine = m'.stopped := by
  intro m i
  rcases m.step_trichotomy with hd | ⟨hd, hs, hq⟩ | hd
  · rw [step, Machine.run_step_of_done f hd] at h
    cases h
  · rw [step, Machine.run_step_of_char f hd hs hq] at h
    cases h
  · refine ⟨hd, ?_⟩
    rcases hexecute : ((Handler.execute m.options i).run.run m).run f
      (f (.note (.dispatched m.pos i)) x.streams).2 with ⟨⟨r, m'⟩, t⟩
    rw [step, Machine.run_step_of_execute hd hexecute] at h ⊢
    cases r with
    | error e =>
        rw [Machine.run_finish_error] at h ⊢
        exact ⟨e, m', t, rfl, (StepError.crash.inj (Except.error.inj h)).symm, rfl⟩
    | ok flow =>
        cases flow with
        | next => cases h
        | stop => cases h

/-- What a crash reports, and the machine that it leaves. -/
theorem step_crash {c : Crash} (h : (x.step f).1 = .error (.crash c)) :
    let m := x.machine
    let i := Instruction.decode m.fetch
    c = m.report c.cause ∧ (x.step f).2.machine = (m.withStack (m.stack.drop i.arity)).stopped ∧
      i.taken? = some i.arity := by
  intro m i
  obtain ⟨-, e, m', t, hexecute, rfl, hleft⟩ := exists_fault_of_crash h
  obtain ⟨rfl, hconsult⟩ := Handler.execute_fault hexecute
  exact ⟨rfl, hleft, Program.taken?_of_error ⟨t, hconsult⟩⟩

/-- A fault is atomic but for the operands that it takes: the machine is done, exactly the operands of
its instruction are gone from the stack, as far as they were there, and all else is as it was. The report
names the place of the instruction and the program as it was and is. No later call changes anything. -/
theorem fault_is_atomic {c : Crash} (h : (x.step f).1 = .error (.crash c)) :
    let m := x.machine
    let y := (x.step f).2
    let m' := y.machine
    (m'.pos = m.pos ∧ m'.direction = m.direction ∧ m'.stringMode = m.stringMode ∧
      m'.program = m.program ∧ m'.seed = m.seed ∧ m'.generator = m.generator ∧ m'.done = true) ∧
    (∃ k, (Instruction.decode m.fetch).taken? = some k ∧
      m'.stack.toList = m.stack.toList.take (m.stack.depth - k)) ∧
    (c.pos = m.pos ∧ c.program = m.program ∧ c.program = m'.program ∧
      c.message = c.cause.message ∧
      c.text = s!"runtime error at ({m.pos.x}, {m.pos.y}): {c.cause.message}") ∧
    (∀ n, y.steps f n = (List.replicate n (.error .alreadyExecuted), y)) ∧
    ∀ fuel, y.exec f (fuel + 1) = (some (.error .alreadyExecuted), y) := by
  intro m y m'
  obtain ⟨hc, hm', htaken⟩ := step_crash h
  change m' = _ at hm'
  have hdone : m'.done = true := by rw [hm']; rfl
  refine ⟨?_, ⟨_, htaken, ?_⟩, ?_, steps_of_done hdone, exec_of_done hdone⟩
  · rw [hm']
    exact ⟨rfl, rfl, rfl, rfl, rfl, rfl, rfl⟩
  · rw [hm']
    exact m.stack.toList_drop _
  · rw [hm', hc]
    exact ⟨rfl, rfl, rfl, rfl, rfl⟩

/-- A program that is to store, in Unicode mode, a value that is no character. -/
theorem fault_is_atomic_store :
    let p : Program := ⟨.ofRows 80 25 ["7801-00p@".toList], { unicode := true }⟩
    let x := ((start p 1 ({} : Console)).steps Console.answer 7).2
    let y := (x.step Console.answer).2
    ∃ c, (x.step Console.answer).1 = .error (.crash c) ∧ c.pos = ⟨7, 0⟩ ∧
      x.machine.stack.toList = [7, 8, -1, 0, 0] ∧ y.machine.stack.toList = [7, 8] ∧
      y.machine.program = x.machine.program ∧
      y.exec Console.answer 1 = (some (.error .alreadyExecuted), y) := by
  intro p x y
  obtain ⟨c, hc⟩ : ∃ c, (x.step Console.answer).1 = .error (.crash c) := by
    have hdone : x.machine.done = false := by decide +kernel
    have herror : (x.step Console.answer).1.isOk = false := by decide +kernel
    have hstep := x.stepped Console.answer
    generalize (x.step Console.answer).1 = r, (x.step Console.answer).2.machine = m' at hstep herror
    cases hstep with
    | done h => rw [hdone] at h; cases h
    | fault _ e => exact ⟨_, rfl⟩
    | _ => cases herror
  have hfetch : x.machine.fetch = 'p' := by decide +kernel
  have hpos : x.machine.pos = ⟨7, 0⟩ := by decide +kernel
  have hstack : x.machine.stack.toList = [7, 8, -1, 0, 0] := by decide +kernel
  have hdepth : x.machine.stack.depth = 5 := by decide +kernel
  obtain ⟨⟨-, -, -, hprogram, -⟩, ⟨k, hk, htaken⟩, ⟨hplace, -⟩, -, hexec⟩ := fault_is_atomic hc
  obtain rfl : 3 = k := by
    rw [hfetch] at hk
    exact Option.some.inj hk
  refine ⟨c, hc, hplace.trans hpos, hstack, ?_, hprogram, hexec 0⟩
  rw [htaken, hstack, hdepth]
  rfl

end Process

end Befunge
