import Befunge.Proofs.Store

/-!
# Machines on another program

A step sees the program of its machine in few ways: the size of the playfield, the character under the
machine, the one that `get` finds, and what the instruction asks of the outside. On a program that
shows the same in all of these, the machine makes the same step, and the same value is stored.
-/

namespace Befunge

/-- The error, reported with another program. -/
def StepError.onto (p : Program) : StepError → StepError
  | .alreadyExecuted => .alreadyExecuted
  | .crash c => .crash { c with program := p }

/-- The program after a value is stored on its playfield, if one is. -/
def Program.after (p : Program) : Option Put → Program
  | some w => { p with grid := p.stored w.x w.y w.v }
  | none => p

theorem Program.width_stored (p : Program) (x y v : Int64) :
    (p.stored x y v).width = p.grid.width := by
  unfold stored
  split
  · exact Grid.width_set _ _ _
  · rfl

theorem Program.height_stored (p : Program) (x y v : Int64) :
    (p.stored x y v).height = p.grid.height := by
  unfold stored
  split
  · exact Grid.height_set _ _ _
  · rfl

@[simp] theorem Program.width_after (p : Program) (w : Option Put) :
    (p.after w).grid.width = p.grid.width := by
  cases w with
  | none => rfl
  | some w => exact p.width_stored _ _ _

@[simp] theorem Program.height_after (p : Program) (w : Option Put) :
    (p.after w).grid.height = p.grid.height := by
  cases w with
  | none => rfl
  | some w => exact p.height_stored _ _ _

namespace Machine

/-- The machine put onto another program, with another seed on record. -/
def onto (m : Machine) (p : Program) (seed : UInt64) : Machine := { m with program := p, seed }

@[simp] theorem program_onto (m : Machine) (p : Program) (seed : UInt64) :
    (m.onto p seed).program = p := rfl

@[simp] theorem pos_onto (m : Machine) (p : Program) (seed : UInt64) :
    (m.onto p seed).pos = m.pos := rfl

@[simp] theorem stack_onto (m : Machine) (p : Program) (seed : UInt64) :
    (m.onto p seed).stack = m.stack := rfl

/-- What the instruction under the machine stores, if it is one that stores. -/
def stores? (m : Machine) : Option Put :=
  if Instruction.decode m.fetch = .put then some ⟨m.stack.peek 1, m.stack.peek 0, m.stack.peek 2⟩
  else none

/-- The next step of the machine, at streams in the state `s`, cannot tell the program from its own. -/
structure Indifferent {σ : Type} (f : Responder σ) (m : Machine) (s : σ) (p : Program) : Prop where
  width_eq : p.grid.width = m.program.grid.width
  height_eq : p.grid.height = m.program.grid.height
  undefinedReads_eq : p.options.undefinedReads = m.program.options.undefinedReads
  fetch_eq : m.done = false → p.grid.cell m.pos = m.fetch
  loaded_eq : m.Dispatches → Instruction.decode m.fetch = .get →
    p.loaded (m.stack.peek 1) (m.stack.peek 0) =
      m.program.loaded (m.stack.peek 1) (m.stack.peek 0)
  consult_eq : m.Dispatches →
    let i := Instruction.decode m.fetch
    let t := (f (.note (.dispatched m.pos i)) s).2
    (p.consult m.stack.peek i).run.run f t = (m.program.consult m.stack.peek i).run.run f t

variable {σ : Type} {f : Responder σ} {m : Machine} {s : σ} {p : Program}

theorem advance_onto (seed : UInt64) (hw : p.grid.width = m.program.grid.width)
    (hh : p.grid.height = m.program.grid.height) :
    (m.onto p seed).advance = m.advance.onto p seed := by
  simp only [advance, onto, hw, hh]

/-- The effect of an instruction on the program is the value that it stores. -/
theorem program_effect (m : Machine) (v : Option Int64) :
    (m.effect (Instruction.decode m.fetch) v).program = m.program.after m.stores? := by
  unfold stores?
  generalize Instruction.decode m.fetch = i
  cases i with
  | readInteger => cases v <;> rfl
  | _ => rfl

theorem Indifferent.effect_onto (h : m.Indifferent f s p) (hd : m.Dispatches) (seed : UInt64)
    (v : Option Int64) :
    (m.onto p seed).effect (Instruction.decode m.fetch) v =
      (m.effect (Instruction.decode m.fetch) v).onto (p.after m.stores?) seed := by
  have hloaded := h.loaded_eq hd
  unfold stores?
  generalize Instruction.decode m.fetch = i at hloaded ⊢
  cases i with
  | bridge =>
      simp only [effect, advance_onto seed h.width_eq h.height_eq]
      rfl
  | get =>
      simp only [effect, program_onto, stack_onto, hloaded rfl]
      rfl
  | readInteger =>
      cases v with
      | some v => rfl
      | none =>
          have hfailed : (m.onto p seed).failedRead = m.failedRead := by
            simp only [failedRead, options, program_onto, h.undefinedReads_eq]
            rfl
          simp only [effect, pushFailedRead, hfailed]
          rfl
  | _ => rfl

theorem Indifferent.run_conclude_onto (h : m.Indifferent f s p) (hd : m.Dispatches) (seed : UInt64)
    (r : Except Fault (Option Int64)) (t : σ) :
    let i := Instruction.decode m.fetch
    let l := (m.conclude i r).run f t
    ((m.onto p seed).conclude i r).run f t =
      ((l.1.1.mapError (.onto p),
        l.1.2.onto (p.after (if l.1.1.isOk then m.stores? else none)) seed), l.2) := by
  intro i l
  cases r with
  | error e =>
      simp only [l, run_conclude_error]
      rfl
  | ok v =>
      by_cases hi : i = .stop
      · have hstores : m.stores? = none := by
          rw [stores?, if_neg]
          exact fun hput => nomatch hi.symm.trans hput
        simp only [l, hi, conclude_stop, hstores, ite_self]
        rfl
      · have hprogram := m.program_effect v
        have hadvance : ((m.effect i v).onto (p.after m.stores?) seed).advance =
            (m.effect i v).advance.onto (p.after m.stores?) seed := by
          apply advance_onto
          · rw [hprogram, Program.width_after, Program.width_after, h.width_eq]
          · rw [hprogram, Program.height_after, Program.height_after, h.height_eq]
        simp only [l, conclude_next _ hi, i, h.effect_onto hd, hadvance, Dialogue.run_pure]
        rfl

end Machine

namespace Process

variable {σ : Type} (f : Responder σ) {x : Process σ} {p : Program}

def onto (x : Process σ) (p : Program) (seed : UInt64) : Process σ :=
  ⟨x.machine.onto p seed, x.streams⟩

theorem put?_of_not_dispatches (h : ¬ x.machine.Dispatches) : x.put? f = none := by
  simp [put?, h]

theorem put?_of_dispatches (h : x.machine.Dispatches) :
    x.put? f = if (x.step f).1.isOk then x.machine.stores? else none := by
  by_cases hok : (x.step f).1.isOk = true
  · simp [put?, Machine.stores?, h, hok]
  · simp [put?, hok]

theorem program_step (x : Process σ) :
    (x.step f).2.machine.program = x.machine.program.after (x.put? f) := by
  have hgrid := x.grid_step f
  have hoptions : (x.step f).2.machine.program.options = x.machine.program.options :=
    (x.stepped f).options_eq
  generalize (x.step f).2.machine.program = p at hgrid hoptions ⊢
  obtain ⟨g, o⟩ := p
  subst hgrid hoptions
  cases x.put? f with
  | none => rfl
  | some w => rfl

/-- The step that a process makes on a program which its machine is indifferent to. -/
theorem step_onto (h : x.machine.Indifferent f x.streams p) (seed : UInt64) :
    (x.onto p seed).step f =
      ((x.step f).1.mapError (.onto p), (x.step f).2.onto (p.after (x.put? f)) seed) := by
  have hfetch : x.machine.done = false → (x.machine.onto p seed).fetch = x.machine.fetch := h.fetch_eq
  rcases x.machine.step_trichotomy with hdone | ⟨hdone, hs, hq⟩ | hd
  · have hnot : ¬ x.machine.Dispatches := by simp [Machine.Dispatches, hdone]
    have hdone' : (x.machine.onto p seed).done = true := hdone
    rw [put?_of_not_dispatches f hnot]
    simp only [step, onto, Machine.run_step_of_done f hdone, Machine.run_step_of_done f hdone']
    rfl
  · have hnot : ¬ x.machine.Dispatches := by simp [Machine.Dispatches, hs, hq]
    have hdone' : (x.machine.onto p seed).done = false := hdone
    have hq' : (x.machine.onto p seed).fetch ≠ '"' := by
      rw [hfetch hdone]
      exact hq
    rw [put?_of_not_dispatches f hnot]
    simp only [step, onto, Machine.run_step_of_char f hdone hs hq,
      Machine.run_step_of_char f hdone' hs hq', hfetch hdone]
    have hpush : ∀ v, ((x.machine.onto p seed).push v).advance =
        (x.machine.push v).advance.onto p seed :=
      fun v => Machine.advance_onto (m := x.machine.push v) seed h.width_eq h.height_eq
    rw [hpush]
    rfl
  · have hd' : (x.machine.onto p seed).Dispatches := by
      refine ⟨hd.1, ?_⟩
      rw [hfetch hd.1]
      exact hd.2
    have hrun := Machine.run_step_of_dispatches f hd x.streams
    have hrun' := Machine.run_step_of_dispatches f hd' x.streams
    rw [hfetch hd.1] at hrun'
    simp only [Machine.program_onto, Machine.pos_onto, Machine.stack_onto] at hrun'
    -- From the note on, both have made the same requests and been given the same answers.
    rw [h.consult_eq hd] at hrun'
    simp only [h.run_conclude_onto hd] at hrun'
    rw [put?_of_dispatches f hd]
    simp only [step, onto, hrun, hrun']

end Process

end Befunge
