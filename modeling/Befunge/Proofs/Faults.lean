import Befunge.Proofs.Actions
import Befunge.Proofs.Runs

/-!
# When a program faults

A step ends in a crash exactly if the instruction is refused, or if stream errors are fatal and one of
its actions fails, with the fault of the first that does.
-/

namespace Befunge

open Befunge.Action

/-- Of the actions, performed one after another, the first that fails does so with this fault. -/
inductive Action.FirstFails {σ : Type} (f : Responder σ) (unicode : Bool) :
    List Action → σ → Fault → Prop
  | here {a : Action} {as : List Action} {s : σ} {e : Fault} (h : a.Fails f unicode s e) :
      FirstFails f unicode (a :: as) s e
  | later {a : Action} {as : List Action} {s t : σ} {e : Fault} (h : a.Succeeds f unicode s t)
      (hlater : FirstFails f unicode as t e) : FirstFails f unicode (a :: as) s e

section

variable {σ : Type} {f : Responder σ} {s : σ} {e : Fault}

theorem Action.FirstFails.run_performAll {o : Options} (hs : o.strictStreams = true)
    {as : List Action} (h : FirstFails f o.unicode as s e) :
    ∃ t, (performAll o as).run.run f s = (.error e, t) := by
  induction h with
  | here h =>
      obtain ⟨t, ht⟩ := h.run_perform hs
      exact ⟨t, by simp only [performAll, Attempt.run_bind, ht]⟩
  | later h _ ih =>
      obtain ⟨v, hv⟩ := h.run_perform
      obtain ⟨t, ht⟩ := ih
      exact ⟨t, by simp only [performAll, Attempt.run_bind, hv, ht]⟩

theorem Action.run_performAll_lenient {o : Options} (hs : o.strictStreams = false)
    (as : List Action) (s : σ) : ∃ v t, (performAll o as).run.run f s = (.ok v, t) := by
  induction as generalizing s with
  | nil => exact ⟨none, s, rfl⟩
  | cons a as ih =>
      obtain ⟨v, t, hv⟩ := run_perform_lenient (f := f) hs a s
      obtain ⟨w, r, hw⟩ := ih t
      exact ⟨w.or v, r, by simp only [performAll, Attempt.run_bind, hv, hw]; rfl⟩

/-- The actions end in a fault exactly if stream errors are fatal and one of them fails. -/
theorem Action.run_performAll_error_iff {o : Options} {as : List Action} :
    (∃ t, (performAll o as).run.run f s = (.error e, t)) ↔
      o.strictStreams = true ∧ FirstFails f o.unicode as s e := by
  constructor
  · rintro ⟨t, ht⟩
    cases hs : o.strictStreams with
    | false =>
        obtain ⟨v, r, hv⟩ := run_performAll_lenient (f := f) hs as s
        rw [hv] at ht
        cases ht
    | true =>
        refine ⟨rfl, ?_⟩
        induction as generalizing s with
        | nil => cases ht
        | cons a as ih =>
            rcases fails_or_succeeds (f := f) (u := o.unicode) a s with ⟨e', he⟩ | ⟨r, hr⟩
            · obtain ⟨r, hr⟩ := he.run_perform hs
              simp only [performAll, Attempt.run_bind, hr] at ht
              cases ht
              exact .here he
            · obtain ⟨v, hv⟩ := hr.run_perform
              simp only [performAll, Attempt.run_bind, hv] at ht
              refine .later hr (ih ?_)
              generalize (performAll o as).run.run f r = x at ht ⊢
              obtain ⟨e' | w, q⟩ := x
              · exact ht
              · cases ht
  · rintro ⟨hs, h⟩
    exact h.run_performAll hs

/-- What an instruction asks of the outside ends in a fault exactly if it is refused, or if stream errors
are fatal and one of its actions fails. -/
theorem Program.run_consult_error_iff {p : Program} {peek : Nat → Int64} {i : Instruction} :
    (∃ t, (p.consult peek i).run.run f s = (.error e, t)) ↔
      p.Refuses peek i e ∨
        (p.options.strictStreams = true ∧ FirstFails f p.options.unicode (p.actions peek i) s e) := by
  by_cases h : ∃ e, p.Refuses peek i e
  · obtain ⟨e', he⟩ := h
    rw [consult_of_refuses he, actions_of_refuses he]
    constructor
    · rintro ⟨t, ht⟩
      cases ht
      exact .inl he
    · rintro (h | ⟨-, ⟨⟩⟩)
      have : (throw e' : Attempt (Option Int64)) = throw e := by
        rw [← consult_of_refuses he, ← consult_of_refuses h]
      exact ⟨s, by rw [this]; rfl⟩
  · have hn : ∀ e, ¬ p.Refuses peek i e := fun e he => h ⟨e, he⟩
    have hmap : (∃ t, (p.consult peek i).run.run f s = (.error e, t)) ↔
        ∃ t, (performAll p.options (p.actions peek i)).run.run f s = (.error e, t) := by
      rw [consult_of_not_refuses hn, ExceptT.run_map, Dialogue.run_map]
      generalize (performAll _ _).run.run f s = x
      obtain ⟨e' | v, r⟩ := x
      · exact Iff.rfl
      · constructor <;> rintro ⟨t, ⟨⟩⟩
    rw [hmap, run_performAll_error_iff]
    exact ⟨.inr, fun h => h.resolve_left (hn e)⟩

end

namespace Machine

variable {σ : Type} {f : Responder σ} {m : Machine}

/-- A step crashes exactly if what its instruction asks of the outside ends in a fault. -/
theorem run_step_crash_iff (h : m.Dispatches) (s : σ) (e : Fault) :
    let i := Instruction.decode m.fetch
    (m.step.run f s).1.1 = .error (.crash (m.report e)) ↔
      ∃ t, (m.program.consult m.stack.peek i).run.run f (f (.note (.dispatched m.pos i)) s).2 =
        (.error e, t) := by
  intro i
  rw [run_step_of_dispatches f h]
  simp only
  generalize (m.program.consult m.stack.peek _).run.run f _ = x
  obtain ⟨e' | v, t⟩ := x
  · simp only [run_conclude_error]
    constructor
    · intro hc
      obtain rfl : e' = e := congrArg Crash.cause (StepError.crash.inj (Except.error.inj hc))
      exact ⟨t, rfl⟩
    · rintro ⟨_, ⟨⟩⟩
      rfl
  · constructor
    · intro hc
      by_cases hi : Instruction.decode m.fetch = .stop
      · rw [hi, conclude_stop] at hc
        cases hc
      · rw [conclude_next m hi] at hc
        cases hc
    · rintro ⟨_, ⟨⟩⟩

/-- An instruction that is refused asks nothing of the streams: they see no more than the last flush. -/
theorem run_step_of_refuses (h : m.Dispatches) {e : Fault}
    (he : m.program.Refuses m.stack.peek (Instruction.decode m.fetch) e) (s : σ) :
    m.step.run f s =
      let i := Instruction.decode m.fetch
      let t := (f (.note (.dispatched m.pos i)) s).2
      ((.error (.crash (m.report e)), m.faulted i),
        (f (.note (.crashed m.pos e)) (lastFlush.run f t).2).2) := by
  rw [run_step_of_dispatches f h]
  simp only [Program.consult_of_refuses he]
  exact run_conclude_error f _ e _

end Machine

/-- A step crashes exactly if its instruction is refused for its operands, or stream errors are fatal
and one of its actions fails; the fault is that of the refusal or of the first such action. What is
refused asks nothing of the streams before they are flushed for the last time. -/
theorem Process.step_crashes_iff {σ : Type} (f : Responder σ) (x : Process σ) (e : Fault) :
    let m := x.machine
    let i := Instruction.decode m.fetch
    let s := (f (.note (.dispatched m.pos i)) x.streams).2
    ((∃ c, (x.step f).1 = .error (.crash c) ∧ c.cause = e) ↔
      m.done = false ∧ ¬ (m.stringMode = true ∧ m.fetch ≠ '"') ∧
        (m.program.Refuses m.stack.peek i e ∨
          (m.options.strictStreams = true ∧
            FirstFails f m.options.unicode (m.program.actions m.stack.peek i) s e))) ∧
    (m.done = false → ¬ (m.stringMode = true ∧ m.fetch ≠ '"') →
      m.program.Refuses m.stack.peek i e →
      (x.step f).2.streams = (f (.note (.crashed m.pos e)) (Machine.lastFlush.run f s).2).2) := by
  intro m i s
  refine ⟨?_, fun hd hs he => congrArg Prod.snd (Machine.run_step_of_refuses ⟨hd, hs⟩ he x.streams)⟩
  -- Whatever crashes does so at its own position, with its own program.
  have hcrash : (∃ c, (x.step f).1 = .error (.crash c) ∧ c.cause = e) ↔
      m.Dispatches ∧ (x.step f).1 = .error (.crash (m.report e)) := by
    constructor
    · rintro ⟨c, hc, rfl⟩
      have hstep := x.stepped f
      rw [hc] at hstep ⊢
      generalize (x.step f).2.machine = m' at hstep
      cases hstep with
      | fault h e => exact ⟨h, rfl⟩
    · rintro ⟨-, hc⟩
      exact ⟨_, hc, rfl⟩
  rw [hcrash, ← and_assoc]
  refine and_congr_right fun h => ?_
  exact (Machine.run_step_crash_iff h x.streams e).trans Program.run_consult_error_iff

/-- A program that is to write the character with number -1. -/
theorem Process.step_crashes_iff_negative :
    let p : Program := ⟨.ofRows 80 25 ["01-,@".toList], { unicode := true }⟩
    let x := ((start p 1 ({} : Console)).steps Console.answer 3).2
    x.machine.done = false ∧ Instruction.decode x.machine.fetch = .writeChar ∧
      (∃ c, (x.step Console.answer).1 = .error (.crash c) ∧ c.cause = .notACharacter (-1)) ∧
      (x.step Console.answer).2.streams.output.data = #[] := by
  intro p x
  have hd : x.machine.done = false := by decide +kernel
  have hs : ¬ (x.machine.stringMode = true ∧ x.machine.fetch ≠ '"') := by decide +kernel
  have hi : Instruction.decode x.machine.fetch = .writeChar := by decide +kernel
  have hv : x.machine.stack.peek 0 = -1 := by decide +kernel
  have hr : x.machine.program.Refuses x.machine.stack.peek (Instruction.decode x.machine.fetch)
      (.notACharacter (-1)) := by
    rw [hi, ← hv]
    exact .writeChar (by decide +kernel) (by rw [hv]; decide)
  obtain ⟨hiff, hstreams⟩ := step_crashes_iff Console.answer x (.notACharacter (-1))
  refine ⟨hd, hi, hiff.mpr ⟨hd, hs, .inl hr⟩, ?_⟩
  rw [hstreams hd hs hr]
  decide +kernel

end Befunge
