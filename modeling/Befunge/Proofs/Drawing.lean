import Befunge.Proofs.Exchange
import Befunge.Proofs.Reads

/-!
# When a machine draws

Two things draw a word from the random generator: choosing a direction at random, and, where the options
ask for it, standing in for an integer that could not be read. All else neither changes the generator nor
depends on it.
-/

namespace Befunge

namespace Generator

/-- The generator after `k` words are drawn. -/
def after (g : Generator) : Nat → Generator
  | 0 => g
  | k + 1 => (g.after k).next.2

/-- The word that is drawn after `k` others. -/
def output (g : Generator) (k : Nat) : UInt64 := (g.after k).next.1

theorem after_add (g : Generator) (j k : Nat) : g.after (j + k) = (g.after j).after k := by
  induction k with
  | zero => rfl
  | succ k ih => exact congrArg (·.next.2) ih

theorem getElem?_directionOf (w : UInt64) :
    [Direction.right, .down, .left, .up][(w >>> 62).toNat]? = some (directionOf w) := by
  have hlt : (w >>> 62).toNat < 4 := by
    have hw := w.toNat_lt
    rw [UInt64.toNat_shiftRight, Nat.shiftRight_eq_div_pow]
    show w.toNat / 4611686018427387904 < 4
    omega
  unfold directionOf
  generalize (w >>> 62).toNat = n at hlt
  match n, hlt with
  | 0, _ => rfl
  | 1, _ => rfl
  | 2, _ => rfl
  | 3, _ => rfl

end Generator

/-! ## Reading an integer -/

section

variable {σ : Type} (f : Responder σ) {p : Program} (peek : Nat → Int64)

/-- Unless stream errors are fatal, reading an integer asks for one line and takes what that holds. -/
theorem Program.consult_readInteger_lenient (hs : p.options.strictStreams = false) (s : σ) :
    ∃ t, (p.consult peek .readInteger).run.reads f s = [⟨.readLine, t⟩] ∧
      ((p.consult peek .readInteger).run.run f s).1 =
        .ok (Attempt.integerOf (f .readLine t).1).toOption := by
  obtain ⟨t, ht⟩ := Action.run_settle_lenient (f := f) hs (f (.flush .output) s).1
    (f (.flush .output) s).2
  rw [← Action.run_flush] at ht
  refine ⟨t, ?_, ?_⟩
  · rw [consult, Attempt.reads_recover, Attempt.readInteger_eq, Attempt.reads_bind,
      Attempt.reads_flush, ht]
    exact Attempt.reads_integerLine t
  · have hline : (Attempt.readInteger p.options).run.run f s =
        (Attempt.integerOf (f .readLine t).1, (f .readLine t).2) := by
      rw [Attempt.readInteger_eq, Attempt.run_bind, ht]
      simp only [Attempt.run_integerLine, Dialogue.run_map]
      rfl
    rw [consult, Attempt.run_recover, hline]
    cases Attempt.integerOf (f .readLine t).1 with
    | ok v => rfl
    | error e =>
        simp only [hs, Bool.false_eq_true, ↓reduceIte]
        rfl

theorem Program.consult_readInteger_strict (hs : p.options.strictStreams = true) (s : σ) :
    ((p.consult peek .readInteger).run.run f s).1 ≠ .ok none := by
  rw [consult, Attempt.run_recover]
  rcases (Attempt.readInteger p.options).run.run f s with ⟨e | v, t⟩
  · simp [hs]
  · simp

end

/-! ## Draws -/

/-- What a word is drawn for. -/
inductive Draw
  | direction
  /-- A value in place of an integer that could not be read. -/
  | integer
  deriving DecidableEq, Repr

namespace Process

variable {σ : Type} (f : Responder σ)

/-- The next step asks for a line and gets none that holds an integer. -/
def ReadFails (x : Process σ) : Prop :=
  ∃ a ∈ x.machine.step.reads f x.streams,
    a.request = .readLine ∧ (Attempt.integerOf (f .readLine a.streams).1).isOk = false

instance (x : Process σ) : Decidable (x.ReadFails f) :=
  inferInstanceAs (Decidable (∃ a ∈ _, _ ∧ _))

/-- What the next step draws a word for, if it draws one: it executes `?`, or it executes `&` with a read
that fails, while failed reads are undefined and stream errors are not fatal. -/
def draw? (x : Process σ) : Option Draw :=
  if x.machine.Dispatches then
    match Instruction.decode x.machine.fetch with
    | .random => some .direction
    | .readInteger =>
      if x.machine.options.undefinedReads ∧ ¬ x.machine.options.strictStreams ∧ x.ReadFails f then
        some .integer
      else none
    | _ => none
  else none

/-- The draws of a number of steps, in order. -/
def draws : Nat → Process σ → List Draw
  | 0, _ => []
  | n + 1, x => (x.draw? f).toList ++ draws n (x.step f).2

variable {f} {x : Process σ}

theorem draw?_eq_direction (h : x.draw? f = some .direction) :
    x.machine.Dispatches ∧ Instruction.decode x.machine.fetch = .random := by
  unfold draw? at h
  split at h
  · rename_i hd
    split at h
    · exact ⟨hd, ‹_›⟩
    · split at h <;> cases h
    · cases h
  · cases h

theorem draw?_eq_integer (h : x.draw? f = some .integer) :
    x.machine.Dispatches ∧ Instruction.decode x.machine.fetch = .readInteger ∧
      x.machine.options.undefinedReads = true ∧ x.machine.options.strictStreams = false ∧
      x.ReadFails f := by
  unfold draw? at h
  split at h
  · rename_i hd
    split at h
    · cases h
    · split at h
      · rename_i hi hread
        exact ⟨hd, hi, hread.1, by simpa using hread.2.1, hread.2.2⟩
      · cases h
    · cases h
  · cases h

/-- How the requests of the instruction under the machine go. -/
def consulted (f : Responder σ) (x : Process σ) : Except Fault (Option Int64) × σ :=
  let i := Instruction.decode x.machine.fetch
  (x.machine.program.consult x.machine.stack.peek i).run.run f
    (f (.note (.dispatched x.machine.pos i)) x.streams).2

theorem step_eq_of_dispatches (hd : x.machine.Dispatches) :
    x.step f =
      let i := Instruction.decode x.machine.fetch
      let r := (x.machine.conclude i (x.consulted f).1).run f (x.consulted f).2
      (r.1.1, ⟨r.1.2, r.2⟩) := by
  simp only [step, Machine.run_step_of_dispatches f hd]
  rfl

theorem consulted_eq_none_iff (hd : x.machine.Dispatches)
    (hi : Instruction.decode x.machine.fetch = .readInteger) :
    (x.consulted f).1 = .ok none ↔
      x.machine.options.strictStreams = false ∧ x.ReadFails f := by
  by_cases hs : x.machine.options.strictStreams = true
  · -- A fault comes back in place of no value.
    have hne : (x.consulted f).1 ≠ .ok none := by
      rw [consulted, hi]
      exact Program.consult_readInteger_strict f _ hs _
    simp [hne, hs]
  have hs : x.machine.options.strictStreams = false := Bool.eq_false_iff.mpr hs
  obtain ⟨t, hreads, hrun⟩ := Program.consult_readInteger_lenient f x.machine.stack.peek hs
    (f (.note (.dispatched x.machine.pos .readInteger)) x.streams).2
  have hstep : x.machine.step.reads f x.streams = [⟨.readLine, t⟩] := by
    rw [Machine.reads_step_of_dispatches hd, hi, hreads]
  have hresult : (x.consulted f).1 = .ok (Attempt.integerOf (f .readLine t).1).toOption := by
    rw [consulted, hi, hrun]
  simp only [ReadFails, hstep, List.mem_singleton, exists_eq_left, true_and, hresult, hs]
  cases Attempt.integerOf (f .readLine t).1 with
  | ok v => simp [Except.isOk, Except.toBool, Except.toOption]
  | error e => simp [Except.isOk, Except.toBool, Except.toOption]

/-! ## Steps that draw -/

theorem step_of_direction {g : Generator} {k : Nat} (hg : x.machine.generator = g.after k)
    (h : x.draw? f = some .direction) :
    ∃ d, [Direction.right, .down, .left, .up][(g.output k >>> 62).toNat]? = some d ∧
      (x.step f).1 = .ok .running ∧ (x.step f).2.machine =
        Machine.advance { x.machine with direction := d, generator := g.after (k + 1) } := by
  obtain ⟨hd, hi⟩ := draw?_eq_direction h
  have hresult : (x.consulted f).1 = .ok none := by
    rw [consulted, hi]
    rfl
  refine ⟨_, Generator.getElem?_directionOf _, ?_⟩
  have hconclude := x.machine.conclude_next (i := .random) (by decide) none
  simp only [step_eq_of_dispatches hd, hresult, hi, hconclude, Machine.effect, hg]
  exact ⟨rfl, rfl⟩

theorem step_of_integer {g : Generator} {k : Nat} (hg : x.machine.generator = g.after k)
    (h : x.draw? f = some .integer) :
    (x.step f).1 = .ok .running ∧ (x.step f).2.machine = Machine.advance
      ({ x.machine with generator := g.after (k + 1) }.push (g.output k).toInt64) := by
  obtain ⟨hd, hi, hu, hs, hfails⟩ := draw?_eq_integer h
  have hresult := (consulted_eq_none_iff hd hi).mpr ⟨hs, hfails⟩
  have hfailed : x.machine.failedRead = ((g.output k).toInt64, g.after (k + 1)) := by
    rw [Machine.failedRead, if_pos hu, hg]
    rfl
  have hconclude := x.machine.conclude_next (i := .readInteger) (by decide) none
  simp only [step_eq_of_dispatches hd, hresult, hi, hconclude, Machine.effect,
    Machine.pushFailedRead, hfailed]
  exact ⟨rfl, rfl⟩

end Process

/-! ## Steps that do not -/

namespace Machine

def withGenerator (m : Machine) (g : Generator) : Machine := { m with generator := g }

/-- The effect of an instruction that draws nothing neither changes the generator nor depends on it. -/
theorem effect_withGenerator (m : Machine) (g : Generator) {i : Instruction} {v : Option Int64}
    (hi : i ≠ .random) (hv : i = .readInteger → v = none → m.options.undefinedReads = false) :
    (m.withGenerator g).effect i v = (m.effect i v).withGenerator g := by
  cases i with
  | random => exact absurd rfl hi
  | readInteger =>
      cases v with
      | some v => rfl
      | none =>
          have hu := hv rfl rfl
          have hfailed : m.failedRead = (-1, m.generator) := if_neg (ne_true_of_eq_false hu)
          have hfailed' : (m.withGenerator g).failedRead = (-1, g) :=
            if_neg (ne_true_of_eq_false hu)
          simp only [effect, pushFailedRead, hfailed, hfailed']
          rfl
  | _ => rfl

theorem run_conclude_withGenerator {σ : Type} (m : Machine) (f : Responder σ) (g : Generator)
    {i : Instruction} {r : Except Fault (Option Int64)} (hi : i ≠ .random)
    (hv : i = .readInteger → r = .ok none → m.options.undefinedReads = false) (s : σ) :
    let l := (m.conclude i r).run f s
    ((m.withGenerator g).conclude i r).run f s =
      ((l.1.1, l.1.2.withGenerator g), l.2) := by
  intro l
  cases r with
  | error e =>
      simp only [l, run_conclude_error]
      rfl
  | ok v =>
      have heffect := m.effect_withGenerator g (v := v) hi fun hi' hv' => hv hi' (hv' ▸ rfl)
      by_cases hstop : i = .stop
      · subst hstop
        rfl
      · simp only [l, conclude_next _ hstop, heffect]
        rfl

end Machine

namespace Process

variable {σ : Type} {f : Responder σ} {x : Process σ}

def withGenerator (x : Process σ) (g : Generator) : Process σ :=
  ⟨x.machine.withGenerator g, x.streams⟩

/-- A step that draws nothing is the same with any generator, which it leaves alone. -/
theorem step_withGenerator (h : x.draw? f = none) (g : Generator) :
    (x.withGenerator g).step f = ((x.step f).1, (x.step f).2.withGenerator g) := by
  rcases x.machine.step_trichotomy with hdone | ⟨hdone, hs, hq⟩ | hd
  · have hdone' : (x.machine.withGenerator g).done = true := hdone
    simp only [step, withGenerator, Machine.run_step_of_done f hdone,
      Machine.run_step_of_done f hdone']
  · have hdone' : (x.machine.withGenerator g).done = false := hdone
    simp only [step, withGenerator, Machine.run_step_of_char f hdone hs hq,
      Machine.run_step_of_char (m := x.machine.withGenerator g) f hdone' hs hq]
    rfl
  · have hd' : (x.withGenerator g).machine.Dispatches := hd
    have hi : Instruction.decode x.machine.fetch ≠ .random := by
      intro hi
      simp [draw?, hd, hi] at h
    have hv : Instruction.decode x.machine.fetch = .readInteger → (x.consulted f).1 = .ok none →
        x.machine.options.undefinedReads = false := by
      intro hi hresult
      -- A read that fails draws, unless failed reads have the fixed value.
      obtain ⟨hs, hfails⟩ := (consulted_eq_none_iff hd hi).mp hresult
      simpa [draw?, hd, hi, hs, hfails] using h
    have hconclude := x.machine.run_conclude_withGenerator f g hi hv (x.consulted f).2
    rw [step_eq_of_dispatches hd, step_eq_of_dispatches hd']
    exact congrArg (fun r => (r.1.1, Process.mk r.1.2 r.2)) hconclude

/-! ## Runs -/

theorem generator_step_of_none (h : x.draw? f = none) :
    (x.step f).2.machine.generator = x.machine.generator := by
  have hstep := step_withGenerator h x.machine.generator
  exact congrArg (·.2.machine.generator) hstep

theorem generator_step (x : Process σ) :
    (x.step f).2.machine.generator =
      x.machine.generator.after (x.draw? f).toList.length := by
  match h : x.draw? f with
  | some .direction =>
      obtain ⟨d, -, -, hmachine⟩ := step_of_direction (k := 0) rfl h
      rw [hmachine]
      rfl
  | some .integer =>
      rw [(step_of_integer (k := 0) rfl h).2]
      rfl
  | none => exact generator_step_of_none h

/-- After a run, the generator has given one word for each draw of it. -/
theorem generator_steps (n : Nat) (x : Process σ) :
    (x.steps f n).2.machine.generator = x.machine.generator.after (x.draws f n).length := by
  induction n generalizing x with
  | zero => rfl
  | succ n ih =>
      rw [steps, draws, List.length_append, Generator.after_add, ← generator_step, ← ih]

end Process

/-! ## Another seed -/

def Program.reseeded (p : Program) (seed : UInt64) : Program :=
  { p with options := { p.options with seed } }

def StepError.reseeded (seed : UInt64) : StepError → StepError
  | .alreadyExecuted => .alreadyExecuted
  | .crash c => .crash { c with program := c.program.reseeded seed }

theorem Program.after_reseeded (p : Program) (seed : UInt64) (w : Option Put) :
    (p.reseeded seed).after w = (p.after w).reseeded seed := by
  cases w with
  | none => rfl
  | some w => rfl

/-- The machine as it would be under another seed in the options, another seed on record and with another
generator. -/
def Machine.reseeded (m : Machine) (option seed : UInt64) (g : Generator) : Machine :=
  { m with program := m.program.reseeded option, seed, generator := g }

theorem Machine.indifferent_reseeded {σ : Type} (f : Responder σ) (m : Machine) (s : σ)
    (seed : UInt64) : m.Indifferent f s (m.program.reseeded seed) where
  width_eq := rfl
  height_eq := rfl
  undefinedReads_eq := rfl
  fetch_eq _ := rfl
  loaded_eq _ _ := rfl
  consult_eq _ := rfl

namespace Process

variable {σ : Type} {f : Responder σ} {x : Process σ}

def reseeded (x : Process σ) (option seed : UInt64) (g : Generator) : Process σ :=
  ⟨x.machine.reseeded option seed g, x.streams⟩

theorem draw?_reseeded (x : Process σ) (option seed : UInt64) (g : Generator) :
    (x.reseeded option seed g).draw? f = x.draw? f := by
  have hreads : (x.reseeded option seed g).machine.step.reads f x.streams =
      x.machine.step.reads f x.streams := by
    by_cases hd : x.machine.Dispatches
    · have hd' : (x.reseeded option seed g).machine.Dispatches := hd
      rw [Machine.reads_step_of_dispatches hd, Machine.reads_step_of_dispatches hd']
      rfl
    · have hd' : ¬ (x.reseeded option seed g).machine.Dispatches := hd
      rw [Machine.reads_step_of_not_dispatches hd, Machine.reads_step_of_not_dispatches hd']
  have hfails : (x.reseeded option seed g).ReadFails f ↔ x.ReadFails f := by
    unfold ReadFails
    rw [← hreads]
    rfl
  unfold draw?
  simp only [hfails]
  rfl

theorem mapError_onto_reseeded (x : Process σ) (seed : UInt64) :
    (x.step f).1.mapError (StepError.onto (x.machine.program.reseeded seed)) =
      (x.step f).1.mapError (StepError.reseeded seed) := by
  have h := x.stepped f
  generalize (x.step f).1 = r, (x.step f).2.machine = m at h ⊢
  cases h with
  | _ => rfl

theorem step_reseeded (h : x.draw? f = none) (option seed : UInt64) (g : Generator) :
    (x.reseeded option seed g).step f =
      ((x.step f).1.mapError (.reseeded option), (x.step f).2.reseeded option seed g) := by
  have hdraw : (x.onto (x.machine.program.reseeded option) seed).draw? f = none :=
    (x.draw?_reseeded option seed x.machine.generator).trans h
  calc
    _ = ((x.onto (x.machine.program.reseeded option) seed).withGenerator g).step f := rfl
    _ = _ := by
      rw [step_withGenerator hdraw, step_onto f (x.machine.indifferent_reseeded f x.streams option),
        mapError_onto_reseeded, Program.after_reseeded, ← program_step]
      rfl

/-- A run that draws nothing is the same under any seed. -/
theorem steps_reseeded {n : Nat} (h : x.draws f n = []) (option seed : UInt64) (g : Generator) :
    (x.reseeded option seed g).steps f n =
      ((x.steps f n).1.map (·.mapError (.reseeded option)),
        (x.steps f n).2.reseeded option seed g) := by
  induction n generalizing x with
  | zero => rfl
  | succ n ih =>
      obtain ⟨hnow, hlater⟩ := List.append_eq_nil_iff.mp h
      have hnow : x.draw? f = none := Option.toList_eq_nil_iff.mp hnow
      simp only [steps, step_reseeded hnow, ih hlater, List.map_cons]

/-- Words are drawn exactly when the language says so, each step that draws taking the next one of the
seed's. Until something is drawn, the run is the same under every other seed. -/
theorem draws_are_in_order {σ : Type} (f : Responder σ) (p : Program) (clock : UInt64) (s : σ) (n : Nat)
    (hseed : p.options.seed ≠ 0) :
    let g := Generator.ofSeed p.options.seed
    let x := start p clock s
    let y := (x.steps f n).2
    let k := (x.draws f n).length
    y.machine.generator = g.after k ∧
    (y.draw? f = some .direction →
      ∃ d, [Direction.right, .down, .left, .up][(g.output k >>> 62).toNat]? = some d ∧
        (y.step f).1 = .ok .running ∧ (y.step f).2.machine =
          Machine.advance { y.machine with direction := d, generator := g.after (k + 1) }) ∧
    (y.draw? f = some .integer →
      (y.step f).1 = .ok .running ∧ (y.step f).2.machine =
        Machine.advance ({ y.machine with generator := g.after (k + 1) }.push
          (g.output k).toInt64)) ∧
    (y.draw? f = none → (y.step f).2.machine.generator = g.after k) ∧
    (∀ {τ : Type} (h : Responder τ) (t : τ) (l : Nat),
      ((y.fork t).steps h l).2.machine.generator =
        g.after (k + ((y.fork t).draws h l).length)) ∧
    (x.draws f n = [] → ∀ seed clock',
      let x' := start (p.reseeded seed) clock' s
      x'.steps f n = ((x.steps f n).1.map (·.mapError (.reseeded seed)),
        y.reseeded seed x'.machine.seed x'.machine.generator) ∧
      (x'.steps f n).2.draw? f = y.draw? f) := by
  intro g x y k
  have hstart : x.machine.generator = g := by
    show Generator.ofSeed (if p.options.seed = 0 then clock else p.options.seed) = g
    rw [if_neg hseed]
  have hgenerator : y.machine.generator = g.after k := by
    rw [← hstart]
    exact generator_steps n x
  refine ⟨hgenerator, step_of_direction hgenerator, step_of_integer hgenerator,
    fun h => (generator_step_of_none h).trans hgenerator, ?_, ?_⟩
  · intro τ h t l
    have hfork : (y.fork t).machine.generator = g.after k := hgenerator
    rw [generator_steps, hfork, Generator.after_add]
  · intro hnone seed clock' x'
    have hx' : x' = x.reseeded seed x'.machine.seed x'.machine.generator := rfl
    have hsteps := steps_reseeded hnone seed x'.machine.seed x'.machine.generator
    rw [← hx'] at hsteps
    refine ⟨hsteps, ?_⟩
    rw [hsteps]
    exact y.draw?_reseeded seed _ _

/-- A program that fails to read a number and then goes in a random direction. -/
theorem draws_are_in_order_two :
    let p : Program := ⟨.ofRows 80 25 ["5&?@".toList], { undefinedReads := true, seed := 7 }⟩
    p.options.seed ≠ 0 ∧
      (start p 1 ({} : Console)).draws Console.answer 3 = [.integer, .direction] ∧
      ((start p 1 ({} : Console)).steps Console.answer 3).2.machine.generator =
        (Generator.ofSeed p.options.seed).after 2 ∧
      ((start p 1 ({} : Console)).steps Console.answer 3).2.machine.stack.toList =
        [5, -570703542245633307] ∧
      ((start p 1 ({} : Console)).steps Console.answer 3).2.machine.direction = .down := by
  intro p
  have hrun : ∀ (p : Program) (c : Console), p.options.seed ≠ 0 →
      (start p 1 c).draws Console.answer 3 = [.integer, .direction] →
      ((start p 1 c).steps Console.answer 3).2.machine.generator =
        (Generator.ofSeed p.options.seed).after 2 := by
    intro p c hseed hdraws
    have h := (draws_are_in_order Console.answer p 1 c 3 hseed).1
    rw [hdraws] at h
    exact h
  have hseed : p.options.seed ≠ 0 := by decide
  have hdraws : (start p 1 ({} : Console)).draws Console.answer 3 = [.integer, .direction] := by
    decide +kernel
  exact ⟨hseed, hdraws, hrun p {} hseed hdraws, by decide +kernel, by decide +kernel⟩

end Process

end Befunge
