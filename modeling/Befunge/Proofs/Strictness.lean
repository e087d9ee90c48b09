import Befunge.Proofs.Coupling
import Befunge.Proofs.Runs

/-!
# Strict options only cut runs short

Dropping strict rules from the options changes nothing before the first fault: up to there the two
machines give the same answers and go through the same states, at the same streams.
-/

namespace Befunge

/-- The strict rules that are to be dropped. -/
structure Relaxation where
  streams : Bool
  bounds : Bool
  division : Bool
  unknown : Bool

/-- The options without some of their strict rules. -/
def Options.relax (o : Options) (r : Relaxation) : Options :=
  { o with
    strictStreams := o.strictStreams && !r.streams
    strictBounds := o.strictBounds && !r.bounds
    strictDivision := o.strictDivision && !r.division
    ignoreUnknown := o.ignoreUnknown || r.unknown }

@[simp] theorem Options.strictStreams_relax (o : Options) (r : Relaxation) :
    (o.relax r).strictStreams = (o.strictStreams && !r.streams) := rfl

@[simp] theorem Options.strictBounds_relax (o : Options) (r : Relaxation) :
    (o.relax r).strictBounds = (o.strictBounds && !r.bounds) := rfl

@[simp] theorem Options.strictDivision_relax (o : Options) (r : Relaxation) :
    (o.relax r).strictDivision = (o.strictDivision && !r.division) := rfl

@[simp] theorem Options.ignoreUnknown_relax (o : Options) (r : Relaxation) :
    (o.relax r).ignoreUnknown = (o.ignoreUnknown || r.unknown) := rfl

def Program.relax (p : Program) (r : Relaxation) : Program := ⟨p.grid, p.options.relax r⟩

@[simp] theorem Program.grid_relax (p : Program) (r : Relaxation) : (p.relax r).grid = p.grid := rfl

@[simp] theorem Program.options_relax (p : Program) (r : Relaxation) :
    (p.relax r).options = p.options.relax r := rfl

def Machine.relax (m : Machine) (r : Relaxation) : Machine := { m with program := m.program.relax r }

@[simp] theorem Machine.program_relax (m : Machine) (r : Relaxation) :
    (m.relax r).program = m.program.relax r := rfl

@[simp] theorem Machine.pos_relax (m : Machine) (r : Relaxation) : (m.relax r).pos = m.pos := rfl

@[simp] theorem Machine.stack_relax (m : Machine) (r : Relaxation) : (m.relax r).stack = m.stack :=
  rfl

@[simp] theorem Machine.fetch_relax (m : Machine) (r : Relaxation) : (m.relax r).fetch = m.fetch :=
  rfl

def Process.relax {σ : Type} (x : Process σ) (r : Relaxation) : Process σ :=
  ⟨x.machine.relax r, x.streams⟩

/-! ## Requests -/

namespace Attempt

variable {α β σ : Type} {f : Responder σ} {c : Prop}

/-- `y` runs as `x` does, unless `c` holds and `x` faults. -/
def Cuts (f : Responder σ) (c : Prop) (x y : Attempt α) : Prop :=
  ∀ s, (c ∧ ∃ e t, x.run.run f s = (.error e, t)) ∨ y.run.run f s = x.run.run f s

theorem Cuts.refl (x : Attempt α) : Cuts f c x x := fun _ => .inr rfl

theorem Cuts.weaken {x y : Attempt α} (h : Cuts f c x y) : Cuts f True x y :=
  fun s => (h s).imp_left fun ⟨_, he⟩ => ⟨trivial, he⟩

theorem Cuts.throw (hc : c) (e : Fault) (y : Attempt α) : Cuts f c (throw e) y :=
  fun s => .inl ⟨hc, e, s, rfl⟩

theorem Cuts.bind {x y : Attempt α} {k l : α → Attempt β} (h : Cuts f c x y)
    (hk : ∀ a, Cuts f c (k a) (l a)) : Cuts f c (x >>= k) (y >>= l) := by
  intro s
  simp only [run_bind]
  rcases h s with ⟨hc, e, t, he⟩ | heq
  · rw [he]
    exact .inl ⟨hc, e, t, rfl⟩
  · rw [heq]
    rcases x.run.run f s with ⟨e | a, t⟩
    · exact .inr rfl
    · exact hk a t

theorem Cuts.map {x y : Attempt α} (g : α → β) (h : Cuts f c x y) :
    Cuts f c (g <$> x) (g <$> y) := by
  rw [← bind_pure_comp, ← bind_pure_comp]
  exact h.bind fun a => .refl _

section

variable {o : Options} (r : Relaxation)

theorem Cuts.settle (a : Except StreamError Unit) :
    Cuts f (o.strictStreams = true) (settle o a) (settle (o.relax r) a) := by
  cases a with
  | ok u => exact .refl _
  | error e =>
      by_cases hs : o.strictStreams = true
      · rw [Attempt.settle, if_pos hs]
        exact .throw hs _ _
      · have hs' : (o.relax r).strictStreams = false := by simp [hs]
        simp only [Attempt.settle, hs, hs', Bool.false_eq_true, ↓reduceIte]
        exact .refl _

theorem Cuts.recover {x y : Attempt α} (event : Fault → Event)
    (h : Cuts f (o.strictStreams = true) x y) :
    Cuts f (o.strictStreams = true) (recover o event x) (recover (o.relax r) event y) := by
  intro s
  simp only [run_recover]
  rcases h s with ⟨hs, e, t, he⟩ | heq
  · rw [he]
    exact .inl ⟨hs, e, t, by simp only [hs, ↓reduceIte]⟩
  · rw [heq]
    rcases x.run.run f s with ⟨e | a, t⟩
    · by_cases hs : o.strictStreams = true
      · exact .inl ⟨hs, e, t, by simp only [hs, ↓reduceIte]⟩
      · have hs' : (o.relax r).strictStreams = false := by simp [hs]
        simp only [hs, hs', Bool.false_eq_true, ↓reduceIte]
        exact .inr trivial
    · exact .inr rfl

theorem Cuts.prompt (b : Int64) :
    Cuts f (o.strictStreams = true) (prompt o b) (prompt (o.relax r) b) := by
  unfold Attempt.prompt
  refine Cuts.bind (.refl _) fun a => ?_
  cases a with
  | ok u => exact Cuts.bind (.refl _) fun a => .settle r a
  | error e => exact .settle r _

/-- Under strict options a request either faults or goes as it goes under relaxed ones. -/
theorem Cuts.coupling (f : Responder σ) :
    Coupling o (o.relax r) (Cuts f (o.strictStreams = true)) where
  pure _ := .refl _
  throw _ := .refl _
  bind h hk := h.bind hk
  recover event h := h.recover r event
  emit _ := Cuts.bind (.refl _) fun a => .settle r a
  flush := Cuts.bind (.refl _) fun a => .settle r a
  prompt b := .prompt r b
  line := .refl _
  byte := .refl _
  note _ := .refl _

end

end Attempt

/-! ## Steps -/

open Attempt in
/-- Of what an instruction asks, only a fault can depend on the strict rules. -/
theorem Program.consult_relax {σ : Type} (f : Responder σ) (r : Relaxation) (p : Program)
    (peek : Nat → Int64) (i : Instruction) :
    Cuts f True (p.consult peek i) ((p.relax r).consult peek i) := by
  have hc := Cuts.coupling (o := p.options) r f
  cases i with
  | divide =>
      refine .map some ?_
      unfold Attempt.quotient
      split
      · exact .refl _
      · split
        · exact .throw trivial _ _
        · rename_i hd
          rw [if_neg (by simp [hd])]
          exact (hc.askQuotient _).weaken
  | writeInteger => exact (hc.bind (hc.emit _) fun _ => hc.pure _).weaken
  | writeChar => exact (hc.bind (hc.writeChar rfl _) fun _ => hc.pure _).weaken
  | put =>
      simp only [Program.consult, Program.grid_relax]
      split
      · exact .refl _
      · split
        · exact .throw trivial _ _
        · rename_i hb
          rw [if_neg (by simp [hb])]
          exact .refl _
  | get =>
      simp only [Program.consult]
      split
      · exact .throw trivial _ _
      · rename_i hb
        rw [if_neg]
        · exact .refl _
        · rintro ⟨hn, hs⟩
          simp only [Program.options_relax, Options.strictBounds_relax, Bool.and_eq_true] at hs
          exact hb ⟨hn, hs.1⟩
  | readInteger => exact (hc.recover _ hc.readInteger).weaken
  | readChar => exact (hc.recover _ (hc.readChar rfl)).weaken
  | stop => exact (hc.bind hc.flush fun _ => hc.pure _).weaken
  | unknown ch =>
      simp only [Program.consult]
      split
      · rename_i hi
        rw [if_pos (by simp [hi])]
        exact .refl _
      · exact .throw trivial _ _
  | _ => exact .refl _

theorem Machine.effect_relax (r : Relaxation) (m : Machine) (i : Instruction) (v : Option Int64) :
    (m.relax r).effect i v = (m.effect i v).relax r := by
  cases i with
  | readInteger => cases v <;> rfl
  | _ => rfl

namespace Process

variable {σ : Type} (f : Responder σ) (r : Relaxation)

/-- A step crashes, or goes as it goes under relaxed options. -/
theorem step_relax (x : Process σ) :
    (∃ c, (x.step f).1 = .error (.crash c)) ∨
      (x.relax r).step f = ((x.step f).1, (x.step f).2.relax r) := by
  obtain ⟨m, s⟩ := x
  simp only [step, relax]
  rcases m.step_trichotomy with h | ⟨h, hs, hq⟩ | h
  · have h' : (m.relax r).done = true := h
    rw [Machine.run_step_of_done f h, Machine.run_step_of_done f h']
    exact .inr rfl
  · have h' : (m.relax r).done = false := h
    rw [Machine.run_step_of_char f h hs hq, Machine.run_step_of_char f h' hs hq]
    exact .inr rfl
  · have h' : (m.relax r).Dispatches := h
    have hc := m.program.consult_relax f r m.stack.peek (Instruction.decode m.fetch)
      (f (.note (.dispatched m.pos (Instruction.decode m.fetch))) s).2
    rw [Machine.run_step_of_dispatches f h, Machine.run_step_of_dispatches f h']
    simp only [Machine.program_relax, Machine.pos_relax, Machine.stack_relax, Machine.fetch_relax]
    generalize (m.program.consult m.stack.peek _).run.run f _ = u at hc ⊢
    -- A fault of the strict machine is a crash, whether or not the relaxed one has faulted as well.
    rcases hc with ⟨-, e, t, rfl⟩ | hc
    · exact .inl ⟨_, by rw [Machine.run_conclude_error]⟩
    · rw [hc]
      obtain ⟨e | v, t⟩ := u
      · exact .inl ⟨_, by rw [Machine.run_conclude_error]⟩
      · by_cases hi : Instruction.decode m.fetch = .stop
        · rw [hi]
          exact .inr rfl
        · rw [Machine.conclude_next _ hi, Machine.conclude_next _ hi, Machine.effect_relax]
          exact .inr rfl

/-! ## Runs -/

theorem steps_relax (n : Nat) (x : Process σ)
    (h : ∀ a ∈ (x.steps f n).1, ∀ c, a ≠ .error (.crash c)) :
    (x.relax r).steps f n = ((x.steps f n).1, (x.steps f n).2.relax r) := by
  have hstep : ∀ x y : Process σ, y = x.relax r → ¬ (∃ c, (x.step f).1 = .error (.crash c)) →
      (y.step f).1 = (x.step f).1 ∧ (y.step f).2 = (x.step f).2.relax r := by
    rintro x _ rfl hc
    rcases step_relax f r x with hx | hx
    · exact absurd hx hc
    · exact ⟨by rw [hx], by rw [hx]⟩
  have hgood : ∀ a ∈ (x.steps f n).1, ¬ ∃ c, a = .error (.crash c) :=
    fun a ha ⟨c, hc⟩ => h a ha c hc
  obtain ⟨ha, hx⟩ := steps_of_step_unless (B := fun a => ∃ c, a = .error (.crash c)) hstep n
    (rfl : x.relax r = x.relax r) hgood
  exact Prod.ext ha hx

/-- Runs that have agreed so far go on to agree, unless the strict one crashes in its next step. -/
theorem steps_relax_succ {n : Nat} {x : Process σ}
    (h : (x.relax r).steps f n = ((x.steps f n).1, (x.steps f n).2.relax r)) :
    (∃ c, (x.steps f (n + 1)).1 = (x.steps f n).1 ++ [.error (.crash c)]) ∨
      (x.relax r).steps f (n + 1) = ((x.steps f (n + 1)).1, (x.steps f (n + 1)).2.relax r) := by
  simp only [steps_succ, h]
  rcases step_relax f r (x.steps f n).2 with ⟨c, hc⟩ | hx
  · exact .inl ⟨c, by rw [hc]⟩
  · exact .inr (by rw [hx])

end Process

theorem Program.build_relax {source : List Char} {o : Options} {p : Program}
    (h : build source o = .ok p) (r : Relaxation) : build source (o.relax r) = .ok (p.relax r) := by
  have hp : Source.problem? (Source.lines source) (o.relax r) =
      Source.problem? (Source.lines source) o := rfl
  unfold build at h ⊢
  simp only [hp] at h ⊢
  split at h
  · cases h
  · cases h
    rfl

/-- Strict rules only cut runs short: what builds under strict rules builds without them, and step by
step the strict run is the relaxed one, until the strict one crashes. -/
theorem Process.strict_run_cut_short {source : List Char} {o : Options} {p : Program}
    (hb : Program.build source o = .ok p) (r : Relaxation) (clock : UInt64) {σ : Type}
    (f : Responder σ) (s : σ) :
    ∃ p', Program.build source (o.relax r) = .ok p' ∧ p'.grid = p.grid ∧
      let run := fun n => (start p clock s).steps f n
      let run' := fun n => (start p' clock s).steps f n
      (∀ n, (∀ a ∈ (run n).1, ∀ c, a ≠ .error (.crash c)) →
        run' n = ((run n).1, (run n).2.relax r)) ∧
      (∀ n, run' n = ((run n).1, (run n).2.relax r) →
        run' (n + 1) ≠ ((run (n + 1)).1, (run (n + 1)).2.relax r) →
        ∃ c, (run (n + 1)).1 = (run n).1 ++ [.error (.crash c)]) := by
  refine ⟨p.relax r, Program.build_relax hb r, rfl, ?_, ?_⟩
  · intro n h
    exact steps_relax f r n (start p clock s) h
  · intro n h hne
    exact (steps_relax_succ f r h).resolve_right hne

/-- A program that reads a number and writes it, under all strict rules and under none. -/
theorem Process.strict_run_cut_short_read :
    let o : Options := { strictStreams := true, strictBounds := true, strictDivision := true }
    let r : Relaxation := ⟨true, true, true, true⟩
    let p : Program := ⟨.ofRows 80 25 ["&.@".toList], o⟩
    let c : Console := { input := [.bytes [0x37, 0x0A]] }
    Program.build "&.@".toList o = .ok p ∧
      (∀ a ∈ ((start p 1 c).steps Console.answer 3).1, ∀ e, a ≠ .error (.crash e)) ∧
      ∃ p', Program.build "&.@".toList (o.relax r) = .ok p' ∧
        (start p' 1 c).steps Console.answer 3 =
          (((start p 1 c).steps Console.answer 3).1,
            ((start p 1 c).steps Console.answer 3).2.relax r) := by
  intro o r p c
  have hb : Program.build "&.@".toList o = .ok p := rfl
  have hok : ((start p 1 c).steps Console.answer 3).1.all Except.isOk = true := by
    decide +kernel
  have hgood : ∀ a ∈ ((start p 1 c).steps Console.answer 3).1, ∀ e, a ≠ .error (.crash e) := by
    rintro _ ha e rfl
    exact Bool.false_ne_true (List.all_eq_true.mp hok _ ha)
  obtain ⟨p', hb', -, h, -⟩ := strict_run_cut_short hb r 1 Console.answer c
  exact ⟨hb, hgood, p', hb', h 3 hgood⟩

end Befunge
