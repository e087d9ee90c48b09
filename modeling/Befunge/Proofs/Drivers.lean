import Befunge.Command
import Befunge.Proofs.Runs

/-!
# Ways to run a program

A program is run step by step, to its end, or within a limit on the number of steps. All of these make
the same steps and differ in nothing but when they come back.
-/

namespace Befunge

/-! ## Running to the end -/

/-- What a run came to; `none` if the program runs on. -/
def Run.ended? (r : Run) : Option (Except StepError Unit) :=
  match r.result with
  | .ok .running => none
  | .ok .terminated => some (.ok ())
  | .error e => some (.error e)

theorem Run.ended?_eq_some (calls : Nat) {r : Except StepError Progress} (h : r ≠ .ok .running) :
    ended? ⟨calls, r⟩ = some (r.map fun _ => ()) := by
  match r with
  | .ok .running => exact absurd rfl h
  | .ok .terminated => rfl
  | .error e => rfl

namespace Machine

/-- A run to the end is a run within a limit, and its fuel is the limit. -/
theorem exec_eq (fuel : Nat) (m : Machine) (calls : Nat) :
    m.exec fuel = (fun x => (x.1.ended?, x.2)) <$> m.runWithin fuel calls := by
  induction fuel generalizing m calls with
  | zero => rfl
  | succ fuel ih =>
      simp only [exec, runWithin, map_bind]
      congr 1
      funext x
      obtain ⟨r, m⟩ := x
      match r with
      | .ok .running => exact ih m (calls + 1)
      | .ok .terminated => rfl
      | .error e => rfl

theorem runBounded_eq (limit : Nat) (m : Machine) :
    m.runBounded limit =
      (fun x => (x.1.ended?.elim (.error ⟨limit, x.2.pos⟩) .ok, x.2)) <$> m.runWithin limit 0 := by
  rw [runBounded, ← bind_pure_comp]
  congr 1
  funext x
  obtain ⟨⟨calls, r⟩, m⟩ := x
  match r with
  | .ok .running => rfl
  | .ok .terminated => rfl
  | .error e => rfl

end Machine

namespace Process

variable {α σ : Type} (f : Responder σ)

/-- Lets the streams answer a dialogue of the machine. -/
def hold (d : Machine → Dialogue (α × Machine)) (x : Process σ) : α × Process σ :=
  let r := (d x.machine).run f x.streams
  (r.1.1, ⟨r.1.2, r.2⟩)

def exec (fuel : Nat) (x : Process σ) : Option (Except StepError Unit) × Process σ :=
  x.hold f (Machine.exec fuel)

def runWithin (limit calls : Nat) (x : Process σ) : Run × Process σ :=
  x.hold f fun m => m.runWithin limit calls

def runBounded (limit : Nat) (x : Process σ) :
    Except StepLimit (Except StepError Unit) × Process σ :=
  x.hold f (Machine.runBounded limit)

theorem exec_eq (fuel : Nat) (x : Process σ) :
    x.exec f fuel = ((x.runWithin f fuel 0).1.ended?, (x.runWithin f fuel 0).2) := by
  simp only [exec, runWithin, hold, x.machine.exec_eq fuel 0, Dialogue.run_map]

theorem runBounded_eq (limit : Nat) (x : Process σ) :
    x.runBounded f limit =
      let r := x.runWithin f limit 0
      (r.1.ended?.elim (.error ⟨limit, r.2.machine.pos⟩) .ok, r.2) := by
  simp only [runBounded, runWithin, hold, Machine.runBounded_eq, Dialogue.run_map]

theorem runWithin_of_running {x : Process σ} (h : (x.step f).1 = .ok .running) (limit calls : Nat) :
    x.runWithin f (limit + 1) calls = (x.step f).2.runWithin f limit (calls + 1) := by
  simp only [runWithin, step, hold, Machine.runWithin, Dialogue.run_bind] at h ⊢
  generalize x.machine.step.run f x.streams = u at h ⊢
  obtain ⟨⟨r, m⟩, t⟩ := u
  cases h
  rfl

theorem runWithin_of_halted {x : Process σ} (h : (x.step f).1 ≠ .ok .running) (limit calls : Nat) :
    x.runWithin f (limit + 1) calls = (⟨calls + 1, (x.step f).1⟩, (x.step f).2) := by
  simp only [runWithin, step, hold, Machine.runWithin, Dialogue.run_bind] at h ⊢
  generalize x.machine.step.run f x.streams = u at h ⊢
  obtain ⟨⟨r, m⟩, t⟩ := u
  match r with
  | .ok .running => exact absurd rfl h
  | .ok .terminated => rfl
  | .error e => rfl

/-! ## Programs that halt -/

/-- The answer to the `n`-th call of `step` is `r`, and it is the first other than that the program runs
on. -/
def HaltsAt (n : Nat) (r : Except StepError Progress) (x : Process σ) : Prop :=
  (x.steps f n).1 = List.replicate (n - 1) (.ok .running) ++ [r] ∧ r ≠ .ok .running

variable {f} {n : Nat} {r : Except StepError Progress} {x : Process σ}

theorem HaltsAt.pos (h : HaltsAt f n r x) : 0 < n := by
  cases n with
  | zero => simp [HaltsAt, steps] at h
  | succ n => exact Nat.succ_pos n

theorem haltsAt_one_iff : HaltsAt f 1 r x ↔ (x.step f).1 = r ∧ r ≠ .ok .running := by
  simp [HaltsAt, steps]

theorem haltsAt_succ_succ_iff :
    HaltsAt f (n + 2) r x ↔ (x.step f).1 = .ok .running ∧ HaltsAt f (n + 1) r (x.step f).2 := by
  simp [HaltsAt, steps, List.replicate_succ, and_assoc]

theorem HaltsAt.after (h : HaltsAt f n r x) {k : Nat} (hk : k < n) :
    HaltsAt f (n - k) r (x.steps f k).2 := by
  induction k generalizing n x with
  | zero => exact h
  | succ k ih =>
      obtain ⟨n, rfl⟩ : ∃ m, n = m + 2 := ⟨n - 2, by omega⟩
      have hlater := ih (haltsAt_succ_succ_iff.mp h).2 (by omega : k < n + 1)
      rw [show n + 2 - (k + 1) = n + 1 - k by omega]
      exact hlater

/-- Within a limit, a program that halts goes as far as it can or as far as it may. -/
theorem HaltsAt.runWithin_eq (h : HaltsAt f n r x) (limit calls : Nat) :
    x.runWithin f limit calls =
      if n ≤ limit then (⟨calls + n, r⟩, (x.steps f n).2)
      else (⟨calls + limit, .ok .running⟩, (x.steps f limit).2) := by
  induction limit generalizing n x calls with
  | zero =>
      rw [if_neg (Nat.not_le.mpr h.pos)]
      rfl
  | succ limit ih =>
      match n with
      | 0 => exact absurd h.pos (Nat.lt_irrefl 0)
      | 1 =>
          obtain ⟨rfl, hr⟩ := haltsAt_one_iff.mp h
          rw [runWithin_of_halted f hr, if_pos (by omega)]
          rfl
      | n + 2 =>
          obtain ⟨hstep, hlater⟩ := haltsAt_succ_succ_iff.mp h
          rw [runWithin_of_running f hstep, ih hlater, Nat.add_right_comm calls 1,
            Nat.add_right_comm calls 1]
          simp only [Nat.add_le_add_iff_right, show n + 2 = n + 1 + 1 from rfl]
          rfl

theorem HaltsAt.runWithin_after (h : HaltsAt f n r x) {k : Nat} (hk : k < n) (limit calls : Nat) :
    (x.steps f k).2.runWithin f limit calls =
      if n ≤ k + limit then (⟨calls + (n - k), r⟩, (x.steps f n).2)
      else (⟨calls + limit, .ok .running⟩, (x.steps f (k + limit)).2) := by
  have hsum : ∀ j, ((x.steps f k).2.steps f j).2 = (x.steps f (k + j)).2 := by
    intro j
    rw [steps_add]
  rw [(h.after hk).runWithin_eq, hsum, hsum, Nat.add_sub_cancel' (Nat.le_of_lt hk)]
  simp only [Nat.sub_le_iff_le_add']

theorem HaltsAt.exec_after (h : HaltsAt f n r x) {k : Nat} (hk : k < n) (fuel : Nat) :
    (x.steps f k).2.exec f fuel =
      if n ≤ k + fuel then (some (r.map fun _ => ()), (x.steps f n).2)
      else (none, (x.steps f (k + fuel)).2) := by
  rw [exec_eq, h.runWithin_after hk]
  split
  · rw [Run.ended?_eq_some _ h.2]
  · rfl

theorem HaltsAt.runBounded_after (h : HaltsAt f n r x) {k : Nat} (hk : k < n) (limit : Nat) :
    (x.steps f k).2.runBounded f limit =
      if n ≤ k + limit then (.ok (r.map fun _ => ()), (x.steps f n).2)
      else (.error ⟨limit, (x.steps f (k + limit)).2.machine.pos⟩, (x.steps f (k + limit)).2) := by
  simp only [runBounded_eq, h.runWithin_after hk]
  split
  · simp only [Run.ended?_eq_some _ h.2, Option.elim]
  · rfl

/-- The ways to run a program agree: to run to the end, at once or from anywhere in between, and to run
within a limit, at once or in two parts, is to call `step` until it does not answer that the program
runs on. -/
theorem drivers_agree (h : HaltsAt f n r x) :
    let outcome := r.map fun _ => ()
    let after := fun k => (x.steps f k).2
    (∀ k < n, ∀ fuel, (after k).exec f fuel =
      if n ≤ k + fuel then (some outcome, after n) else (none, after (k + fuel))) ∧
    (∀ limit ≥ n, x.runBounded f limit = (.ok outcome, after n)) ∧
    (∀ limit < n,
      x.runBounded f limit = (.error ⟨limit, (after limit).machine.pos⟩, after limit)) ∧
    ∀ limit < n, ∀ more,
      let resumed := (x.runBounded f limit).2.runBounded f more
      let whole := x.runBounded f (limit + more)
      resumed.2 = whole.2 ∧ resumed.1.mapError StepLimit.pos = whole.1.mapError StepLimit.pos := by
  intro outcome after
  have hwithin : ∀ limit, x.runBounded f limit =
      if n ≤ limit then (.ok outcome, after n)
      else (.error ⟨limit, (after limit).machine.pos⟩, after limit) := by
    intro limit
    have := h.runBounded_after h.pos limit
    rwa [Nat.zero_add] at this
  have hshort : ∀ limit < n,
      x.runBounded f limit = (.error ⟨limit, (after limit).machine.pos⟩, after limit) := by
    intro limit hlimit
    rw [hwithin, if_neg (Nat.not_le.mpr hlimit)]
  refine ⟨fun k hk fuel => h.exec_after hk fuel, ?_, hshort, ?_⟩
  · intro limit hlimit
    rw [hwithin, if_pos hlimit]
  · intro limit hlimit more
    simp only [hshort limit hlimit, h.runBounded_after hlimit, hwithin, after]
    split
    · exact ⟨rfl, rfl⟩
    · exact ⟨rfl, rfl⟩

/-- A program that writes a number and then divides by zero, in its fourth step. -/
theorem drivers_agree_remainder :
    let p : Program := ⟨.ofRows 80 25 ["5.0%@".toList], {}⟩
    let x := start p 1 ({} : Console)
    ∃ r, HaltsAt Console.answer 4 r x ∧ r.isOk = false ∧
      (x.exec Console.answer 4).1 = some (r.map fun _ => ()) ∧
      (x.runBounded Console.answer 4).1 = .ok (r.map fun _ => ()) ∧
      (x.runBounded Console.answer 3).1 = .error ⟨3, ⟨3, 0⟩⟩ := by
  intro p x
  have hrunning : ∀ y : Process Console, (y.step Console.answer).2.machine.done = false →
      (y.step Console.answer).1 = .ok .running :=
    fun y hy => (y.stepped Console.answer).done_eq_false_iff.mp hy
  have h : HaltsAt Console.answer 4 ((x.steps Console.answer 3).2.step Console.answer).1 x := by
    refine haltsAt_succ_succ_iff.mpr ⟨hrunning _ (by decide +kernel), ?_⟩
    refine haltsAt_succ_succ_iff.mpr ⟨hrunning _ (by decide +kernel), ?_⟩
    refine haltsAt_succ_succ_iff.mpr ⟨hrunning _ (by decide +kernel), ?_⟩
    refine haltsAt_one_iff.mpr ⟨rfl, fun hr => ?_⟩
    have hdone := (stepped Console.answer _).done_eq_false_iff.mpr hr
    revert hdone
    decide +kernel
  obtain ⟨hexec, hlong, hshort, -⟩ := drivers_agree h
  refine ⟨_, h, by decide +kernel, ?_, ?_, ?_⟩
  · exact congrArg Prod.fst (hexec 0 (by decide) 4)
  · rw [hlong 4 (Nat.le_refl 4)]
  · have hpos : (x.steps Console.answer 3).2.machine.pos = ⟨3, 0⟩ := by decide +kernel
    rw [hshort 3 (by decide), hpos]

end Process

end Befunge
