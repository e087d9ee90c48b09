import Befunge.Proofs.Drawing
import Befunge.Proofs.Flags
import Befunge.Proofs.Questions

/-!
# Running a file

A file is run by building its program and taking the program's process through its steps. The output is
that of the process, and beside its questions the diagnostics hold no more than pictures of the playfield,
before the run and after a crash, and a last line if the exit code is not 0.
-/

namespace Befunge

open Text

/-! ## Runs within a limit -/

namespace Process

variable {σ : Type} {f : Responder σ} {x : Process σ}

theorem halts_or_runs (limit : Nat) (x : Process σ) :
    (∃ n ≤ limit, ∃ r, HaltsAt f n r x) ∨
      (x.steps f limit).1 = List.replicate limit (.ok .running) := by
  induction limit generalizing x with
  | zero => exact .inr rfl
  | succ limit ih =>
      by_cases h : (x.step f).1 = .ok .running
      · rcases ih (x.step f).2 with ⟨n, hn, r, hr⟩ | hruns
        · obtain ⟨n, rfl⟩ : ∃ m, n = m + 1 := ⟨n - 1, by have := hr.pos; omega⟩
          exact .inl ⟨n + 2, by omega, r, haltsAt_succ_succ_iff.mpr ⟨h, hr⟩⟩
        · right
          rw [steps, List.replicate_succ, ← hruns, ← h]
      · exact .inl ⟨1, by omega, _, haltsAt_one_iff.mpr ⟨rfl, h⟩⟩

/-- A process that is not done after a number of steps has not halted in them, but may do so in the next. -/
theorem haltsAt_of_not_done {n : Nat} {r : Except StepError Progress}
    (h : (x.steps f n).2.machine.done = false) (hr : ((x.steps f n).2.step f).1 = r)
    (hne : r ≠ .ok .running) : HaltsAt f (n + 1) r x := by
  induction n generalizing x with
  | zero => exact haltsAt_one_iff.mpr ⟨hr, hne⟩
  | succ n ih =>
      have hrunning : (x.step f).1 = .ok .running := by
        rw [← (x.stepped f).done_eq_false_iff, ← Bool.not_eq_true]
        intro hdone
        rw [steps, steps_of_done hdone, hdone] at h
        cases h
      exact haltsAt_succ_succ_iff.mpr ⟨hrunning, ih h hr⟩

theorem runWithin_of_runs {limit : Nat}
    (h : (x.steps f limit).1 = List.replicate limit (.ok .running)) (calls : Nat) :
    x.runWithin f limit calls = (⟨calls + limit, .ok .running⟩, (x.steps f limit).2) := by
  induction limit generalizing x calls with
  | zero => rfl
  | succ limit ih =>
      rw [steps, List.replicate_succ, List.cons.injEq] at h
      rw [runWithin_of_running f h.1, ih h.2, Nat.add_right_comm calls 1]
      rfl

/-- A process that is not done halts at an end of its own. -/
theorem HaltsAt.ne_alreadyExecuted {n : Nat} {r : Except StepError Progress} (h : HaltsAt f n r x)
    (hx : x.machine.done = false) : r ≠ .error .alreadyExecuted := by
  obtain ⟨n, rfl⟩ : ∃ m, n = m + 1 := ⟨n - 1, (Nat.sub_add_cancel h.pos).symm⟩
  induction n generalizing x with
  | zero =>
      obtain ⟨rfl, -⟩ := haltsAt_one_iff.mp h
      have hstepped := x.stepped f
      generalize (x.step f).1 = r, (x.step f).2.machine = m at hstepped ⊢
      cases hstepped with
      | done hd =>
          rw [hx] at hd
          cases hd
      | char => simp
      | next => simp
      | stop => simp
      | fault => simp
  | succ n ih =>
      obtain ⟨hrunning, hlater⟩ := haltsAt_succ_succ_iff.mp h
      exact ih ((x.stepped f).done_eq_false_iff.mpr hrunning) hlater

theorem program_steps (n : Nat) (x : Process σ) :
    (x.steps f n).2.machine.program =
      (x.puts f n).foldl (fun p w => p.after (some w)) x.machine.program := by
  induction n generalizing x with
  | zero => rfl
  | succ n ih =>
      rw [steps, ih, program_step, puts, List.foldl_append]
      cases x.put? f <;> rfl

/-! ## Another clock -/

theorem options_of_crash {n : Nat} {c : Crash} (h : .error (.crash c) ∈ (x.steps f n).1) :
    c.program.options = x.machine.options := by
  induction n generalizing x with
  | zero => cases h
  | succ n ih =>
      rw [steps] at h
      rcases List.mem_cons.mp h with h | h
      · rw [(step_crash h.symm).1]
        rfl
      · exact (ih h).trans (x.stepped f).options_eq

/-- The clock is of no account to a run with a seed of its own, or without a draw. -/
theorem steps_clock {p : Program} {clock' : UInt64} {s : σ} {n : Nat} (clock : UInt64)
    (h : p.options.seed ≠ 0 ∨ (start p clock' s).draws f n = []) :
    let run := (start p clock s).steps f n
    let run' := (start p clock' s).steps f n
    run.1 = run'.1 ∧ run.2.machine.pos = run'.2.machine.pos ∧ run.2.streams = run'.2.streams := by
  intro run run'
  by_cases hseed : p.options.seed = 0
  · have hdraws := h.resolve_left (not_not_intro hseed)
    have hstart : start p clock s = (start p clock' s).reseeded p.options.seed
      (Machine.start p clock).seed (Machine.start p clock).generator := rfl
    have hrun : run = _ := (congrArg (steps f n) hstart).trans (steps_reseeded hdraws _ _ _)
    refine ⟨?_, by rw [hrun]; rfl, by rw [hrun]; rfl⟩
    rw [hrun]
    refine (List.map_congr_left fun r hr => ?_).trans (List.map_id _)
    -- The report of a crash has no other seed in it.
    rcases r with (_ | c) | _
    · rfl
    · have hprogram : c.program.reseeded p.options.seed = c.program := by
        rw [show p.options = c.program.options from (options_of_crash hr).symm]
        rfl
      exact congrArg (fun q => Except.error (StepError.crash { c with program := q })) hprogram
    · rfl
  · have hstart : start p clock s = start p clock' s := by
      simp only [start, Machine.start, hseed, ↓reduceIte]
    simp only [run, run', hstart, and_self]

end Process

/-! ## What is said beside the run -/

/-- From one state to another, the text was put on the diagnostics, and nothing else has happened to the
streams. -/
structure Archive.Says {σ : Type} (k : Archive σ) (text : List UInt8) (s v : σ) : Prop where
  isOpen : k.Open v
  input_eq : k.input v = k.input s
  output_eq : k.written .output v = k.written .output s
  diagnostics_eq : k.written .diagnostics v = k.written .diagnostics s ++ text

theorem Archive.Says.trans {σ : Type} {k : Archive σ} {s v w : σ} {text text' : List UInt8}
    (h : k.Says text s v) (h' : k.Says text' v w) : k.Says (text ++ text') s w where
  isOpen := h'.isOpen
  input_eq := h'.input_eq.trans h.input_eq
  output_eq := h'.output_eq.trans h.output_eq
  diagnostics_eq := by rw [h'.diagnostics_eq, h.diagnostics_eq, List.append_assoc]

/-- What stands on the output and on the diagnostics. -/
structure Archive.Shows {σ : Type} (k : Archive σ) (output diagnostics : List UInt8) (s : σ) : Prop where
  isOpen : k.Open s
  output_eq : k.written .output s = output
  diagnostics_eq : k.written .diagnostics s = diagnostics

theorem Archive.Shows.says {σ : Type} {k : Archive σ} {s v : σ} {output diagnostics text : List UInt8}
    (h : k.Shows output diagnostics s) (h' : k.Says text s v) :
    k.Shows output (diagnostics ++ text) v where
  isOpen := h'.isOpen
  output_eq := h'.output_eq.trans h.output_eq
  diagnostics_eq := by rw [h'.diagnostics_eq, h.diagnostics_eq]

theorem Archive.Fresh.shows {σ : Type} {k : Archive σ} {s : σ} (h : k.Fresh s) : k.Shows [] [] s :=
  ⟨h.1, h.2 .output, h.2 .diagnostics⟩

namespace Invocation

/-- A line of text, in bytes. -/
def line (text : List Char) : List UInt8 := Utf8.encode (text ++ ['\n'])

/-- The playfield of a program as it is printed, if that is asked for. -/
def picture (inv : Invocation) (p : Program) : List UInt8 :=
  if inv.printProgram then line p.grid.render else []

section

variable {σ : Type} {k : Archive σ} {s : σ} (hs : k.Open s)

include hs

theorem says_report (text : List Char) :
    k.Says (line text) s ((report text).run k.answer s).2 := by
  obtain ⟨-, hopen, hwritten⟩ := k.write hs .diagnostics (line text)
  exact ⟨hopen, k.input_write s .diagnostics (line text), hwritten .output, hwritten .diagnostics⟩

theorem says_print (inv : Invocation) (p : Program) :
    k.Says (inv.picture p) s ((inv.print p).run k.answer s).2 := by
  unfold picture print
  split
  · exact says_report hs p.grid.render
  · exact ⟨hs, rfl, rfl, (List.append_nil _).symm⟩

theorem says_create (p : Program) (clock : UInt64) :
    k.Says [] s ((Machine.create p clock).run k.answer s).2 := by
  let e := Event.created (Machine.start p clock).seed p.grid.width p.grid.height
  obtain ⟨hopen, hwritten⟩ := k.other hs (r := .note e) rfl
  exact ⟨hopen, k.input_note s e, hwritten .output,
    (hwritten .diagnostics).trans (List.append_nil _).symm⟩

theorem run_fail (message : String) :
    ∃ v, (fail message).run k.answer s = (some 1, v) ∧ k.Says (line message.toList) s v :=
  ⟨_, rfl, says_report hs message.toList⟩

theorem run_conclude_crash (inv : Invocation) (c : Crash) :
    ∃ v, (inv.conclude (.error (.crash c))).run k.answer s = (some 1, v) ∧
      k.Says (inv.picture c.program ++ line c.text.toList) s v := by
  have hprint := says_print hs inv c.program
  obtain ⟨v, hrun, hfail⟩ := run_fail hprint.isOpen c.text
  exact ⟨v, by rw [conclude, Dialogue.run_bind, hrun], hprint.trans hfail⟩

end

/-! ## The run of a program -/

/-- The number of steps that a run makes at most. -/
def span (inv : Invocation) (fuel : Nat) : Nat :=
  match inv.maxSteps with
  | none => fuel
  | some limit => limit.toNat

/-- What is left to do if the steps have not come to an end. -/
def breakOff (inv : Invocation) (pos : Pos) : Dialogue (Option Nat) :=
  match inv.maxSteps with
  | none => pure none
  | some limit => fail (StepLimit.message ⟨limit.toNat, pos⟩)

def close (inv : Invocation) (r : Run) (m : Machine) : Dialogue (Option Nat) :=
  r.ended?.elim (inv.breakOff m.pos) inv.conclude

theorem runProgram_eq (inv : Invocation) (p : Program) (clock : UInt64) (fuel : Nat) :
    inv.runProgram p clock fuel = (do
      inv.print p
      let m ← Machine.create p clock
      let x ← m.runWithin (inv.span fuel) 0
      inv.close x.1 x.2) := by
  unfold runProgram span close breakOff
  congr 1
  funext _
  congr 1
  funext m
  cases inv.maxSteps with
  | none =>
      simp only [m.exec_eq fuel 0, bind_map_left]
      congr 1
      funext x
      cases x.1.ended? <;> rfl
  | some limit =>
      simp only [Machine.runBounded_eq, bind_map_left]
      congr 1
      funext x
      cases x.1.ended? <;> rfl

/-- The playfield is printed before the steps, which are then those of the program's process. -/
theorem run_runProgram {σ : Type} {k : Archive σ} {s : σ} (hs : k.Open s) (inv : Invocation)
    (p : Program) (clock : UInt64) :
    ∃ v, k.Says (inv.picture p) s v ∧ ∀ fuel,
      let x := (Process.start p clock v).runWithin k.answer (inv.span fuel) 0
      (inv.runProgram p clock fuel).run k.answer s =
        (inv.close x.1 x.2.machine).run k.answer x.2.streams := by
  have hprint := says_print hs inv p
  have hcreate := says_create hprint.isOpen p clock
  refine ⟨_, List.append_nil (inv.picture p) ▸ hprint.trans hcreate, fun fuel => ?_⟩
  rw [runProgram_eq]
  simp only [Dialogue.run_bind]
  rfl

/-! ## What comes of it -/

/-- The file is readable and in UTF-8, and the program was built of it. -/
def Builds (inv : Invocation) (content : Except FileError (List UInt8)) (p : Program) : Prop :=
  ∃ source, content = .ok (Utf8.encode source) ∧ Program.build source inv.options = .ok p

/-- There is no program to run, for the reason that the message gives: the file cannot be read, is not in
UTF-8, or no program can be built of it. -/
inductive Rejects (inv : Invocation) (content : Except FileError (List UInt8)) : String → Prop
  | unreadable {e : FileError} (h : content = .error e) :
      Rejects inv content s!"Failed to read {inv.file}: {e.message}"
  | notUtf8 {bytes : List UInt8} (h : content = .ok bytes) (hu : ∀ source, bytes ≠ Utf8.encode source) :
      Rejects inv content s!"Failed to read {inv.file}: {FileError.notUtf8.message}"
  | notBuilt {source : List Char} {e : BuildError} (h : content = .ok (Utf8.encode source))
      (he : Program.build source inv.options = .error e) : Rejects inv content e.message

/-- The run may have so many steps. -/
def Allows (inv : Invocation) (n : Nat) : Prop := ∀ limit, inv.maxSteps = some limit → n ≤ limit.toNat

end Invocation

/-- What a number of steps leaves on the output. -/
def Process.printed {τ : Type} (l : Archive τ) (n : Nat) (x : Process τ) : List UInt8 :=
  l.written .output (x.steps l.answer n).2.streams

/-- The questions of a number of steps, as they are put. -/
def Process.prompts {τ : Type} (l : Archive τ) (n : Nat) (x : Process τ) : List UInt8 :=
  (x.questions l.answer n).flatMap Action.question

namespace Invocation

section

variable {τ : Type} (inv : Invocation) (content : Except FileError (List UInt8)) (l : Archive τ)
  (x : Program → Process τ)

/-- What the run of a file comes to: the exit code, the output and the diagnostics. Either there is no
program to run, or this is told by the steps of the program's process. -/
inductive Outcome : Nat → List UInt8 → List UInt8 → Prop
  | rejected {message : String} (h : inv.Rejects content message) : Outcome 1 [] (line message.toList)
  | terminated {p : Program} {n : Nat} (hp : inv.Builds content p) (hn : inv.Allows n)
      (h : (x p).HaltsAt l.answer n (.ok .terminated)) :
      Outcome 0 ((x p).printed l n) (inv.picture p ++ (x p).prompts l n)
  | crashed {p : Program} {n : Nat} {c : Crash} (hp : inv.Builds content p) (hn : inv.Allows n)
      (h : (x p).HaltsAt l.answer n (.error (.crash c))) :
      Outcome 1 ((x p).printed l n)
        (inv.picture p ++ (x p).prompts l n ++ (inv.picture c.program ++ line c.text.toList))
  | brokenOff {p : Program} {limit : UInt64} (hp : inv.Builds content p)
      (hlimit : inv.maxSteps = some limit)
      (h : ((x p).steps l.answer limit.toNat).1 = List.replicate limit.toNat (.ok .running)) :
      Outcome 1 ((x p).printed l limit.toNat)
        (inv.picture p ++ (x p).prompts l limit.toNat ++ line (StepLimit.message
          ⟨limit.toNat, ((x p).steps l.answer limit.toNat).2.machine.pos⟩).toList)

/-- With so much fuel the run ends, with the exit code, and this is then on the output and the
diagnostics. -/
def Ends (clock : UInt64) (t : τ) (fuel code : Nat) (output diagnostics : List UInt8) : Prop :=
  ∃ v, (inv.run content clock fuel).run l.answer t = (some code, v) ∧
    l.written .output v = output ∧ l.written .diagnostics v = diagnostics

/-- The program of the file reaches its end, within the steps that it may have. -/
def Succeeds : Prop :=
  ∃ p n, inv.Builds content p ∧ inv.Allows n ∧ (x p).HaltsAt l.answer n (.ok .terminated)

/-- The clock is of no account: there is a seed, or the program of the file draws nothing in the steps that
it may have. -/
def Timeless : Prop :=
  inv.options.seed ≠ 0 ∨
    ∀ p n, inv.Builds content p → inv.Allows n → (x p).draws l.answer n = []

end

section

variable {σ τ : Type} {inv : Invocation} {content : Except FileError (List UInt8)} {k : Archive σ}
  {l : Archive τ} {clock clock' : UInt64} {s : σ} {t : τ} {p : Program} {fuel : Nat}

theorem Rejects.run_eq {message : String} (h : inv.Rejects content message) :
    inv.run content clock fuel = fail message := by
  cases h with
  | unreadable h => simp only [run, load, h]
  | @notUtf8 bytes h hu =>
      have hnone : Utf8.decode? bytes = none :=
        Option.eq_none_iff_forall_ne_some.mpr fun source hsource =>
          hu source (Utf8.decode?_eq_some_iff.mp hsource)
      simp only [run, load, h, hnone]
  | notBuilt h he => simp only [run, load, h, Utf8.decode?_encode, he]

theorem rejects_or_builds (inv : Invocation) (content : Except FileError (List UInt8)) :
    (∃ message, inv.Rejects content message) ∨ ∃ p, inv.Builds content p := by
  rcases content with e | bytes
  · exact .inl ⟨_, .unreadable rfl⟩
  by_cases hu : ∃ source, bytes = Utf8.encode source
  · obtain ⟨source, rfl⟩ := hu
    cases hbuild : Program.build source inv.options with
    | error e => exact .inl ⟨_, .notBuilt rfl hbuild⟩
    | ok p => exact .inr ⟨p, source, rfl, hbuild⟩
  · exact .inl ⟨_, .notUtf8 rfl (not_exists.mp hu)⟩

theorem run_eq_runProgram (hp : inv.Builds content p) :
    inv.run content clock fuel = inv.runProgram p clock fuel := by
  obtain ⟨source, rfl, hbuild⟩ := hp
  simp only [run, load, Utf8.decode?_encode, hbuild]

theorem allows_of_le_span {n : Nat} (h : n ≤ inv.span fuel) : inv.Allows n := by
  intro limit hlimit
  simpa only [span, hlimit] using h

theorem Allows.le_span {n : Nat} (h : inv.Allows n) (hn : n ≤ fuel) : n ≤ inv.span fuel := by
  unfold span
  split
  · exact hn
  · exact h _ ‹_›

theorem Builds.options_eq (hp : inv.Builds content p) : p.options = inv.options := by
  obtain ⟨source, -, hbuild⟩ := hp
  exact (Program.of_build hbuild).1

theorem Ends.unique {code code' : Nat} {out out' err err' : List UInt8}
    (h : inv.Ends content k clock s fuel code out err)
    (h' : inv.Ends content k clock s fuel code' out' err') : code = code' ∧ out = out' ∧ err = err' := by
  obtain ⟨v, hrun, rfl, rfl⟩ := h
  obtain ⟨v', hrun', rfl, rfl⟩ := h'
  rw [hrun] at hrun'
  cases hrun'
  exact ⟨rfl, rfl, rfl⟩

/-- The streams of the run, and other ones at which to take the process of the program through its steps:
nothing is written on either, they have the same input, and the clock is of no account. -/
structure Parallel (inv : Invocation) (content : Except FileError (List UInt8)) (k : Archive σ) (s : σ)
    (l : Archive τ) (clock : UInt64) (t : τ) : Prop where
  fresh : k.Fresh s
  fresh' : l.Fresh t
  input_eq : l.input t = k.input s
  timeless : inv.Timeless content l (Process.start · clock t)

namespace Parallel

variable (h : inv.Parallel content k s l clock' t)

include h

/-- After what is said before the run, the process of the program keeps step with the one at the other
streams. -/
theorem steps_follow (hp : inv.Builds content p) {v : σ} (hv : k.Says (inv.picture p) s v) {n : Nat}
    (hn : inv.Allows n) :
    let run := (Process.start p clock v).steps k.answer n
    let run' := (Process.start p clock' t).steps l.answer n
    run.1 = run'.1 ∧ run.2.machine.pos = run'.2.machine.pos ∧
      k.Shows ((Process.start p clock' t).printed l n)
        (inv.picture p ++ (Process.start p clock' t).prompts l n) run.2.streams := by
  intro run run'
  have hseed : p.options.seed ≠ 0 ∨ (Process.start p clock' t).draws l.answer n = [] := by
    rw [hp.options_eq]
    exact h.timeless.imp_right fun hnone => hnone p n hp hn
  have hinput : l.input t = k.input v := h.input_eq.trans hv.input_eq.symm
  obtain ⟨hanswers, hmachine, hstreams⟩ :=
    (h.fresh'.continues hv.isOpen hinput).steps (Machine.start p clock) n
  obtain ⟨hanswers', hpos, hstreams'⟩ := Process.steps_clock clock hseed
  have hquestions : l.written .diagnostics run'.2.streams = l.written .diagnostics t ++ _ :=
    Process.written_diagnostics (x := Process.start p clock' t) h.fresh'.1 n
  have hprologue := h.fresh.shows.says hv
  have hwritten : ∀ ch, k.written ch run.2.streams = k.written ch v ++ l.written ch run'.2.streams := by
    intro ch
    rw [← hstreams']
    exact hstreams.written_eq ch
  refine ⟨hanswers.symm.trans hanswers', (congrArg Machine.pos hmachine).symm.trans hpos,
    hstreams.isOpen, ?_, ?_⟩
  · rw [hwritten, hprologue.output_eq, List.nil_append]
    rfl
  · rw [hwritten, hprologue.diagnostics_eq, hquestions, h.fresh'.2, List.nil_append, List.nil_append]
    rfl

/-- A program that halts in time is concluded at streams that show its steps. -/
theorem run_of_haltsAt (hp : inv.Builds content p) {n : Nat} {r : Except StepError Progress}
    (hn : n ≤ inv.span fuel) (hr : (Process.start p clock' t).HaltsAt l.answer n r) :
    ∃ v, (inv.run content clock fuel).run k.answer s =
        (inv.conclude (r.map fun _ => ())).run k.answer v ∧
      k.Shows ((Process.start p clock' t).printed l n)
        (inv.picture p ++ (Process.start p clock' t).prompts l n) v := by
  obtain ⟨v, hv, hrun⟩ := run_runProgram h.fresh.1 inv p clock
  obtain ⟨hanswers, -, hshows⟩ := h.steps_follow hp hv (allows_of_le_span hn)
  refine ⟨_, ?_, hshows⟩
  have hhalts : (Process.start p clock v).HaltsAt k.answer n r := by
    rw [Process.HaltsAt, hanswers]
    exact hr
  rw [run_eq_runProgram hp, hrun, hhalts.runWithin_eq, if_pos hn, close, Run.ended?_eq_some _ hr.2]
  rfl

theorem run_of_runs (hp : inv.Builds content p) {n : Nat} (hn : n = inv.span fuel)
    (hruns : ((Process.start p clock' t).steps l.answer n).1 = List.replicate n (.ok .running)) :
    ∃ v, (inv.run content clock fuel).run k.answer s =
        (inv.breakOff ((Process.start p clock' t).steps l.answer n).2.machine.pos).run k.answer v ∧
      k.Shows ((Process.start p clock' t).printed l n)
        (inv.picture p ++ (Process.start p clock' t).prompts l n) v := by
  obtain ⟨v, hv, hrun⟩ := run_runProgram h.fresh.1 inv p clock
  obtain ⟨hanswers, hpos, hshows⟩ := h.steps_follow hp hv (allows_of_le_span (Nat.le_of_eq hn))
  refine ⟨_, ?_, hshows⟩
  rw [run_eq_runProgram hp, hrun, ← hn, Process.runWithin_of_runs (hanswers.trans hruns), ← hpos]
  rfl

theorem ends_of_rejects {message : String} (hmessage : inv.Rejects content message) :
    inv.Ends content k clock s fuel 1 [] (line message.toList) := by
  obtain ⟨v, hrun, hsays⟩ := run_fail h.fresh.1 message
  have hshows := h.fresh.shows.says hsays
  exact ⟨v, by rw [hmessage.run_eq, hrun], hshows.output_eq, hshows.diagnostics_eq⟩

theorem ends_of_terminated (hp : inv.Builds content p) {n : Nat} (hn : n ≤ inv.span fuel)
    (hr : (Process.start p clock' t).HaltsAt l.answer n (.ok .terminated)) :
    inv.Ends content k clock s fuel 0 ((Process.start p clock' t).printed l n)
      (inv.picture p ++ (Process.start p clock' t).prompts l n) := by
  obtain ⟨v, hrun, hshows⟩ := h.run_of_haltsAt hp hn hr
  exact ⟨v, hrun, hshows.output_eq, hshows.diagnostics_eq⟩

theorem ends_of_crash (hp : inv.Builds content p) {n : Nat} {c : Crash} (hn : n ≤ inv.span fuel)
    (hr : (Process.start p clock' t).HaltsAt l.answer n (.error (.crash c))) :
    inv.Ends content k clock s fuel 1 ((Process.start p clock' t).printed l n)
      (inv.picture p ++ (Process.start p clock' t).prompts l n ++
        (inv.picture c.program ++ line c.text.toList)) := by
  obtain ⟨v, hrun, hshows⟩ := h.run_of_haltsAt hp hn hr
  obtain ⟨w, hconclude, hsays⟩ := run_conclude_crash hshows.isOpen inv c
  have hall := hshows.says hsays
  exact ⟨w, hrun.trans hconclude, hall.output_eq, hall.diagnostics_eq⟩

theorem ends_of_limit (hp : inv.Builds content p) {limit : UInt64} (hlimit : inv.maxSteps = some limit)
    (hruns : ((Process.start p clock' t).steps l.answer limit.toNat).1 =
      List.replicate limit.toNat (.ok .running)) :
    inv.Ends content k clock s fuel 1 ((Process.start p clock' t).printed l limit.toNat)
      (inv.picture p ++ (Process.start p clock' t).prompts l limit.toNat ++ line (StepLimit.message
        ⟨limit.toNat, ((Process.start p clock' t).steps l.answer limit.toNat).2.machine.pos⟩).toList) := by
  have hspan : limit.toNat = inv.span fuel := by rw [span, hlimit]
  obtain ⟨v, hrun, hshows⟩ := h.run_of_runs hp hspan hruns
  rw [breakOff, hlimit] at hrun
  obtain ⟨w, hfail, hsays⟩ := run_fail hshows.isOpen _
  have hall := hshows.says hsays
  exact ⟨w, hrun.trans hfail, hall.output_eq, hall.diagnostics_eq⟩

theorem ends_of_outcome {code : Nat} {out err : List UInt8}
    (houtcome : inv.Outcome content l (Process.start · clock' t) code out err) :
    ∃ enough, ∀ fuel ≥ enough, inv.Ends content k clock s fuel code out err := by
  cases houtcome with
  | rejected hmessage => exact ⟨0, fun fuel _ => h.ends_of_rejects hmessage⟩
  | @terminated p n hp hn hr =>
      exact ⟨n, fun fuel hfuel => h.ends_of_terminated hp (hn.le_span hfuel) hr⟩
  | @crashed p n c hp hn hr =>
      exact ⟨n, fun fuel hfuel => h.ends_of_crash hp (hn.le_span hfuel) hr⟩
  | brokenOff hp hlimit hruns => exact ⟨0, fun fuel _ => h.ends_of_limit hp hlimit hruns⟩

theorem outcome_of_ends {code : Nat} {out err : List UInt8}
    (hends : inv.Ends content k clock s fuel code out err) :
    inv.Outcome content l (Process.start · clock' t) code out err := by
  rcases inv.rejects_or_builds content with ⟨message, hmessage⟩ | ⟨p, hp⟩
  · obtain ⟨rfl, rfl, rfl⟩ := hends.unique (h.ends_of_rejects hmessage)
    exact .rejected hmessage
  rcases Process.halts_or_runs (f := l.answer) (inv.span fuel) (Process.start p clock' t) with
    ⟨n, hn, r, hr⟩ | hruns
  · rcases r with (_ | c) | (_ | _)
    · exact absurd rfl (hr.ne_alreadyExecuted rfl)
    · obtain ⟨rfl, rfl, rfl⟩ := hends.unique (h.ends_of_crash hp hn hr)
      exact .crashed hp (allows_of_le_span hn) hr
    · exact absurd rfl hr.2
    · obtain ⟨rfl, rfl, rfl⟩ := hends.unique (h.ends_of_terminated hp hn hr)
      exact .terminated hp (allows_of_le_span hn) hr
  · cases hlimit : inv.maxSteps with
    | none =>
        -- A run without a limit of its own has not ended.
        obtain ⟨w, hend, -⟩ := hends
        obtain ⟨v, (hrun : (inv.run content clock fuel).run k.answer s = _), -⟩ :=
          h.run_of_runs hp rfl hruns
        rw [hrun, breakOff, hlimit] at hend
        cases hend
    | some limit =>
        have hspan : inv.span fuel = limit.toNat := by rw [span, hlimit]
        rw [hspan] at hruns
        obtain ⟨rfl, rfl, rfl⟩ := hends.unique (h.ends_of_limit hp hlimit hruns)
        exact .brokenOff hp hlimit hruns

end Parallel

end

/-- Only the program's own end gives the exit code 0. -/
theorem Outcome.code_eq {τ : Type} {inv : Invocation} {content : Except FileError (List UInt8)}
    {l : Archive τ} {x : Program → Process τ} {code : Nat} {out err : List UInt8}
    (h : inv.Outcome content l x code out err) :
    code = 0 ∧ inv.Succeeds content l x ∨ code = 1 := by
  cases h with
  | terminated hp hn h => exact .inl ⟨rfl, _, _, hp, hn, h⟩
  | rejected h => exact .inr rfl
  | crashed hp hn h => exact .inr rfl
  | brokenOff hp hlimit h => exact .inr rfl

/-- To run a file is to build the program and to take its process through its steps, at any clock that
fits: if the run ends, its exit code, output and diagnostics are those of an `Outcome`, and with fuel
enough every `Outcome` is reached. -/
theorem wraps_library {σ τ : Type} (k : Archive σ) (l : Archive τ) {args : List String}
    {inv : Invocation} (hargs : parse? args = some inv) (content : Except FileError (List UInt8))
    (clock clock' : UInt64) {s : σ} {t : τ} (hs : k.Fresh s) (ht : l.Fresh t)
    (hinput : l.input t = k.input s)
    (hclock : inv.Timeless content l (Process.start · clock' t)) :
    inv.Obeys args ∧ ∀ code out err,
      (∀ fuel, inv.Ends content k clock s fuel code out err →
        inv.Outcome content l (Process.start · clock' t) code out err ∧
          (code = 0 ∨ code = 1) ∧
          (code = 0 ↔ inv.Succeeds content l (Process.start · clock' t))) ∧
      (inv.Outcome content l (Process.start · clock' t) code out err →
        ∃ enough, ∀ fuel ≥ enough, inv.Ends content k clock s fuel code out err) := by
  have h : inv.Parallel content k s l clock' t := ⟨hs, ht, hinput, hclock⟩
  have hends : ∀ {code out err}, inv.Outcome content l (Process.start · clock' t) code out err →
      ∃ enough, ∀ fuel ≥ enough, inv.Ends content k clock s fuel code out err := h.ends_of_outcome
  refine ⟨obeys_of_parse? hargs, fun code out err => ⟨fun fuel hend => ?_, hends⟩⟩
  have houtcome := h.outcome_of_ends hend
  refine ⟨houtcome, houtcome.code_eq.imp_left And.left, ?_, ?_⟩
  · rintro rfl
    exact (houtcome.code_eq.resolve_right Nat.zero_ne_one).2
  · rintro ⟨p, n, hp, hn, hhalts⟩
    -- The end of the program is an outcome too, and there is only one.
    obtain ⟨enough, hend⟩ := hends houtcome
    obtain ⟨enough', hend'⟩ := hends (.terminated hp hn hhalts)
    exact ((hend _ (Nat.le_max_left enough enough')).unique
      (hend' _ (Nat.le_max_right enough enough'))).1

/-- A program that asks what 1/0 is to be, writes it, stores a character from the input at the start of its
playfield, and then crashes. -/
theorem wraps_library_crash :
    ∃ (inv : Invocation) (p : Program) (s : Console),
      parse? ["--print-prog", "--rand-seed", "7", "--max-steps=20", "a.bf"] = some inv ∧
      Program.build "10/.~00p0%@".toList inv.options = .ok p ∧
      Console.archive.Fresh s ∧ s.input = [.bytes [0x35, 0x0A, 0x58]] ∧
      inv.Timeless (.ok (Utf8.encode "10/.~00p0%@".toList)) Console.archive (Process.start · 1 s) ∧
      ∃ enough, ∀ fuel ≥ enough,
        inv.Ends (.ok (Utf8.encode "10/.~00p0%@".toList)) Console.archive 1 s fuel 1 [0x35, 0x20]
          (line p.grid.render ++ Action.question 1 ++
            (line (p.stored 0 0 0x58).render ++
              line "runtime error at (9, 0): division by zero: 0 % 0".toList)) := by
  have hrun : ∀ {args inv p s n c source out b g message}, parse? args = some inv → inv.options.seed ≠ 0 →
      inv.printProgram = true → Program.build source inv.options = .ok p →
      Console.archive.Fresh s → inv.Allows n →
      (Process.start p 1 s).HaltsAt Console.answer n (.error (.crash c)) →
      (Process.start p 1 s).printed Console.archive n = out →
      (Process.start p 1 s).questions Console.answer n = [b] →
      c.program.grid = g → c.text = message →
      ∃ enough, ∀ fuel ≥ enough, inv.Ends (.ok (Utf8.encode source)) Console.archive 1 s fuel 1 out
        (line p.grid.render ++ Action.question b ++ (line g.render ++ line message.toList)) := by
    rintro args inv p s n c source _ b _ _ hargs hseed hprint hbuild hs hn hr rfl hquestions rfl rfl
    have hends := ((wraps_library Console.archive Console.archive hargs _ 1 1 hs hs rfl
      (.inl hseed)).2 _ _ _).2 (.crashed ⟨source, rfl, hbuild⟩ hn hr)
    have hprompts : (Process.start p 1 s).prompts Console.archive n = Action.question b :=
      (congrArg (List.flatMap Action.question) hquestions).trans (List.append_nil _)
    simpa only [picture, hprint, ↓reduceIte, hprompts] using hends
  obtain ⟨inv, hinv⟩ : ∃ inv : Invocation, inv = ⟨"a.bf", { seed := 7 }, true, some 20⟩ := ⟨_, rfl⟩
  obtain ⟨p, hp⟩ : ∃ p : Program, p = ⟨.ofRows 80 25 ["10/.~00p0%@".toList], { seed := 7 }⟩ :=
    ⟨_, rfl⟩
  obtain ⟨s, hs⟩ : ∃ s : Console, s = { input := [.bytes [0x35, 0x0A, 0x58]] } := ⟨_, rfl⟩
  have hargs : parse? ["--print-prog", "--rand-seed", "7", "--max-steps=20", "a.bf"] = some inv := by
    rw [hinv]
    decide +kernel
  have hseed : inv.options.seed ≠ 0 := by
    rw [hinv]
    decide
  have hbuild : Program.build "10/.~00p0%@".toList inv.options = .ok p := by
    rw [hinv, hp]
    rfl
  have hfresh : Console.archive.Fresh s := by
    rw [hs]
    exact ⟨fun ch => by cases ch <;> exact ⟨rfl, rfl⟩, fun ch => by cases ch <;> rfl⟩
  have hn : inv.Allows 10 := by
    rintro limit hlimit
    rw [hinv] at hlimit
    cases hlimit
    decide
  obtain ⟨x, hx⟩ : ∃ x, x = Process.start p 1 s := ⟨_, rfl⟩
  obtain ⟨y, hy⟩ : ∃ y, y = (x.steps Console.answer 9).2 := ⟨_, rfl⟩
  obtain ⟨hputs, hprinted, hquestions⟩ : x.puts Console.answer 9 = [⟨0, 0, 0x58⟩] ∧
      x.printed Console.archive 10 = [0x35, 0x20] ∧ x.questions Console.answer 10 = [1] := by
    rw [hx, hp, hs]
    decide +kernel
  obtain ⟨hdispatches, hpos, hremainder, hzero, hzero'⟩ : y.machine.Dispatches ∧
      y.machine.pos = ⟨9, 0⟩ ∧ Instruction.decode y.machine.fetch = .remainder ∧
      y.machine.stack.peek 0 = 0 ∧ y.machine.stack.peek 1 = 0 := by
    rw [hy, hx, hp, hs]
    decide +kernel
  have hprogram : y.machine.program = p.after (some ⟨0, 0, 0x58⟩) := by
    rw [hy, Process.program_steps, hputs, hx]
    rfl
  obtain ⟨c, hc⟩ : ∃ c, c = y.machine.report (.divisionByZero '%' 0) := ⟨_, rfl⟩
  have hgrid : c.program.grid = p.stored 0 0 0x58 := by
    rw [hc, Machine.report, hprogram]
    rfl
  have htext : c.text = "runtime error at (9, 0): division by zero: 0 % 0" := by
    have hclosed : ∀ (q : Pos) (message : String), q = ⟨9, 0⟩ →
        message = (Fault.divisionByZero '%' 0).message →
        s!"runtime error at ({q.x}, {q.y}): {message}" =
          "runtime error at (9, 0): division by zero: 0 % 0" := by
      rintro _ _ rfl rfl
      decide +kernel
    exact (congrArg Crash.text hc).trans (hclosed _ _ hpos rfl)
  have hcrash : (y.step Console.answer).1 = .error (.crash c) := by
    have hrefuses : y.machine.program.Refuses y.machine.stack.peek
        (Instruction.decode y.machine.fetch) (.divisionByZero '%' 0) := by
      rw [hremainder, ← hzero']
      exact .remainder hzero
    rw [Process.step, Machine.run_step_of_refuses hdispatches hrefuses, hc]
  have hr : x.HaltsAt Console.answer 10 (.error (.crash c)) := by
    rw [hy] at hdispatches hcrash
    exact Process.haltsAt_of_not_done hdispatches.1 hcrash (by simp)
  subst hx
  exact ⟨inv, p, s, hargs, hbuild, hfresh, by rw [hs], .inl hseed,
    hrun hargs hseed (by rw [hinv]) hbuild hfresh hn hr hprinted hquestions hgrid htext⟩

end Invocation

end Befunge
