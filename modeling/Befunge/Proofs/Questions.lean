import Befunge.Proofs.Forks
import Befunge.Proofs.Warnings

/-!
# What a process says on the diagnostics

A process puts nothing on the diagnostics but its questions: one for each division by zero whose result
is left to the user, in the step that makes it.
-/

namespace Befunge

/-! ## What requests send -/

namespace Asked

variable {σ : Type}

/-- What a request puts on a channel. -/
def sent (ch : Channel) (a : Asked σ) : List UInt8 :=
  match a.request with
  | .write ch' bytes => if ch' = ch then bytes else []
  | _ => []

/-- What the requests put on a channel, one after another. -/
def transcript (ch : Channel) (l : List (Asked σ)) : List UInt8 := l.flatMap (sent ch)

variable {ch : Channel} {l k : List (Asked σ)}

theorem transcript_cons (a : Asked σ) : transcript ch (a :: l) = a.sent ch ++ transcript ch l := rfl

theorem transcript_append : transcript ch (l ++ k) = transcript ch l ++ transcript ch k :=
  List.flatMap_append

theorem transcript_eq_nil (h : ∀ a ∈ l, a.sent ch = []) : transcript ch l = [] :=
  List.flatMap_eq_nil_iff.mpr h

end Asked

namespace Archive

open Asked

variable {σ : Type} {k : Archive σ}

theorem written_answer {s : σ} (hs : k.Open s) (ch : Channel) (r : Request) :
    k.written ch (k.answer r s).2 = k.written ch s ++ sent ch ⟨r, s⟩ := by
  cases r with
  | write ch' bytes =>
      rw [(k.write hs ch' bytes).2.2 ch]
      simp only [sent]
      by_cases h : ch = ch'
      · rw [if_pos h, if_pos h.symm, h]
      · rw [if_neg h, if_neg (Ne.symm h), List.append_nil]
  | flush ch' => exact ((k.flush hs ch').2.2 ch).trans (List.append_nil _).symm
  | readByte => exact ((k.other hs (r := .readByte) rfl).2 ch).trans (List.append_nil _).symm
  | readLine => exact ((k.other hs (r := .readLine) rfl).2 ch).trans (List.append_nil _).symm
  | note e => exact ((k.other hs (r := .note e) rfl).2 ch).trans (List.append_nil _).symm

/-- A dialogue adds to each channel what its requests put there. -/
theorem written_run {α : Type} (d : Dialogue α) {s : σ} (hs : k.Open s) (ch : Channel) :
    k.written ch (d.run k.answer s).2 = k.written ch s ++ transcript ch (d.asked k.answer s) := by
  induction d generalizing s with
  | done a => exact (List.append_nil _).symm
  | ask r next ih =>
      have hlater := ih (k.answer r s).1 (isOpen_answer hs r)
      rw [written_answer hs, List.append_assoc] at hlater
      exact hlater

end Archive

/-! ## Questions -/

/-- The dividend that the next step asks about: it executes `/` with a zero on top of the stack, and
division by zero is no fault. -/
def Machine.question? (m : Machine) : Option Int64 :=
  if m.Dispatches ∧ Instruction.decode m.fetch = .divide ∧ m.stack.peek 0 = 0 ∧
      m.options.strictDivision = false then
    some (m.stack.peek 1)
  else none

namespace Action

open Asked Attempt

variable {σ : Type} {f : Responder σ} {o : Options}

/-- The dividend that an action asks about. -/
def asks? : Action → Option Int64
  | .ask b => some b
  | _ => none

theorem sent_settle (a : Except StreamError Unit) (s : σ) :
    ∀ b ∈ (settle o a).run.asked f s, b.sent .diagnostics = [] := by
  intro b hb
  obtain ⟨e, he⟩ := exists_note_of_settle a s b hb
  simp only [sent, he]

theorem transcript_recover {α : Type} {x : Attempt α} {event : Fault → Event} {s : σ}
    (h : transcript .diagnostics (x.run.asked f s) = []) :
    transcript .diagnostics ((recover o event x).run.asked f s) = [] := by
  rw [asked_recover, transcript_append, h, List.nil_append]
  rcases x.run.run f s with ⟨e | v, t⟩
  · simp only
    split
    · rfl
    · rfl
  · rfl

theorem transcript_perform (a : Action) (s : σ) :
    transcript .diagnostics ((a.perform o).run.asked f s) = a.asks?.toList.flatMap question := by
  cases a with
  | write bytes =>
      rw [perform, bind_pure_comp, asked_map]
      exact transcript_eq_nil (List.forall_mem_cons.mpr ⟨rfl, sent_settle _ _⟩)
  | flush =>
      rw [perform, bind_pure_comp, asked_map]
      exact transcript_eq_nil (List.forall_mem_cons.mpr ⟨rfl, sent_settle _ _⟩)
  | ask b =>
      rw [perform, bind_pure_comp, asked_map, asked_prompt, transcript_cons]
      congr 1
      rcases f (.write .diagnostics (question b)) s with ⟨e | u, t⟩
      · exact transcript_eq_nil (sent_settle _ _)
      · exact transcript_eq_nil (List.forall_mem_cons.mpr ⟨rfl, sent_settle _ _⟩)
  | readInteger failed => exact transcript_recover (by rw [asked_integerLine]; rfl)
  | readChar =>
      refine transcript_recover (transcript_eq_nil fun a ha => ?_)
      have hbyte := (failures_character (f := f) o.unicode s).1 a ha
      simp only [sent, hbyte]
  | discard x y v => rfl

/-- A question that is asked first is asked even if the actions after it are not performed. -/
theorem transcript_performAll {as : List Action} (h : ∀ a ∈ as.tail, a.asks? = none) (s : σ) :
    transcript .diagnostics ((performAll o as).run.asked f s) =
      (as.head?.bind asks?).toList.flatMap question := by
  induction as generalizing s with
  | nil => rfl
  | cons a as ih =>
      have hhead : as.head?.bind asks? = none := by
        cases as with
        | nil => rfl
        | cons b bs => exact h b List.mem_cons_self
      have hlater : ∀ t, transcript .diagnostics ((performAll o as).run.asked f t) = [] := by
        intro t
        rw [ih (fun b hb => h b (List.mem_of_mem_tail hb)), hhead]
        rfl
      rw [performAll, asked_bind, transcript_append, transcript_perform]
      simp only [bind_pure_comp, asked_map, List.head?_cons, Option.bind_some]
      rcases (a.perform o).run.run f s with ⟨e | v, t⟩
      · exact List.append_nil _
      · simp only [hlater, List.append_nil]

end Action

namespace Machine

open Asked

variable {σ : Type} {f : Responder σ} {m : Machine}

theorem asks?_actions (p : Program) (peek : Nat → Int64) (i : Instruction) :
    (∀ a ∈ (p.actions peek i).tail, a.asks? = none) ∧
      (p.actions peek i).head?.bind Action.asks? =
        if i = .divide ∧ peek 0 = 0 ∧ p.options.strictDivision = false then some (peek 1)
        else none := by
  cases i with
  | divide =>
      simp only [Program.actions, true_and]
      split
      · simp [Action.asks?]
      · exact ⟨List.forall_mem_nil _, rfl⟩
  | writeChar =>
      simp only [Program.actions]
      split
      · split
        · exact ⟨List.forall_mem_nil _, rfl⟩
        · exact ⟨List.forall_mem_nil _, rfl⟩
      · exact ⟨List.forall_mem_nil _, rfl⟩
  | put =>
      simp only [Program.actions]
      split
      · exact ⟨List.forall_mem_nil _, rfl⟩
      · exact ⟨List.forall_mem_nil _, rfl⟩
  | readInteger => exact ⟨List.forall_mem_singleton.mpr rfl, rfl⟩
  | readChar => exact ⟨List.forall_mem_singleton.mpr rfl, rfl⟩
  | _ => exact ⟨List.forall_mem_nil _, rfl⟩

theorem transcript_consult (p : Program) (peek : Nat → Int64) (i : Instruction) (s : σ) :
    transcript .diagnostics ((p.consult peek i).run.asked f s) =
      ((p.actions peek i).head?.bind Action.asks?).toList.flatMap Action.question := by
  by_cases h : ∃ e, p.Refuses peek i e
  · obtain ⟨e, he⟩ := h
    rw [Program.consult_of_refuses he, Program.actions_of_refuses he]
    rfl
  · rw [Program.consult_of_not_refuses (not_exists.mp h), Attempt.asked_map]
    exact Action.transcript_performAll (asks?_actions p peek i).1 s

theorem transcript_conclude (i : Instruction) (r : Except Fault (Option Int64)) (s : σ) :
    transcript .diagnostics ((m.conclude i r).asked f s) = [] := by
  rcases r with e | v
  · rw [asked_conclude_error, asked_lastFlush]
    rcases f (.flush .output) s with ⟨e | u, t⟩
    · rfl
    · rfl
  · by_cases hi : i = .stop
    · rw [hi]
      rfl
    · rw [conclude_next m hi]
      rfl

/-- A step puts its question on the diagnostics, and nothing else. -/
theorem transcript_step (m : Machine) (s : σ) :
    transcript .diagnostics (m.step.asked f s) = m.question?.toList.flatMap Action.question := by
  by_cases h : m.Dispatches
  · rw [asked_step_of_dispatches h]
    simp only [transcript_cons, transcript_append, transcript_conclude, transcript_consult,
      List.append_nil, (asks?_actions _ _ _).2, question?, h, true_and]
    rfl
  · simp only [asked_step_of_not_dispatches h, question?, h, false_and, ↓reduceIte]
    rfl

end Machine

namespace Process

open Asked

variable {σ : Type} (f : Responder σ)

/-- The dividends that a number of steps ask about, in order. -/
def questions : Nat → Process σ → List Int64
  | 0, _ => []
  | n + 1, x => x.machine.question?.toList ++ questions n (x.step f).2

variable {f}

theorem transcript_asked (n : Nat) (x : Process σ) :
    transcript .diagnostics (x.asked f n) = (x.questions f n).flatMap Action.question := by
  induction n generalizing x with
  | zero => rfl
  | succ n ih =>
      rw [asked, transcript_append, Machine.transcript_step, ih, questions, List.flatMap_append]

/-- A run adds its questions to the diagnostics, and nothing else. -/
theorem written_diagnostics {k : Archive σ} {x : Process σ} (hx : k.Open x.streams) (n : Nat) :
    k.written .diagnostics (x.steps k.answer n).2.streams =
      k.written .diagnostics x.streams ++ (x.questions k.answer n).flatMap Action.question := by
  rw [← transcript_asked, asked_eq, ← Archive.written_run _ hx, steps_eq_run]

end Process

end Befunge
