import Befunge.Proofs.Atomicity
import Befunge.Proofs.Failures

/-!
# No failure is silent

Where stream errors are passed over, each failure that a process meets on its streams is logged with a
warning of its own. Where they are fatal nothing is passed over, so that only the flush after a fault is
left to be warned of. The end of a program is the last thing that is logged of it.
-/

namespace Befunge

/-! ## Steps -/

namespace Machine

open Asked

/-- The warning that stands in the log for a failure. In a step that crashes, and where errors are passed
over, the only stream that is used is the output, to flush it after the fault. -/
def warning (m : Machine) (crashed : Bool) : Failure → Event
  | .sink e => if crashed then .lastFlushFailed e else .streamErrorIgnored e
  | .read e =>
    match Instruction.decode m.fetch with
    | .divide => .quotientInputFailed e
    | .readInteger => .integerInputFailed e
    | _ => .characterInputFailed e

/-- What is logged at the end of the program, which a step has reached if it answers so. -/
def ending? (m : Machine) : Except StepError Progress → Option Event
  | .ok .terminated => some (.terminated m.pos)
  | .error (.crash c) => some (.crashed m.pos c.cause)
  | .ok .running | .error .alreadyExecuted => none

variable {σ : Type} {f : Responder σ} {m : Machine}

theorem level_warning (m : Machine) (crashed : Bool) (x : Failure) :
    (m.warning crashed x).level = .warn := by
  cases x with
  | sink e => cases crashed <;> rfl
  | read e =>
      simp only [warning]
      split <;> rfl

theorem isLoggedBy_warning (m : Machine) :
    ∀ a ∈ m.program.actions m.stack.peek (Instruction.decode m.fetch),
      a.IsLoggedBy (m.warning false) := by
  have hsink : ∀ e, m.warning false (.sink e) = .streamErrorIgnored e := fun _ => rfl
  have hread : ∀ e, m.warning false (.read e) = match Instruction.decode m.fetch with
    | .divide => .quotientInputFailed e
    | .readInteger => .integerInputFailed e
    | _ => .characterInputFailed e := fun _ => rfl
  generalize m.warning false = report at hsink hread
  generalize Instruction.decode m.fetch = i at hread
  cases i with
  | divide =>
      simp only [Program.actions]
      split
      · simpa [Action.IsLoggedBy] using ⟨hsink, hread⟩
      · exact List.forall_mem_nil _
  | readInteger => simpa [Program.actions, Action.IsLoggedBy] using ⟨hsink, hread⟩
  | readChar => simpa [Program.actions, Action.IsLoggedBy] using ⟨hsink, hread⟩
  | writeInteger => simpa [Program.actions, Action.IsLoggedBy] using hsink
  | stop => simpa [Program.actions, Action.IsLoggedBy] using hsink
  | writeChar =>
      simp only [Program.actions]
      split
      · split
        · simpa [Action.IsLoggedBy] using hsink
        · exact List.forall_mem_nil _
      · simpa [Action.IsLoggedBy] using hsink
  | put =>
      simp only [Program.actions]
      split
      · exact List.forall_mem_nil _
      · simpa [Action.IsLoggedBy] using hsink
  | _ => exact List.forall_mem_nil _

theorem ne_readChar_of_mem_dropLast {p : Program} {peek : Nat → Int64} {i : Instruction} :
    ∀ a ∈ (p.actions peek i).dropLast, a ≠ .readChar := by
  cases i with
  | divide =>
      simp only [Program.actions]
      split
      · simp
      · exact List.forall_mem_nil _
  | writeChar =>
      simp only [Program.actions]
      split
      · split
        · exact List.forall_mem_nil _
        · exact List.forall_mem_nil _
      · exact List.forall_mem_nil _
  | put =>
      simp only [Program.actions]
      split
      · exact List.forall_mem_nil _
      · exact List.forall_mem_nil _
  | readInteger => simp [Program.actions]
  | readChar => simp [Program.actions]
  | _ => exact List.forall_mem_nil _

theorem logged_consult (m : Machine) (s : σ) :
    Logged f m.options (m.warning false)
      ((m.program.consult m.stack.peek (Instruction.decode m.fetch)).run.asked f s) := by
  by_cases h : ∃ e, m.program.Refuses m.stack.peek (Instruction.decode m.fetch) e
  · obtain ⟨e, he⟩ := h
    rw [Program.consult_of_refuses he]
    exact .nil
  · rw [Program.consult_of_not_refuses (not_exists.mp h), Attempt.asked_map]
    exact Action.logged_performAll (m.level_warning false) m.isLoggedBy_warning
      ne_readChar_of_mem_dropLast s

theorem asked_lastFlush (s : σ) :
    lastFlush.asked f s = ⟨.flush .output, s⟩ ::
      match f (.flush .output) s with
      | (.ok _, _) => []
      | (.error e, t) => [⟨.note (.lastFlushFailed e), t⟩] := by
  unfold lastFlush Dialogue.flush
  rw [Dialogue.asked_bind, Dialogue.asked_request, Dialogue.run_request]
  rcases f (.flush .output) s with ⟨e | _, t⟩
  · rfl
  · rfl

theorem asked_conclude_error (i : Instruction) (e : Fault) (s : σ) :
    (m.conclude i (.error e)).asked f s =
      lastFlush.asked f s ++ [⟨.note (.crashed m.pos e), (lastFlush.run f s).2⟩] := by
  rw [conclude_error, Dialogue.asked_bind]
  rfl

theorem asked_step_of_not_dispatches (h : ¬ m.Dispatches) (s : σ) : m.step.asked f s = [] := by
  rcases m.step_trichotomy with hd | ⟨hd, hs, hq⟩ | hd
  · simp only [step, hd, ↓reduceIte]
    rfl
  · simp only [step, hd, hs, hq, Bool.false_eq_true, ↓reduceIte, ne_eq, not_false_eq_true, and_self]
    rfl
  · exact absurd hd h

theorem asked_step_of_dispatches (h : m.Dispatches) (s : σ) :
    let i := Instruction.decode m.fetch
    let t := (f (.note (.dispatched m.pos i)) s).2
    let x := (m.program.consult m.stack.peek i).run
    m.step.asked f s = ⟨.note (.dispatched m.pos i), s⟩ ::
      (x.asked f t ++ (m.conclude i (x.run f t).1).asked f (x.run f t).2) := by
  simp only [step_of_dispatches h, Dialogue.asked_bind]
  rfl

/-- What a step may answer, and the requests that it then has made. -/
inductive Requested (f : Responder σ) (m : Machine) :
    Except StepError Progress → List (Asked σ) → Prop
  | done : Requested f m (.error .alreadyExecuted) []
  | char : Requested f m (.ok .running) []
  | next {s : σ} {l : List (Asked σ)} (h : Logged f m.options (m.warning false) l) :
      Requested f m (.ok .running)
        (⟨.note (.dispatched m.pos (Instruction.decode m.fetch)), s⟩ :: l)
  | stop {s t : σ} {l : List (Asked σ)} (h : Logged f m.options (m.warning false) l) :
      Requested f m (.ok .terminated)
        (⟨.note (.dispatched m.pos (Instruction.decode m.fetch)), s⟩ ::
          (l ++ [⟨.note (.terminated m.pos), t⟩]))
  | fault {s t v : σ} {l : List (Asked σ)} {e : Fault}
      (h : Logged f m.options (m.warning false) l)
      (hl : m.options.strictStreams = false → l = []) :
      Requested f m (.error (.crash (m.report e)))
        (⟨.note (.dispatched m.pos (Instruction.decode m.fetch)), s⟩ ::
          (l ++ (lastFlush.asked f t ++ [⟨.note (.crashed m.pos e), v⟩])))

theorem requested (f : Responder σ) (m : Machine) (s : σ) :
    Requested f m (m.step.run f s).1.1 (m.step.asked f s) := by
  rcases m.step_trichotomy with h | ⟨h, hs, hq⟩ | h
  · have hnot : ¬ m.Dispatches := by simp [Dispatches, h]
    rw [run_step_of_done f h, asked_step_of_not_dispatches hnot]
    exact .done
  · have hnot : ¬ m.Dispatches := by simp [Dispatches, hs, hq]
    rw [run_step_of_char f h hs hq, asked_step_of_not_dispatches hnot]
    exact .char
  · rw [run_step_of_dispatches f h, asked_step_of_dispatches h]
    simp only
    generalize (f (.note (.dispatched m.pos (Instruction.decode m.fetch))) s).2 = t
    have hlogged := m.logged_consult (f := f) t
    -- Where errors are passed over, an instruction that faults has refused, and asked for nothing.
    have hrefused : ∀ e v, (m.program.consult m.stack.peek (Instruction.decode m.fetch)).run.run f t =
        (.error e, v) → m.options.strictStreams = false →
          (m.program.consult m.stack.peek (Instruction.decode m.fetch)).run.asked f t = [] := by
      intro e v hrun hs
      have hs : ¬ m.program.options.strictStreams = true := by
        rw [Bool.not_eq_true]
        exact hs
      have hrefuses := (Program.run_consult_error_iff.mp ⟨v, hrun⟩).resolve_right fun h => hs h.1
      rw [Program.consult_of_refuses hrefuses]
      rfl
    generalize hx : (m.program.consult m.stack.peek (Instruction.decode m.fetch)).run.run f t = x
      at hrefused ⊢
    obtain ⟨e | v, u⟩ := x
    · simp only [run_conclude_error, asked_conclude_error]
      exact .fault hlogged (hrefused e u rfl)
    · by_cases hi : Instruction.decode m.fetch = .stop
      · simp only [hi, conclude_stop]
        exact hi ▸ .stop hlogged
      · rw [conclude_next m hi, Dialogue.asked_pure, List.append_nil]
        exact .next hlogged

variable {r : Except StepError Progress} {l : List (Asked σ)}

theorem Requested.warnings_eq (h : Requested f m r l) (hs : m.options.strictStreams = false) :
    warnings l = (failures f m.options.unicode l).map (m.warning !r.isOk) := by
  have hlenient : ∀ {l}, Logged f m.options (m.warning false) l →
      warnings l = (failures f m.options.unicode l).map (m.warning false) := by
    intro l hl
    rw [hl.warnings_eq, hs]
    rfl
  cases h with
  | done => rw [failures_nil]; rfl
  | char => rw [failures_nil]; rfl
  | next hl =>
      rw [warnings_note_of_ne (by nofun), failures_note]
      exact hlenient hl
  | @stop s t l hl =>
      have hend : warnings ([⟨.note (.terminated m.pos), t⟩] : List (Asked σ)) = [] := rfl
      rw [warnings_note_of_ne (by nofun), failures_note, warnings_append, hend, List.append_nil,
        failures_concat_note]
      exact hlenient hl
  | @fault s t v l e _ hl =>
      obtain rfl := hl hs
      have hend : warnings ([⟨.note (.crashed m.pos e), v⟩] : List (Asked σ)) = [] := rfl
      rw [warnings_note_of_ne (by nofun), failures_note, List.nil_append, warnings_append, hend,
        List.append_nil, failures_concat_note, asked_lastFlush]
      have hfailure : failure? f ⟨.flush .output, t⟩ =
        Request.failure? (.flush .output) (f (.flush .output) t).1 := rfl
      generalize f (.flush .output) t = x at hfailure ⊢
      obtain ⟨e | u, v'⟩ := x
      · have hfailures : failures f m.options.unicode
            [⟨.flush .output, t⟩, ⟨.note (.lastFlushFailed e), v'⟩] = [.sink e] := by
          rw [failures_of_no_byte (by simp), List.filterMap_cons_some hfailure]
          rfl
        rw [hfailures]
        rfl
      · rw [failures_of_no_byte (by simp), List.filterMap_cons_none hfailure]
        rfl

/-- Where errors are fatal, at most the flush after a fault is warned of. -/
theorem Requested.warnings_strict (h : Requested f m r l) (hs : m.options.strictStreams = true) :
    warnings l = [] ∨ ∃ e t, warnings l = [.lastFlushFailed e] ∧ r.isOk = false ∧
      ⟨.flush .output, t⟩ ∈ l ∧ (f (.flush .output) t).1 = .error e := by
  have hstrict : ∀ {l}, Logged f m.options (m.warning false) l → warnings l = [] := by
    intro l hl
    rw [hl.warnings_eq, hs]
    rfl
  cases h with
  | done => exact .inl rfl
  | char => exact .inl rfl
  | next hl => exact .inl ((warnings_note_of_ne (by nofun) _).trans (hstrict hl))
  | stop hl =>
      left
      rw [warnings_note_of_ne (by nofun), warnings_append, hstrict hl]
      rfl
  | @fault s t v l e hl _ =>
      rw [warnings_note_of_ne (by nofun), warnings_append, hstrict hl, warnings_append, asked_lastFlush]
      cases hflush : f (.flush .output) t with
      | mk answer v' =>
          cases answer with
          | ok u => exact .inl rfl
          | error e => exact .inr ⟨e, t, rfl, rfl, by simp, by rw [hflush]⟩

/-- The end of the program is logged last in its step, and nothing like it is logged before. -/
theorem Requested.events_eq (h : Requested f m r l) :
    ∃ before, events l = before ++ (m.ending? r).toList ∧ ∀ e ∈ before, e.level ≠ .debug := by
  cases h with
  | done => exact ⟨[], rfl, List.forall_mem_nil _⟩
  | char => exact ⟨[], rfl, List.forall_mem_nil _⟩
  | @next s l hl => 
      refine ⟨_, (List.append_nil _).symm, ?_⟩
      rw [events_note]
      exact List.forall_mem_cons.mpr ⟨nofun, hl.level_ne⟩
  | @stop s t l hl =>
      refine ⟨.dispatched m.pos (Instruction.decode m.fetch) :: events l, ?_, ?_⟩
      · rw [events_note, events_append]
        rfl
      · exact List.forall_mem_cons.mpr ⟨nofun, hl.level_ne⟩
  | @fault s t v l e hl _ =>
      refine ⟨.dispatched m.pos (Instruction.decode m.fetch) ::
        (events l ++ events (lastFlush.asked f t)), ?_, ?_⟩
      · rw [events_note, events_append, events_append, ← List.append_assoc]
        rfl
      · refine List.forall_mem_cons.mpr ⟨nofun, List.forall_mem_append.mpr ⟨hl.level_ne, ?_⟩⟩
        rw [asked_lastFlush]
        rcases f (.flush .output) t with ⟨e | u, v'⟩
        · exact List.forall_mem_singleton.mpr nofun
        · exact List.forall_mem_nil _

end Machine

/-! ## Runs -/

namespace Event

/-- The event is the end of a program: it has terminated or crashed. -/
def IsEnd : Event → Prop
  | .terminated _ | .crashed .. => True
  | _ => False

instance : DecidablePred IsEnd
  | .terminated _ | .crashed .. => .isTrue trivial
  | .streamErrorIgnored _ | .integerInputFailed _ | .characterInputFailed _ | .quotientInputFailed _
  | .lastFlushFailed _ | .created .. | .dispatched .. | .putDiscarded .. => .isFalse id

theorem IsEnd.level_eq {e : Event} (h : e.IsEnd) : e.level = .debug := by
  cases e with
  | terminated p => rfl
  | crashed p c => rfl
  | _ => cases h

end Event

namespace Process

variable {σ : Type} (f : Responder σ)

/-- What is logged in the course of a number of steps. -/
def events (n : Nat) (x : Process σ) : List Event := Asked.events (x.asked f n)

def warnings (n : Nat) (x : Process σ) : List Event := Asked.warnings (x.asked f n)

/-- The warnings that are due for the failures of a number of steps, one for each and in order. -/
def due : Nat → Process σ → List Event
  | 0, _ => []
  | n + 1, x =>
    (Asked.failures f x.machine.options.unicode (x.machine.step.asked f x.streams)).map
      (x.machine.warning !(x.step f).1.isOk) ++ due n (x.step f).2

variable {f} {x : Process σ}

theorem requested (x : Process σ) :
    Machine.Requested f x.machine (x.step f).1 (x.machine.step.asked f x.streams) :=
  x.machine.requested f x.streams

theorem asked_of_done (h : x.machine.done = true) (n : Nat) : x.asked f n = [] := by
  induction n with
  | zero => rfl
  | succ n ih =>
      have hnot : ¬ x.machine.Dispatches := by simp [Machine.Dispatches, h]
      rw [asked, Machine.asked_step_of_not_dispatches hnot, step_of_done h, ih]
      rfl

theorem warnings_lenient (hs : x.machine.options.strictStreams = false) (n : Nat) :
    x.warnings f n = x.due f n := by
  induction n generalizing x with
  | zero => rfl
  | succ n ih =>
      have hs' : (x.step f).2.machine.options.strictStreams = false := by
        rw [(x.stepped f).options_eq, hs]
      rw [warnings, asked, Asked.warnings_append, x.requested.warnings_eq hs, due, ← ih hs']
      rfl

theorem warnings_strict (hs : x.machine.options.strictStreams = true) (n : Nat) :
    x.warnings f n = [] ∨ ∃ e t, x.warnings f n = [.lastFlushFailed e] ∧
      ⟨.flush .output, t⟩ ∈ x.asked f n ∧ (f (.flush .output) t).1 = .error e := by
  induction n generalizing x with
  | zero => exact .inl rfl
  | succ n ih =>
      have hs' : (x.step f).2.machine.options.strictStreams = true := by
        rw [(x.stepped f).options_eq, hs]
      rw [warnings, asked, Asked.warnings_append]
      rcases x.requested.warnings_strict hs with hnone | ⟨e, t, hone, herror, hmem, hflush⟩
      · rw [hnone, List.nil_append]
        rcases ih hs' with hnone' | ⟨e, t, hone, hmem, hflush⟩
        · exact .inl hnone'
        · exact .inr ⟨e, t, hone, List.mem_append_right _ hmem, hflush⟩
      · -- A process that has crashed makes no further request.
        have hdone : (x.step f).2.machine.done = true := by
          rw [← Bool.not_eq_false, (x.stepped f).done_eq_false_iff]
          rintro hr
          rw [hr] at herror
          cases herror
        rw [asked_of_done hdone, hone, List.append_nil]
        exact .inr ⟨e, t, rfl, hmem, hflush⟩

theorem events_succ (n : Nat) (x : Process σ) :
    x.events f (n + 1) =
      Asked.events (x.machine.step.asked f x.streams) ++ (x.step f).2.events f n := by
  rw [events, asked, Asked.events_append]
  rfl

theorem ending?_eq_none_iff (h : x.machine.done = false) :
    x.machine.ending? (x.step f).1 = none ↔ (x.step f).2.machine.done = false := by
  have hstepped := x.stepped f
  rw [hstepped.done_eq_false_iff]
  generalize (x.step f).1 = r, (x.step f).2.machine = m' at hstepped
  cases hstepped with
  | done hd =>
      rw [h] at hd
      cases hd
  | char => exact ⟨fun _ => rfl, fun _ => rfl⟩
  | next => exact ⟨fun _ => rfl, fun _ => rfl⟩
  | stop => exact ⟨nofun, nofun⟩
  | fault => exact ⟨nofun, nofun⟩

/-- The end of a program is logged in the step that reaches it, after everything else. -/
theorem events_of_done {n : Nat} (h : x.machine.done = false)
    (hdone : (x.steps f n).2.machine.done = true) :
    ∃ k < n,
      let y := (x.steps f k).2
      y.machine.done = false ∧ (y.step f).2.machine.done = true ∧
        ∃ before e, y.machine.ending? (y.step f).1 = some e ∧ y.events f 1 = before ++ [e] ∧
          x.events f n = x.events f k ++ before ++ [e] ∧
          ∀ e' ∈ x.events f k ++ before, ¬ e'.IsEnd := by
  induction n generalizing x with
  | zero =>
      rw [steps, h] at hdone
      cases hdone
  | succ n ih =>
      obtain ⟨before, hbefore, hlevel⟩ := x.requested.events_eq (f := f)
      have hnot : ∀ e ∈ before, ¬ e.IsEnd := fun e he hend => hlevel e he hend.level_eq
      cases hending : x.machine.ending? (x.step f).1 with
      | none =>
          -- The program goes on, and what is logged of its later steps follows.
          have hrunning := (ending?_eq_none_iff h).mp hending
          obtain ⟨k, hk, hy, hy', before', e, he, hlast, hall, hnot'⟩ := ih hrunning hdone
          rw [hending, Option.toList_none, List.append_nil] at hbefore
          refine ⟨k + 1, Nat.succ_lt_succ hk, hy, hy', before', e, he, hlast, ?_, ?_⟩
          · rw [events_succ, events_succ, hall]
            simp only [List.append_assoc]
          · rw [events_succ, hbefore, List.append_assoc]
            exact List.forall_mem_append.mpr ⟨hnot, hnot'⟩
      | some e =>
          have hended : (x.step f).2.machine.done = true := by
            rw [← Bool.not_eq_false, ← ending?_eq_none_iff h, hending]
            exact Option.some_ne_none e
          rw [hending, Option.toList_some] at hbefore
          have hone : x.events f 1 = before ++ [e] := by
            rw [events_succ, hbefore]
            exact List.append_nil _
          refine ⟨0, Nat.succ_pos n, h, hended, before, e, hending, hone, ?_, hnot⟩
          rw [events_succ, hbefore, events, asked_of_done hended]
          exact List.append_nil _

end Process

namespace Console

theorem log_observe (c : Console) : c.observe.threshold = c.threshold ∧ c.observe.log = c.log := by
  simp only [observe]
  split
  · exact ⟨rfl, rfl⟩
  · exact ⟨rfl, rfl⟩

theorem log_answer (r : Request) (c : Console) :
    (answer r c).2.threshold = c.threshold ∧
      (answer r c).2.log.toList = c.log.toList ++ (Asked.events [⟨r, c⟩]).filter c.logs := by
  cases r with
  | write ch bytes => cases ch <;> exact ⟨rfl, (List.append_nil _).symm⟩
  | flush ch => cases ch <;> exact ⟨rfl, (List.append_nil _).symm⟩
  | readByte =>
      obtain ⟨hthreshold, hlog⟩ := c.log_observe
      exact ⟨hthreshold, by rw [answer, hlog]; exact (List.append_nil _).symm⟩
  | readLine =>
      obtain ⟨hthreshold, hlog⟩ := c.log_observe
      exact ⟨hthreshold, by rw [answer, hlog]; exact (List.append_nil _).symm⟩
  | note e =>
      simp only [answer, Asked.events_note]
      split
      · rename_i hlogs
        exact ⟨rfl, by rw [Array.toList_push, List.filter_cons_of_pos hlogs]; rfl⟩
      · rename_i hlogs
        exact ⟨rfl, by rw [List.filter_cons_of_neg hlogs]; exact (List.append_nil _).symm⟩

/-- A console keeps of what is logged all that matters enough. -/
theorem log_run {α : Type} (d : Dialogue α) (c : Console) :
    (d.run answer c).2.log.toList =
      c.log.toList ++ (Asked.events (d.asked answer c)).filter c.logs := by
  induction d generalizing c with
  | done a => exact (List.append_nil _).symm
  | ask r next ih =>
      obtain ⟨hthreshold, hlog⟩ := log_answer r c
      have hlogs : (answer r c).2.logs = c.logs := by
        funext e
        simp only [logs, hthreshold]
      have hevents := Asked.events_append (l := [⟨r, c⟩])
        (k := (next (answer r c).1).asked answer (answer r c).2)
      rw [List.singleton_append] at hevents
      rw [Dialogue.run, ih, hlog, hlogs, Dialogue.asked, hevents, List.filter_append,
        List.append_assoc]

end Console

theorem Process.log_steps (x : Process Console) (n : Nat) :
    (x.steps Console.answer n).2.streams.log.toList =
      x.streams.log.toList ++ (x.events Console.answer n).filter x.streams.logs := by
  rw [events, asked_eq, steps_eq_run]
  exact Console.log_run (x.machine.steps n) x.streams

/-- No failure that is passed over is silent: the warnings of a run are, one for one and in order, those
due for the failures it meets, and where stream errors are fatal at most one, for the last flush. The end
of a run that finishes is logged once, last, with its position. -/
theorem Process.no_failure_is_silent {σ : Type} (f : Responder σ) (x : Process σ) (n : Nat) :
    (x.machine.options.strictStreams = false → x.warnings f n = x.due f n) ∧
    (x.machine.options.strictStreams = true → x.warnings f n = [] ∨
      ∃ e t, x.warnings f n = [.lastFlushFailed e] ∧ ⟨.flush .output, t⟩ ∈ x.asked f n ∧
        (f (.flush .output) t).1 = .error e) ∧
    (x.machine.done = false → (x.steps f n).2.machine.done = true → ∃ k < n,
      let y := (x.steps f k).2
      y.machine.done = false ∧ (y.step f).2.machine.done = true ∧
        ∃ before e, y.machine.ending? (y.step f).1 = some e ∧ y.events f 1 = before ++ [e] ∧
          x.events f n = x.events f k ++ before ++ [e] ∧
          ∀ e' ∈ x.events f k ++ before, ¬ e'.IsEnd) ∧
    ∀ z : Process Console, (z.steps Console.answer n).2.streams.log.toList =
      z.streams.log.toList ++ (z.events Console.answer n).filter z.streams.logs :=
  ⟨fun hs => warnings_lenient hs n, fun hs => warnings_strict hs n, events_of_done,
    fun z => z.log_steps n⟩

/-- A program that writes a number, asks what 1/0 is to be, reads a character and ends, at an output and
diagnostics that take nothing; the answer is no number, and the bytes of the character are overlong. The
other program crashes because its output takes nothing, and cannot flush it either. -/
theorem Process.no_failure_is_silent_full :
    let broken : StreamError := ⟨.other, "broken"⟩
    let full : Sink := { capacity := some 0, flushError := some broken }
    let streams : Console :=
      { input := [.bytes [0x78, 0x0A, 0xE0, 0x80, 0x80]], output := full, diagnostics := full,
        threshold := some .warn }
    let row := "5.10/~@".toList
    ∃ x y : Process Console,
      x = start ⟨.ofRows 80 25 [row], { unicode := true }⟩ 1 streams ∧
      y = start ⟨.ofRows 80 25 [row], { strictStreams := true }⟩ 1 streams ∧
      x.machine.options.strictStreams = false ∧ x.machine.done = false ∧
      (x.steps Console.answer 7).2.machine.done = true ∧
      x.warnings Console.answer 7 =
        [.streamErrorIgnored .full, .streamErrorIgnored .full, .streamErrorIgnored broken,
          .quotientInputFailed (.notAnInteger .invalidDigit), .streamErrorIgnored broken,
          .characterInputFailed .notUtf8, .streamErrorIgnored broken] ∧
      (∃ k < 7, ∃ e, (x.steps Console.answer k).2.machine.ending?
        ((x.steps Console.answer k).2.step Console.answer).1 = some e ∧
          (x.events Console.answer 7).getLast? = some e) ∧
      y.machine.options.strictStreams = true ∧
      ∃ e, y.warnings Console.answer 7 = [.lastFlushFailed e] := by
  intro broken full streams row
  have hend : ∀ (x : Process Console) (n : Nat), x.machine.done = false →
      (x.steps Console.answer n).2.machine.done = true →
      ∃ k < n, ∃ e, (x.steps Console.answer k).2.machine.ending?
        ((x.steps Console.answer k).2.step Console.answer).1 = some e ∧
          (x.events Console.answer n).getLast? = some e := by
    intro x n h hdone
    obtain ⟨k, hk, -, -, before, e, he, -, hevents, -⟩ :=
      (no_failure_is_silent Console.answer x n).2.2.1 h hdone
    exact ⟨k, hk, e, he, by rw [hevents, List.getLast?_concat]⟩
  obtain ⟨x, hx⟩ : ∃ x : Process Console,
    x = start ⟨.ofRows 80 25 [row], { unicode := true }⟩ 1 streams := ⟨_, rfl⟩
  obtain ⟨y, hy⟩ : ∃ y : Process Console,
    y = start ⟨.ofRows 80 25 [row], { strictStreams := true }⟩ 1 streams := ⟨_, rfl⟩
  have hlenient : x.machine.options.strictStreams = false := by rw [hx]; rfl
  have hstrict : y.machine.options.strictStreams = true := by rw [hy]; rfl
  have h : x.machine.done = false := by rw [hx]; rfl
  have hdone : (x.steps Console.answer 7).2.machine.done = true := by
    rw [hx]
    decide +kernel
  have hdue : x.due Console.answer 7 =
      [.streamErrorIgnored .full, .streamErrorIgnored .full, .streamErrorIgnored broken,
        .quotientInputFailed (.notAnInteger .invalidDigit), .streamErrorIgnored broken,
        .characterInputFailed .notUtf8, .streamErrorIgnored broken] := by
    rw [hx]
    decide +kernel
  have hsome : y.warnings Console.answer 7 ≠ [] := by
    rw [hy]
    decide +kernel
  obtain ⟨e, -, he, -⟩ :=
    ((no_failure_is_silent Console.answer y 7).2.1 hstrict).resolve_left hsome
  exact ⟨x, y, hx, hy, hlenient, h, hdone,
    ((no_failure_is_silent Console.answer x 7).1 hlenient).trans hdue, hend x 7 h hdone, hstrict, e,
    he⟩

end Befunge
