import Befunge.Proofs.Coupling
import Befunge.Proofs.Runs

/-!
# Sinks do not interfere

Where stream errors are passed over, a run does not depend on how its writes and flushes end. Runs at
streams that differ in their sinks only give the same answers and go through the same states, and a
sink of limited capacity ends up with the first part of what an unlimited one receives.
-/

namespace Befunge

/-! ## Dialogues -/

/-- The relation `R` holds between the states of streams that give the same input, however their
writes and flushes end and whatever they log. -/
structure DifferInSinks {σ τ : Type} (f : Responder σ) (g : Responder τ) (R : σ → τ → Prop) :
    Prop where
  byte {s t} : R s t → (f .readByte s).1 = (g .readByte t).1 ∧ R (f .readByte s).2 (g .readByte t).2
  line {s t} : R s t → (f .readLine s).1 = (g .readLine t).1 ∧ R (f .readLine s).2 (g .readLine t).2
  write {s t} (ch : Channel) (bytes : List UInt8) :
    R s t → R (f (.write ch bytes) s).2 (g (.write ch bytes) t).2
  flush_left {s t} (ch : Channel) : R s t → R (f (.flush ch) s).2 t
  flush_right {s t} (ch : Channel) : R s t → R s (g (.flush ch) t).2
  note_left {s t} (e : Event) : R s t → R (f (.note e) s).2 t
  note_right {s t} (e : Event) : R s t → R s (g (.note e) t).2

namespace Dialogue

variable {α β σ τ : Type} {f : Responder σ} {g : Responder τ} {R : σ → τ → Prop}

/-- From related states the two dialogues come to the same value, in related states. -/
def Alike (f : Responder σ) (g : Responder τ) (R : σ → τ → Prop) (x y : Dialogue α) : Prop :=
  ∀ s t, R s t → (x.run f s).1 = (y.run g t).1 ∧ R (x.run f s).2 (y.run g t).2

theorem Alike.pure (a : α) : Alike f g R (Pure.pure a) (Pure.pure a) := fun _ _ h => ⟨rfl, h⟩

theorem Alike.bind {x y : Dialogue α} {k l : α → Dialogue β} (h : Alike f g R x y)
    (hk : ∀ a, Alike f g R (k a) (l a)) : Alike f g R (x >>= k) (y >>= l) := by
  intro s t hst
  obtain ⟨ha, hst⟩ := h s t hst
  simp only [run_bind, ha]
  exact hk _ _ _ hst

end Dialogue

namespace DifferInSinks

open Dialogue Attempt

variable {α σ τ : Type} {f : Responder σ} {g : Responder τ} {R : σ → τ → Prop} {o : Options}

theorem alike_note (H : DifferInSinks f g R) (e : Event) :
    Alike f g R (Dialogue.note e) (Dialogue.note e) :=
  fun _ _ h => ⟨rfl, H.note_left e (H.note_right e h)⟩

theorem alike_lastFlush (H : DifferInSinks f g R) :
    Alike f g R Machine.lastFlush Machine.lastFlush := by
  intro s t hst
  have hst := H.flush_left .output (H.flush_right .output hst)
  rw [Machine.lastFlush, Dialogue.run_bind, Dialogue.run_bind]
  refine ⟨rfl, ?_⟩
  split <;> split
  · exact hst
  · exact H.note_right _ hst
  · exact H.note_left _ hst
  · exact H.note_left _ (H.note_right _ hst)

/-! ## Requests -/

theorem settle_error (ho : o.strictStreams = false) (e : StreamError) :
    settle o (.error e) = liftM (Dialogue.note (.streamErrorIgnored e)) := by
  simp [settle, ho]

/-- How a write or a flush has ended makes no difference. -/
theorem alike_settle (H : DifferInSinks f g R) (ho : o.strictStreams = false)
    (a b : Except StreamError Unit) : Alike f g R (settle o a).run (settle o b).run := by
  intro s t hst
  cases a with
  | ok =>
      cases b with
      | ok => exact ⟨rfl, hst⟩
      | error e =>
          rw [settle_error ho]
          exact ⟨rfl, H.note_right _ hst⟩
  | error e =>
      rw [settle_error ho]
      cases b with
      | ok => exact ⟨rfl, H.note_left _ hst⟩
      | error e' =>
          rw [settle_error ho]
          exact ⟨rfl, H.note_left _ (H.note_right _ hst)⟩

theorem alike_emit (H : DifferInSinks f g R) (ho : o.strictStreams = false) (bytes : List UInt8) :
    Alike f g R (emit o bytes).run (emit o bytes).run :=
  fun _ _ hst => H.alike_settle ho _ _ _ _ (H.write .output bytes hst)

theorem alike_flush (H : DifferInSinks f g R) (ho : o.strictStreams = false) :
    Alike f g R (flush o).run (flush o).run :=
  fun _ _ hst => H.alike_settle ho _ _ _ _ (H.flush_left .output (H.flush_right .output hst))

theorem alike_prompt (H : DifferInSinks f g R) (ho : o.strictStreams = false) (b : Int64) :
    Alike f g R (prompt o b).run (prompt o b).run := by
  intro s t hst
  unfold prompt Dialogue.write
  rw [run_request_bind, run_request_bind]
  generalize Text.Utf8.encode _ = bytes
  have hst := H.write .diagnostics bytes hst
  generalize f (.write _ _) s = u, g (.write _ _) t = w at hst ⊢
  obtain ⟨a, s⟩ := u
  obtain ⟨a', t⟩ := w
  -- The prompt is flushed only where its write has succeeded.
  cases a with
  | ok =>
      have hst := H.flush_left .diagnostics hst
      cases a' with
      | ok => exact H.alike_settle ho _ _ _ _ (H.flush_right .diagnostics hst)
      | error e => exact H.alike_settle ho _ (.error e) _ _ hst
  | error e =>
      cases a' with
      | ok => exact H.alike_settle ho (.error e) _ _ _ (H.flush_right .diagnostics hst)
      | error e' => exact H.alike_settle ho (.error e) (.error e') _ _ hst

theorem alike_recover (H : DifferInSinks f g R) (ho : o.strictStreams = false) {x y : Attempt α}
    (event : Fault → Event) (h : Alike f g R x.run y.run) :
    Alike f g R (recover o event x).run (recover o event y).run := by
  intro s t hst
  obtain ⟨ha, hst⟩ := h s t hst
  rw [run_recover, run_recover]
  generalize x.run.run f s = u, y.run.run g t = w at ha hst
  obtain ⟨u, s⟩ := u
  obtain ⟨_, t⟩ := w
  cases ha
  cases u with
  | ok a => exact ⟨rfl, hst⟩
  | error e =>
      simp only [ho, Bool.false_eq_true, ↓reduceIte]
      exact ⟨trivial, H.note_left _ (H.note_right _ hst)⟩

theorem coupling (H : DifferInSinks f g R) (ho : o.strictStreams = false) :
    Coupling o o fun x y => Alike f g R x.run y.run where
  pure a := .pure (Except.ok a)
  throw e := .pure (Except.error e)
  bind := by
    intro α β x y k l h hk
    rw [ExceptT.run_bind, ExceptT.run_bind]
    refine h.bind fun a => ?_
    cases a with
    | ok a => exact hk a
    | error e => exact .pure _
  recover event h := H.alike_recover ho event h
  emit bytes := H.alike_emit ho bytes
  flush := H.alike_flush ho
  prompt b := H.alike_prompt ho b
  line := by
    intro s t hst
    obtain ⟨ha, hst⟩ := H.line hst
    exact ⟨congrArg Except.ok ha, hst⟩
  byte := by
    intro s t hst
    obtain ⟨ha, hst⟩ := H.byte hst
    exact ⟨congrArg Except.ok ha, hst⟩
  note e := fun _ _ hst => ⟨rfl, (H.alike_note e _ _ hst).2⟩

/-! ## Steps and runs -/

theorem alike_finish (H : DifferInSinks f g R) (m : Machine) (a : Except Fault Flow) :
    Alike f g R (m.finish a) (m.finish a) := by
  match a with
  | .ok .next => exact .pure _
  | .ok .stop => exact (H.alike_note _).bind fun _ => .pure _
  | .error e =>
      exact H.alike_lastFlush.bind fun _ => (H.alike_note _).bind fun _ => .pure _

theorem alike_step (H : DifferInSinks f g R) {m : Machine} (hm : m.options.strictStreams = false) :
    Alike f g R m.step m.step := by
  rcases m.step_trichotomy with h | ⟨h, hs, hq⟩ | h
  · simp only [Machine.step, h, ↓reduceIte]
    exact .pure _
  · simp only [Machine.step, h, hs, hq, ne_eq, not_false_eq_true, and_self, Bool.false_eq_true,
      ↓reduceIte]
    exact .pure _
  · rw [Machine.step_of_dispatches h]
    refine (H.alike_note _).bind fun _ => ?_
    exact ((H.coupling hm).consult m.stack.peek _).bind fun r => H.alike_finish _ _

/-- Where stream errors are passed over, a run does not depend on the sinks. -/
theorem steps_eq (H : DifferInSinks f g R) {m : Machine} (hm : m.options.strictStreams = false)
    {s : σ} {t : τ} (hst : R s t) (n : Nat) :
    let x := Process.steps f n ⟨m, s⟩
    let y := Process.steps g n ⟨m, t⟩
    y.1 = x.1 ∧ y.2.machine = x.2.machine ∧ R x.2.streams y.2.streams := by
  have hstep : ∀ (x : Process σ) (y : Process τ),
      (x.machine.options.strictStreams = false ∧ y.machine = x.machine ∧ R x.streams y.streams) →
      (y.step g).1 = (x.step f).1 ∧ (x.step f).2.machine.options.strictStreams = false ∧
        (y.step g).2.machine = (x.step f).2.machine ∧
        R (x.step f).2.streams (y.step g).2.streams := by
    rintro x ⟨_, t⟩ ⟨hx, rfl, hst⟩
    have ho := (x.stepped f).options_eq
    obtain ⟨ha, hst⟩ := H.alike_step hx _ _ hst
    refine ⟨congrArg Prod.fst ha.symm, by rw [ho]; exact hx, congrArg Prod.snd ha.symm, hst⟩
  obtain ⟨ha, -, h⟩ := Process.steps_of_step hstep n (x := ⟨m, s⟩) (y := ⟨m, t⟩) ⟨hm, rfl, hst⟩
  exact ⟨ha, h⟩

end DifferInSinks

/-! ## Streams -/

/-- Streams of any kind. Their sinks may do with what they get, and fail, as they please; of the input
`input` tells what is still to come, and only reading takes from it. -/
structure Streams (σ : Type) where
  answer : Responder σ
  input : σ → Input
  byte (s : σ) : (answer .readByte s).1 = (input s).readByte.1 ∧
    input (answer .readByte s).2 = (input s).readByte.2
  line (s : σ) : (answer .readLine s).1 = (input s).readLine.1 ∧
    input (answer .readLine s).2 = (input s).readLine.2
  input_write (s : σ) (ch : Channel) (bytes : List UInt8) :
    input (answer (.write ch bytes) s).2 = input s
  input_flush (s : σ) (ch : Channel) : input (answer (.flush ch) s).2 = input s
  input_note (s : σ) (e : Event) : input (answer (.note e) s).2 = input s

theorem Streams.differInSinks {σ τ : Type} (k : Streams σ) (l : Streams τ) :
    DifferInSinks k.answer l.answer fun s t => l.input t = k.input s where
  byte := by
    intro s t h
    obtain ⟨hk, hk'⟩ := k.byte s
    obtain ⟨hl, hl'⟩ := l.byte t
    exact ⟨by rw [hk, hl, h], by rw [hk', hl', h]⟩
  line := by
    intro s t h
    obtain ⟨hk, hk'⟩ := k.line s
    obtain ⟨hl, hl'⟩ := l.line t
    exact ⟨by rw [hk, hl, h], by rw [hk', hl', h]⟩
  write ch bytes h := by rw [k.input_write, l.input_write, h]
  flush_left ch h := by rw [k.input_flush, h]
  flush_right ch h := by rw [l.input_flush, h]
  note_left e h := by rw [k.input_note, h]
  note_right e h := by rw [l.input_note, h]

/-! ## Consoles -/

namespace Sink

/-- Of what an unlimited sink holds, a sink that accepts `n` bytes in all holds the first `n`. -/
structure Follows (n : Nat) (s t : Sink) : Prop where
  capacity_eq : s.capacity = some n
  capacity_none : t.capacity = none
  data_eq : s.data.toList = t.data.toList.take n

@[simp] theorem capacity_flush (s : Sink) : s.flush.2.capacity = s.capacity := by
  unfold flush
  split
  · split <;> rfl
  · rfl

variable {n : Nat} {s t : Sink}

theorem Follows.write (h : Follows n s t) (bytes : List UInt8) :
    Follows n (s.write bytes).2 (t.write bytes).2 := by
  refine ⟨h.capacity_eq, h.capacity_none, ?_⟩
  have hs : s.data.size = min n t.data.size := by
    rw [← Array.length_toList, h.data_eq, List.length_take, Array.length_toList]
  have ht : t.room bytes.length = bytes.length := by simp only [room, h.capacity_none]
  rw [toList_data_write, toList_data_write, ht, List.take_length, List.take_append, h.data_eq]
  congr 1
  simp only [room, h.capacity_eq, hs, Array.length_toList]
  rw [List.take_eq_take_iff]
  omega

theorem Follows.flush_left (h : Follows n s t) : Follows n s.flush.2 t where
  capacity_eq := by rw [capacity_flush]; exact h.capacity_eq
  capacity_none := h.capacity_none
  data_eq := by rw [data_flush]; exact h.data_eq

theorem Follows.flush_right (h : Follows n s t) : Follows n s t.flush.2 where
  capacity_eq := h.capacity_eq
  capacity_none := by rw [capacity_flush]; exact h.capacity_none
  data_eq := by rw [data_flush]; exact h.data_eq

end Sink

namespace Console

def sink (c : Console) : Channel → Sink
  | .output => c.output
  | .diagnostics => c.diagnostics

theorem answer_write (c : Console) (ch : Channel) (bytes : List UInt8) :
    (answer (.write ch bytes) c).2.input = c.input ∧
      ∀ ch', (answer (.write ch bytes) c).2.sink ch' =
        if ch' = ch then ((c.sink ch).write bytes).2 else c.sink ch' := by
  cases ch with
  | output => exact ⟨rfl, fun ch' => by cases ch' <;> rfl⟩
  | diagnostics => exact ⟨rfl, fun ch' => by cases ch' <;> rfl⟩

theorem answer_flush (c : Console) (ch : Channel) :
    (answer (.flush ch) c).2.input = c.input ∧
      ∀ ch', (answer (.flush ch) c).2.sink ch' =
        if ch' = ch then (c.sink ch).flush.2 else c.sink ch' := by
  cases ch with
  | output => exact ⟨rfl, fun ch' => by cases ch' <;> rfl⟩
  | diagnostics => exact ⟨rfl, fun ch' => by cases ch' <;> rfl⟩

theorem answer_note (c : Console) (e : Event) :
    (answer (.note e) c).2.input = c.input ∧ (answer (.note e) c).2.sink = c.sink := by
  simp only [answer]
  split
  · exact ⟨rfl, rfl⟩
  · exact ⟨rfl, rfl⟩

theorem sink_observe (c : Console) (input : Input) : sink { c.observe with input } = c.sink := by
  simp only [observe]
  split
  · rfl
  · rfl

def streams : Streams Console where
  answer := answer
  input := input
  byte _ := ⟨rfl, rfl⟩
  line _ := ⟨rfl, rfl⟩
  input_write c ch bytes := (answer_write c ch bytes).1
  input_flush c ch := (answer_flush c ch).1
  input_note c e := (answer_note c e).1

/-- The two consoles have the same input still to come, and on the channel `ch` the sink of the first one
follows that of the second one. -/
def Follows (ch : Channel) (n : Nat) (c d : Console) : Prop :=
  d.input = c.input ∧ (c.sink ch).Follows n (d.sink ch)

theorem sink_answer_readByte (c : Console) : (answer .readByte c).2.sink = c.sink :=
  c.sink_observe _

theorem sink_answer_readLine (c : Console) : (answer .readLine c).2.sink = c.sink :=
  c.sink_observe _

theorem differInSinks (ch : Channel) (n : Nat) :
    DifferInSinks Console.answer Console.answer (Follows ch n) :=
  have H := streams.differInSinks streams
  { byte := by
      rintro c d ⟨hi, hs⟩
      obtain ⟨ha, hi⟩ := H.byte hi
      exact ⟨ha, hi, by rw [sink_answer_readByte, sink_answer_readByte]; exact hs⟩
    line := by
      rintro c d ⟨hi, hs⟩
      obtain ⟨ha, hi⟩ := H.line hi
      exact ⟨ha, hi, by rw [sink_answer_readLine, sink_answer_readLine]; exact hs⟩
    write := by
      rintro c d ch' bytes ⟨hi, hs⟩
      refine ⟨H.write ch' bytes hi, ?_⟩
      rw [(answer_write c ch' bytes).2, (answer_write d ch' bytes).2]
      split
      · rename_i h
        subst h
        exact hs.write bytes
      · exact hs
    flush_left := by
      rintro c d ch' ⟨hi, hs⟩
      refine ⟨H.flush_left ch' hi, ?_⟩
      rw [(answer_flush c ch').2]
      split
      · rename_i h
        subst h
        exact hs.flush_left
      · exact hs
    flush_right := by
      rintro c d ch' ⟨hi, hs⟩
      refine ⟨H.flush_right ch' hi, ?_⟩
      rw [(answer_flush d ch').2]
      split
      · rename_i h
        subst h
        exact hs.flush_right
      · exact hs
    note_left := by
      rintro c d e ⟨hi, hs⟩
      exact ⟨H.note_left e hi, by rw [(answer_note c e).2]; exact hs⟩
    note_right := by
      rintro c d e ⟨hi, hs⟩
      exact ⟨H.note_right e hi, by rw [(answer_note d e).2]; exact hs⟩ }

end Console

/-- Where stream errors are passed over, sinks cannot influence a run: any two streams with the same
input give the same answers, machines and inputs. A sink that accepts `N` bytes in all then holds the
first `N` bytes of what an unlimited one holds. -/
theorem Process.sinks_do_not_interfere {m : Machine} (hm : m.options.strictStreams = false)
    (n : Nat) :
    (∀ (σ τ : Type) (k : Streams σ) (l : Streams τ) (s : σ) (t : τ), l.input t = k.input s →
      let run := steps k.answer n ⟨m, s⟩
      let run' := steps l.answer n ⟨m, t⟩
      run'.1 = run.1 ∧ run'.2.machine = run.2.machine ∧
        l.input run'.2.streams = k.input run.2.streams) ∧
    ∀ (c d : Console) (ch : Channel) (N : Nat), d.input = c.input →
      (c.sink ch).data = #[] → (c.sink ch).capacity = some N →
      (d.sink ch).data = #[] → (d.sink ch).capacity = none →
      let run := steps Console.answer n ⟨m, c⟩
      let run' := steps Console.answer n ⟨m, d⟩
      (run.2.streams.sink ch).data.toList = (run'.2.streams.sink ch).data.toList.take N := by
  constructor
  · intro σ τ k l s t hi
    exact (k.differInSinks l).steps_eq hm hi n
  · intro c d ch N hi hc hN hd hnone
    -- Fresh sinks follow each other, since neither holds anything yet.
    have hsink : (c.sink ch).Follows N (d.sink ch) := ⟨hN, hnone, by simp [hc, hd]⟩
    obtain ⟨-, -, -, hs⟩ := (Console.differInSinks ch N).steps_eq hm ⟨hi, hsink⟩ n
    exact hs.data_eq

/-- A program that writes two numbers, at a sink that accepts one byte and cannot be flushed, and at
one that accepts everything. -/
theorem Process.sinks_do_not_interfere_full :
    let m : Machine := .start ⟨.ofRows 80 25 ["45..@".toList], {}⟩ 1
    let c : Console :=
      { output := { capacity := some 1, flushError := some ⟨.brokenPipe, "closed"⟩ } }
    let d : Console := {}
    m.options.strictStreams = false ∧ d.input = c.input ∧
      (c.sink .output).data = #[] ∧ (c.sink .output).capacity = some 1 ∧
      (d.sink .output).data = #[] ∧ (d.sink .output).capacity = none ∧
      (steps Console.answer 5 ⟨m, d⟩).1 = (steps Console.answer 5 ⟨m, c⟩).1 ∧
      ((steps Console.answer 5 ⟨m, c⟩).2.streams.sink .output).data.toList =
        ((steps Console.answer 5 ⟨m, d⟩).2.streams.sink .output).data.toList.take 1 := by
  intro m c d
  obtain ⟨hruns, hsinks⟩ := sinks_do_not_interfere (m := m) rfl 5
  exact ⟨rfl, rfl, rfl, rfl, rfl, rfl, (hruns _ _ Console.streams Console.streams c d rfl).1,
    hsinks c d .output 1 rfl rfl rfl rfl rfl⟩

end Befunge
