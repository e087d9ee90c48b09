import Befunge.Proofs.Atomicity
import Befunge.Proofs.Segments

/-!
# Forks

Sinks that accept everything give nothing away: a process cannot tell what was written to them before.
A fork at fresh sinks therefore goes on exactly as its parent does, and what the parent writes from then on
is what the fork writes.
-/

namespace Befunge

/-! ## Sinks that accept everything -/

/-- A kind of streams whose sinks accept everything, at least in those states that are `Open`, and keep
it. -/
structure Archive (σ : Type) extends Streams σ where
  Open : σ → Prop
  /-- All that was ever written on a channel. -/
  written : Channel → σ → List UInt8
  write {s : σ} (hs : Open s) (ch : Channel) (bytes : List UInt8) :
    let r := answer (.write ch bytes) s
    r.1 = .ok () ∧ Open r.2 ∧
      ∀ ch', written ch' r.2 = if ch' = ch then written ch s ++ bytes else written ch' s
  flush {s : σ} (hs : Open s) (ch : Channel) :
    let r := answer (.flush ch) s
    r.1 = .ok () ∧ Open r.2 ∧ ∀ ch', written ch' r.2 = written ch' s
  /-- Neither reading nor logging has to do with the sinks. -/
  other {s : σ} (hs : Open s) {r : Request} (hr : r.channel? = none) :
    Open (answer r s).2 ∧ ∀ ch, written ch (answer r s).2 = written ch s

namespace Archive

variable {σ τ : Type} (k : Archive σ) (l : Archive τ)

/-- Nothing has been written yet. -/
def Fresh (s : σ) : Prop := k.Open s ∧ ∀ ch, k.written ch s = []

/-- The two have the same input still to come, and what the first one holds is `before`, followed by
what the second one holds. -/
structure Continues (before : Channel → List UInt8) (s : σ) (t : τ) : Prop where
  isOpen : k.Open s
  isOpen' : l.Open t
  input_eq : l.input t = k.input s
  written_eq (ch : Channel) : k.written ch s = before ch ++ l.written ch t

variable {k l}

theorem Fresh.continues {s : σ} {t : τ} (ht : l.Fresh t) (hs : k.Open s)
    (h : l.input t = k.input s) : Continues k l (k.written · s) s t where
  isOpen := hs
  isOpen' := ht.1
  input_eq := h
  written_eq ch := by rw [ht.2 ch, List.append_nil]

/-- No request can tell the two apart. -/
theorem Continues.answer_eq {before : Channel → List UInt8} (r : Request) (s : σ) (t : τ)
    (h : Continues k l before s t) :
    (k.answer r s).1 = (l.answer r t).1 ∧
      Continues k l before (k.answer r s).2 (l.answer r t).2 := by
  cases r with
  | write ch bytes =>
      obtain ⟨hk, hopen, hwritten⟩ := k.write h.isOpen ch bytes
      obtain ⟨hl, hopen', hwritten'⟩ := l.write h.isOpen' ch bytes
      refine ⟨hk.trans hl.symm, hopen, hopen', ?_, fun ch' => ?_⟩
      · rw [k.input_write, l.input_write, h.input_eq]
      · rw [hwritten, hwritten']
        split
        · rw [h.written_eq, List.append_assoc, ‹ch' = ch›]
        · exact h.written_eq ch'
  | flush ch =>
      obtain ⟨hk, hopen, hwritten⟩ := k.flush h.isOpen ch
      obtain ⟨hl, hopen', hwritten'⟩ := l.flush h.isOpen' ch
      refine ⟨hk.trans hl.symm, hopen, hopen', ?_, fun ch' => ?_⟩
      · rw [k.input_flush, l.input_flush, h.input_eq]
      · rw [hwritten, hwritten', h.written_eq]
  | note e =>
      obtain ⟨hopen, hwritten⟩ := k.other h.isOpen (r := .note e) rfl
      obtain ⟨hopen', hwritten'⟩ := l.other h.isOpen' (r := .note e) rfl
      refine ⟨rfl, hopen, hopen', ?_, fun ch => ?_⟩
      · rw [k.input_note, l.input_note, h.input_eq]
      · rw [hwritten, hwritten', h.written_eq]
  | readByte =>
      obtain ⟨hopen, hwritten⟩ := k.other h.isOpen (r := .readByte) rfl
      obtain ⟨hopen', hwritten'⟩ := l.other h.isOpen' (r := .readByte) rfl
      obtain ⟨hk, hinput⟩ := k.byte s
      obtain ⟨hl, hinput'⟩ := l.byte t
      refine ⟨by rw [hk, hl, h.input_eq], hopen, hopen', by rw [hinput, hinput', h.input_eq], ?_⟩
      intro ch
      rw [hwritten, hwritten', h.written_eq]
  | readLine =>
      obtain ⟨hopen, hwritten⟩ := k.other h.isOpen (r := .readLine) rfl
      obtain ⟨hopen', hwritten'⟩ := l.other h.isOpen' (r := .readLine) rfl
      obtain ⟨hk, hinput⟩ := k.line s
      obtain ⟨hl, hinput'⟩ := l.line t
      refine ⟨by rw [hk, hl, h.input_eq], hopen, hopen', by rw [hinput, hinput', h.input_eq], ?_⟩
      intro ch
      rw [hwritten, hwritten', h.written_eq]

theorem Continues.steps {before : Channel → List UInt8} {s : σ} {t : τ}
    (h : Continues k l before s t) (m : Machine) (n : Nat) :
    let run := Process.steps k.answer n ⟨m, s⟩
    let run' := Process.steps l.answer n ⟨m, t⟩
    run'.1 = run.1 ∧ run'.2.machine = run.2.machine ∧
      Continues k l before run.2.streams run'.2.streams := by
  obtain ⟨hanswers, hstreams⟩ := Dialogue.run_related Continues.answer_eq (m.steps n) h
  simp only [Process.steps_eq_run]
  exact ⟨by rw [hanswers], by rw [hanswers], hstreams⟩

theorem isOpen_answer {s : σ} (hs : k.Open s) (r : Request) : k.Open (k.answer r s).2 := by
  cases r with
  | write ch bytes => exact (k.write hs ch bytes).2.1
  | flush ch => exact (k.flush hs ch).2.1
  | readByte => exact (k.other hs (r := .readByte) rfl).1
  | readLine => exact (k.other hs (r := .readLine) rfl).1
  | note e => exact (k.other hs (r := .note e) rfl).1

theorem isOpen_run {α : Type} (d : Dialogue α) {s : σ} (hs : k.Open s) :
    k.Open (d.run k.answer s).2 := by
  induction d generalizing s with
  | done a => exact hs
  | ask r next ih => exact ih _ (isOpen_answer hs r)

theorem isOpen_steps {x : Process σ} (hx : k.Open x.streams) (n : Nat) :
    k.Open (x.steps k.answer n).2.streams := by
  rw [Process.steps_eq_run]
  exact isOpen_run (x.machine.steps n) hx

end Archive

namespace Console

/-- The sinks have no limit and never fail to flush. -/
def AcceptsAll (c : Console) : Prop :=
  ∀ ch, (c.sink ch).capacity = none ∧ (c.sink ch).flushError = none

variable {c : Console}

theorem AcceptsAll.write (hc : c.AcceptsAll) (ch : Channel) (bytes : List UInt8) :
    let r := answer (.write ch bytes) c
    r.1 = .ok () ∧ r.2.AcceptsAll ∧ ∀ ch', (r.2.sink ch').data.toList =
      if ch' = ch then (c.sink ch).data.toList ++ bytes else (c.sink ch').data.toList := by
  have hroom : (c.sink ch).room bytes.length = bytes.length := by simp [Sink.room, (hc ch).1]
  have hanswer : (answer (.write ch bytes) c).1 = ((c.sink ch).write bytes).1 := by cases ch <;> rfl
  refine ⟨hanswer.trans (by simp [Sink.write, hroom]), fun ch' => ?_, fun ch' => ?_⟩
  · rw [(answer_write c ch bytes).2]
    split
    · exact hc ch
    · exact hc ch'
  · rw [(answer_write c ch bytes).2]
    split
    · rw [Sink.toList_data_write, hroom, List.take_length]
    · rfl

theorem AcceptsAll.flush (hc : c.AcceptsAll) (ch : Channel) :
    let r := answer (.flush ch) c
    r.1 = .ok () ∧ r.2.AcceptsAll ∧ ∀ ch', (r.2.sink ch').data.toList = (c.sink ch').data.toList := by
  have hanswer : (answer (.flush ch) c).1 = (c.sink ch).flush.1 := by cases ch <;> rfl
  refine ⟨hanswer.trans (by simp [Sink.flush, (hc ch).2]), fun ch' => ?_, fun ch' => ?_⟩
  · rw [(answer_flush c ch).2]
    split
    · simp [Sink.flush, (hc ch).1, (hc ch).2]
    · exact hc ch'
  · rw [(answer_flush c ch).2]
    split
    · rw [Sink.data_flush, ‹ch' = ch›]
    · rfl

theorem AcceptsAll.other (hc : c.AcceptsAll) {r : Request} (hr : r.channel? = none) :
    (answer r c).2.AcceptsAll ∧
      ∀ ch, ((answer r c).2.sink ch).data.toList = (c.sink ch).data.toList := by
  have hsink : (answer r c).2.sink = c.sink := by
    cases r with
    | write => cases hr
    | flush => cases hr
    | readByte => exact sink_answer_readByte c
    | readLine => exact sink_answer_readLine c
    | note e => exact (answer_note c e).2
  unfold AcceptsAll
  rw [hsink]
  exact ⟨hc, fun _ => rfl⟩

def archive : Archive Console where
  toStreams := streams
  Open := AcceptsAll
  written ch c := (c.sink ch).data.toList
  write := AcceptsAll.write
  flush := AcceptsAll.flush
  other := AcceptsAll.other

end Console

/-- A session is forked as the process that it is. -/
theorem Process.session_fork_eq (s : Session) (c : Console) :
    s.fork c =
      let y := Process.fork ⟨s.machine, s.console⟩ c
      ⟨y.machine, y.streams⟩ := rfl

/-- A fork with fresh sinks and a copy of the input goes on exactly where its parent stands: the same
answers, machines and inputs, and on each channel the parent has what it had at the fork, followed by
what the fork has. -/
theorem Process.fork_continues {σ τ : Type} (k : Archive σ) (l : Archive τ) {x : Process σ}
    (hx : k.Open x.streams) (j : Nat) (t : τ) :
    let y := (x.steps k.answer j).2
    (l.Fresh t → l.input t = k.input y.streams → ∀ n,
      let parent := y.steps k.answer n
      let child := (y.fork t).steps l.answer n
      child.1 = parent.1 ∧ child.2.machine = parent.2.machine ∧
        l.input child.2.streams = k.input parent.2.streams ∧
        ∀ ch, k.written ch parent.2.streams =
          k.written ch y.streams ++ l.written ch child.2.streams) ∧
    (y.machine.done = true → (y.fork t).machine.done = true ∧ ∀ n,
      (y.fork t).steps l.answer n = (List.replicate n (.error .alreadyExecuted), y.fork t)) := by
  intro y
  refine ⟨fun ht hinput n => ?_, fun hdone => ⟨hdone, steps_of_done hdone⟩⟩
  have hcontinues := ht.continues (Archive.isOpen_steps hx j) hinput
  obtain ⟨hanswers, hmachine, hstreams⟩ := hcontinues.steps y.machine n
  exact ⟨hanswers, hmachine, hstreams.input_eq, hstreams.written_eq⟩

/-- A program that writes a number, reads a character, asks what 1/0 is to be and writes both, forked in the
middle of its string. -/
theorem Process.fork_continues_string :
    ∃ x : Process Console, x = start ⟨.ofRows 80 25 ["7.\"a\"~10/..,@".toList], {}⟩ 1
        { input := [.bytes [0x21, 0x35, 0x0A]] } ∧
      let y := (x.steps Console.answer 3).2
      let parent := (y.steps Console.answer 20).2
      let child := ((y.fork { input := y.streams.input }).steps Console.answer 20).2
      Console.archive.Open x.streams ∧ y.machine.stringMode = true ∧
      child.machine = parent.machine ∧
      y.streams.output.data.toList = [0x37, 0x20] ∧
      child.streams.output.data.toList = [0x35, 0x20, 0x33, 0x33, 0x20, 0x61] ∧
      parent.streams.output.data.toList =
        [0x37, 0x20] ++ [0x35, 0x20, 0x33, 0x33, 0x20, 0x61] := by
  have hrun : ∀ (x : Process Console) (j n : Nat), Console.archive.Open x.streams →
      let y := (x.steps Console.answer j).2
      let parent := (y.steps Console.answer n).2
      let child := ((y.fork { input := y.streams.input }).steps Console.answer n).2
      child.machine = parent.machine ∧ parent.streams.output.data.toList =
        y.streams.output.data.toList ++ child.streams.output.data.toList := by
    intro x j n hx y parent child
    have hfresh : Console.archive.Fresh { input := y.streams.input } :=
      ⟨fun ch => by cases ch <;> exact ⟨rfl, rfl⟩, fun ch => by cases ch <;> rfl⟩
    obtain ⟨-, hmachine, -, hwritten⟩ :=
      (fork_continues Console.archive Console.archive hx j _).1 hfresh rfl n
    exact ⟨hmachine, hwritten .output⟩
  obtain ⟨x, hx⟩ : ∃ x : Process Console, x = start ⟨.ofRows 80 25 ["7.\"a\"~10/..,@".toList], {}⟩ 1
    { input := [.bytes [0x21, 0x35, 0x0A]] } := ⟨_, rfl⟩
  have hopen : Console.archive.Open x.streams := by
    rw [hx]
    exact fun ch => by cases ch <;> exact ⟨rfl, rfl⟩
  have hstring : (x.steps Console.answer 3).2.machine.stringMode = true := by
    rw [hx]
    decide +kernel
  have hbefore : (x.steps Console.answer 3).2.streams.output.data.toList = [0x37, 0x20] := by
    rw [hx]
    decide +kernel
  have hafter : ((fork (x.steps Console.answer 3).2
      { input := (x.steps Console.answer 3).2.streams.input }).steps
        Console.answer 20).2.streams.output.data.toList = [0x35, 0x20, 0x33, 0x33, 0x20, 0x61] := by
    rw [hx]
    decide +kernel
  obtain ⟨hmachine, houtput⟩ := hrun x 3 20 hopen
  rw [hbefore, hafter] at houtput
  exact ⟨x, hx, hopen, hstring, hmachine, hbefore, hafter, houtput⟩

end Befunge
