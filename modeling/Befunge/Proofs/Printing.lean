import Befunge.Proofs.Building
import Befunge.Proofs.Drivers
import Befunge.Proofs.Modes

/-!
# Programs that print a text

A text stands in a program back to front and between quotes. Its characters are pushed one after another,
the first one last, and then as many instructions that write a character take them from the stack.
-/

namespace Befunge

open Text

/-! ## Outputs that accept everything -/

/-- A kind of streams whose output accepts everything, at least in those states that are `Open`. -/
structure Recorder (σ : Type) where
  answer : Responder σ
  Open : σ → Prop
  /-- All that was ever written to the output. -/
  written : σ → List UInt8
  write {s : σ} (hs : Open s) (bytes : List UInt8) :
    let r := answer (.write .output bytes) s
    r.1 = .ok () ∧ Open r.2 ∧ written r.2 = written s ++ bytes
  flush {s : σ} (hs : Open s) :
    let r := answer (.flush .output) s
    r.1 = .ok () ∧ Open r.2 ∧ written r.2 = written s
  note {s : σ} (hs : Open s) (e : Event) :
    let r := answer (.note e) s
    Open r.2 ∧ written r.2 = written s

/-- A console whose output has no limit and never fails to flush. -/
def Console.recorder : Recorder Console where
  answer := answer
  Open c := c.output.capacity = none ∧ c.output.flushError = none
  written c := c.output.data.toList
  write := by
    rintro c ⟨hcapacity, hflush⟩ bytes
    have hroom : c.output.room bytes.length = bytes.length := by simp [Sink.room, hcapacity]
    simp [answer, Sink.write, hroom, hcapacity, hflush]
  flush := by
    rintro c ⟨hcapacity, hflush⟩
    simp [answer, Sink.flush, hcapacity, hflush]
  note := by
    rintro c ⟨hcapacity, hflush⟩ e
    by_cases hlogs : c.logs e = true
    · simp [answer, hlogs, hcapacity, hflush]
    · simp [answer, hlogs, hcapacity, hflush]

def Request.IsPlain (r : Request) : Prop := ¬ r.IsRead ∧ r.channel? ≠ some .diagnostics

namespace Recorder

variable {α β σ : Type}

/-- From every open state, the dialogue comes to `a` and to an open state; it writes just these bytes to
the output, and asks for nothing else but that they be flushed and events be logged. -/
structure Writes (k : Recorder σ) (d : Dialogue α) (a : α) (bytes : List UInt8) : Prop where
  run_eq {s : σ} (hs : k.Open s) : (d.run k.answer s).1 = a
  isOpen {s : σ} (hs : k.Open s) : k.Open (d.run k.answer s).2
  written_eq {s : σ} (hs : k.Open s) :
    k.written (d.run k.answer s).2 = k.written s ++ bytes
  isPlain {s : σ} (hs : k.Open s) : ∀ r ∈ d.asked k.answer s, r.request.IsPlain

variable {k : Recorder σ}

namespace Writes

theorem pure (a : α) : k.Writes (Pure.pure a) a [] where
  run_eq _ := rfl
  isOpen hs := hs
  written_eq _ := (List.append_nil _).symm
  isPlain _ := nofun

theorem bind {d : Dialogue α} {g : α → Dialogue β} {a : α} {b : β} {bytes bytes' : List UInt8}
    (hd : k.Writes d a bytes) (hg : k.Writes (g a) b bytes') :
    k.Writes (d >>= g) b (bytes ++ bytes') where
  run_eq hs := by
    rw [Dialogue.run_bind, hd.run_eq hs]
    exact hg.run_eq (hd.isOpen hs)
  isOpen hs := by
    rw [Dialogue.run_bind, hd.run_eq hs]
    exact hg.isOpen (hd.isOpen hs)
  written_eq hs := by
    rw [Dialogue.run_bind, hd.run_eq hs, hg.written_eq (hd.isOpen hs), hd.written_eq hs,
      List.append_assoc]
  isPlain hs := by
    rw [Dialogue.asked_bind, hd.run_eq hs]
    intro r hr
    rcases List.mem_append.mp hr with hr | hr
    · exact hd.isPlain hs r hr
    · exact hg.isPlain (hd.isOpen hs) r hr

theorem write (bytes : List UInt8) : k.Writes (Dialogue.write .output bytes) (.ok ()) bytes where
  run_eq hs := (k.write hs bytes).1
  isOpen hs := (k.write hs bytes).2.1
  written_eq hs := (k.write hs bytes).2.2
  isPlain _ := List.forall_mem_singleton.mpr ⟨id, nofun⟩

theorem flush : k.Writes (Dialogue.flush .output) (.ok ()) [] where
  run_eq hs := (k.flush hs).1
  isOpen hs := (k.flush hs).2.1
  written_eq hs := (k.flush hs).2.2.trans (List.append_nil _).symm
  isPlain _ := List.forall_mem_singleton.mpr ⟨id, nofun⟩

theorem note (e : Event) : k.Writes (Dialogue.note e) () [] where
  run_eq _ := rfl
  isOpen hs := (k.note hs e).1
  written_eq hs := (k.note hs e).2.trans (List.append_nil _).symm
  isPlain _ := List.forall_mem_singleton.mpr ⟨id, nofun⟩

theorem emit (o : Options) (bytes : List UInt8) :
    k.Writes (Attempt.emit o bytes).run (.ok ()) bytes := by
  have hsettle : k.Writes (Attempt.settle o (.ok ())).run (.ok ()) [] := pure _
  have h := (write bytes).bind (g := fun a => (Attempt.settle o a).run) hsettle
  rwa [List.append_nil] at h

theorem flushOutput (o : Options) : k.Writes (Attempt.flush o).run (.ok ()) [] :=
  have hsettle : k.Writes (Attempt.settle o (.ok ())).run (.ok ()) [] := pure _
  flush.bind (g := fun a => (Attempt.settle o a).run) hsettle

theorem withoutValue {x : Attempt Unit} {bytes : List UInt8} (hx : k.Writes x.run (.ok ()) bytes) :
    k.Writes (do x; Pure.pure (none : Option Int64)).run (.ok none) bytes := by
  have hvalue : k.Writes (Pure.pure none : Attempt (Option Int64)).run (.ok none) [] := pure _
  have h := hx.bind (g := ExceptT.bindCont fun _ => Pure.pure none) hvalue
  rwa [List.append_nil] at h

theorem step {m m' : Machine} {r : Except StepError Progress} {v : Option Int64}
    {bytes : List UInt8} (hd : m.Dispatches)
    (hconsult : k.Writes (m.program.consult m.stack.peek (Instruction.decode m.fetch)).run
      (.ok v) bytes)
    (hconclude : k.Writes (m.conclude (Instruction.decode m.fetch) (.ok v)) (r, m') []) :
    k.Writes m.step (r, m') bytes := by
  rw [Machine.step_of_dispatches hd]
  generalize Instruction.decode m.fetch = i at hconsult hconclude ⊢
  have hrest := hconsult.bind (g := fun r => m.conclude i r) hconclude
  rw [List.append_nil] at hrest
  exact (note _).bind hrest

theorem steps {m m' m'' : Machine} {r : Except StepError Progress}
    {rs : List (Except StepError Progress)} {n : Nat} {bytes bytes' : List UInt8}
    (hstep : k.Writes m.step (r, m') bytes) (hsteps : k.Writes (m'.steps n) (rs, m'') bytes') :
    k.Writes (m.steps (n + 1)) (r :: rs, m'') (bytes ++ bytes') := by
  have hrest := hsteps.bind (g := fun l => Pure.pure (r :: l.1, l.2)) (pure _)
  rw [List.append_nil] at hrest
  exact hstep.bind hrest

theorem process {x : Process σ} {n : Nat} {rs : List (Except StepError Progress)} {m : Machine}
    {bytes : List UInt8} (h : k.Writes (x.machine.steps n) (rs, m) bytes) (hs : k.Open x.streams) :
    let run := x.steps k.answer n
    run.1 = rs ∧ run.2.machine = m ∧ k.written run.2.streams = k.written x.streams ++ bytes ∧
      ∀ a ∈ x.asked k.answer n, a.request.IsPlain := by
  have hrun := h.run_eq hs
  rw [x.asked_eq, x.steps_eq_run]
  exact ⟨congrArg Prod.fst hrun, congrArg Prod.snd hrun, h.written_eq hs, h.isPlain hs⟩

end Writes

end Recorder

/-! ## Characters as values -/

theorem Cell.toInt_value (c : Char) : (value c).toInt = c.toNat := by
  have hread : (read true c).toInt = c.toNat := toInt_read nofun
  exact hread

theorem Cell.ofCodePoint?_value (c : Char) : ofCodePoint? (value c) = some c := by
  cases h : ofCodePoint? (value c) with
  | none =>
      have hc : c.toNat.isValidChar := c.valid
      have hnot := ofCodePoint?_eq_none_iff.mp h
      simp only [IsScalar, toInt_value] at hnot
      simp only [Nat.isValidChar] at hc
      omega
  | some d =>
      have hvalue : ofValue? true (value c) = some d := h
      have hd : (d.toNat : Int) = (value c).toInt := toNat_of_ofValue? hvalue
      rw [toInt_value] at hd
      rw [← Char.ofNat_toNat d, Int.ofNat.inj hd, Char.ofNat_toNat]

theorem Attempt.writeChar_value {o : Options} {c : Char} (h : o.unicode = true ∨ c.toNat < 128) :
    writeChar o (Cell.value c) = Attempt.emit o (Utf8.encode [c]) := by
  by_cases hu : o.unicode = true
  · simp only [writeChar, hu, ↓reduceIte, Cell.ofCodePoint?_value]
  · have hc : c.toNat < 128 := h.resolve_left hu
    have hbyte : (Cell.byte (Cell.value c)).toNat = c.toNat := by
      have := Cell.toNat_byte (Cell.value c)
      rw [Cell.toInt_value] at this
      omega
    have hle : Cell.byte (Cell.value c) ≤ 0x7F := by
      rw [UInt8.le_iff_toNat_le, hbyte]
      exact Nat.le_of_lt_succ hc
    have hencode := Utf8.encode_of_ascii hle
    rw [hbyte, Char.ofNat_toNat] at hencode
    simp only [writeChar, hu, Bool.false_eq_true, ↓reduceIte, hencode]

/-! ## Along the top row -/

/-- The top row of the playfield holds these characters from column `i` on. -/
structure Grid.HoldsAt (g : Grid) (i : Nat) (cs : List Char) : Prop where
  cell_eq {j : Nat} {c : Char} (h : cs[j]? = some c) : g.cell ⟨i + j, 0⟩ = c
  le_width : i + cs.length ≤ g.width

namespace Grid.HoldsAt

variable {g : Grid} {i : Nat} {c : Char} {cs : List Char}

theorem head (h : g.HoldsAt i (c :: cs)) : g.cell ⟨i, 0⟩ = c := h.cell_eq (j := 0) rfl

theorem tail (h : g.HoldsAt i (c :: cs)) : g.HoldsAt (i + 1) cs where
  cell_eq {j d} hj := by
    rw [Nat.add_right_comm]
    exact h.cell_eq (j := j + 1) hj
  le_width := by
    have hle := h.le_width
    rw [List.length_cons] at hle
    omega

theorem drop {u : List Char} (h : g.HoldsAt i (u ++ cs)) : g.HoldsAt (i + u.length) cs := by
  induction u generalizing i with
  | nil => exact h
  | cons c u ih =>
      rw [List.length_cons, Nat.add_comm u.length, ← Nat.add_assoc]
      exact ih h.tail

theorem advance_right (h : g.HoldsAt i (c :: cs)) (hcs : cs ≠ []) :
    Pos.advance g.width g.height .right ⟨i, 0⟩ = ⟨i + 1, 0⟩ := by
  have hlength := List.length_pos_iff.mpr hcs
  have hle := h.le_width
  rw [List.length_cons] at hle
  have hx : ((i : Int) + 1) % g.width = i + 1 := Int.emod_eq_of_lt (by omega) (by omega)
  simp only [Pos.advance, Direction.delta, hx]
  simp

end Grid.HoldsAt

namespace Machine

/-- A machine of the program on its way along the top row, at column `i`, with these values on its stack,
top first. -/
def onTopRow (p : Program) (clock : UInt64) (i : Nat) (stringMode : Bool) (values : List Int64) :
    Machine :=
  { start p clock with pos := ⟨i, 0⟩, stringMode, stack := ⟨values⟩ }

variable {p : Program} {clock : UInt64} {i : Nat} {stringMode : Bool} {values : List Int64}

theorem advance_onTopRow {c : Char} {cs : List Char} (h : p.grid.HoldsAt i (c :: cs)) (hcs : cs ≠ []) :
    (onTopRow p clock i stringMode values).advance =
      onTopRow p clock (i + 1) stringMode values := by
  have hpos := h.advance_right hcs
  simp only [advance, onTopRow, start, hpos]

end Machine

namespace Recorder.Writes

variable {σ : Type} (k : Recorder σ) {p : Program} (clock : UInt64) {i : Nat} (values : List Int64)
  {rest : List Char}

theorem step_char {c : Char} (h : p.grid.HoldsAt i (c :: rest)) (hrest : rest ≠ []) (hc : c ≠ '"') :
    k.Writes (Machine.onTopRow p clock i true values).step
      (.ok .running, .onTopRow p clock (i + 1) true (Cell.value c :: values)) [] := by
  have hfetch : (Machine.onTopRow p clock i true values).fetch = c := h.head
  have hdone : ¬ (Machine.onTopRow p clock i true values).done = true := Bool.false_ne_true
  rw [← Machine.advance_onTopRow h hrest, Machine.step, if_neg hdone, hfetch, if_pos ⟨rfl, hc⟩]
  exact pure _

theorem step_quote (stringMode : Bool) (h : p.grid.HoldsAt i ('"' :: rest)) (hrest : rest ≠ []) :
    k.Writes (Machine.onTopRow p clock i stringMode values).step
      (.ok .running, .onTopRow p clock (i + 1) (!stringMode) values) [] := by
  have hfetch : (Machine.onTopRow p clock i stringMode values).fetch = '"' := h.head
  refine step (v := none) ⟨rfl, fun hs => hs.2 hfetch⟩ ?_ ?_
  · rw [hfetch]
    exact pure _
  · rw [hfetch, ← Machine.advance_onTopRow h hrest]
    exact pure _

theorem step_comma {c : Char} (h : p.grid.HoldsAt i (',' :: rest)) (hrest : rest ≠ [])
    (hc : p.options.unicode = true ∨ c.toNat < 128) :
    k.Writes (Machine.onTopRow p clock i false (Cell.value c :: values)).step
      (.ok .running, .onTopRow p clock (i + 1) false values) (Utf8.encode [c]) := by
  have hfetch : (Machine.onTopRow p clock i false (Cell.value c :: values)).fetch = ',' := h.head
  have hwrite : k.Writes (Attempt.writeChar p.options (Cell.value c)).run (.ok ())
      (Utf8.encode [c]) := by
    rw [Attempt.writeChar_value hc]
    exact emit _ _
  refine step (v := none) ⟨rfl, nofun⟩ ?_ ?_
  · rw [hfetch]
    exact hwrite.withoutValue
  · rw [hfetch, ← Machine.advance_onTopRow h hrest]
    exact pure _

theorem step_stop (h : p.grid.HoldsAt i ('@' :: rest)) :
    k.Writes (Machine.onTopRow p clock i false values).step
      (.ok .terminated, (Machine.onTopRow p clock i false values).stopped) [] := by
  have hfetch : (Machine.onTopRow p clock i false values).fetch = '@' := h.head
  refine step (v := none) ⟨rfl, nofun⟩ ?_ ?_
  · rw [hfetch]
    exact (flushOutput _).withoutValue
  · rw [hfetch]
    exact (note _).bind (pure _)

section

variable {k clock values} {n : Nat} {rs : List (Except StepError Progress)} {m : Machine}
  {bytes : List UInt8}

/-- Within quotes, characters are pushed, and the last one ends up on top. -/
theorem string {u : List Char} (hu : '"' ∉ u) (h : p.grid.HoldsAt i (u ++ rest)) (hrest : rest ≠ [])
    (hlater : k.Writes ((Machine.onTopRow p clock (i + u.length) true
      (u.reverse.map Cell.value ++ values)).steps n) (rs, m) bytes) :
    k.Writes ((Machine.onTopRow p clock i true values).steps (u.length + n))
      (List.replicate u.length (.ok .running) ++ rs, m) bytes := by
  induction u generalizing i values with
  | nil => simpa using hlater
  | cons c u ih =>
      have hc : c ≠ '"' := fun hc => hu (hc ▸ List.mem_cons_self)
      have hstep := step_char k clock values h
        (List.append_ne_nil_of_right_ne_nil u hrest) hc
      -- What is pushed from here on lies above this character.
      rw [List.length_cons, Nat.add_right_comm, List.replicate_succ]
      refine hstep.steps (ih (fun hmem => hu (List.mem_cons_of_mem c hmem)) h.tail ?_)
      rw [List.length_cons, List.reverse_cons, List.map_append, List.append_assoc] at hlater
      rwa [Nat.add_assoc, Nat.add_comm 1]

/-- The characters on the stack are written from the top on. -/
theorem commas {u : List Char} (hu : p.options.unicode = true ∨ ∀ c ∈ u, c.toNat < 128)
    (h : p.grid.HoldsAt i (List.replicate u.length ',' ++ rest)) (hrest : rest ≠ [])
    (hlater : k.Writes ((Machine.onTopRow p clock (i + u.length) false values).steps n) (rs, m)
      bytes) :
    k.Writes ((Machine.onTopRow p clock i false (u.map Cell.value ++ values)).steps (u.length + n))
      (List.replicate u.length (.ok .running) ++ rs, m) (Utf8.encode u ++ bytes) := by
  induction u generalizing i with
  | nil => simpa using hlater
  | cons c u ih =>
      have hc : p.options.unicode = true ∨ c.toNat < 128 :=
        hu.imp_right fun hascii => hascii c List.mem_cons_self
      have hu : p.options.unicode = true ∨ ∀ d ∈ u, d.toNat < 128 :=
        hu.imp_right fun hascii d hd => hascii d (List.mem_cons_of_mem c hd)
      have hstep := step_comma k clock (u.map Cell.value ++ values) h
        (List.append_ne_nil_of_right_ne_nil _ hrest) hc
      have hencode : Utf8.encode (c :: u) = Utf8.encode [c] ++ Utf8.encode u :=
        Utf8.encode_append [c] u
      rw [List.length_cons, Nat.add_right_comm, List.replicate_succ, hencode, List.append_assoc]
      refine hstep.steps (ih hu h.tail ?_)
      rwa [Nat.add_assoc, Nat.add_comm 1]

end

end Recorder.Writes

/-! ## The program -/

/-- A program that prints the text: the text between quotes, back to front, then an instruction to write
a character for each of its characters, and the end. -/
def Source.printing (t : List Char) : List Char :=
  '"' :: (t.reverse ++ '"' :: (List.replicate t.length ',' ++ ['@']))

@[simp] theorem Source.length_printing (t : List Char) :
    (printing t).length = 2 * t.length + 3 := by
  simp [printing]
  omega

theorem Source.mem_printing {t : List Char} {c : Char} (h : c ∈ printing t) :
    c ∈ t ∨ c ∈ ['"', ',', '@'] := by
  simp only [printing, List.mem_cons, List.mem_append, List.mem_reverse, List.mem_replicate] at h ⊢
  tauto

theorem Source.lines_printing {t : List Char} (h : '\n' ∉ t) : lines (printing t) = [printing t] := by
  have hlast : (printing t).getLast? = some '@' := by
    simp [printing, List.getLast?_cons, List.getLast?_append]
  have hmem : '\n' ∉ printing t := by
    intro hmem
    rcases mem_printing hmem with ht | hother
    · exact h ht
    · revert hother
      decide
  refine (hasLines_iff.mp ⟨printing t, [printing t], .inr ⟨rfl, ?_⟩, ⟨?_, ?_, ?_⟩, ?_⟩).symm
  · simp [hlast]
  · exact List.cons_ne_nil _ _
  · simpa using hmem
  · simp
  · exact .cons (.inr ⟨rfl, by simp [hlast]⟩) .nil

theorem Program.build_printing {o : Options} (ho : o.Supported) {t : List Char} (hline : '\n' ∉ t)
    (hu : o.unicode = true ∨ ∀ c ∈ t, c.toNat < 128)
    (hsize : o.anySize = true ∨ 2 * t.length + 3 ≤ 80) :
    ∃ p, build (Source.printing t) o = .ok p ∧ p.options = o ∧
      p.grid.HoldsAt 0 (Source.printing t) := by
  have hlines := Source.lines_printing hline
  have hw : Source.IsWidth [Source.printing t] (2 * t.length + 3) := by
    simp [Source.isWidth_iff, Source.width]
  have hascii : o.unicode = true ∨ Source.IsAscii [Source.printing t] := by
    refine hu.imp_right fun hascii => List.forall_mem_singleton.mpr fun c hc => ?_
    rcases Source.mem_printing hc with ht | hother
    · exact hascii c ht
    · simp only [List.mem_cons, List.not_mem_nil, or_false] at hother
      rcases hother with rfl | rfl | rfl <;> decide
  have hgrid := Grid.isPlayfieldOf_ofRows hw
  generalize Grid.ofRows _ _ _ = g at hgrid
  have hbuilt : Builds [Source.printing t] o (.ok ⟨g, o⟩) :=
    .built ho hascii hw (hsize.imp_right fun hle => ⟨hle, Nat.le_add_left 1 24⟩) hgrid rfl
  refine ⟨⟨g, o⟩, (Builds.eq_build (hlines ▸ hbuilt)).symm, rfl, ?_, ?_⟩
  · intro j c hc
    have hchar : Source.charAt? [Source.printing t] ⟨0 + j, 0⟩ = some c := by
      rw [Nat.zero_add]
      exact hc
    rw [Grid.cell, hgrid.get?_eq, hchar]
    rfl
  · rw [hgrid.width_eq, Source.length_printing]
    omega

namespace Recorder.Writes

/-- Along the top row, the program comes to its end in its own length of steps, and writes the text. -/
theorem printing {σ : Type} {k : Recorder σ} {p : Program} {clock : UInt64} {t : List Char}
    (hquote : '"' ∉ t) (hu : p.options.unicode = true ∨ ∀ c ∈ t, c.toNat < 128)
    (h : p.grid.HoldsAt 0 (Source.printing t)) :
    k.Writes ((Machine.start p clock).steps (2 * t.length + 3))
      (List.replicate (2 * t.length + 2) (.ok .running) ++ [.ok .terminated],
        (Machine.onTopRow p clock (2 * t.length + 2) false []).stopped)
      (Utf8.encode t) := by
  have hclose : p.grid.HoldsAt (1 + t.length) ('"' :: (List.replicate t.length ',' ++ ['@'])) := by
    have hdrop := h.tail.drop
    rwa [Nat.zero_add, List.length_reverse] at hdrop
  have hstop : p.grid.HoldsAt (1 + t.length + 1 + t.length) ['@'] := by
    have hdrop := hclose.tail.drop
    rwa [List.length_replicate] at hdrop
  -- From the last step to the first, each part is put before those that follow it.
  have hlast := (step_stop k clock [] hstop).steps (n := 0) (pure _)
  have hcommas := commas hu hclose.tail (List.cons_ne_nil _ _) hlast
  have hend := (step_quote k clock _ true hclose
    (List.append_ne_nil_of_right_ne_nil _ (List.cons_ne_nil _ _))).steps hcommas
  have hstring : k.Writes ((Machine.onTopRow p clock 1 true []).steps _) _ _ :=
    string (u := t.reverse) (by rwa [List.mem_reverse]) h.tail (List.cons_ne_nil _ _)
      (by rwa [List.length_reverse, List.reverse_reverse])
  have hall := (step_quote k clock [] false h
    (List.append_ne_nil_of_right_ne_nil _ (List.cons_ne_nil _ _))).steps hstring
  have hrunning : ∀ {r e : Except StepError Progress},
      List.replicate (2 * t.length + 2) r ++ [e] =
        r :: (List.replicate t.length r ++ r :: (List.replicate t.length r ++ [e])) := by
    intro r e
    rw [show 2 * t.length + 2 = t.length + (t.length + 1) + 1 by omega, List.replicate_succ,
      List.replicate_add, List.replicate_succ, List.cons_append, List.append_assoc, List.cons_append]
  rw [hrunning, show 2 * t.length + 3 = t.length + (t.length + 1 + 1) + 1 by omega,
    show 2 * t.length + 2 = 1 + t.length + 1 + t.length by omega]
  rw [List.length_reverse] at hall
  simp only [List.nil_append, List.append_nil] at hall
  exact hall

end Recorder.Writes

/-- Text round-trips through a program: the program that prints the text builds, and ends after
`2 * t.length + 3` steps with the text in UTF-8 on its output, an empty stack, nothing read and nothing
on the diagnostics. -/
theorem Process.text_round_trips {o : Options} (ho : o.Supported) {t : List Char} (hquote : '"' ∉ t)
    (hline : '\n' ∉ t) (hu : o.unicode = true ∨ ∀ c ∈ t, c.toNat < 128)
    (hsize : o.anySize = true ∨ 2 * t.length + 3 ≤ 80) :
    ∃ p, Program.build (Source.printing t) o = .ok p ∧
      ∀ {σ : Type} (k : Recorder σ) (clock : UInt64) (s : σ), k.Open s →
        let n := 2 * t.length + 3
        let x := start p clock s
        let y := (x.steps k.answer n).2
        HaltsAt k.answer n (.ok .terminated) x ∧
        (∀ fuel ≥ n, x.exec k.answer fuel = (some (.ok ()), y)) ∧
        k.written y.streams = k.written s ++ Utf8.encode t ∧
        y.machine.stack = {} ∧ y.machine.program = p ∧
        ∀ a ∈ x.asked k.answer n, ¬ a.request.IsRead ∧ a.request.channel? ≠ some .diagnostics := by
  obtain ⟨p, hbuild, rfl, hgrid⟩ := Program.build_printing ho hline hu hsize
  refine ⟨p, hbuild, ?_⟩
  intro σ k clock s hs n x y
  have h : k.Writes (x.machine.steps n) _ _ := .printing hquote hu hgrid
  obtain ⟨hanswers, hmachine, hwritten, hplain⟩ := h.process hs
  have hhalts : HaltsAt k.answer n (.ok .terminated) x := ⟨hanswers, nofun⟩
  refine ⟨hhalts, ?_, hwritten, ?_, ?_, hplain⟩
  · intro fuel hfuel
    have hexec := hhalts.exec_after hhalts.pos fuel
    rwa [if_pos (by omega)] at hexec
  · rw [hmachine]
    rfl
  · rw [hmachine]
    rfl

/-- A text with a carriage return and with characters of two and of four bytes. -/
theorem Process.text_round_trips_unicode :
    let o : Options := { unicode := true, strictStreams := true }
    let t : List Char := ['a', '\r', 'é', '🂡']
    o.Supported ∧ '"' ∉ t ∧ '\n' ∉ t ∧ 2 * t.length + 3 ≤ 80 ∧
      ∃ p, Program.build (Source.printing t) o = .ok p ∧
        let y := ((start p 1 ({} : Console)).steps Console.answer (2 * t.length + 3)).2
        y.machine.stack = {} ∧ y.streams.output.data.toList =
          [0x61, 0x0D, 0xC3, 0xA9, 0xF0, 0x9F, 0x82, 0xA1] := by
  intro o t
  have hrun : ∀ (o : Options) (t : List Char) (bytes : List UInt8), o.Supported → '"' ∉ t →
      '\n' ∉ t → o.unicode = true → 2 * t.length + 3 ≤ 80 → Utf8.encode t = bytes →
      ∃ p, Program.build (Source.printing t) o = .ok p ∧
        let y := ((start p 1 ({} : Console)).steps Console.answer (2 * t.length + 3)).2
        y.machine.stack = {} ∧ y.streams.output.data.toList = bytes := by
    rintro o t bytes ho hquote hline hu hsize rfl
    obtain ⟨p, hbuild, hrun⟩ := text_round_trips ho hquote hline (.inl hu) (.inr hsize)
    obtain ⟨-, -, hwritten, hstack, -⟩ := hrun Console.recorder 1 {} ⟨rfl, rfl⟩
    exact ⟨p, hbuild, hstack, hwritten⟩
  have ho : o.Supported := ⟨rfl, rfl, rfl⟩
  have hquote : '"' ∉ t := by decide
  have hline : '\n' ∉ t := by decide
  have hsize : 2 * t.length + 3 ≤ 80 := by decide
  exact ⟨ho, hquote, hline, hsize, hrun o t _ ho hquote hline rfl hsize (by decide +kernel)⟩

end Befunge
