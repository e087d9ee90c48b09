import Befunge.Proofs.Exchange
import Befunge.Proofs.Requests

/-!
# Byte mode and Unicode mode

Unicode mode extends byte mode. A text that builds in byte mode builds to the same playfield in Unicode
mode, and the program runs there as it does in byte mode, as long as it writes and reads ASCII and stores
nothing but bytes.
-/

namespace Befunge

open Text

/-! ## Characters -/

theorem toNat_ofNat_byte (b : UInt8) : (Char.ofNat b.toNat).toNat = b.toNat := by
  have hb : b.toNat < 256 := b.toNat_lt
  have hv : b.toNat.isValidChar := .inl (by omega)
  rw [Char.ofNat, dif_pos hv]
  rfl

namespace Text.Utf8

theorem encode_of_ascii {b : UInt8} (h : b ≤ 0x7F) : encode [Char.ofNat b.toNat] = [b] := by
  have hb : b.toNat ≤ 127 := UInt8.le_iff_toNat_le.mp h
  have hc : (Char.ofNat b.toNat).val.toNat = b.toNat := toNat_ofNat_byte b
  simp only [encode_cons, encode_nil, List.append_nil, String.utf8EncodeChar, hc]
  rw [if_pos hb, UInt8.ofNat_toNat]

theorem decode?_of_ascii {b : UInt8} (h : b ≤ 0x7F) : decode? [b] = some [Char.ofNat b.toNat] := by
  rw [← decode?_encode, encode_of_ascii h]

end Text.Utf8

namespace Cell

/-- A byte stands for the same character in both modes. -/
theorem ofCodePoint?_of_byte {v : Int64} (h : 0 ≤ v.toInt ∧ v.toInt ≤ 255) :
    ofCodePoint? v = some (Char.ofNat (byte v).toNat) := by
  cases hc : ofCodePoint? v with
  | none =>
      have hnot := ofCodePoint?_eq_none_iff.mp hc
      simp only [IsScalar] at hnot
      omega
  | some c =>
      have hvalue : ofValue? true v = some c := hc
      have hv : (c.toNat : Int) = v.toInt := toNat_of_ofValue? hvalue
      have hb := toNat_byte v
      have hn : c.toNat = (byte v).toNat := by omega
      rw [← hn, Char.ofNat_toNat]

theorem ofValue?_of_byte {v : Int64} (h : 0 ≤ v.toInt ∧ v.toInt ≤ 255) :
    ofValue? true v = ofValue? false v :=
  ofCodePoint?_of_byte h

theorem read_of_byte {c : Char} (h : c.toNat ≤ 0xFF) : read true c = read false c := by
  have hread : ∀ unicode, (read unicode c).toInt = c.toNat := fun _ => toInt_read fun _ => h
  apply Int64.toInt_inj.mp
  rw [hread, hread]

end Cell

/-! ## Requests -/

def Options.inUnicode (o : Options) : Options := { o with unicode := true }

theorem Attempt.writeChar_inUnicode {o : Options} (ho : o.unicode = false) {v : Int64}
    (hv : 0 ≤ v.toInt ∧ v.toInt ≤ 127) : writeChar o.inUnicode v = writeChar o v := by
  have hb := Cell.toNat_byte v
  have hascii : Cell.byte v ≤ 0x7F := by
    rw [UInt8.le_iff_toNat_le]
    show (Cell.byte v).toNat ≤ 127
    omega
  have hc := Cell.ofCodePoint?_of_byte (v := v) (by omega)
  have hu : o.inUnicode.unicode = true := rfl
  simp only [writeChar, ho, hu, hc, Utf8.encode_of_ascii hascii, Bool.false_eq_true, ↓reduceIte]
  rfl

namespace Attempt

variable {σ : Type} {f : Responder σ}

theorem readRest_of_ascii {b : UInt8} (h : b ≤ 0x7F) : readRest b = pure (Char.ofNat b.toNat) := by
  have hlength : Utf8.length? b = some 1 := if_pos h
  simp only [readRest, hlength, Nat.sub_self, readBytes, pure_bind, Utf8.decode?_of_ascii h]

/-- A byte of ASCII is a character of its own. -/
theorem run_character_of_ascii {s : σ}
    (h : ∀ b t, f .readByte s = (.ok (some b), t) → b ≤ 0x7F) :
    (character true).run.run f s = (character false).run.run f s := by
  have hlead : ∀ b t, readByte.run.run f s = (.ok b, t) → b ≤ 0x7F := by
    intro b t hrun
    unfold readByte Dialogue.readByte at hrun
    rw [run_request_bind] at hrun
    cases hanswer : f .readByte s with
    | mk answer v =>
        rw [hanswer] at hrun
        match answer with
        | .ok (some c) =>
            cases hrun
            exact h _ _ hanswer
        | .ok none => cases hrun
        | .error e => cases hrun
  simp only [character, run_bind]
  generalize readByte.run.run f s = u at hlead ⊢
  obtain ⟨e | b, t⟩ := u
  · rfl
  · simp only [readRest_of_ascii (hlead b t rfl), ↓reduceIte, pure_bind, toNat_ofNat_byte]
    rfl

theorem run_readChar_inUnicode {o : Options} (ho : o.unicode = false) {s : σ}
    (h : ∀ a ∈ (recover o .characterInputFailed (readChar o)).run.asked f s,
      a.request = .readByte → ∀ b t, f .readByte a.streams = (.ok (some b), t) → b ≤ 0x7F) :
    (recover o.inUnicode .characterInputFailed (readChar o.inUnicode)).run.run f s =
      (recover o .characterInputFailed (readChar o)).run.run f s := by
  have hmode : recover o.inUnicode .characterInputFailed (readChar o.inUnicode) =
      recover o .characterInputFailed (do flush o; character true) := rfl
  rw [hmode]
  simp only [readChar_eq, recover_flush_bind, ho, run_bind] at h ⊢
  cases hrun : (flush o).run.run f s with
  | mk answer t =>
      cases answer with
      | error e => rfl
      | ok a =>
          -- The byte is asked for in the state that the flush has left.
          have hasked : ⟨.readByte, t⟩ ∈
              (flush o >>= fun _ => recover o .characterInputFailed (character false)).run.asked f s := by
            rw [ExceptT.run_bind, Dialogue.asked_bind, hrun]
            exact List.mem_append_right _ List.mem_cons_self
          simp only [run_recover, run_character_of_ascii (h _ hasked rfl)]

end Attempt

/-! ## Steps -/

def Program.inUnicode (p : Program) : Program := { p with options := p.options.inUnicode }

@[simp] theorem Program.grid_inUnicode (p : Program) : p.inUnicode.grid = p.grid := rfl

@[simp] theorem Program.unicode_inUnicode (p : Program) : p.inUnicode.options.unicode = true := rfl

theorem Grid.covers_of_locate {g : Grid} {x y : Int64} {q : Pos} (h : g.locate x y = some q) :
    g.Covers x y := by
  rw [← Decidable.not_not (p := g.Covers x y), ← locate_eq_none_iff, h]
  exact Option.some_ne_none q

/-- What is stored on the playfield is the same in both modes, if it is a byte. -/
theorem Program.stored_inUnicode {p : Program} (hu : p.options.unicode = false) {x y v : Int64}
    (hv : p.grid.Covers x y → 0 ≤ v.toInt ∧ v.toInt ≤ 255) :
    p.inUnicode.stored x y v = p.stored x y v := by
  simp only [stored, grid_inUnicode, unicode_inUnicode, hu]
  cases hq : p.grid.locate x y with
  | none => rfl
  | some q => rw [Cell.ofValue?_of_byte (hv (Grid.covers_of_locate hq))]

theorem Program.loaded_inUnicode {p : Program} (hu : p.options.unicode = false)
    (hb : p.grid.IsByte) (x y : Int64) : p.inUnicode.loaded x y = p.loaded x y := by
  simp only [loaded, grid_inUnicode, unicode_inUnicode, hu]
  cases hq : p.grid.locate x y with
  | none => rfl
  | some q =>
      have hcell := Grid.getElem?_index (Grid.contains_of_locate hq)
      exact Cell.read_of_byte (hb _ (Array.mem_of_getElem? hcell))

def Machine.inUnicode (m : Machine) : Machine := { m with program := m.program.inUnicode }

def StepError.inUnicode : StepError → StepError
  | .alreadyExecuted => .alreadyExecuted
  | .crash c => .crash { c with program := c.program.inUnicode }

namespace Process

variable {σ : Type} {f : Responder σ} {x : Process σ} {n : Nat}

def inUnicode (x : Process σ) : Process σ := ⟨x.machine.inUnicode, x.streams⟩

/-- The next step does nothing on which the modes differ: the character that it writes is ASCII, the
value that it stores on the playfield is a byte, and every byte that it reads by itself is ASCII. -/
structure Plain (f : Responder σ) (x : Process σ) : Prop where
  written : x.machine.Dispatches → Instruction.decode x.machine.fetch = .writeChar →
    0 ≤ (x.machine.stack.peek 0).toInt ∧ (x.machine.stack.peek 0).toInt ≤ 127
  stored : x.machine.Dispatches → Instruction.decode x.machine.fetch = .put →
    x.machine.program.grid.Covers (x.machine.stack.peek 1) (x.machine.stack.peek 0) →
    0 ≤ (x.machine.stack.peek 2).toInt ∧ (x.machine.stack.peek 2).toInt ≤ 255
  read : ∀ a ∈ x.machine.step.asked f x.streams, a.request = .readByte →
    ∀ b t, f .readByte a.streams = (.ok (some b), t) → b ≤ 0x7F

theorem mem_asked_of_consult (hd : x.machine.Dispatches) {a : Asked σ}
    (ha : let i := Instruction.decode x.machine.fetch
      a ∈ (x.machine.program.consult x.machine.stack.peek i).run.asked f
        (f (.note (.dispatched x.machine.pos i)) x.streams).2) :
    a ∈ x.machine.step.asked f x.streams := by
  rw [Machine.step_of_dispatches hd]
  simp only [Dialogue.asked_bind]
  exact List.mem_append_right _ (List.mem_append_left _ ha)

theorem Plain.run_consult (h : x.Plain f) (hu : x.machine.options.unicode = false)
    (hd : x.machine.Dispatches) :
    let i := Instruction.decode x.machine.fetch
    let t := (f (.note (.dispatched x.machine.pos i)) x.streams).2
    (x.machine.program.inUnicode.consult x.machine.stack.peek i).run.run f t =
      (x.machine.program.consult x.machine.stack.peek i).run.run f t := by
  intro i t
  have hwritten : i = .writeChar → _ := h.written hd
  have hstored : i = .put → _ := h.stored hd
  have hread : ∀ a ∈ (x.machine.program.consult x.machine.stack.peek i).run.asked f t,
      a.request = .readByte → ∀ b t, f .readByte a.streams = (.ok (some b), t) → b ≤ 0x7F :=
    fun a ha => h.read a (mem_asked_of_consult hd ha)
  generalize i = i, t = t at hwritten hstored hread ⊢
  cases i with
  | writeChar =>
      have hwrite := Attempt.writeChar_inUnicode hu (hwritten rfl)
      have hconsult : x.machine.program.inUnicode.consult x.machine.stack.peek .writeChar =
          (do Attempt.writeChar x.machine.options.inUnicode (x.machine.stack.peek 0); pure none) := rfl
      rw [hconsult, hwrite]
      rfl
  | put =>
      rw [Machine.options] at hu
      simp only [Program.consult, Program.grid_inUnicode, Program.unicode_inUnicode, hu]
      cases hq : x.machine.program.grid.locate _ _ with
      | none => rfl
      | some q => simp only [Cell.ofValue?_of_byte (hstored rfl (Grid.covers_of_locate hq))]
  | readChar => exact Attempt.run_readChar_inUnicode hu hread
  | _ => rfl

theorem Plain.indifferent (h : x.Plain f) (hu : x.machine.options.unicode = false)
    (hb : x.machine.program.grid.IsByte) :
    x.machine.Indifferent f x.streams x.machine.program.inUnicode where
  width_eq := rfl
  height_eq := rfl
  undefinedReads_eq := rfl
  fetch_eq _ := rfl
  loaded_eq _ _ := Program.loaded_inUnicode hu hb _ _
  consult_eq hd := h.run_consult hu hd

theorem Plain.after_inUnicode (h : x.Plain f) (hu : x.machine.options.unicode = false) :
    x.machine.program.inUnicode.after (x.put? f) =
      (x.machine.program.after (x.put? f)).inUnicode := by
  cases hw : x.put? f with
  | none => rfl
  | some w =>
      simp only [put?, Option.ite_none_right_eq_some, Option.some.injEq] at hw
      obtain ⟨⟨hd, hi, -⟩, rfl⟩ := hw
      have hstored := Program.stored_inUnicode hu (h.stored hd hi)
      simp only [Program.after, hstored]
      rfl

theorem Plain.step {p : Program} {seed : UInt64} (h : x.Plain f) (hs : x.machine.Sound p seed)
    (hu : p.options.unicode = false) :
    x.inUnicode.step f = ((x.step f).1.mapError .inUnicode, (x.step f).2.inUnicode) := by
  have hu : x.machine.options.unicode = false := by rw [hs.options_eq, hu]
  have hstepped := x.stepped f
  have hseed : x.machine.seed = (x.step f).2.machine.seed :=
    hs.seed_eq.trans (hs.stepped hstepped).seed_eq.symm
  -- What is reported of a crash is the machine's own program, in either mode.
  have hanswer : (x.step f).1.mapError (StepError.onto x.machine.program.inUnicode) =
      (x.step f).1.mapError StepError.inUnicode := by
    generalize (x.step f).1 = r, (x.step f).2.machine = m' at hstepped ⊢
    cases hstepped with
    | done => rfl
    | char => rfl
    | next => rfl
    | stop => rfl
    | fault => rfl
  have hx : x.onto x.machine.program.inUnicode x.machine.seed = x.inUnicode := rfl
  rw [← hx, step_onto f (h.indifferent hu (hs.isByte hu)), h.after_inUnicode hu, ← program_step,
    hanswer, hseed]
  rfl

/-! ## Runs -/

theorem steps_inUnicode {p : Program} {seed : UInt64} (hs : x.machine.Sound p seed)
    (hu : p.options.unicode = false) (hplain : ∀ k < n, (x.steps f k).2.Plain f) :
    x.inUnicode.steps f n =
      ((x.steps f n).1.map (·.mapError .inUnicode), (x.steps f n).2.inUnicode) := by
  induction n generalizing x with
  | zero => rfl
  | succ n ih =>
      have hstep := Plain.step (hplain 0 (Nat.succ_pos n)) hs hu
      have hrest := ih (hs.stepped (x.stepped f)) fun k hk => hplain (k + 1) (Nat.succ_lt_succ hk)
      simp only [steps, List.map_cons] at hstep ⊢
      rw [hstep]
      simp only [hrest]

end Process

theorem Source.problem?_inUnicode {lines : List (List Char)} {o : Options}
    (h : problem? lines o = none) : problem? lines o.inUnicode = none := by
  have hvalidate : o.inUnicode.validate = o.validate := rfl
  unfold problem? at h ⊢
  rw [hvalidate]
  cases hv : o.validate with
  | error e =>
      rw [hv] at h
      cases h
  | ok =>
      rw [hv] at h
      simp only at h
      split at h
      · cases h
      · exact h

theorem Program.build_inUnicode {source : List Char} {o : Options} {p : Program}
    (h : build source o = .ok p) : build source o.inUnicode = .ok p.inUnicode := by
  unfold build at h ⊢
  simp only at h ⊢
  cases hp : Source.problem? (Source.lines source) o with
  | some e =>
      rw [hp] at h
      cases h
  | none =>
      rw [hp] at h
      cases h
      rw [Source.problem?_inUnicode hp]
      rfl

/-- Unicode mode extends byte mode: what builds in byte mode builds to the same playfield, and as long
as only ASCII is written and read as characters and only bytes are stored on the playfield, the run is
the same but for the mode. -/
theorem Process.unicode_extends_bytes {source : List Char} {o : Options} {p : Program}
    (hb : Program.build source o = .ok p) (hu : o.unicode = false) :
    ∃ p', Program.build source { o with unicode := true } = .ok p' ∧ p'.grid = p.grid ∧
      ∀ (clock : UInt64) (σ : Type) (f : Responder σ) (s : σ) (n : Nat),
        (∀ k < n, ((start p clock s).steps f k).2.Plain f) →
        let run := (start p clock s).steps f n
        let run' := (start p' clock s).steps f n
        run'.1 = run.1.map (·.mapError .inUnicode) ∧
          run'.2.machine = run.2.machine.inUnicode ∧ run'.2.streams = run.2.streams := by
  refine ⟨p.inUnicode, Program.build_inUnicode hb, rfl, ?_⟩
  intro clock σ f s n hplain
  have hreachable : Reachable p clock f (start p clock s) := .start f s
  have hsound := hreachable.sound hb
  have hup : p.options.unicode = false := by rw [(Program.of_build hb).1, hu]
  have hrun := steps_inUnicode hsound hup hplain
  have hstart : start p.inUnicode clock s = (start p clock s).inUnicode := rfl
  rw [hstart, hrun]
  exact ⟨rfl, rfl, rfl⟩

/-- A program that copies a character from its input and stores 200 on its playfield, to read it again. -/
theorem Process.unicode_extends_bytes_copy :
    ∃ (p p' : Program) (c : Console), c.input = [.bytes [0x41]] ∧
      Program.build "~,55*8*00p00g.@".toList {} = .ok p ∧
      Program.build "~,55*8*00p00g.@".toList { unicode := true } = .ok p' ∧
      (∀ k < 15, ((start p 1 c).steps Console.answer k).2.Plain Console.answer) ∧
      ((start p' 1 c).steps Console.answer 15).2.machine =
        ((start p 1 c).steps Console.answer 15).2.machine.inUnicode := by
  have hb : Program.build "~,55*8*00p00g.@".toList {} =
      .ok ⟨.ofRows 80 25 ["~,55*8*00p00g.@".toList], {}⟩ := rfl
  obtain ⟨p, hp⟩ : ∃ p : Program, p = ⟨.ofRows 80 25 ["~,55*8*00p00g.@".toList], {}⟩ := ⟨_, rfl⟩
  obtain ⟨c, hc⟩ : ∃ c : Console, c = { input := [.bytes [0x41]] } := ⟨_, rfl⟩
  have hplain : ∀ k < 15, ((start p 1 c).steps Console.answer k).2.Plain Console.answer := by
    subst hp hc
    intro k hk
    refine ⟨?_, ?_, ?_⟩
    · revert k
      decide +kernel
    · revert k
      decide +kernel
    · intro a ha _ b t hb
      have hread : ∀ k < 15, (let x := ((start ⟨.ofRows 80 25 ["~,55*8*00p00g.@".toList], {}⟩ 1
          ({ input := [.bytes [0x41]] } : Console)).steps Console.answer k).2
          (x.machine.step.asked Console.answer x.streams).all fun a =>
            (Except.toOption (Console.answer .readByte a.streams).1).join.all (· ≤ 0x7F)) = true := by
        decide +kernel
      have hall := List.all_eq_true.mp (hread k hk) a ha
      rw [hb] at hall
      exact of_decide_eq_true hall
  rw [← hp] at hb
  obtain ⟨p', hb', -, hrun⟩ := unicode_extends_bytes hb rfl
  exact ⟨p, p', c, by rw [hc], hb, hb', hplain, (hrun 1 Console Console.answer c 15 hplain).2.1⟩

end Befunge
