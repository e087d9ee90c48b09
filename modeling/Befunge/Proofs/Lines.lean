import Befunge.Proofs.Lookahead
import Befunge.Proofs.Numerals

/-!
# Numbers line by line

What `.` writes, `&` reads back. A number takes one line of the input, whatever stands on it: a line that
holds no number costs the program one failed read, and the lines after it are read as if it were not there.
-/

namespace Befunge

open Text

/-! ## Written integers -/

theorem Text.Trims.append_blanks {line s b : List Char} (h : Trims line s)
    (hb : ∀ c ∈ b, isBlank c = true) : Trims (line ++ b) s where
  ends := by
    obtain ⟨before, after, rfl, hbefore, hafter⟩ := h.ends
    refine ⟨before, after ++ b, by simp only [List.append_assoc], hbefore, fun c hc => ?_⟩
    rcases List.mem_append.mp hc with hc | hc
    · exact hafter c hc
    · exact hb c hc
  head := h.head
  last := h.last

namespace Text.Decimal

/-- The bytes that `.` writes for a value. -/
def printed (v : Int64) : List UInt8 := Utf8.encode (ofInt64 v ++ [' '])

theorem isDigits_ofNat (n : Nat) : IsDigits (ofNat n) := fun _ hc =>
  Nat.isDigit_of_mem_toDigits (by decide) (by decide) hc

theorem head?_ne_of_isDigits {ds : List Char} (h : IsDigits ds) {c : Char} (hc : c.isDigit = false) :
    ds.head? ≠ some c := by
  intro hhead
  have := h c (List.mem_of_head? hhead)
  rw [hc] at this
  cases this

theorem denotes_ofInt64 (v : Int64) : Denotes (ofInt64 v) v := by
  have hvalue : Nat.ofDigitChars 10 (ofNat v.toInt.natAbs) 0 = v.toInt.natAbs :=
    Nat.ofDigitChars_ten_toDigits
  have hdigits := isDigits_ofNat v.toInt.natAbs
  have hne : ofNat v.toInt.natAbs ≠ [] := Nat.toDigits_ne_nil
  unfold ofInt64 ofInt
  by_cases hneg : v.toInt < 0
  · rw [if_pos hneg]
    refine ⟨true, _, .minus _, hne, hdigits, ?_⟩
    rw [denoted, if_pos rfl, hvalue]
    omega
  · rw [if_neg hneg]
    refine ⟨false, _, .unsigned ?_ ?_, hne, hdigits, ?_⟩
    · exact head?_ne_of_isDigits hdigits rfl
    · exact head?_ne_of_isDigits hdigits rfl
    · rw [denoted, if_neg Bool.false_ne_true, hvalue]
      omega

theorem not_isBlank_of_isDigit {c : Char} (h : c.isDigit = true) : isBlank c = false := by
  have hrange : 48 ≤ c.toNat ∧ c.toNat ≤ 57 := by
    simp only [Char.isDigit, Bool.and_eq_true, decide_eq_true_eq] at h
    exact h
  simp only [isBlank, Bool.or_eq_false_iff, Bool.and_eq_false_iff, decide_eq_false_iff_not,
    beq_eq_false_iff_ne]
  omega

theorem not_isBlank_of_mem_ofInt64 {v : Int64} {c : Char} (h : c ∈ ofInt64 v) : isBlank c = false := by
  unfold ofInt64 ofInt at h
  split at h
  · rcases List.mem_cons.mp h with rfl | h
    · rfl
    · exact not_isBlank_of_isDigit (isDigits_ofNat _ c h)
  · exact not_isBlank_of_isDigit (isDigits_ofNat _ c h)

/-- Blanks behind a written integer do not matter. -/
theorem trims_ofInt64 (v : Int64) {blanks : List Char} (h : ∀ c ∈ blanks, isBlank c = true) :
    Trims (ofInt64 v ++ blanks) (ofInt64 v) where
  ends := ⟨[], blanks, rfl, nofun, h⟩
  head hc := not_isBlank_of_mem_ofInt64 (List.mem_of_head? hc)
  last hc := not_isBlank_of_mem_ofInt64 (List.mem_of_getLast? hc)

end Text.Decimal

/-! ## Line feeds -/

namespace Text.Utf8

theorem eq_of_mem_encode {c : Char} (h : 10 ∈ encode [c]) : c = '\n' := by
  cases hc : encode [c] with
  | nil =>
      rw [hc] at h
      cases h
  | cons b bs =>
      obtain ⟨hlength, hwell, hnumber⟩ := spells_of_eq_encode hc.symm
      rw [hc] at h
      rcases List.mem_cons.mp h with rfl | h
      · -- The first byte announces that it is the only one.
        have hone : some 1 = some (bs.length + 1) := hlength
        obtain rfl : bs = [] := by simpa using hone
        exact Char.toNat_inj.mp hnumber.symm
      · exact absurd ((not_illFormed_iff.mp hwell).1 10 h) (by decide)

theorem notMem_encode {t : List Char} (h : '\n' ∉ t) : 10 ∉ encode t := by
  intro hmem
  obtain ⟨c, hc, hbyte⟩ := List.mem_flatMap.mp hmem
  rw [← encode_singleton] at hbyte
  exact h (eq_of_mem_encode hbyte ▸ hc)

/-- Bytes with a line feed at their end are UTF-8 only if they are without it. -/
theorem exists_of_encode_eq_concat {t : List Char} {bytes : List UInt8}
    (h : encode t = bytes ++ [10]) : ∃ u, t = u ++ ['\n'] ∧ bytes = encode u := by
  rcases List.eq_nil_or_concat' t with rfl | ⟨u, c, rfl⟩
  · simp at h
  · rw [encode_append] at h
    have hlast : (encode [c]).getLast? = some 10 := by
      rw [← List.getLast?_append_of_ne_nil (encode u) (encode_ne_nil (List.cons_ne_nil c [])), h,
        List.getLast?_concat]
    obtain rfl := eq_of_mem_encode (List.mem_of_getLast? hlast)
    exact ⟨u, rfl, (List.append_cancel_right h).symm⟩

end Text.Utf8

theorem Input.takeLine_unended {line : List UInt8} (h : 10 ∉ line) :
    takeLine (line.map .byte) = (.ok line, []) := by
  induction line with
  | nil => rfl
  | cons b line ih =>
      have hb : b ≠ 10 := fun hb => h (hb ▸ List.mem_cons_self)
      have ih := ih fun hmem => h (List.mem_cons_of_mem b hmem)
      simp only [List.map_cons, takeLine, hb, ↓reduceIte, ih]
      rfl

/-! ## Entries -/

/-- No integer stands on these bytes of a line: they are not UTF-8, or the text that they encode denotes
none. -/
def Unreadable (bytes : List UInt8) : Prop :=
  ∀ t s v, bytes = Utf8.encode t → Trims t s → ¬ Decimal.Denotes s v

theorem unreadable_iff {bytes : List UInt8} : Unreadable bytes ↔
    ∀ t ∈ Utf8.decode? bytes, (Decimal.parse (trim t)).isOk = false := by
  constructor
  · intro h t ht
    cases hparse : Decimal.parse (trim t) with
    | error e => rfl
    | ok v =>
        exact absurd (Decimal.parse_eq_ok_iff.mp hparse)
          (h t _ v (Utf8.decode?_eq_some_iff.mp ht) (trims_trim t))
  · rintro h t s v rfl hs hv
    have hok := h t (Utf8.decode?_encode t)
    rw [hs.trim_eq, Decimal.parse_eq_ok_iff.mpr hv] at hok
    cases hok

instance (bytes : List UInt8) : Decidable (Unreadable bytes) :=
  decidable_of_iff _ unreadable_iff.symm

/-- A line of an input, without its line feed. -/
inductive Entry
  /-- A value as it is written, and then blanks. -/
  | value (v : Int64) (blanks : List Char) (h : ∀ c ∈ blanks, isBlank c = true ∧ c ≠ '\n')
  | other (bytes : List UInt8) (h : 10 ∉ bytes) (hbad : Unreadable bytes)

namespace Entry

def bytes : Entry → List UInt8
  | .value v blanks _ => Decimal.printed v ++ Utf8.encode blanks
  | .other bytes _ _ => bytes

/-- The bytes are those of the lines, each with a line feed; only behind a value at the very end it may be
missing. -/
inductive Spell : List Entry → List UInt8 → Prop
  | nil : Spell [] []
  | unended {v : Int64} {blanks : List Char} (h : ∀ c ∈ blanks, isBlank c = true ∧ c ≠ '\n') :
      Spell [.value v blanks h] (bytes (.value v blanks h))
  | cons (e : Entry) {es : List Entry} {rest : List UInt8} (h : Spell es rest) :
      Spell (e :: es) (e.bytes ++ 10 :: rest)

/-- What reading the line comes to. -/
def Holds : Entry → Except Fault Int64 → Prop
  | .value v _ _, r => r = .ok v
  | .other .., r => ∃ e, r = .error e

theorem notMem_bytes (e : Entry) : 10 ∉ e.bytes := by
  cases e with
  | other bytes h => exact h
  | value v blanks h =>
      have hline : '\n' ∉ Decimal.ofInt64 v ++ [' '] ++ blanks := by
        intro hmem
        rcases List.mem_append.mp hmem with hmem | hmem
        · rcases List.mem_append.mp hmem with hmem | hmem
          · exact absurd (Decimal.not_isBlank_of_mem_ofInt64 hmem) (by decide)
          · exact absurd (List.mem_singleton.mp hmem) (by decide)
        · exact (h _ hmem).2 rfl
      rw [bytes, Decimal.printed, ← Utf8.encode_append]
      exact Utf8.notMem_encode hline

/-- A value is read whether or not its line has been ended. -/
theorem integerOf_value {v : Int64} {blanks : List Char} (tail : List Char)
    (h : ∀ c ∈ blanks ++ tail, isBlank c = true) :
    Attempt.integerOf (.ok (Decimal.printed v ++ Utf8.encode blanks ++ Utf8.encode tail)) = .ok v := by
  have hblank : ∀ c ∈ ' ' :: (blanks ++ tail), isBlank c = true :=
    List.forall_mem_cons.mpr ⟨rfl, h⟩
  have hline : Decimal.printed v ++ Utf8.encode blanks ++ Utf8.encode tail =
      Utf8.encode (Decimal.ofInt64 v ++ ' ' :: (blanks ++ tail)) := by
    rw [Decimal.printed, ← Utf8.encode_append, ← Utf8.encode_append]
    simp only [List.append_assoc, List.cons_append, List.nil_append]
  rw [hline, Attempt.integerOf_line (by simp) (Decimal.trims_ofInt64 v hblank),
    Decimal.parse_eq_ok_iff.mpr (Decimal.denotes_ofInt64 v)]
  rfl

theorem holds_integerOf (e : Entry) : e.Holds (Attempt.integerOf (.ok (e.bytes ++ [10]))) := by
  cases e with
  | value v blanks h =>
      refine integerOf_value ['\n'] fun c hc => ?_
      rcases List.mem_append.mp hc with hc | hc
      · exact (h c hc).1
      · rw [List.mem_singleton.mp hc]
        rfl
  | other bytes h hbad =>
      show ∃ e, Attempt.integerOf (.ok (bytes ++ [10])) = .error e
      cases hdecode : Utf8.decode? (bytes ++ [10]) with
      | none =>
          obtain ⟨b, bs, hcons⟩ := List.exists_cons_of_ne_nil
            (List.append_ne_nil_of_right_ne_nil bytes (List.cons_ne_nil 10 []))
          rw [hcons] at hdecode ⊢
          exact ⟨.stream .notUtf8, by simp only [Attempt.integerOf, hdecode]⟩
      | some line =>
          obtain ⟨t, rfl, rfl⟩ :=
            Utf8.exists_of_encode_eq_concat (Utf8.decode?_eq_some_iff.mp hdecode).symm
          -- The line feed is blank, so it is the same text that stands on the line with it.
          have hs := (trims_trim t).append_blanks (b := ['\n']) (List.forall_mem_singleton.mpr rfl)
          rw [Utf8.decode?_eq_some_iff.mp hdecode, Attempt.integerOf_line (by simp) hs]
          cases hparse : Decimal.parse (trim t) with
          | error e => exact ⟨.notAnInteger e, rfl⟩
          | ok v =>
              exact absurd (Decimal.parse_eq_ok_iff.mp hparse) (hbad t _ v rfl (trims_trim t))

/-- The next line is that of the first entry, and no more is taken with it. -/
theorem Spell.takeLine_eq {e : Entry} {es : List Entry} {bytes : List UInt8}
    (h : Spell (e :: es) bytes) :
    ∃ line rest, Input.takeLine (bytes.map .byte) = (.ok line, rest.map .byte) ∧
      e.Holds (Attempt.integerOf (.ok line)) ∧ Spell es rest ∧ rest <:+ bytes := by
  cases h with
  | @unended v blanks h =>
      have hblank : ∀ c ∈ blanks ++ [], isBlank c = true := by
        rw [List.append_nil]
        exact fun c hc => (h c hc).1
      have hread := integerOf_value (v := v) _ hblank
      rw [Utf8.encode_nil, List.append_nil] at hread
      exact ⟨_, [], Input.takeLine_unended (notMem_bytes _), hread, .nil, List.nil_suffix⟩
  | @cons e es rest h =>
      refine ⟨e.bytes ++ [10], rest, ?_, e.holds_integerOf, h, e.bytes ++ [10], by simp⟩
      rw [List.append_cons, List.map_append]
      exact Input.takeLine_line e.notMem_bytes _

end Entry

/-! ## Steps -/

/-- The machine is about to execute `&`. -/
def Machine.AsksInteger (m : Machine) : Prop :=
  m.Dispatches ∧ Instruction.decode m.fetch = .readInteger

instance (m : Machine) : Decidable m.AsksInteger := inferInstanceAs (Decidable (_ ∧ _))

/-- The machine after `&` has read the line: the value on it is pushed, or what stands in for a value that
cannot be read. -/
def Machine.enter (m : Machine) : Entry → Machine
  | .value v _ _ => (m.push v).advance
  | .other .. => m.pushFailedRead.advance

theorem Machine.withInteger_of_holds {m : Machine} (hm : m.AsksInteger)
    (ho : m.options.strictStreams = false) {e : Entry} {r : Except Fault Int64} (h : e.Holds r) :
    m.withInteger r = (.ok .running, m.enter e) := by
  cases e with
  | value v blanks hblanks =>
      cases h
      simp only [withInteger, hm.2]
      rfl
  | other bytes hline hbad =>
      obtain ⟨e, rfl⟩ := h
      simp only [withInteger, hm.2, ho, Bool.false_eq_true, ↓reduceIte, enter, pushFailedRead]
      rfl

namespace Streams

variable {σ : Type} (k : Streams σ) {x : Process σ}

/-- Unless stream errors are fatal, `&` takes the next line from the input, no matter what the sinks do. -/
theorem step_readInteger (hx : x.machine.AsksInteger) (ho : x.machine.options.strictStreams = false) :
    let y := x.step k.answer
    let line := Input.takeLine (k.input x.streams).items
    (y.1, y.2.machine) = x.machine.withInteger (Attempt.integerOf line.1) ∧
      (k.input y.2.streams).items = line.2 := by
  intro y line
  obtain ⟨t, hflush, hinput⟩ := k.run_flush_of_accepted
    (s := (k.answer (.note (.dispatched x.machine.pos .readInteger)) x.streams).2) (.inl ho)
  rw [k.input_note] at hinput
  obtain ⟨hanswer, hrest⟩ := k.line_items t
  rw [hinput] at hanswer hrest
  have hread : (Attempt.readInteger x.machine.options).run.run k.answer
      (k.answer (.note (.dispatched x.machine.pos .readInteger)) x.streams).2 =
        (Attempt.integerOf line.1, (k.answer .readLine t).2) := by
    rw [Attempt.readInteger_eq, Attempt.run_bind, hflush]
    simp only [Attempt.run_integerLine, Dialogue.run_map]
    exact Prod.ext (congrArg Attempt.integerOf hanswer) rfl
  constructor
  · refine Process.step_of_recovered hx.1 hx.2 (.inl ⟨rfl, rfl⟩) ?_
    rw [Program.consult, Attempt.fst_run_recover]
    exact congrArg _ (congrArg Prod.fst hread)
  · have hconsult := Attempt.run_recover k.answer x.machine.options .integerInputFailed
      (Attempt.readInteger x.machine.options)
      (k.answer (.note (.dispatched x.machine.pos .readInteger)) x.streams).2
    rw [hread] at hconsult
    cases hr : Attempt.integerOf line.1 with
    | ok v =>
        rw [hr] at hconsult
        have hy : y = _ := Process.step_of_run_consult hx.1 hx.2 hconsult
        rw [hy]
        exact hrest
    | error e =>
        simp only [hr, ho, Bool.false_eq_true, ↓reduceIte] at hconsult
        have hy : y = _ := Process.step_of_run_consult hx.1 hx.2 hconsult
        rw [hy]
        exact (congrArg Input.items (k.input_note _ _)).trans hrest

end Streams

/-! ## Runs -/

namespace Process

variable {σ : Type}

/-- How many of a number of steps execute `&`. -/
def integersAsked (f : Responder σ) : Nat → Process σ → Nat
  | 0, _ => 0
  | n + 1, x => (if x.machine.AsksInteger then 1 else 0) + integersAsked f n (x.step f).2

theorem integersAsked_succ (f : Responder σ) (n : Nat) (x : Process σ) :
    x.integersAsked f (n + 1) =
      x.integersAsked f n + if (x.steps f n).2.machine.AsksInteger then 1 else 0 := by
  induction n generalizing x with
  | zero => exact Nat.add_comm _ _
  | succ n ih =>
      rw [integersAsked, ih, ← Nat.add_assoc]
      rfl

theorem integersAsked_mono (f : Responder σ) (x : Process σ) {l n : Nat} (h : l ≤ n) :
    x.integersAsked f l ≤ x.integersAsked f n := by
  induction h with
  | refl => exact Nat.le_refl _
  | step _ ih =>
      rw [integersAsked_succ]
      exact Nat.le_add_right_of_le ih

/-- What is left of the input is the end of the given bytes that these lines spell. -/
def Awaits (k : Streams σ) (bytes : List UInt8) (x : Process σ) (entries : List Entry) : Prop :=
  ∃ rest, Entry.Spell entries rest ∧ rest <:+ bytes ∧ (k.input x.streams).items = rest.map .byte

variable {k : Streams σ} {bytes : List UInt8} {x : Process σ}

theorem Awaits.step {e : Entry} {es : List Entry} (h : x.Awaits k bytes (e :: es))
    (hx : x.machine.AsksInteger) (ho : x.machine.options.strictStreams = false) :
    let y := x.step k.answer
    y.1 = .ok .running ∧ y.2.machine = x.machine.enter e ∧ y.2.Awaits k bytes es := by
  obtain ⟨bytes', hspell, hsuffix, hinput⟩ := h
  obtain ⟨line, rest, hline, hholds, hrest, hsuffix'⟩ := hspell.takeLine_eq
  obtain ⟨hmachine, hitems⟩ := k.step_readInteger hx ho
  rw [hinput, hline] at hmachine hitems
  rw [Machine.withInteger_of_holds hx ho hholds] at hmachine
  exact ⟨congrArg Prod.fst hmachine, congrArg Prod.snd hmachine, rest, hrest,
    hsuffix'.trans hsuffix, hitems⟩

theorem Awaits.of_reads_eq_nil {es : List Entry} (h : x.Awaits k bytes es)
    (hx : x.machine.step.reads k.answer x.streams = []) : (x.step k.answer).2.Awaits k bytes es := by
  obtain ⟨rest, hspell, hsuffix, hinput⟩ := h
  refine ⟨rest, hspell, hsuffix, ?_⟩
  rw [← hinput, ← k.input_run_of_reads _ hx]
  rfl

/-- Of the first `n` steps, each reads nothing or executes `&`. -/
def ReadsIntegersOnly (f : Responder σ) (n : Nat) (x : Process σ) : Prop :=
  ∀ l < n, let y := (x.steps f l).2
    y.machine.step.reads f y.streams = [] ∨ y.machine.AsksInteger

instance (f : Responder σ) (n : Nat) (x : Process σ) : Decidable (x.ReadsIntegersOnly f n) :=
  inferInstanceAs (Decidable (∀ l < n, _ ∨ _))

/-- As many lines as integers were asked for are gone. -/
theorem Awaits.steps {entries : List Entry} (h : x.Awaits k bytes entries)
    (ho : x.machine.options.strictStreams = false) {n : Nat} (hreads : x.ReadsIntegersOnly k.answer n)
    (hn : x.integersAsked k.answer n ≤ entries.length) :
    (x.steps k.answer n).2.Awaits k bytes (entries.drop (x.integersAsked k.answer n)) := by
  induction n with
  | zero => exact h
  | succ n ih =>
      rw [integersAsked_succ] at hn ⊢
      have ih := ih (fun l hl => hreads l (Nat.lt_succ_of_lt hl)) (Nat.le_of_add_right_le hn)
      rw [steps_succ]
      have ho : (x.steps k.answer n).2.machine.options.strictStreams = false := by
        rw [options_steps, ho]
      by_cases hasks : (x.steps k.answer n).2.machine.AsksInteger
      · rw [if_pos hasks] at hn ⊢
        rw [List.drop_eq_getElem_cons (by omega)] at ih
        exact (ih.step hasks ho).2.2
      · rw [if_neg hasks]
        exact ih.of_reads_eq_nil ((hreads n (Nat.lt_succ_self n)).resolve_right hasks)

/-- The `l`-th step, if it executes `&`, reads the line that comes after as many as were asked for before. -/
theorem Awaits.enter {entries : List Entry} (h : x.Awaits k bytes entries)
    (ho : x.machine.options.strictStreams = false) {n : Nat} (hreads : x.ReadsIntegersOnly k.answer n)
    (hn : x.integersAsked k.answer n ≤ entries.length) {l : Nat} (hl : l < n)
    (hasks : (x.steps k.answer l).2.machine.AsksInteger) :
    let y := (x.steps k.answer l).2
    ∃ e, entries[x.integersAsked k.answer l]? = some e ∧ (y.step k.answer).1 = .ok .running ∧
      (y.step k.answer).2.machine = y.machine.enter e := by
  have hlt : x.integersAsked k.answer l < entries.length := by
    have hmono := x.integersAsked_mono k.answer (Nat.succ_le_of_lt hl)
    rw [integersAsked_succ, if_pos hasks] at hmono
    omega
  have hleft := h.steps ho (fun i hi => hreads i (Nat.lt_trans hi hl)) (Nat.le_of_lt hlt)
  rw [List.drop_eq_getElem_cons hlt] at hleft
  obtain ⟨hanswer, hmachine, -⟩ := hleft.step hasks (by rw [options_steps, ho])
  exact ⟨_, List.getElem?_eq_getElem hlt, hanswer, hmachine⟩

end Process

theorem Recorder.Writes.step_writeInteger {τ : Type} {l : Recorder τ} {m : Machine}
    (hd : m.Dispatches) (hi : Instruction.decode m.fetch = .writeInteger) :
    l.Writes m.step (.ok .running, (m.withStack (m.stack.drop 1)).advance)
      (Decimal.printed (m.stack.peek 0)) := by
  refine step (v := none) hd ?_ ?_
  · rw [hi]
    exact (emit _ _).withoutValue
  · rw [hi]
    exact pure _

/-- What `.` writes, `&` reads back, line by line: each `&` takes one line, be it such a value or
a line without a number, and pushes its value or what stands in for it. The lines that were not yet asked
for are what is left of the input. -/
theorem Process.integers_are_read_back {σ τ : Type} :
    (∀ (l : Recorder τ) (w : Process τ), l.Open w.streams → w.machine.Dispatches →
      Instruction.decode w.machine.fetch = .writeInteger →
      let y := w.step l.answer
      y.1 = .ok .running ∧
        l.written y.2.streams = l.written w.streams ++ Decimal.printed (w.machine.stack.peek 0)) ∧
    ∀ (k : Streams σ) (x : Process σ) (entries : List Entry) (bytes : List UInt8),
      Entry.Spell entries bytes → (k.input x.streams).items = bytes.map .byte →
      x.machine.options.strictStreams = false →
      ∀ n, x.ReadsIntegersOnly k.answer n → x.integersAsked k.answer n ≤ entries.length →
        (∀ l < n,
          let y := (x.steps k.answer l).2
          y.machine.AsksInteger →
          ∃ e, entries[x.integersAsked k.answer l]? = some e ∧ (y.step k.answer).1 = .ok .running ∧
            (y.step k.answer).2.machine = y.machine.enter e) ∧
        (x.steps k.answer n).2.Awaits k bytes (entries.drop (x.integersAsked k.answer n)) ∧
        (x.integersAsked k.answer n = entries.length →
          (k.input (x.steps k.answer n).2.streams).items = []) := by
  constructor
  · intro l w hw hd hi y
    have hwrites := Recorder.Writes.step_writeInteger (l := l) hd hi
    exact ⟨congrArg Prod.fst (hwrites.run_eq hw), hwrites.written_eq hw⟩
  · intro k x entries bytes hspell hinput ho n hreads hn
    have hstart : x.Awaits k bytes entries := ⟨bytes, hspell, List.suffix_rfl, hinput⟩
    have hend := hstart.steps ho hreads hn
    refine ⟨fun l hl hasks => hstart.enter ho hreads hn hl hasks, hend, fun hall => ?_⟩
    rw [hall, List.drop_length] at hend
    obtain ⟨rest, hrest, -, hitems⟩ := hend
    cases hrest
    exact hitems

/-- A number, a line with a letter, a line that is not UTF-8, and the least number on a line that does not
end. The program prints the first number before it reads on. -/
theorem Process.integers_are_read_back_least :
    let x : Process Console := start ⟨.ofRows 80 25 ["&.&&&@".toList], {}⟩ 1
      { input := [.bytes [0x37, 0x20, 0x0D, 0x0A, 0x78, 0x0A, 0xFF], .bytes ([0x0A] ++
        Decimal.printed Int64.minValue)] }
    let entries : List Entry := [.value 7 ['\r'] (List.forall_mem_singleton.mpr (by decide)),
      .other [0x78] (by decide) (by decide +kernel), .other [0xFF] (by decide) (by decide +kernel),
      .value Int64.minValue [] nofun]
    x.ReadsIntegersOnly Console.answer 5 ∧ x.integersAsked Console.answer 5 = entries.length ∧
      (x.steps Console.answer 4).2.machine.stack.toList = [-1, -1] ∧
      (x.steps Console.answer 5).2.machine =
        ((x.steps Console.answer 4).2.machine.push Int64.minValue).advance ∧
      (x.steps Console.answer 5).2.streams.input.items = [] := by
  intro x entries
  have hrun : ∀ (x : Process Console) (entries : List Entry) (bytes : List UInt8),
      Entry.Spell entries bytes → x.streams.input.items = bytes.map .byte →
      x.machine.options.strictStreams = false → x.ReadsIntegersOnly Console.answer 5 →
      x.integersAsked Console.answer 5 = entries.length →
      (x.steps Console.answer 4).2.machine.AsksInteger →
      (∃ e, entries[x.integersAsked Console.answer 4]? = some e ∧
        (x.steps Console.answer 5).2.machine = (x.steps Console.answer 4).2.machine.enter e) ∧
      (x.steps Console.answer 5).2.streams.input.items = [] := by
    intro x entries bytes hspell hinput ho hreads hall hasks
    obtain ⟨henter, -, hend⟩ := (integers_are_read_back (τ := Console)).2 Console.streams x entries bytes
      hspell hinput ho 5 hreads (Nat.le_of_eq hall)
    obtain ⟨e, he, -, hmachine⟩ := henter 4 (Nat.lt_succ_self 4) hasks
    refine ⟨⟨e, he, ?_⟩, hend hall⟩
    rw [steps_succ]
    exact hmachine
  have hreads : x.ReadsIntegersOnly Console.answer 5 := by decide +kernel
  have hall : x.integersAsked Console.answer 5 = 4 := by decide +kernel
  have hfour : x.integersAsked Console.answer 4 = 3 := by decide +kernel
  have hspell : Entry.Spell entries _ := .cons _ (.cons _ (.cons _ (.unended _)))
  obtain ⟨⟨e, he, hmachine⟩, hend⟩ :=
    hrun x entries _ hspell (by decide +kernel) rfl hreads hall (by decide +kernel)
  rw [hfour] at he
  cases he
  exact ⟨hreads, hall, by decide +kernel, hmachine, hend⟩

end Befunge
