import Befunge.Proofs.Reads
import Befunge.Proofs.Segments

/-!
# Nothing is read ahead

As long as no read meets the end of the input or a failure, a run depends on the bytes that it has been
given and on nothing that comes after them. A line is read up to its line feed and not a byte further, and
a character up to its last byte.
-/

namespace Befunge

open Text

/-! ## Items -/

namespace Input

theorem takeByte_eq_ok {l : List Item} {b : UInt8} (h : (takeByte l).1 = .ok (some b)) :
    l = .byte b :: (takeByte l).2 := by
  match l with
  | .byte c :: rest =>
      cases h
      rfl
  | [] => cases h
  | .pause :: rest => cases h
  | .failure e :: rest => cases h

theorem takeLine_eq_ok {l : List Item} {line : List UInt8}
    (h : (takeLine l).1 = .ok (line ++ [10])) :
    l = (line ++ [10]).map .byte ++ (takeLine l).2 ∧ 10 ∉ line := by
  induction l generalizing line with
  | nil => simp [takeLine] at h
  | cons x rest ih =>
      cases x with
      | pause => simp [takeLine] at h
      | failure e => cases h
      | byte b =>
          by_cases hb : b = 10
          · subst hb
            simp only [takeLine, ↓reduceIte, Except.ok.injEq] at h ⊢
            obtain rfl : line = [] := by
              simpa using congrArg List.dropLast h.symm
            exact ⟨rfl, List.not_mem_nil⟩
          · simp only [takeLine, hb, ↓reduceIte] at h ⊢
            cases hrest : (takeLine rest).1 with
            | error e =>
                rw [hrest] at h
                cases h
            | ok more =>
                rw [hrest] at h
                cases line with
                | nil =>
                    cases h
                    exact absurd rfl hb
                | cons c line =>
                    cases h
                    obtain ⟨hsplit, hmem⟩ := ih hrest
                    refine ⟨congrArg _ hsplit, ?_⟩
                    simp [hmem, Ne.symm hb]

theorem takeLine_line {line : List UInt8} (h : 10 ∉ line) (rest : List Item) :
    takeLine ((line ++ [10]).map .byte ++ rest) = (.ok (line ++ [10]), rest) := by
  induction line with
  | nil => rfl
  | cons b line ih =>
      have hb : b ≠ 10 := fun hb => h (hb ▸ List.mem_cons_self)
      have ih := ih fun hmem => h (List.mem_cons_of_mem b hmem)
      simp only [List.cons_append, List.map_cons, takeLine, hb, ↓reduceIte, ih]
      rfl

end Input

/-! ## Requests -/

namespace Request

/-- The answer, if it is to a read, was given without meeting the end of the input or a failure. A line
that the end has cut short lacks its line feed. -/
def Complete : (r : Request) → r.Answer → Prop
  | .readByte, .ok b => b ≠ none
  | .readLine, .ok line => line.getLast? = some 10
  | .readByte, .error _ | .readLine, .error _ => False
  | .write .., _ | .flush _, _ | .note _, _ => True

instance : (r : Request) → (a : r.Answer) → Decidable (r.Complete a)
  | .readByte, .ok b => inferInstanceAs (Decidable (b ≠ none))
  | .readLine, .ok line => inferInstanceAs (Decidable (line.getLast? = some 10))
  | .readByte, .error _ | .readLine, .error _ => .isFalse id
  | .write .., _ | .flush _, _ | .note _, _ => .isTrue trivial

theorem complete_readByte_iff {a : Except StreamError (Option UInt8)} :
    Complete .readByte a ↔ ∃ b, a = .ok (some b) := by
  match a with
  | .ok (some b) => simp [Complete]
  | .ok none => simp [Complete]
  | .error e => simp [Complete]

theorem complete_readLine_iff {a : Except StreamError (List UInt8)} :
    Complete .readLine a ↔ ∃ line, a = .ok (line ++ [10]) := by
  match a with
  | .ok line => simp [Complete, List.getLast?_eq_some_iff]
  | .error e => simp [Complete]

def given : (r : Request) → r.Answer → List UInt8
  | .readByte, .ok b => b.toList
  | .readLine, .ok line => line
  | .readByte, .error _ | .readLine, .error _ => []
  | .write .., _ | .flush _, _ | .note _, _ => []

end Request

namespace Asked

variable {σ : Type} (f : Responder σ)

def Complete (a : Asked σ) : Prop := a.request.Complete (f a.request a.streams).1

instance (a : Asked σ) : Decidable (a.Complete f) :=
  inferInstanceAs (Decidable (a.request.Complete _))

def given (a : Asked σ) : List UInt8 := a.request.given (f a.request a.streams).1

end Asked

namespace Refillable

variable {α β σ : Type} (k : Refillable σ)

/-- From the streams `s`, exactly the bytes `P` are taken from the input, and no matter what follows them
there, all goes the same. -/
structure Takes (s : σ) (P : List UInt8) (x : σ → β × σ) : Prop where
  items_eq : (k.input s).items = P.map .byte ++ (k.input (x s).2).items
  refill (i : Input) (rest : List Input.Item) (h : i.items = P.map .byte ++ rest) :
    ∃ j, x (k.refill i s) = ((x s).1, k.refill j (x s).2) ∧ j.items = rest

variable {k}

theorem Takes.pure (s : σ) (b : β) : k.Takes s [] fun s => (b, s) :=
  ⟨rfl, fun i _ h => ⟨i, rfl, h⟩⟩

theorem Takes.bind {s : σ} {P Q : List UInt8} {x : σ → α × σ} {y : α → σ → β × σ}
    (hx : k.Takes s P x) (hy : k.Takes (x s).2 Q (y (x s).1)) :
    k.Takes s (P ++ Q) fun s => y (x s).1 (x s).2 where
  items_eq := by rw [hx.items_eq, hy.items_eq, List.map_append, List.append_assoc]
  refill := by
    intro i rest h
    rw [List.map_append, List.append_assoc] at h
    obtain ⟨j, hj, hitems⟩ := hx.refill i _ h
    obtain ⟨l, hl, hrest⟩ := hy.refill j _ hitems
    exact ⟨l, by rw [hj, hl], hrest⟩

theorem takes_of_not_isRead {r : Request} (hr : ¬ r.IsRead) (s : σ) :
    k.Takes s [] (k.answer r) where
  items_eq := by rw [k.input_answer hr]; rfl
  refill := by
    intro i rest h
    obtain ⟨j, hj⟩ := k.answer_snd_refill r i s
    have hinput : j = i := by
      rw [← k.input_refill j, ← hj, k.input_answer hr, k.input_refill]
    refine ⟨i, ?_, h⟩
    rw [← k.answer_refill hr i s, ← hinput, ← hj, hinput]

theorem takes_readByte {s : σ} {b : UInt8} (h : (k.answer .readByte s).1 = .ok (some b)) :
    k.Takes s [b] (k.answer .readByte) where
  items_eq := by
    obtain ⟨ha, hs⟩ := k.byte_items s
    rw [hs]
    exact Input.takeByte_eq_ok (ha.symm.trans h)
  refill := by
    intro i rest hi
    obtain ⟨ha, hs⟩ := k.byte_items (k.refill i s)
    obtain ⟨j, hj⟩ := k.answer_snd_refill .readByte i s
    rw [k.input_refill, hi] at ha hs
    rw [hj, k.input_refill] at hs
    exact ⟨j, Prod.ext (by rw [ha, h]; rfl) hj, hs⟩

theorem takes_readLine {s : σ} {line : List UInt8}
    (h : (k.answer .readLine s).1 = .ok (line ++ [10])) :
    k.Takes s (line ++ [10]) (k.answer .readLine) ∧ 10 ∉ line := by
  obtain ⟨ha, hs⟩ := k.line_items s
  obtain ⟨hitems, hmem⟩ := Input.takeLine_eq_ok (ha.symm.trans h)
  refine ⟨⟨by rw [hs]; exact hitems, ?_⟩, hmem⟩
  intro i rest hi
  obtain ⟨ha', hs'⟩ := k.line_items (k.refill i s)
  obtain ⟨j, hj⟩ := k.answer_snd_refill .readLine i s
  rw [k.input_refill, hi, Input.takeLine_line hmem] at ha' hs'
  rw [hj, k.input_refill] at hs'
  exact ⟨j, Prod.ext (by rw [ha', h]) hj, hs'⟩

theorem takes_answer {r : Request} {s : σ} (h : r.Complete (k.answer r s).1) :
    k.Takes s (r.given (k.answer r s).1) (k.answer r) := by
  cases r with
  | readByte =>
      obtain ⟨b, hb⟩ := Request.complete_readByte_iff.mp h
      rw [hb]
      exact takes_readByte hb
  | readLine =>
      obtain ⟨line, hline⟩ := Request.complete_readLine_iff.mp h
      rw [hline]
      exact (takes_readLine hline).1
  | write ch bytes => exact takes_of_not_isRead id s
  | flush ch => exact takes_of_not_isRead id s
  | note e => exact takes_of_not_isRead id s

/-- A dialogue whose reads are complete takes the bytes that they give. -/
theorem takes_run (d : Dialogue α) {s : σ} (h : ∀ a ∈ d.asked k.answer s, a.Complete k.answer) :
    k.Takes s ((d.asked k.answer s).flatMap (·.given k.answer)) (d.run k.answer) := by
  induction d generalizing s with
  | done a => exact .pure s a
  | ask r next ih =>
      simp only [Dialogue.asked, List.mem_cons, forall_eq_or_imp] at h
      have hnow : k.Takes s (r.given (k.answer r s).1) (k.answer r) := takes_answer h.1
      exact hnow.bind (y := fun a => (next a).run k.answer) (ih _ h.2)

end Refillable

/-! ## What is given to an instruction -/

section

variable {α σ : Type} {f : Responder σ}

theorem Asked.complete_readByte {s : σ} (h : Complete f ⟨.readByte, s⟩) :
    ∃ b, (f .readByte s).1 = .ok (some b) ∧ given f ⟨.readByte, s⟩ = [b] := by
  obtain ⟨b, hb⟩ := Request.complete_readByte_iff.mp h
  exact ⟨b, hb, congrArg (Request.given .readByte) hb⟩

theorem Asked.given_eq_nil {a : Asked σ} (h : ¬ a.request.IsRead) : a.given f = [] := by
  obtain ⟨r, s⟩ := a
  cases r with
  | readByte => exact absurd trivial h
  | readLine => exact absurd trivial h
  | _ => rfl

theorem Dialogue.flatMap_given_reads (d : Dialogue α) (s : σ) :
    (d.reads f s).flatMap (·.given f) = (d.asked f s).flatMap (·.given f) := by
  unfold reads
  induction d.asked f s with
  | nil => rfl
  | cons a as ih =>
      by_cases h : a.request.IsRead
      · simp only [List.filter_cons, h, decide_true, ↓reduceIte, List.flatMap_cons, ih]
      · simp only [List.filter_cons, h, decide_false, Bool.false_eq_true, ↓reduceIte,
          List.flatMap_cons, ih, Asked.given_eq_nil h, List.nil_append]

namespace Attempt

theorem length_given_readBytes (n : Nat) {s : σ}
    (h : ∀ a ∈ (readBytes n).run.reads f s, a.Complete f) :
    (((readBytes n).run.reads f s).flatMap (·.given f)).length = n := by
  induction n generalizing s with
  | zero => rfl
  | succ n ih =>
      simp only [readBytes, bind_pure_comp, reads_bind, reads_readByte, reads_map] at h ⊢
      obtain ⟨b, hb, hgiven⟩ := Asked.complete_readByte (h _ (List.mem_append_left _ List.mem_cons_self))
      simp only [Action.run_readByte_of_eq (f := f) (Prod.ext hb rfl)] at h ⊢
      have ih := ih fun a ha => h a (List.mem_append_right _ ha)
      simp only [List.flatMap_append, List.flatMap_cons, List.flatMap_nil, List.append_nil, hgiven,
        List.length_append, List.length_singleton, ih]
      omega

/-- The bytes of a character that is read: one, or in Unicode mode as many as the first one announces. -/
theorem given_character {u : Bool} {s : σ} (h : ∀ a ∈ (character u).run.reads f s, a.Complete f) :
    ∃ b bs, ((character u).run.reads f s).flatMap (·.given f) = b :: bs ∧
      bs.length + 1 = if u then (Utf8.length? b).getD 1 else 1 := by
  rw [character, reads_bind, reads_readByte] at h ⊢
  obtain ⟨b, hb, hgiven⟩ := Asked.complete_readByte (h _ (List.mem_append_left _ List.mem_cons_self))
  simp only [Action.run_readByte_of_eq (f := f) (Prod.ext hb rfl)] at h ⊢
  simp only [List.flatMap_cons, hgiven, List.cons_append, List.nil_append]
  refine ⟨b, _, rfl, ?_⟩
  cases u with
  | false => rfl
  | true =>
      simp only [↓reduceIte, bind_pure_comp, reads_map, reads_readRest] at h ⊢
      rw [length_given_readBytes _ fun a ha => h a (List.mem_append_right _ ha)]
      refine Nat.sub_add_cancel ?_
      cases hn : Utf8.length? b with
      | none => exact Nat.le_refl 1
      | some n => exact Action.length?_pos hn

end Attempt

end

/-- The portions that a step may take from the input: a line with the line feed at its end, for a number;
one byte, for a character; or in Unicode mode as many bytes as the first of them announces, if it
announces any. -/
inductive Machine.Portion (m : Machine) : List UInt8 → Prop
  | line (hd : m.Dispatches)
      (hi : Instruction.decode m.fetch = .readInteger ∨ Instruction.decode m.fetch = .divide)
      {line : List UInt8} (h : 10 ∉ line) : Portion m (line ++ [10])
  | character (hd : m.Dispatches) (hi : Instruction.decode m.fetch = .readChar) {b : UInt8}
      {bs : List UInt8}
      (h : bs.length + 1 = if m.options.unicode then (Utf8.length? b).getD 1 else 1) :
      Portion m (b :: bs)

namespace Refillable

variable {σ : Type} {k : Refillable σ}

theorem portion_line {m : Machine} {reads : List (Asked σ)} (hd : m.Dispatches)
    (hi : Instruction.decode m.fetch = .readInteger ∨ Instruction.decode m.fetch = .divide)
    (hreads : reads = [] ∨ ∃ t, reads = [⟨.readLine, t⟩])
    (h : ∀ a ∈ reads, a.Complete k.answer) :
    reads = [] ∨ m.Portion (reads.flatMap (·.given k.answer)) := by
  rcases hreads with rfl | ⟨t, rfl⟩
  · exact .inl rfl
  · obtain ⟨line, hline⟩ := Request.complete_readLine_iff.mp (h _ List.mem_cons_self)
    have hgiven : Asked.given k.answer ⟨.readLine, t⟩ = line ++ [10] :=
      congrArg (Request.given .readLine) hline
    rw [List.flatMap_cons, List.flatMap_nil, List.append_nil, hgiven]
    exact .inr (.line hd hi (takes_readLine hline).2)

/-- A step whose reads are complete reads nothing or takes one portion. -/
theorem portion_step {m : Machine} {s : σ} (h : ∀ a ∈ m.step.reads k.answer s, a.Complete k.answer) :
    m.step.reads k.answer s = [] ∨
      m.Portion ((m.step.reads k.answer s).flatMap (·.given k.answer)) := by
  by_cases hd : m.Dispatches
  case neg => exact .inl (Machine.reads_step_of_not_dispatches hd s)
  obtain ⟨t, hreads⟩ : ∃ t, m.step.reads k.answer s =
      (m.program.consult m.stack.peek (Instruction.decode m.fetch)).run.reads k.answer t :=
    ⟨_, Machine.reads_step_of_dispatches hd s⟩
  rw [hreads] at h ⊢
  by_cases hi : Instruction.decode m.fetch = .readInteger
  · rw [hi, Program.consult, Attempt.reads_recover] at h ⊢
    exact portion_line hd (.inl hi) (Attempt.reads_readInteger t) h
  by_cases hi' : Instruction.decode m.fetch = .divide
  · rw [hi'] at h ⊢
    exact portion_line hd (.inr hi') (m.program.reads_consult_divide m.stack.peek t) h
  by_cases hi'' : Instruction.decode m.fetch = .readChar
  · rw [hi'', Program.consult, Attempt.reads_recover] at h ⊢
    rcases Attempt.reads_readChar (f := k.answer) (o := m.program.options) t with hnone | ⟨v, hv⟩
    · exact .inl hnone
    · rw [hv] at h ⊢
      obtain ⟨b, bs, hgiven, hlength⟩ := Attempt.given_character h
      rw [hgiven]
      exact .inr (.character hd hi'' hlength)
  · exact .inl (Program.reads_consult ⟨hi, hi'', hi'⟩ t)

end Refillable

/-- Nothing is read ahead: if no read of a run meets the end of the input or a failure, the run is the
same at every other input that starts with the bytes `P` it takes, and leaves just what follows `P`.
A step takes a line or the bytes of one character, as it reads a number or a character. -/
theorem Process.nothing_read_ahead {σ : Type} (k : Refillable σ) (x : Process σ) (n : Nat)
    (hreads : ∀ a ∈ x.asked k.answer n, a.Complete k.answer) :
    let run := x.steps k.answer n
    let Consumed := fun P : List UInt8 =>
      (k.input x.streams).items = P.map .byte ++ (k.input run.2.streams).items
    (∃ P, Consumed P) ∧
    (∀ P, Consumed P → ∀ (i : Input) (rest : List Input.Item), i.items = P.map .byte ++ rest →
      let run' := steps k.answer n ⟨x.machine, k.refill i x.streams⟩
      run'.1 = run.1 ∧ run'.2.machine = run.2.machine ∧
        ∃ j, j.items = rest ∧ run'.2.streams = k.refill j run.2.streams) ∧
    ∀ l < n,
      let y := (x.steps k.answer l).2
      ∃ Q, (k.input y.streams).items = Q.map .byte ++ (k.input (y.step k.answer).2.streams).items ∧
        (y.machine.step.reads k.answer y.streams = [] ∧ Q = [] ∨ y.machine.Portion Q) := by
  intro run Consumed
  have htakes := k.takes_run (x.machine.steps n) (x.asked_eq n ▸ hreads)
  generalize (x.machine.steps n).asked k.answer x.streams = asked at htakes
  have hrun : run = _ := x.steps_eq_run k.answer n
  refine ⟨⟨asked.flatMap (·.given k.answer), ?_⟩, ?_, ?_⟩
  · simp only [Consumed, hrun]
    exact htakes.items_eq
  · intro P hP i rest hi run'
    -- Of the input, no other string of bytes than those given leaves what the run leaves.
    have hgiven : P = asked.flatMap (·.given k.answer) := by
      simp only [Consumed, hrun, htakes.items_eq] at hP
      exact (List.map_inj_right fun _ _ h => Input.Item.byte.inj h).mp
        (List.append_cancel_right hP).symm
    rw [hgiven] at hi
    obtain ⟨j, hj, hrest⟩ := htakes.refill i rest hi
    have hrun' : run' = _ := steps_eq_run k.answer n _
    simp only [hrun', hrun, hj]
    exact ⟨trivial, trivial, j, hrest, rfl⟩
  · intro l hl y
    have hstep : ∀ a ∈ y.machine.step.asked k.answer y.streams, a.Complete k.answer :=
      fun a ha => hreads a (mem_asked_of_step hl ha)
    refine ⟨_, (k.takes_run y.machine.step hstep).items_eq, ?_⟩
    rw [← Dialogue.flatMap_given_reads]
    rcases k.portion_step fun a ha => hstep a (List.mem_filter.mp ha).1 with hnone | hportion
    · exact .inl ⟨hnone, by rw [hnone]; rfl⟩
    · exact .inr hportion

/-- A program that reads a number and a character of two bytes, with more to come on the input. -/
theorem Process.nothing_read_ahead_two :
    let x : Process Console := ⟨.start ⟨.ofRows 80 25 ["&~@".toList], { unicode := true }⟩ 1,
      { input := [.bytes [0x37, 0x0A, 0xC3], .bytes [0xA9, 0x21]] }⟩
    let i : Input := [.bytes [0x37], .bytes [0x0A, 0xC3, 0xA9, 0x39], .pause]
    (∀ a ∈ x.asked Console.answer 3, a.Complete Console.answer) ∧
      (x.steps Console.answer 3).2.machine.stack.toList = [7, 0xE9] ∧
      (steps Console.answer 3 ⟨x.machine, { x.streams with input := i }⟩).2.machine =
        (x.steps Console.answer 3).2.machine := by
  intro x i
  have hrun : ∀ x : Process Console,
      (∀ a ∈ x.asked Console.answer 3, a.Complete Console.answer) →
      x.streams.input.items = [0x37, 0x0A, 0xC3, 0xA9].map .byte ++
        (x.steps Console.answer 3).2.streams.input.items →
      (steps Console.answer 3 ⟨x.machine, { x.streams with input := i }⟩).2.machine =
        (x.steps Console.answer 3).2.machine := by
    intro x hreads hP
    obtain ⟨-, hsame, -⟩ := nothing_read_ahead Console.refillable x 3 hreads
    exact (hsame _ hP i [.byte 0x39, .pause] (by decide)).2.1
  have hreads : ∀ a ∈ x.asked Console.answer 3, a.Complete Console.answer := by decide +kernel
  exact ⟨hreads, by decide +kernel, hrun x hreads (by decide +kernel)⟩

end Befunge
