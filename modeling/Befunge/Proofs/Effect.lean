import Befunge.Machine.Step

/-!
# What a step can do

A handler works on the machine in place, but what it does falls into two parts. First it consults the
outside: it checks its operands, makes its requests, and faults or comes back with the value that it
read. Then it takes effect on the machine, without any further request. That every handler keeps to
this order is `execute_executes`; what a step can come to is listed in `Stepped`.
-/

namespace Befunge

open Text

/-- Someone who answers requests out of a state: streams of any kind. -/
abbrev Responder (σ : Type) := (r : Request) → σ → r.Answer × σ

/-! ## Running an attempt -/

section

variable {α β σ : Type} (f : Responder σ)

theorem Attempt.run_bind (x : Attempt α) (k : α → Attempt β) (s : σ) :
    (x >>= k).run.run f s = match x.run.run f s with
      | (.ok a, t) => (k a).run.run f t
      | (.error e, t) => (.error e, t) := by
  rw [ExceptT.run_bind, Dialogue.run_bind]
  rcases x.run.run f s with ⟨_ | a, t⟩ <;> rfl

theorem Attempt.run_request_bind (r : Request) (k : r.Answer → Attempt β) (s : σ) :
    (liftM (Dialogue.request r) >>= k).run.run f s = (k (f r s).1).run.run f (f r s).2 := rfl

theorem Attempt.run_recover (o : Options) (event : Fault → Event) (x : Attempt α) (s : σ) :
    (recover o event x).run.run f s = match x.run.run f s with
      | (.ok a, t) => (.ok (some a), t)
      | (.error e, t) =>
        if o.strictStreams then (.error e, t) else (.ok none, (f (.note (event e)) t).2) := by
  rw [recover, ExceptT.run_mk, Dialogue.run_bind]
  rcases x.run.run f s with ⟨e | a, t⟩
  · simp only
    split <;> rfl
  · rfl

end

/-! ## The two parts of an instruction -/

namespace Attempt

/-- The requests of `,`. -/
def writeChar (o : Options) (v : Int64) : Attempt Unit :=
  if o.unicode then
    match Cell.ofCodePoint? v with
    | some c => emit o (Utf8.encode [c])
    | none => throw (.notACharacter v)
  else emit o [Cell.byte v]

/-- The quotient `b / a`, by the user's word if `a` is zero. -/
def quotient (o : Options) (b a : Int64) : Attempt Int64 :=
  if a ≠ 0 then pure (b / a)
  else if o.strictDivision then throw (.divisionByZero '/' b)
  else askQuotient o b

end Attempt

/-- How an instruction ends if it does not fault. -/
def Instruction.flow : Instruction → Flow
  | .stop => .stop
  | _ => .next

namespace Program

/-- The requests of an instruction. Of the stack it sees the value at any depth, and no more. -/
def consult (p : Program) (peek : Nat → Int64) : Instruction → Attempt (Option Int64)
  | .divide => some <$> Attempt.quotient p.options (peek 1) (peek 0)
  | .remainder => if peek 0 = 0 then throw (.divisionByZero '%' (peek 1)) else pure none
  | .writeInteger => do
    Attempt.emit p.options (Utf8.encode (Decimal.ofInt64 (peek 0) ++ [' ']))
    pure none
  | .writeChar => do
    Attempt.writeChar p.options (peek 0)
    pure none
  | .put =>
    match p.grid.locate (peek 1) (peek 0) with
    | some _ =>
      if Cell.ofValue? p.options.unicode (peek 2) = none then throw (.notACharacter (peek 2))
      else pure none
    | none =>
      if p.options.strictBounds then throw (.outOfBounds (peek 1) (peek 0))
      else do
        Dialogue.note (.putDiscarded (peek 1) (peek 0) (peek 2))
        pure none
  | .get =>
    if p.grid.locate (peek 1) (peek 0) = none ∧ p.options.strictBounds then
      throw (.outOfBounds (peek 1) (peek 0))
    else pure none
  | .readInteger =>
    Attempt.recover p.options .integerInputFailed (Attempt.readInteger p.options)
  | .readChar => Attempt.recover p.options .characterInputFailed (Attempt.readChar p.options)
  | .stop => do
    Attempt.flush p.options
    pure none
  | .unknown ch =>
    if p.options.ignoreUnknown then pure none else throw (.unknownInstruction ch)
  | _ => pure none

/-- The playfield after `put` has stored what it can of `v` at `(x, y)`. -/
def stored (p : Program) (x y v : Int64) : Grid :=
  match p.grid.locate x y, Cell.ofValue? p.options.unicode v with
  | some q, some c => p.grid.set q c
  | _, _ => p.grid

/-- The value that `get` finds at `(x, y)`. -/
def loaded (p : Program) (x y : Int64) : Int64 :=
  match p.grid.locate x y with
  | some q => Cell.read p.options.unicode (p.grid.cell q)
  | none => 0

end Program

namespace Machine

/-- The value that stands in for a failed integer read, and the generator after it. -/
def failedRead (m : Machine) : Int64 × Generator :=
  if m.options.undefinedReads then m.generator.integer else (-1, m.generator)

/-- The machine after a failed integer read: it has pushed -1, or a random value. -/
def pushFailedRead (m : Machine) : Machine :=
  { m with stack := m.stack.push m.failedRead.1, generator := m.failedRead.2 }

/-- The machine that an instruction leaves which has not faulted and has come back with `v`. -/
def effect (m : Machine) (i : Instruction) (v : Option Int64) : Machine :=
  let a := m.stack.peek 0
  let b := m.stack.peek 1
  let c := m.stack.peek 2
  let rest := m.stack.drop i.arity
  match i with
  | .digit d => m.push (Int64.ofNat d.val)
  | .binary op => m.withStack (rest.push (op.eval b a))
  | .divide => m.withStack (rest.push (v.getD 0))
  | .remainder => m.withStack (rest.push (b % a))
  | .not => m.withStack (rest.push (if a = 0 then 1 else 0))
  | .move d => { m with direction := d }
  | .random => { m with direction := m.generator.direction.1, generator := m.generator.direction.2 }
  | .horizontalIf => { m with stack := rest, direction := if a = 0 then .right else .left }
  | .verticalIf => { m with stack := rest, direction := if a = 0 then .down else .up }
  | .toggleString => { m with stringMode := !m.stringMode }
  | .duplicate => m.withStack ((rest.push a).push a)
  | .swap => m.withStack ((rest.push a).push b)
  | .discard => m.withStack rest
  | .writeInteger => m.withStack rest
  | .writeChar => m.withStack rest
  | .bridge => m.advance
  | .put => { m with stack := rest, program := { m.program with grid := m.program.stored b a c } }
  | .get => m.withStack (rest.push (m.program.loaded b a))
  | .readInteger =>
    match v with
    | some v => m.push v
    | none => m.pushFailedRead
  | .readChar => m.push (v.getD (-1))
  | .stop | .nop | .unknown _ => m

/-- The machine that an instruction leaves whose requests have come to `r`. A fault leaves it without
the operands of the instruction, and otherwise as it was. -/
def left (m : Machine) (i : Instruction) : Except Fault (Option Int64) → Machine
  | .ok v => m.effect i v
  | .error _ => m.withStack (m.stack.drop i.arity)

end Machine

/-! ## Handlers -/

namespace Handler

variable {α : Type}

/-- A handler does the work of an instruction on the machine, with the value `a`: it makes the requests
of the instruction, and leaves the machine that `left` names, at whichever exit it ends. -/
def Executes (x : Handler α) (a : α) (m : Machine) (i : Instruction) : Prop :=
  x.run.run m =
    (fun r => (r.map fun _ => a, m.left i r)) <$> (m.program.consult m.stack.peek i).run

theorem Executes.next {x : Handler Unit} {m : Machine} {i : Instruction} (h : x.Executes () m i) :
    (do x; pure Flow.next : Handler Flow).Executes .next m i := by
  show x.run.run m >>= _ = _
  rw [h, bind_map_left, ← bind_pure_comp]
  exact bind_congr fun r => by cases r <;> rfl

theorem run_pop_bind (k : Int64 → Handler α) (m : Machine) :
    (pop >>= k).run.run m =
      (k (m.stack.peek 0)).run.run (m.withStack (m.stack.drop 1)) := rfl

theorem run_pop2_bind (k : Int64 × Int64 → Handler α) (m : Machine) :
    (pop2 >>= k).run.run m =
      (k (m.stack.peek 0, m.stack.peek 1)).run.run (m.withStack (m.stack.drop 2)) := rfl

theorem run_get_bind (k : Machine → Handler α) (m : Machine) :
    (get >>= k).run.run m = (k m).run.run m := rfl

/-- What a handler makes of an attempt. -/
theorem run_attempt_bind {β : Type} (x : Attempt β) (k : β → Handler α) (m : Machine) :
    (liftM x >>= k).run.run m = x.run >>= fun r => match r with
      | .ok a => (k a).run.run m
      | .error e => pure (.error e, m) := by
  show ((·, m) <$> x.run) >>= _ = _
  rw [bind_map_left]
  exact bind_congr fun r => by cases r <;> rfl

theorem divide_executes (m : Machine) : (divide m.options).Executes () m .divide := by
  rw [Executes, divide, run_pop2_bind]
  simp only [Program.consult, Attempt.quotient, Machine.options]
  by_cases ha : m.stack.peek 0 = 0
  · by_cases hs : m.program.options.strictDivision = true
    · simp only [ha, hs, ne_eq, not_true_eq_false, ↓reduceIte]
      rfl
    · simp only [ha, hs, ne_eq, not_true_eq_false, ↓reduceIte, Bool.false_eq_true]
      rw [run_attempt_bind, ExceptT.run_map, Functor.map_map, ← bind_pure_comp]
      exact bind_congr fun r => by cases r <;> rfl
  · simp only [ha, ne_eq, not_false_eq_true, ↓reduceIte]
    rfl

theorem remainder_executes (m : Machine) : remainder.Executes () m .remainder := by
  rw [Executes, remainder, run_pop2_bind]
  simp only [Program.consult]
  by_cases ha : m.stack.peek 0 = 0
  · simp only [ha, ↓reduceIte]
    rfl
  · simp only [ha, ↓reduceIte]
    rfl

/-- A handler that ends in an attempt of all its instruction's requests. -/
theorem run_attempt {x : Attempt Unit} {m m' : Machine} {i : Instruction}
    (hok : m.effect i none = m') (herror : m.withStack (m.stack.drop i.arity) = m') :
    (liftM x : Handler Unit).run.run m' =
      (fun r => (r.map fun _ => (), m.left i r)) <$>
        (do x; pure none : Attempt (Option Int64)).run := by
  show (·, m') <$> x.run = _
  rw [bind_pure_comp, ExceptT.run_map, Functor.map_map]
  refine map_congr fun r => ?_
  cases r with
  | ok u => exact Prod.ext rfl hok.symm
  | error e => exact Prod.ext rfl herror.symm

theorem writeInteger_executes (m : Machine) :
    (do
      let a ← pop
      Attempt.emit m.options (Utf8.encode (Decimal.ofInt64 a ++ [' '])) : Handler Unit).Executes ()
      m .writeInteger := by
  rw [Executes, run_pop_bind]
  exact run_attempt rfl rfl

theorem writeChar_executes (m : Machine) : (writeChar m.options).Executes () m .writeChar := by
  rw [Executes, writeChar, run_pop_bind]
  simp only [toChar, Cell.ofValue?, Program.consult, Attempt.writeChar, ← Machine.options.eq_1]
  by_cases hu : m.options.unicode = true
  · simp only [hu, ↓reduceIte]
    cases hc : Cell.ofCodePoint? (m.stack.peek 0) with
    | none => rfl
    | some c => exact run_attempt rfl rfl
  · simp only [hu, ↓reduceIte, Bool.false_eq_true]
    exact run_attempt rfl rfl

theorem store_executes (m : Machine) : (store m.options).Executes () m .put := by
  rw [Executes, store, run_pop2_bind, run_pop_bind, run_get_bind]
  simp only [Machine.withStack, toChar, Stack.peek_drop, Stack.drop_drop, Nat.reduceAdd,
    Program.consult, ← Machine.options.eq_1]
  cases hp : m.program.grid.locate (m.stack.peek 1) (m.stack.peek 0) with
  | some p =>
    cases hc : Cell.ofValue? m.options.unicode (m.stack.peek 2) with
    | none =>
      -- The value is checked before the playfield is touched.
      simp only [↓reduceIte]
      rfl
    | some c =>
      have hstored : m.program.stored (m.stack.peek 1) (m.stack.peek 0) (m.stack.peek 2) =
          m.program.grid.set p c := by
        simp only [Program.stored, hp, ← Machine.options.eq_1, hc]
      simp only [reduceCtorEq, ↓reduceIte, ExceptT.run_pure, map_pure, Machine.left, Machine.effect,
        hstored]
      rfl
  | none =>
    have hstored : m.program.stored (m.stack.peek 1) (m.stack.peek 0) (m.stack.peek 2) =
        m.program.grid := by
      simp only [Program.stored, hp]
    by_cases hs : m.options.strictBounds = true
    · simp only [hs, ↓reduceIte]
      rfl
    · simp only [hs, Bool.false_eq_true, ↓reduceIte]
      refine run_attempt (x := liftM (Dialogue.note _)) ?_ rfl
      simp only [Machine.effect, hstored]
      rfl

theorem load_executes (m : Machine) : (load m.options).Executes () m .get := by
  rw [Executes, load, run_pop2_bind, run_get_bind]
  simp only [Machine.withStack, Program.consult, ← Machine.options.eq_1]
  cases hp : m.program.grid.locate (m.stack.peek 1) (m.stack.peek 0) with
  | some p =>
    have hloaded : m.program.loaded (m.stack.peek 1) (m.stack.peek 0) =
        Cell.read m.options.unicode (m.program.grid.cell p) := by
      simp only [Program.loaded, hp, Machine.options]
    simp only [reduceCtorEq, false_and, ↓reduceIte, ExceptT.run_pure, map_pure, Machine.left,
      Machine.effect, hloaded]
    rfl
  | none =>
    have hloaded : m.program.loaded (m.stack.peek 1) (m.stack.peek 0) = 0 := by
      simp only [Program.loaded, hp]
    by_cases hs : m.options.strictBounds = true
    · simp only [hs, and_self, ↓reduceIte]
      rfl
    · simp only [hs, Bool.false_eq_true, and_false, ↓reduceIte, ExceptT.run_pure, map_pure,
        Machine.left, Machine.effect, hloaded]
      rfl

theorem readInteger_executes (m : Machine) :
    (readInteger m.options).Executes () m .readInteger := by
  rw [Executes, readInteger, run_attempt_bind, ← bind_pure_comp]
  refine bind_congr fun r => ?_
  cases r with
  | error e => rfl
  | ok v =>
    cases v with
    | some v => rfl
    | none =>
      simp only [Machine.left, Machine.effect, Machine.pushFailedRead, Machine.failedRead]
      by_cases hr : m.options.undefinedReads = true
      · simp only [hr, ↓reduceIte]
        rfl
      · simp only [hr, ↓reduceIte, Bool.false_eq_true]
        rfl

theorem readChar_executes (m : Machine) : (readChar m.options).Executes () m .readChar := by
  rw [Executes, readChar, run_attempt_bind, ← bind_pure_comp]
  exact bind_congr fun r => by cases r <;> rfl

theorem stop_executes (m : Machine) :
    (do
      Attempt.flush m.options
      pure .stop : Handler Flow).Executes .stop m .stop := by
  show _ = _ <$> (do Attempt.flush m.options; pure none : Attempt (Option Int64)).run
  rw [run_attempt_bind, bind_pure_comp, ExceptT.run_map, Functor.map_map, ← bind_pure_comp]
  exact bind_congr fun r => by cases r <;> rfl

theorem execute_executes (m : Machine) (i : Instruction) :
    (execute m.options i).Executes i.flow m i := by
  cases i with
  | divide => exact (divide_executes m).next
  | remainder => exact (remainder_executes m).next
  | writeInteger => exact (writeInteger_executes m).next
  | writeChar => exact (writeChar_executes m).next
  | put => exact (store_executes m).next
  | get => exact (load_executes m).next
  | readInteger => exact (readInteger_executes m).next
  | readChar => exact (readChar_executes m).next
  | stop => exact stop_executes m
  | unknown ch =>
    simp only [Executes, execute, Program.consult, ← Machine.options.eq_1]
    by_cases h : m.options.ignoreUnknown = true
    · simp only [h, ↓reduceIte]
      rfl
    · simp only [h, ↓reduceIte, Bool.false_eq_true]
      rfl
  | _ => rfl

/-- Whichever exit of an instruction a fault takes, it finds the machine without the operands and
otherwise as it was: nothing has been pushed, stored, turned or drawn before. -/
theorem execute_fault {σ : Type} {f : Responder σ} {m m' : Machine} {i : Instruction} {e : Fault}
    {s t : σ} (h : ((execute m.options i).run.run m).run f s = ((.error e, m'), t)) :
    m' = m.withStack (m.stack.drop i.arity) ∧
      (m.program.consult m.stack.peek i).run.run f s = (.error e, t) := by
  rw [execute_executes m i, Dialogue.run_map] at h
  generalize (m.program.consult m.stack.peek i).run.run f s = x at h ⊢
  obtain ⟨e' | v, u⟩ := x
  · cases h
    exact ⟨rfl, rfl⟩
  · cases h

end Handler

namespace Machine

@[simp] theorem options_effect (m : Machine) (i : Instruction) (v : Option Int64) :
    (m.effect i v).options = m.options := by
  cases i with
  | readInteger => cases v <;> rfl
  | _ => rfl

@[simp] theorem done_effect (m : Machine) (i : Instruction) (v : Option Int64) :
    (m.effect i v).done = m.done := by
  cases i with
  | readInteger => cases v <;> rfl
  | _ => rfl

/-! ## Outcomes -/

/-- The machine after a fault: the instruction has consumed its operands and done nothing else. -/
def faulted (m : Machine) (i : Instruction) : Machine :=
  (m.withStack (m.stack.drop i.arity)).stopped

/-- Ends the step of an instruction whose requests have come to `r`. -/
def conclude (m : Machine) (i : Instruction) (r : Except Fault (Option Int64)) :
    Dialogue (Except StepError Progress × Machine) :=
  (m.left i r).finish (r.map fun _ => i.flow)

theorem conclude_next (m : Machine) {i : Instruction} (h : i ≠ .stop) (v : Option Int64) :
    m.conclude i (.ok v) = pure (.ok .running, (m.effect i v).advance) := by
  cases i with
  | stop => exact absurd rfl h
  | _ => rfl

theorem conclude_stop (m : Machine) (v : Option Int64) :
    m.conclude .stop (.ok v) = (do
      Dialogue.note (.terminated m.pos)
      pure (.ok .terminated, m.stopped)) := rfl

theorem conclude_error (m : Machine) (i : Instruction) (e : Fault) :
    m.conclude i (.error e) = (do
      lastFlush
      Dialogue.note (.crashed m.pos e)
      pure (.error (.crash (m.report e)), m.faulted i)) := rfl

/-- The machine is about to execute an instruction. -/
def Dispatches (m : Machine) : Prop := m.done = false ∧ ¬ (m.stringMode ∧ m.fetch ≠ '"')

instance (m : Machine) : Decidable m.Dispatches := inferInstanceAs (Decidable (_ ∧ _))

theorem step_of_dispatches {m : Machine} (h : m.Dispatches) :
    m.step =
      let i := Instruction.decode m.fetch
      Dialogue.note (.dispatched m.pos i) >>= fun _ =>
        (m.program.consult m.stack.peek i).run >>= fun r => m.conclude i r := by
  have hexecute := Handler.execute_executes m (Instruction.decode m.fetch)
  rw [Handler.Executes] at hexecute
  simp only [step, h.1, h.2, Bool.false_eq_true, ↓reduceIte, dispatch, hexecute, bind_map_left]
  rfl

section

variable {σ : Type} (f : Responder σ) {m : Machine}

theorem run_step_of_done (h : m.done = true) (s : σ) :
    m.step.run f s = ((.error .alreadyExecuted, m), s) := by
  simp [step, h]

theorem run_step_of_char (h : m.done = false) (hs : m.stringMode = true) (hq : m.fetch ≠ '"')
    (s : σ) : m.step.run f s = ((.ok .running, (m.push (Cell.value m.fetch)).advance), s) := by
  simp [step, h, hs, hq]

theorem run_step_of_dispatches (h : m.Dispatches) (s : σ) :
    m.step.run f s =
      let i := Instruction.decode m.fetch
      let x := (m.program.consult m.stack.peek i).run.run f (f (.note (.dispatched m.pos i)) s).2
      (m.conclude i x.1).run f x.2 := by
  rw [step_of_dispatches h, Dialogue.run_bind, Dialogue.run_bind]
  rfl

theorem run_finish_error (e : Fault) (s : σ) :
    (m.finish (.error e)).run f s =
      ((.error (.crash (m.report e)), m.stopped),
        (f (.note (.crashed m.pos e)) (lastFlush.run f s).2).2) := by
  rw [finish, Dialogue.run_bind, Dialogue.run_bind]
  rfl

theorem run_conclude_error (i : Instruction) (e : Fault) (s : σ) :
    (m.conclude i (.error e)).run f s =
      ((.error (.crash (m.report e)), m.faulted i),
        (f (.note (.crashed m.pos e)) (lastFlush.run f s).2).2) :=
  run_finish_error f e s

/-- A machine is done, in the middle of a string, or about to execute an instruction. -/
theorem step_trichotomy (m : Machine) :
    m.done = true ∨ (m.done = false ∧ m.stringMode = true ∧ m.fetch ≠ '"') ∨ m.Dispatches := by
  cases hd : m.done with
  | true => exact .inl rfl
  | false =>
      by_cases hs : m.stringMode = true ∧ m.fetch ≠ '"'
      · exact .inr (.inl ⟨rfl, hs⟩)
      · exact .inr (.inr ⟨hd, hs⟩)

/-- What a step may answer, and the machine it may leave, whatever the outside answers. -/
inductive Stepped (m : Machine) : Except StepError Progress → Machine → Prop
  | done (h : m.done = true) : Stepped m (.error .alreadyExecuted) m
  | char (h : m.done = false) (hs : m.stringMode = true) (hq : m.fetch ≠ '"') :
      Stepped m (.ok .running) (m.push (Cell.value m.fetch)).advance
  | next (h : m.Dispatches) (hi : Instruction.decode m.fetch ≠ .stop) (v : Option Int64) :
      Stepped m (.ok .running) (m.effect (Instruction.decode m.fetch) v).advance
  | stop (h : m.Dispatches) (hi : Instruction.decode m.fetch = .stop) :
      Stepped m (.ok .terminated) m.stopped
  | fault (h : m.Dispatches) (e : Fault) :
      Stepped m (.error (.crash (m.report e))) (m.faulted (Instruction.decode m.fetch))

theorem stepped (m : Machine) (s : σ) :
    Stepped m (m.step.run f s).1.1 (m.step.run f s).1.2 := by
  rcases m.step_trichotomy with h | ⟨h, hs, hq⟩ | h
  · rw [run_step_of_done f h]
    exact .done h
  · rw [run_step_of_char f h hs hq]
    exact .char h hs hq
  · rw [run_step_of_dispatches f h]
    simp only
    generalize (m.program.consult m.stack.peek _).run.run f _ = x
    obtain ⟨e | v, t⟩ := x
    · rw [run_conclude_error]
      exact .fault h e
    · by_cases hi : Instruction.decode m.fetch = .stop
      · rw [hi, conclude_stop]
        exact .stop h hi
      · rw [conclude_next m hi]
        exact .next h hi v

end

theorem Stepped.options_eq {m m' : Machine} {r} (h : Stepped m r m') : m'.options = m.options := by
  cases h with
  | next h hi v => exact options_effect m _ v
  | _ => rfl

/-- A step leaves a machine that is not done exactly if its answer is that the program runs on. -/
theorem Stepped.done_eq_false_iff {m m' : Machine} {r} (h : Stepped m r m') :
    m'.done = false ↔ r = .ok .running := by
  cases h with
  | done h => simp [h]
  | char h => exact ⟨fun _ => rfl, fun _ => h⟩
  | next h hi v => exact ⟨fun _ => rfl, fun _ => (done_effect m _ v).trans h.1⟩
  | stop h hi => exact ⟨nofun, nofun⟩
  | fault h e => exact ⟨nofun, nofun⟩

end Machine

end Befunge
