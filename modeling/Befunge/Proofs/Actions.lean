import Befunge.Proofs.Effect

/-!
# What an instruction does with its streams

An instruction first looks at its operands and may refuse them. If it does not, it goes through a list
of actions on its streams, one after another. How an action can end is said here in terms of the answers
to its requests alone; what its end means for the program is the policy's concern.
-/

namespace Befunge

open Text

/-- One action on the streams. -/
inductive Action
  /-- Writes to the output. -/
  | write (bytes : List UInt8)
  /-- Flushes the output. -/
  | flush
  /-- Puts a question to the user on the diagnostics: what the dividend over zero is to be. -/
  | ask (dividend : Int64)
  /-- Reads a line with an integer; the event stands in the log if that fails. -/
  | readInteger (failed : Fault → Event)
  /-- Reads a byte, or in Unicode mode a character. -/
  | readChar
  /-- Logs that a value was to be stored off the playfield. -/
  | discard (x y v : Int64)

namespace Attempt

/-- The part of reading an integer that follows the flush. -/
def integerLine : Attempt Int64 := do
  match ← Dialogue.readLine with
  | .error e => throw (.stream e)
  | .ok [] => throw .endOfInput
  | .ok line =>
    match Utf8.decode? line with
    | none => throw (.stream .notUtf8)
    | some s =>
      match Decimal.parse (trim s) with
      | .ok v => pure v
      | .error e => throw (.notAnInteger e)

/-- The integer that the answer to the request for a line holds. -/
def integerOf : Except StreamError (List UInt8) → Except Fault Int64
  | .error e => .error (.stream e)
  | .ok [] => .error .endOfInput
  | .ok line =>
    match Utf8.decode? line with
    | none => .error (.stream .notUtf8)
    | some s => (Decimal.parse (trim s)).mapError .notAnInteger

theorem run_integerLine : integerLine.run = integerOf <$> Dialogue.readLine := by
  rw [← bind_pure_comp]
  refine congrArg (Dialogue.ask .readLine) (funext fun answer => ?_)
  match answer with
  | .error e => rfl
  | .ok [] => rfl
  | .ok (b :: bs) =>
      simp only [integerOf, Function.comp_apply, Dialogue.done_bind, ExceptT.bindCont]
      cases Utf8.decode? (b :: bs) with
      | none => rfl
      | some s => cases h : Decimal.parse (trim s) <;> simp only [h] <;> rfl

/-- The part of reading a character that follows the flush. -/
def character (unicode : Bool) : Attempt Int64 := do
  let lead ← readByte
  if unicode then
    let c ← readRest lead
    pure (Int64.ofNat c.toNat)
  else pure (Int64.ofNat lead.toNat)

theorem readInteger_eq (o : Options) : readInteger o = (do flush o; integerLine) := rfl

theorem readChar_eq (o : Options) : readChar o = (do flush o; character o.unicode) := rfl

section

variable {α β : Type} (o : Options) (event : Fault → Event)

theorem recover_lift_bind (d : Dialogue β) (k : β → Attempt α) :
    recover o event (liftM d >>= k) = liftM d >>= fun b => recover o event (k b) := by
  have hlift : (liftM d : Attempt β) = ExceptT.lift d := rfl
  apply ExceptT.ext
  simp only [hlift, recover, ExceptT.run_mk, ExceptT.run_bind_lift, bind_assoc]

theorem recover_settle_bind (a : Except StreamError Unit) (x : Attempt α) :
    recover o event (do settle o a; x) = (do settle o a; recover o event x) := by
  cases a with
  | ok u => rfl
  | error e =>
      by_cases hs : o.strictStreams = true
      · -- What is fatal to the attempt is fatal to its recovery.
        simp only [settle, hs, ↓reduceIte]
        apply ExceptT.ext
        simp [recover, hs]
      · simp only [settle, hs, Bool.false_eq_true, ↓reduceIte]
        exact recover_lift_bind o event _ fun _ => x

theorem recover_flush_bind (x : Attempt α) :
    recover o event (do flush o; x) = (do flush o; recover o event x) := by
  simp only [flush, bind_assoc, recover_lift_bind, recover_settle_bind]

end

end Attempt

namespace Action

def perform (o : Options) : Action → Attempt (Option Int64)
  | .write bytes => do
    Attempt.emit o bytes
    pure none
  | .flush => do
    Attempt.flush o
    pure none
  | .ask dividend => do
    Attempt.prompt o dividend
    pure none
  | .readInteger failed => Attempt.recover o failed Attempt.integerLine
  | .readChar => Attempt.recover o .characterInputFailed (Attempt.character o.unicode)
  | .discard x y v => do
    Dialogue.note (.putDiscarded x y v)
    pure none

/-- Performs the actions one after another, until one is fatal. The value is the last one read. -/
def performAll (o : Options) : List Action → Attempt (Option Int64)
  | [] => pure none
  | a :: as => do
    let v ← a.perform o
    let w ← performAll o as
    pure (w.or v)

end Action

/-! ## The actions of an instruction -/

/-- The coordinates name a place on the playfield. -/
def Grid.Covers (g : Grid) (x y : Int64) : Prop :=
  (0 ≤ x.toInt ∧ x.toInt < g.width) ∧ (0 ≤ y.toInt ∧ y.toInt < g.height)

instance (g : Grid) (x y : Int64) : Decidable (g.Covers x y) :=
  inferInstanceAs (Decidable (_ ∧ _))

/-- The value is the code point of a character: at most `10FFFF`, and no surrogate. -/
def Cell.IsScalar (v : Int64) : Prop :=
  0 ≤ v.toInt ∧ v.toInt ≤ 0x10FFFF ∧ ¬ (0xD800 ≤ v.toInt ∧ v.toInt ≤ 0xDFFF)

instance (v : Int64) : Decidable (Cell.IsScalar v) := inferInstanceAs (Decidable (_ ∧ _))

theorem Grid.locate_eq_none_iff {g : Grid} {x y : Int64} : g.locate x y = none ↔ ¬ g.Covers x y := by
  simp only [locate, ite_eq_right_iff, reduceCtorEq, imp_false]
  simp only [Contains, Covers]
  omega

theorem Cell.ofCodePoint?_eq_none_iff {v : Int64} : ofCodePoint? v = none ↔ ¬ IsScalar v := by
  have hiff : 0 ≤ v.toInt ∧ v.toInt.toNat.isValidChar ↔ IsScalar v := by
    simp only [IsScalar, Nat.isValidChar]
    omega
  rw [← hiff]
  constructor
  · intro hnone h
    have hsome : ofCodePoint? v = some _ := dif_pos h
    exact absurd (hsome.symm.trans hnone) (Option.some_ne_none _)
  · exact fun h => dif_neg h

namespace Program

/-- An instruction refuses its operands, or is itself refused, with a fault. -/
inductive Refuses (p : Program) (peek : Nat → Int64) : Instruction → Fault → Prop
  | unknown {c : Char} (h : p.options.ignoreUnknown = false) :
      Refuses p peek (.unknown c) (.unknownInstruction c)
  | remainder (h : peek 0 = 0) : Refuses p peek .remainder (.divisionByZero '%' (peek 1))
  | divide (h : peek 0 = 0) (hs : p.options.strictDivision = true) :
      Refuses p peek .divide (.divisionByZero '/' (peek 1))
  | put_outside (h : ¬ p.grid.Covers (peek 1) (peek 0)) (hs : p.options.strictBounds = true) :
      Refuses p peek .put (.outOfBounds (peek 1) (peek 0))
  | get_outside (h : ¬ p.grid.Covers (peek 1) (peek 0)) (hs : p.options.strictBounds = true) :
      Refuses p peek .get (.outOfBounds (peek 1) (peek 0))
  | put_value (h : p.grid.Covers (peek 1) (peek 0)) (hu : p.options.unicode = true)
      (hv : ¬ Cell.IsScalar (peek 2)) : Refuses p peek .put (.notACharacter (peek 2))
  | writeChar (hu : p.options.unicode = true) (hv : ¬ Cell.IsScalar (peek 0)) :
      Refuses p peek .writeChar (.notACharacter (peek 0))

/-- The actions of an instruction that is not refused. -/
def actions (p : Program) (peek : Nat → Int64) : Instruction → List Action
  | .divide =>
    if peek 0 = 0 ∧ p.options.strictDivision = false then
      [.ask (peek 1), .flush, .readInteger .quotientInputFailed]
    else []
  | .writeInteger => [.write (Utf8.encode (Decimal.ofInt64 (peek 0) ++ [' ']))]
  | .writeChar =>
    if p.options.unicode then
      match Cell.ofCodePoint? (peek 0) with
      | some c => [.write (Utf8.encode [c])]
      | none => []
    else [.write [Cell.byte (peek 0)]]
  | .put =>
    if p.grid.Covers (peek 1) (peek 0) ∨ p.options.strictBounds = true then []
    else [.discard (peek 1) (peek 0) (peek 2)]
  | .readInteger => [.flush, .readInteger .integerInputFailed]
  | .readChar => [.flush, .readChar]
  | .stop => [.flush]
  | _ => []

/-- What an instruction makes of the value that its actions have read. -/
def obtained (peek : Nat → Int64) : Instruction → Option Int64 → Option Int64
  | .divide => fun v => some (if peek 0 = 0 then v.getD 0 else peek 1 / peek 0)
  | _ => id

variable {p : Program} {peek : Nat → Int64} {i : Instruction} {e : Fault}

theorem consult_of_refuses (h : p.Refuses peek i e) : p.consult peek i = throw e := by
  cases h with
  | unknown h => simp [consult, h]
  | remainder h => simp [consult, h]
  | divide h hs => simp [consult, Attempt.quotient, h, hs]
  | put_outside h hs => simp [consult, Grid.locate_eq_none_iff.mpr h, hs]
  | get_outside h hs => simp [consult, Grid.locate_eq_none_iff.mpr h, hs]
  | put_value h hu hv =>
      cases hq : p.grid.locate (peek 1) (peek 0) with
      | none => exact absurd h (Grid.locate_eq_none_iff.mp hq)
      | some q => simp [consult, hq, Cell.ofValue?, hu, Cell.ofCodePoint?_eq_none_iff.mpr hv]
  | writeChar hu hv =>
      simp [consult, Attempt.writeChar, hu, Cell.ofCodePoint?_eq_none_iff.mpr hv]

theorem actions_of_refuses (h : p.Refuses peek i e) : p.actions peek i = [] := by
  cases h with
  | divide h hs => simp [actions, hs]
  | put_outside h hs => simp [actions, hs]
  | put_value h hu hv => simp [actions, h]
  | writeChar hu hv => simp [actions, hu, Cell.ofCodePoint?_eq_none_iff.mpr hv]
  | _ => rfl

/-- An instruction that is not refused goes through its actions. -/
theorem consult_of_not_refuses (h : ∀ e, ¬ p.Refuses peek i e) :
    p.consult peek i = obtained peek i <$> Action.performAll p.options (p.actions peek i) := by
  cases i with
  | divide =>
      by_cases h0 : peek 0 = 0
      · have hs : p.options.strictDivision = false := by
          rw [← Bool.not_eq_true]
          exact fun hs => h _ (.divide h0 hs)
        simp [consult, Attempt.quotient, actions, obtained, h0, hs, Action.performAll, Action.perform,
          Attempt.askQuotient, Attempt.readInteger_eq, Attempt.recover_flush_bind]
      · simp [consult, Attempt.quotient, actions, obtained, h0, Action.performAll]
  | remainder =>
      have h0 : peek 0 ≠ 0 := fun h0 => h _ (.remainder h0)
      simp [consult, actions, obtained, h0, Action.performAll]
  | writeInteger => simp [consult, actions, obtained, Action.performAll, Action.perform]
  | writeChar =>
      by_cases hu : p.options.unicode = true
      · cases hc : Cell.ofCodePoint? (peek 0) with
        | none => exact absurd (.writeChar hu (Cell.ofCodePoint?_eq_none_iff.mp hc)) (h _)
        | some c =>
            simp [consult, Attempt.writeChar, actions, obtained, hu, hc, Action.performAll,
              Action.perform]
      · simp [consult, Attempt.writeChar, actions, obtained, hu, Action.performAll, Action.perform]
  | put =>
      cases hq : p.grid.locate (peek 1) (peek 0) with
      | none =>
          have hcovers := Grid.locate_eq_none_iff.mp hq
          have hs : ¬ p.options.strictBounds = true := fun hs => h _ (.put_outside hcovers hs)
          simp [consult, actions, obtained, hq, hcovers, hs, Action.performAll, Action.perform]
      | some q =>
          have hcovers : p.grid.Covers (peek 1) (peek 0) := by
            rw [← Decidable.not_not (p := p.grid.Covers _ _), ← Grid.locate_eq_none_iff, hq]
            exact Option.some_ne_none q
          have hc : ¬ Cell.ofValue? p.options.unicode (peek 2) = none := by
            unfold Cell.ofValue?
            split
            · rename_i hu
              exact fun hc => h _ (.put_value hcovers hu (Cell.ofCodePoint?_eq_none_iff.mp hc))
            · exact Option.some_ne_none _
          simp [consult, actions, obtained, hq, hcovers, hc, Action.performAll]
  | get =>
      have hs : ¬ (p.grid.locate (peek 1) (peek 0) = none ∧ p.options.strictBounds = true) := by
        rintro ⟨hq, hs⟩
        exact h _ (.get_outside (Grid.locate_eq_none_iff.mp hq) hs)
      simp only [consult, hs, ↓reduceIte]
      simp [actions, obtained, Action.performAll]
  | readInteger =>
      simp [consult, actions, obtained, Action.performAll, Action.perform, Attempt.readInteger_eq,
        Attempt.recover_flush_bind]
  | readChar =>
      simp [consult, actions, obtained, Action.performAll, Action.perform, Attempt.readChar_eq,
        Attempt.recover_flush_bind]
  | stop => simp [consult, actions, obtained, Action.performAll, Action.perform]
  | unknown ch =>
      have hi : ¬ p.options.ignoreUnknown = false := fun hi => h _ (.unknown hi)
      simp [consult, actions, obtained, hi, Action.performAll]
  | _ => simp [consult, actions, obtained, Action.performAll]

end Program

/-! ## How an action ends -/

namespace Action

section

variable {σ : Type} (f : Responder σ)

/-- One read after another gives these bytes. -/
inductive Reads : σ → List UInt8 → σ → Prop
  | nil (s : σ) : Reads s [] s
  | cons {s t v : σ} {b : UInt8} {bs : List UInt8} (h : f .readByte s = (.ok (some b), t))
      (hbs : Reads t bs v) : Reads s (b :: bs) v

/-- The next read gives no byte. -/
inductive ByteFails (s : σ) : Fault → Prop
  | ended (h : (f .readByte s).1 = .ok none) : ByteFails s .endOfInput
  | endedWithin {e : StreamError} (h : (f .readByte s).1 = .error e) (he : e.kind = .endOfInput) :
      ByteFails s .endOfInput
  | failed {e : StreamError} (h : (f .readByte s).1 = .error e) (he : e.kind ≠ .endOfInput) :
      ByteFails s (.stream e)

/-- After these bytes of a character another one is due. In byte mode a character is one byte. -/
def Due (unicode : Bool) : List UInt8 → Prop
  | [] => True
  | b :: bs => unicode = true ∧ ∃ n, Utf8.length? b = some n ∧ bs.length + 1 < n

/-- The fault that a failed write or flush amounts to. -/
def sinkFault (e : StreamError) : Fault := if e.kind = .wroteNothing then .wroteNothing else .stream e

/-- The question that is put on the diagnostics. -/
def question (dividend : Int64) : List UInt8 :=
  Utf8.encode s!"What do you want {Decimal.text dividend}/0 to be?\n".toList

variable (unicode : Bool)

/-- The action fails, by the answers to its requests. -/
inductive Fails : Action → σ → Fault → Prop
  | write {bytes : List UInt8} {s : σ} {e : StreamError}
      (h : (f (.write .output bytes) s).1 = .error e) : Fails (.write bytes) s (sinkFault e)
  | flush {s : σ} {e : StreamError} (h : (f (.flush .output) s).1 = .error e) :
      Fails .flush s (sinkFault e)
  | askWrite {b : Int64} {s : σ} {e : StreamError}
      (h : (f (.write .diagnostics (question b)) s).1 = .error e) : Fails (.ask b) s (sinkFault e)
  | askFlush {b : Int64} {s t : σ} {e : StreamError}
      (h : f (.write .diagnostics (question b)) s = (.ok (), t))
      (he : (f (.flush .diagnostics) t).1 = .error e) : Fails (.ask b) s (sinkFault e)
  | line {ev : Fault → Event} {s : σ} {e : StreamError} (h : (f .readLine s).1 = .error e) :
      Fails (.readInteger ev) s (.stream e)
  | lineEnded {ev : Fault → Event} {s : σ} (h : (f .readLine s).1 = .ok []) :
      Fails (.readInteger ev) s .endOfInput
  | lineNotUtf8 {ev : Fault → Event} {s : σ} {bytes : List UInt8}
      (h : (f .readLine s).1 = .ok bytes) (hne : bytes ≠ []) (hd : Utf8.decode? bytes = none) :
      Fails (.readInteger ev) s (.stream .notUtf8)
  | notAnInteger {ev : Fault → Event} {s : σ} {bytes : List UInt8} {text : List Char}
      {e : Decimal.Error} (h : (f .readLine s).1 = .ok bytes) (hne : bytes ≠ [])
      (hd : Utf8.decode? bytes = some text) (he : Decimal.parse (trim text) = .error e) :
      Fails (.readInteger ev) s (.notAnInteger e)
  | byte {s t : σ} {bs : List UInt8} {e : Fault} (h : Reads f s bs t) (hdue : Due unicode bs)
      (he : ByteFails f t e) : Fails .readChar s e
  | notALead {s t : σ} {b : UInt8} (hu : unicode = true) (h : Reads f s [b] t)
      (hb : Utf8.length? b = none) : Fails .readChar s .notUtf8
  | notACharacter {s t : σ} {b : UInt8} {bs : List UInt8} (hu : unicode = true)
      (h : Reads f s (b :: bs) t) (hb : Utf8.length? b = some (bs.length + 1))
      (hd : ∀ c, Utf8.decode? (b :: bs) ≠ some [c]) : Fails .readChar s .notUtf8

/-- The action succeeds, by the answers to its requests, and leaves the streams in a state. -/
inductive Succeeds : Action → σ → σ → Prop
  | write {bytes : List UInt8} {s t : σ} (h : f (.write .output bytes) s = (.ok (), t)) :
      Succeeds (.write bytes) s t
  | flush {s t : σ} (h : f (.flush .output) s = (.ok (), t)) : Succeeds .flush s t
  | ask {b : Int64} {s t v : σ} (h : f (.write .diagnostics (question b)) s = (.ok (), t))
      (h' : f (.flush .diagnostics) t = (.ok (), v)) : Succeeds (.ask b) s v
  | integer {ev : Fault → Event} {s t : σ} {bytes : List UInt8} {text : List Char} {v : Int64}
      (h : f .readLine s = (.ok bytes, t)) (hne : bytes ≠ [])
      (hd : Utf8.decode? bytes = some text) (hv : Decimal.parse (trim text) = .ok v) :
      Succeeds (.readInteger ev) s t
  | byte {s t : σ} {b : UInt8} (hu : unicode = false) (h : Reads f s [b] t) : Succeeds .readChar s t
  | character {s t : σ} {b : UInt8} {bs : List UInt8} {c : Char} (hu : unicode = true)
      (h : Reads f s (b :: bs) t) (hb : Utf8.length? b = some (bs.length + 1))
      (hd : Utf8.decode? (b :: bs) = some [c]) : Succeeds .readChar s t
  | discard {x y v : Int64} {s : σ} :
      Succeeds (.discard x y v) s (f (.note (.putDiscarded x y v)) s).2

end

section

variable {σ : Type} {f : Responder σ} {u : Bool}

theorem length?_pos {b : UInt8} {n : Nat} (h : Utf8.length? b = some n) : 0 < n := by
  unfold Utf8.length? at h
  grind

theorem reads_or_fails (n : Nat) (s : σ) :
    (∃ bs t, Reads f s bs t ∧ bs.length = n) ∨
      ∃ bs t e, Reads f s bs t ∧ bs.length < n ∧ ByteFails f t e := by
  induction n generalizing s with
  | zero => exact .inl ⟨[], s, .nil s, rfl⟩
  | succ n ih =>
      cases h : f .readByte s with
      | mk answer t =>
          match answer with
          | .ok (some b) =>
              rcases ih t with ⟨bs, v, hbs, rfl⟩ | ⟨bs, v, e, hbs, hlt, he⟩
              · exact .inl ⟨b :: bs, v, .cons h hbs, rfl⟩
              · exact .inr ⟨b :: bs, v, e, .cons h hbs, Nat.succ_lt_succ hlt, he⟩
          | .ok none => exact .inr ⟨[], s, _, .nil s, Nat.succ_pos n, .ended (by rw [h])⟩
          | .error e =>
              by_cases he : e.kind = .endOfInput
              · exact .inr ⟨[], s, _, .nil s, Nat.succ_pos n, .endedWithin (by rw [h]) he⟩
              · exact .inr ⟨[], s, _, .nil s, Nat.succ_pos n, .failed (by rw [h]) he⟩

theorem fails_or_succeeds_of_lead {s t : σ} {b : UInt8} (hb : f .readByte s = (.ok (some b), t)) :
    (∃ e, Action.readChar.Fails f u s e) ∨ ∃ t, Action.readChar.Succeeds f u s t := by
  cases hu : u with
  | false => exact .inr ⟨t, .byte rfl (.cons hb (.nil t))⟩
  | true =>
      cases hlead : Utf8.length? b with
      | none => exact .inl ⟨_, .notALead rfl (.cons hb (.nil t)) hlead⟩
      | some n =>
          have hpos := length?_pos hlead
          rcases reads_or_fails (f := f) (n - 1) t with ⟨bs, v, hbs, hlen⟩ | ⟨bs, v, e, hbs, hlt, he⟩
          · have hlead : Utf8.length? b = some (bs.length + 1) := by rw [hlead, hlen]; congr 1; omega
            by_cases hd : ∃ c, Utf8.decode? (b :: bs) = some [c]
            · obtain ⟨c, hd⟩ := hd
              exact .inr ⟨v, .character rfl (.cons hb hbs) hlead hd⟩
            · exact .inl ⟨_, .notACharacter rfl (.cons hb hbs) hlead fun c hc => hd ⟨c, hc⟩⟩
          · exact .inl ⟨e, .byte (.cons hb hbs) ⟨rfl, n, hlead, by omega⟩ he⟩

theorem fails_or_succeeds (a : Action) (s : σ) :
    (∃ e, a.Fails f u s e) ∨ ∃ t, a.Succeeds f u s t := by
  cases a with
  | write bytes =>
      cases h : f (.write .output bytes) s with
      | mk answer t =>
          match answer with
          | .ok () => exact .inr ⟨t, .write h⟩
          | .error e => exact .inl ⟨_, .write (by rw [h])⟩
  | flush =>
      cases h : f (.flush .output) s with
      | mk answer t =>
          match answer with
          | .ok () => exact .inr ⟨t, .flush h⟩
          | .error e => exact .inl ⟨_, .flush (by rw [h])⟩
  | ask b =>
      cases h : f (.write .diagnostics (question b)) s with
      | mk answer t =>
          match answer with
          | .error e => exact .inl ⟨_, .askWrite (by rw [h])⟩
          | .ok () =>
              cases h' : f (.flush .diagnostics) t with
              | mk answer v =>
                  match answer with
                  | .ok () => exact .inr ⟨v, .ask h h'⟩
                  | .error e => exact .inl ⟨_, .askFlush h (by rw [h'])⟩
  | readInteger ev =>
      cases h : f .readLine s with
      | mk answer t =>
          match answer with
          | .error e => exact .inl ⟨_, .line (by rw [h])⟩
          | .ok [] => exact .inl ⟨_, .lineEnded (by rw [h])⟩
          | .ok (b :: bs) =>
              cases hd : Utf8.decode? (b :: bs) with
              | none => exact .inl ⟨_, .lineNotUtf8 (by rw [h]) (List.cons_ne_nil b bs) hd⟩
              | some text =>
                  cases hv : Decimal.parse (trim text) with
                  | error e => exact .inl ⟨_, .notAnInteger (by rw [h]) (List.cons_ne_nil b bs) hd hv⟩
                  | ok v => exact .inr ⟨t, .integer h (List.cons_ne_nil b bs) hd hv⟩
  | readChar =>
      rcases reads_or_fails (f := f) 1 s with ⟨bs, t, hbs, hlen⟩ | ⟨bs, t, e, hbs, hlt, he⟩
      · obtain ⟨b, rfl⟩ := List.length_eq_one_iff.mp hlen
        cases hbs with
        | cons hb _ => exact fails_or_succeeds_of_lead hb
      · obtain rfl := List.length_eq_zero_iff.mp (Nat.lt_one_iff.mp hlt)
        exact .inl ⟨e, .byte hbs trivial he⟩
  | discard x y v => exact .inr ⟨_, .discard⟩

end

/-! ## Actions under the policy -/

section

open Attempt

variable {σ : Type} {f : Responder σ} {o : Options} {s t : σ} {e : Fault}

theorem run_settle_strict (hs : o.strictStreams = true) (e : StreamError) (s : σ) :
    (settle o (.error e)).run.run f s = (.error (sinkFault e), s) := by
  simp only [settle, hs, ↓reduceIte]
  rfl

theorem run_settle_lenient (hs : o.strictStreams = false) (a : Except StreamError Unit) (s : σ) :
    ∃ t, (settle o a).run.run f s = (.ok (), t) := by
  cases a with
  | ok u => exact ⟨s, rfl⟩
  | error e =>
      simp only [settle, hs, Bool.false_eq_true, ↓reduceIte]
      exact ⟨_, rfl⟩

theorem run_recover_lenient {α : Type} (hs : o.strictStreams = false) (event : Fault → Event)
    (x : Attempt α) (s : σ) : ∃ v t, (recover o event x).run.run f s = (.ok v, t) := by
  rw [run_recover]
  generalize x.run.run f s = y
  obtain ⟨e | a, t⟩ := y
  · exact ⟨none, _, by simp only [hs, Bool.false_eq_true, ↓reduceIte]; rfl⟩
  · exact ⟨some a, t, rfl⟩

theorem run_emit (bytes : List UInt8) (s : σ) :
    (emit o bytes).run.run f s =
      (settle o (f (.write .output bytes) s).1).run.run f (f (.write .output bytes) s).2 := rfl

theorem run_flush (s : σ) :
    (Attempt.flush o).run.run f s =
      (settle o (f (.flush .output) s).1).run.run f (f (.flush .output) s).2 := rfl

theorem run_prompt (b : Int64) (s : σ) :
    (prompt o b).run.run f s =
      match f (.write .diagnostics (question b)) s with
      | (.ok (), t) => (settle o (f (.flush .diagnostics) t).1).run.run f (f (.flush .diagnostics) t).2
      | (.error e, t) => (settle o (.error e)).run.run f t := by
  unfold prompt Dialogue.write question
  simp only
  rw [run_request_bind]
  generalize f (.write .diagnostics _) s = x
  obtain ⟨e | _, t⟩ := x <;> rfl

theorem run_readByte_of_eq {b : UInt8} (h : f .readByte s = (.ok (some b), t)) :
    Attempt.readByte.run.run f s = (.ok b, t) := by
  unfold Attempt.readByte Dialogue.readByte
  rw [run_request_bind, h]
  rfl

theorem ByteFails.run_readByte (h : ByteFails f s e) :
    Attempt.readByte.run.run f s = (.error e, (f .readByte s).2) := by
  unfold Attempt.readByte Dialogue.readByte
  rw [run_request_bind]
  cases h with
  | ended h => rw [h]; rfl
  | endedWithin h he => rw [h]; simp only [he, ↓reduceIte]; rfl
  | failed h he => rw [h]; simp only [he, ↓reduceIte]; rfl

theorem Reads.run_readBytes {bs : List UInt8} (h : Reads f s bs t) :
    (readBytes bs.length).run.run f s = (.ok bs, t) := by
  induction h with
  | nil s => rfl
  | cons hb _ ih =>
      simp only [List.length_cons, readBytes, Attempt.run_bind, run_readByte_of_eq hb, ih]
      rfl

theorem Reads.run_readBytes_of_fails {bs : List UInt8} (h : Reads f s bs t) (he : ByteFails f t e)
    {n : Nat} (hn : bs.length < n) : ∃ v, (readBytes n).run.run f s = (.error e, v) := by
  induction h generalizing n with
  | nil s =>
      obtain ⟨n, rfl⟩ := Nat.exists_eq_succ_of_ne_zero (Nat.ne_of_gt hn)
      refine ⟨(f .readByte s).2, ?_⟩
      simp only [readBytes, Attempt.run_bind, he.run_readByte]
  | cons hb _ ih =>
      obtain ⟨n, rfl⟩ := Nat.exists_eq_succ_of_ne_zero (Nat.ne_of_gt (Nat.zero_lt_of_lt hn))
      obtain ⟨v, hv⟩ := ih he (Nat.lt_of_succ_lt_succ hn)
      exact ⟨v, by simp only [readBytes, Attempt.run_bind, run_readByte_of_eq hb, hv]⟩

theorem run_character_of_lead {u : Bool} {b : UInt8} (hb : f .readByte s = (.ok (some b), t)) :
    (character u).run.run f s =
      if u then
        match Utf8.length? b with
        | none => (.error .notUtf8, t)
        | some n =>
          match (readBytes (n - 1)).run.run f t with
          | (.error e, v) => (.error e, v)
          | (.ok bs, v) =>
            match Utf8.decode? (b :: bs) with
            | some [c] => (.ok (Int64.ofNat c.toNat), v)
            | _ => (.error .notUtf8, v)
      else (.ok (Int64.ofNat b.toNat), t) := by
  simp only [character, Attempt.run_bind, run_readByte_of_eq hb]
  split
  · rw [Attempt.run_bind, readRest]
    cases Utf8.length? b with
    | none => rfl
    | some n =>
        simp only [Attempt.run_bind]
        generalize (readBytes (n - 1)).run.run f t = x
        obtain ⟨e | bs, v⟩ := x
        · rfl
        · simp only
          generalize Utf8.decode? (b :: bs) = d
          rcases d with _ | _ | ⟨c, _ | ⟨c', cs⟩⟩ <;> rfl
  · rfl

theorem Fails.run_character {u : Bool} (h : Action.readChar.Fails f u s e) :
    ∃ v, (Attempt.character u).run.run f s = (.error e, v) := by
  cases h with
  | byte hbs hdue he =>
      -- Where the lead byte is read, it says how many are due, and the read fails among them.
      cases hbs with
      | nil => exact ⟨_, by rw [Attempt.character, Attempt.run_bind, he.run_readByte]⟩
      | cons hb hbs =>
          obtain ⟨rfl, n, hlead, hlt⟩ := hdue
          obtain ⟨v, hv⟩ := hbs.run_readBytes_of_fails he (n := n - 1) (by omega)
          refine ⟨v, ?_⟩
          simp only [run_character_of_lead hb, ↓reduceIte, hlead, hv]
  | notALead hu hbs hlead =>
      subst hu
      cases hbs with
      | @cons _ t _ _ _ hb _ =>
          refine ⟨t, ?_⟩
          simp only [run_character_of_lead hb, ↓reduceIte, hlead]
  | @notACharacter _ t b bs hu hbs hlead hd =>
      subst hu
      cases hbs with
      | cons hb hbs =>
          refine ⟨t, ?_⟩
          simp only [run_character_of_lead hb, ↓reduceIte, hlead, Nat.add_sub_cancel,
            hbs.run_readBytes]

theorem Succeeds.run_character {u : Bool} (h : Action.readChar.Succeeds f u s t) :
    ∃ v, (Attempt.character u).run.run f s = (.ok v, t) := by
  cases h with
  | byte hu hbs =>
      subst hu
      cases hbs with
      | cons hb hnil =>
          cases hnil
          exact ⟨_, run_character_of_lead hb⟩
  | @character _ _ b bs c hu hbs hlead hd =>
      subst hu
      cases hbs with
      | cons hb hbs =>
          refine ⟨Int64.ofNat c.toNat, ?_⟩
          simp only [run_character_of_lead hb, ↓reduceIte, hlead, Nat.add_sub_cancel,
            hbs.run_readBytes, hd]

theorem Fails.run_integerLine {u : Bool} {ev : Fault → Event}
    (h : (Action.readInteger ev).Fails f u s e) :
    integerLine.run.run f s = (.error e, (f .readLine s).2) := by
  unfold integerLine Dialogue.readLine
  rw [run_request_bind]
  cases h with
  | line h => rw [h]; rfl
  | lineEnded h => rw [h]; rfl
  | lineNotUtf8 h hne hd => rw [h]; simp only [hd]; rfl
  | notAnInteger h hne hd he => rw [h]; simp only [hd, he]; rfl

theorem Succeeds.run_integerLine {u : Bool} {ev : Fault → Event}
    (h : (Action.readInteger ev).Succeeds f u s t) :
    ∃ v, integerLine.run.run f s = (.ok v, t) := by
  unfold integerLine Dialogue.readLine
  rw [run_request_bind]
  cases h with
  | @integer _ _ _ _ _ v h hne hd hv =>
      rw [h]
      simp only [hd, hv]
      exact ⟨v, rfl⟩

/-- Where stream errors are fatal, the program faults with an action that fails. -/
theorem Fails.run_perform (hs : o.strictStreams = true) {a : Action} (h : a.Fails f o.unicode s e) :
    ∃ v, (a.perform o).run.run f s = (.error e, v) := by
  cases a with
  | write bytes =>
      cases h with
      | write h => exact ⟨_, by rw [perform, Attempt.run_bind, run_emit, h, run_settle_strict hs]⟩
  | flush =>
      cases h with
      | flush h => exact ⟨_, by rw [perform, Attempt.run_bind, run_flush, h, run_settle_strict hs]⟩
  | ask b =>
      rw [perform, Attempt.run_bind, run_prompt]
      cases h with
      | askWrite h =>
          generalize f (.write .diagnostics _) s = x at h ⊢
          obtain ⟨_, t⟩ := x
          cases h
          exact ⟨t, by simp only [run_settle_strict hs]⟩
      | @askFlush _ _ t _ h he =>
          refine ⟨(f (.flush .diagnostics) t).2, ?_⟩
          simp only [h, he, run_settle_strict hs]
  | readInteger ev =>
      refine ⟨(f .readLine s).2, ?_⟩
      simp only [perform, run_recover, h.run_integerLine, hs, ↓reduceIte]
  | readChar =>
      obtain ⟨v, hv⟩ := h.run_character
      refine ⟨v, ?_⟩
      simp only [perform, run_recover, hv, hs, ↓reduceIte]
  | discard x y v => cases h

theorem Succeeds.run_perform {a : Action} (h : a.Succeeds f o.unicode s t) :
    ∃ v, (a.perform o).run.run f s = (.ok v, t) := by
  cases a with
  | write bytes =>
      cases h with
      | write h => exact ⟨none, by rw [perform, Attempt.run_bind, run_emit, h]; rfl⟩
  | flush =>
      cases h with
      | flush h => exact ⟨none, by rw [perform, Attempt.run_bind, run_flush, h]; rfl⟩
  | ask b =>
      cases h with
      | ask h h' => exact ⟨none, by rw [perform, Attempt.run_bind, run_prompt, h]; simp only [h']; rfl⟩
  | readInteger ev =>
      obtain ⟨v, hv⟩ := h.run_integerLine
      exact ⟨some v, by simp only [perform, run_recover, hv]⟩
  | readChar =>
      obtain ⟨v, hv⟩ := h.run_character
      exact ⟨some v, by simp only [perform, run_recover, hv]⟩
  | discard x y v =>
      cases h
      exact ⟨none, rfl⟩

/-- Where stream errors are passed over, no action is fatal. -/
theorem run_perform_lenient (hs : o.strictStreams = false) (a : Action) (s : σ) :
    ∃ v t, (a.perform o).run.run f s = (.ok v, t) := by
  cases a with
  | write bytes =>
      obtain ⟨t, ht⟩ := run_settle_lenient (f := f) hs (f (.write .output bytes) s).1
        (f (.write .output bytes) s).2
      exact ⟨none, t, by rw [perform, Attempt.run_bind, run_emit, ht]; rfl⟩
  | flush =>
      obtain ⟨t, ht⟩ := run_settle_lenient (f := f) hs (f (.flush .output) s).1
        (f (.flush .output) s).2
      exact ⟨none, t, by rw [perform, Attempt.run_bind, run_flush, ht]; rfl⟩
  | ask b =>
      rw [perform, Attempt.run_bind, run_prompt]
      generalize f (.write .diagnostics _) s = x
      obtain ⟨e | _, t⟩ := x
      · obtain ⟨v, hv⟩ := run_settle_lenient (f := f) hs (.error e) t
        exact ⟨none, v, by simp only [hv]; rfl⟩
      · obtain ⟨v, hv⟩ := run_settle_lenient (f := f) hs (f (.flush .diagnostics) t).1
          (f (.flush .diagnostics) t).2
        exact ⟨none, v, by simp only [hv]; rfl⟩
  | readInteger ev => exact run_recover_lenient hs ev _ s
  | readChar => exact run_recover_lenient hs _ _ s
  | discard x y v => exact ⟨none, _, rfl⟩

end

end Action

end Befunge
