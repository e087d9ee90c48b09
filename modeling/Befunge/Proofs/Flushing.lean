import Befunge.Proofs.Actions
import Befunge.Proofs.Requests
import Befunge.Proofs.Sinks

/-!
# Nothing is pending when a program waits or ends

Whatever a program has written is flushed before it waits for input, and once more before it ends. The
question on the diagnostics is flushed as soon as it is put.
-/

namespace Befunge

open Attempt

/-- Streams of any kind, with an account of the bytes that each sink has accepted and not yet flushed. -/
structure Ledger (σ : Type) where
  answer : Responder σ
  pending : Channel → σ → Nat
  pending_flush (ch : Channel) (s : σ) :
    (answer (.flush ch) s).1 = .ok () → pending ch (answer (.flush ch) s).2 = 0
  /-- Only the requests on a channel can add to what is pending there. -/
  pending_le {ch : Channel} {r : Request} (s : σ) :
    r.channel? ≠ some ch → pending ch (answer r s).2 ≤ pending ch s

namespace Ledger

variable {σ : Type} (L : Ledger σ)

theorem pending_note_le (ch : Channel) (e : Event) (s : σ) :
    L.pending ch (L.answer (.note e) s).2 ≤ L.pending ch s :=
  L.pending_le s nofun

instance (a : Except StreamError Unit) : Decidable (a = .ok ()) :=
  match a with
  | .ok () => .isTrue rfl
  | .error _ => .isFalse nofun

/-- The request is a write or a flush, and fails. -/
def Fails (a : Asked σ) : Prop :=
  match a.request with
  | .write ch bytes => (L.answer (.write ch bytes) a.streams).1 ≠ .ok ()
  | .flush ch => (L.answer (.flush ch) a.streams).1 ≠ .ok ()
  | _ => False

instance : DecidablePred L.Fails
  | ⟨.write .., _⟩ | ⟨.flush _, _⟩ =>
    inferInstanceAs (Decidable (¬ (_ : Except StreamError Unit) = .ok ()))
  | ⟨.readByte, _⟩ | ⟨.readLine, _⟩ | ⟨.note _, _⟩ => .isFalse id

/-- Every flush of the output that is in `G` succeeds. -/
def FlushesOutput (G : Asked σ → Prop) : Prop :=
  ∀ s, G ⟨.flush .output, s⟩ → ¬ L.Fails ⟨.flush .output, s⟩

end Ledger

/-! ## Actions -/

def Action.IsRead : Action → Prop
  | .readInteger _ | .readChar => True
  | _ => False

def Action.channel? : Action → Option Channel
  | .write _ | .flush => some .output
  | .ask _ => some .diagnostics
  | .readInteger _ | .readChar | .discard .. => none

/-- Whether nothing is pending on the output after an action, given whether that was so before it. -/
def Action.clears (clear : Bool) : Action → Bool
  | .write _ => false
  | .flush => true
  | _ => clear

/-- Each of the actions waits for input only when nothing is pending on the output. The two marks say
whether that is so before and after them. -/
inductive Action.Cautious : Bool → List Action → Bool → Prop
  | nil {clear : Bool} : Cautious clear [] clear
  | cons {clear clear' : Bool} {a : Action} {as : List Action} (hread : a.IsRead → clear = true)
      (h : Cautious (a.clears clear) as clear') : Cautious clear (a :: as) clear'

/-- Whatever is pending when an instruction begins, it flushes the output before it reads, and before it
stops. -/
theorem Program.cautious_actions (p : Program) (peek : Nat → Int64) (i : Instruction) :
    ∃ clear, Action.Cautious false (p.actions peek i) clear ∧ (i = .stop → clear = true) := by
  have hwrite (bytes : List UInt8) : Action.Cautious false [.write bytes] false :=
    .cons False.elim .nil
  cases i with
  | divide =>
      refine Exists.imp (fun _ h => ⟨h, fun hi => by cases hi⟩) ?_
      simp only [actions]
      split
      · exact ⟨_, .cons False.elim (.cons False.elim (.cons (fun _ => rfl) .nil))⟩
      · exact ⟨_, .nil⟩
  | writeInteger => exact ⟨_, hwrite _, fun hi => by cases hi⟩
  | writeChar =>
      refine ⟨false, ?_, fun hi => by cases hi⟩
      simp only [actions]
      split
      · split
        · exact hwrite _
        · exact .nil
      · exact hwrite _
  | put =>
      refine ⟨false, ?_, fun hi => by cases hi⟩
      simp only [actions]
      split
      · exact .nil
      · exact .cons False.elim .nil
  | readInteger | readChar =>
      exact ⟨_, .cons False.elim (.cons (fun _ => rfl) .nil), fun hi => by cases hi⟩
  | stop => exact ⟨_, .cons False.elim .nil, fun _ => rfl⟩
  | _ => exact ⟨_, .nil, fun hi => by cases hi⟩

section

variable {σ : Type} {f : Responder σ} {G : Asked σ → Prop} {C I : σ → Prop} {o : Options}

section

variable (hI : ∀ r s, r.channel? = none → I s → I (f r s).2) (hC : ∀ s, I s → C s)

include hI hC

theorem Attempt.keeps_integerLine : Keeps f G C I integerLine := by
  refine keeps_request_bind (fun _ => hC) (hI .readLine · rfl) ?_
  rintro (e | line)
  · exact keeps_throw _
  · match line with
    | [] => exact keeps_throw _
    | b :: bs =>
        simp only
        split
        · exact keeps_throw _
        · split
          · exact keeps_pure _
          · exact keeps_throw _

theorem Attempt.keeps_readByte : Keeps f G C I readByte := by
  refine keeps_request_bind (fun _ => hC) (hI .readByte · rfl) ?_
  rintro (e | _ | b)
  · exact keeps_throw _
  · exact keeps_throw _
  · exact keeps_pure b

theorem Attempt.keeps_readBytes (n : Nat) : Keeps f G C I (readBytes n) := by
  induction n with
  | zero => exact keeps_pure []
  | succ n ih =>
      exact keeps_bind (keeps_readByte hI hC) fun b => keeps_bind ih fun bs => keeps_pure _

theorem Attempt.keeps_character (unicode : Bool) : Keeps f G C I (character unicode) := by
  refine keeps_bind (keeps_readByte hI hC) fun lead => ?_
  split
  · refine keeps_bind ?_ fun c => keeps_pure _
    unfold readRest
    split
    · exact keeps_throw _
    · refine keeps_bind (keeps_readBytes hI hC _) fun bs => ?_
      split
      · exact keeps_pure _
      · exact keeps_throw _
  · exact keeps_pure _

end

/-- An action keeps what all of its requests keep. -/
theorem Action.keeps_perform {a : Action}
    (hI : ∀ r s, r.channel? = none ∨ r.channel? = a.channel? → I s → I (f r s).2)
    (hC : a.IsRead → ∀ s, I s → C s) : Keeps f G C I (a.perform o) := by
  have hnone : ∀ r s, r.channel? = none → I s → I (f r s).2 := fun r s h => hI r s (.inl h)
  have hnote : ∀ e s, I s → I (f (.note e) s).2 := fun e s => hnone (.note e) s rfl
  cases a with
  | write bytes =>
      refine keeps_bind ?_ fun _ => keeps_pure _
      exact keeps_request_bind nofun (hI (.write .output bytes) · (.inr rfl)) (keeps_settle hnote)
  | flush =>
      refine keeps_bind ?_ fun _ => keeps_pure _
      exact keeps_request_bind nofun (hI (.flush .output) · (.inr rfl)) (keeps_settle hnote)
  | ask b =>
      refine keeps_bind ?_ fun _ => keeps_pure _
      refine keeps_request_bind nofun (hI (.write .diagnostics _) · (.inr rfl)) ?_
      rintro (e | _)
      · exact keeps_settle hnote _
      · exact keeps_request_bind nofun (hI (.flush .diagnostics) · (.inr rfl)) (keeps_settle hnote)
  | readInteger ev => exact keeps_recover hnote ev (keeps_integerLine hnone (hC trivial))
  | readChar => exact keeps_recover hnote _ (keeps_character hnone (hC trivial) _)
  | discard x y v => exact keeps_bind (keeps_note hnote _) fun _ => keeps_pure _

theorem Attempt.safe_bind_ok {α β : Type} {J J' : σ → Prop} {x : Attempt α} {k : α → Attempt β}
    {s : σ} (h : x.run.Safe f G C s fun r t => r.isOk → J t)
    (hk : ∀ a t, J t → (k a).run.Safe f G C t fun r t => r.isOk → J' t) :
    (x >>= k).run.Safe f G C s fun r t => r.isOk → J' t :=
  safe_bind h (fun a t ht => hk a t (ht rfl)) (fun _ _ _ => nofun)

theorem Action.safe_performAll_cons {J J' : σ → Prop} {a : Action} {as : List Action} {s : σ}
    (h : (a.perform o).run.Safe f G C s fun r t => r.isOk → J t)
    (has : ∀ t, J t → (performAll o as).run.Safe f G C t fun r t => r.isOk → J' t) :
    (performAll o (a :: as)).run.Safe f G C s fun r t => r.isOk → J' t :=
  safe_bind_ok h fun _ t ht => safe_bind_ok (has t ht) fun _ _ ht => .pure fun _ => ht

/-- An instruction is as safe as its actions: one that is refused asks nothing. -/
theorem Program.safe_consult {J : σ → Prop} {p : Program} {peek : Nat → Int64} {i : Instruction}
    {s : σ}
    (h : (Action.performAll p.options (p.actions peek i)).run.Safe f G C s fun r t => r.isOk → J t) :
    (p.consult peek i).run.Safe f G C s fun r t => r.isOk → J t := by
  by_cases hr : ∃ e, p.Refuses peek i e
  · obtain ⟨e, he⟩ := hr
    rw [consult_of_refuses he]
    exact .pure nofun
  · rw [consult_of_not_refuses fun e he => hr ⟨e, he⟩, ← bind_pure_comp]
    exact safe_bind_ok h fun _ _ ht => .pure fun _ => ht

namespace Machine

/-- A step is as safe as the instruction it executes, with what comes before and after. -/
theorem safe_step {m : Machine} {J : σ → Prop} {Q : Except StepError Progress × Machine → σ → Prop}
    {s : σ} (hdone : m.done = true → Q (.error .alreadyExecuted, m) s)
    (hchar : m.done = false → Q (.ok .running, (m.push (Cell.value m.fetch)).advance) s)
    (hactions : ∀ e, m.done = false →
      (Action.performAll m.options (m.program.actions m.stack.peek (Instruction.decode m.fetch))).run.Safe
        f G C (f (.note e) s).2 fun r t => r.isOk → J t)
    (hconclude : ∀ r t, m.done = false → (Except.isOk r → J t) →
      (m.conclude (Instruction.decode m.fetch) r).Safe f G C t Q) : m.step.Safe f G C s Q := by
  rcases m.step_trichotomy with h | ⟨h, hs, hq⟩ | h
  · simp only [step, h, ↓reduceIte]
    exact .pure (hdone h)
  · simp only [step, h, hs, hq, Bool.false_eq_true, ↓reduceIte, ne_eq, not_false_eq_true, and_self]
    exact .pure (hchar h)
  · rw [step_of_dispatches h]
    refine .bind (R := fun _ t => t = (f (.note (.dispatched m.pos (Instruction.decode m.fetch))) s).2)
      (.request False.elim fun _ => rfl) ?_
    rintro _ _ rfl
    exact .bind (Program.safe_consult (hactions _ h.1)) fun r t ht => hconclude r t h.1 ht

end Machine

end

namespace Ledger

variable {σ : Type} {L : Ledger σ} {G : Asked σ → Prop} {C : σ → Prop} {o : Options} {s : σ}

/-- After a flush that the program survives nothing is pending, where flushes fail only if that is
fatal. -/
theorem safe_flush (ch : Channel)
    (hG : G ⟨.flush ch, s⟩ → o.strictStreams = true ∨ ¬ L.Fails ⟨.flush ch, s⟩) :
    (do settle o (← Dialogue.flush ch) : Attempt Unit).run.Safe L.answer G C s
      fun r t => r.isOk → L.pending ch t = 0 := by
  refine safe_request_bind nofun fun h => safe_settle ?_ (fun hok _ => ?_) (fun _ => nofun)
  · exact (hG h).imp_right Decidable.not_not.mp
  · exact L.pending_flush ch s hok

theorem safe_prompt (b : Int64) (hG : ∀ r s, r.channel? = some .diagnostics → G ⟨r, s⟩ →
      o.strictStreams = true ∨ ¬ L.Fails ⟨r, s⟩) :
    (prompt o b).run.Safe L.answer G C s fun r t => r.isOk → L.pending .diagnostics t = 0 := by
  refine safe_request_bind nofun fun h => ?_
  have hok := (hG _ s rfl h).imp_right Decidable.not_not.mp
  generalize L.answer (.write .diagnostics _) s = x at hok ⊢
  obtain ⟨e | _, t⟩ := x
  -- A question that could not be written is not flushed, but then the program does not survive.
  · exact safe_settle (hok.imp_right nofun) nofun fun _ => nofun
  · exact safe_flush .diagnostics (hG _ t rfl)

theorem safe_perform_of_ne {ch : Channel} {k : Nat} {a : Action} (ha : a.channel? ≠ some ch)
    (hs : L.pending ch s ≤ k) :
    (a.perform o).run.Safe L.answer G (L.pending ch · ≤ k) s
      fun r t => r.isOk → L.pending ch t ≤ k := by
  have hkeeps : Keeps L.answer G (L.pending ch · ≤ k) (L.pending ch · ≤ k) (a.perform o) := by
    refine Action.keeps_perform (fun r s hr hs => ?_) fun _ _ => id
    have hne : r.channel? ≠ some ch := by
      rcases hr with hr | hr <;> rw [hr]
      · nofun
      · exact ha
    exact Nat.le_trans (L.pending_le s hne) hs
  exact (hkeeps s hs).mono fun _ _ h _ => h

theorem safe_perform_of_not_isRead {a : Action} (ha : ¬ a.IsRead) :
    (a.perform o).run.Safe L.answer G C s fun r _ => r.isOk → True :=
  (Action.keeps_perform (I := fun _ => True) (fun _ _ _ _ => trivial) (absurd · ha) s trivial).mono
    fun _ _ _ _ => trivial

/-! ## The output -/

theorem safe_perform_output {a : Action} {clear : Bool}
    (hG : G ⟨.flush .output, s⟩ → o.strictStreams = true ∨ ¬ L.Fails ⟨.flush .output, s⟩)
    (hread : a.IsRead → clear = true) (hs : clear = true → L.pending .output s ≤ 0) :
    (a.perform o).run.Safe L.answer G (L.pending .output · ≤ 0) s
      fun r t => r.isOk → a.clears clear = true → L.pending .output t ≤ 0 := by
  cases a with
  | flush =>
      exact safe_bind_ok (safe_flush .output hG) fun _ _ ht => .pure fun _ _ => Nat.le_of_eq ht
  | write bytes => exact (safe_perform_of_not_isRead id).mono fun _ _ _ _ => nofun
  | ask | readInteger | readChar | discard =>
      cases clear with
      | true =>
          refine (safe_perform_of_ne ?_ (hs rfl)).mono fun _ _ h hr _ => h hr
          nofun
      | false =>
          exact (safe_perform_of_not_isRead fun h => absurd (hread h) nofun).mono fun _ _ _ _ => nofun

/-- Where flushes of the output fail only if that is fatal, cautious actions read only when nothing is
pending on the output. -/
theorem safe_performAll_output
    (hG : ∀ s, G ⟨.flush .output, s⟩ → o.strictStreams = true ∨ ¬ L.Fails ⟨.flush .output, s⟩)
    {as : List Action} {clear clear' : Bool} (h : Action.Cautious clear as clear')
    (hs : clear = true → L.pending .output s ≤ 0) :
    (Action.performAll o as).run.Safe L.answer G (L.pending .output · ≤ 0) s
      fun r t => r.isOk → clear' = true → L.pending .output t ≤ 0 := by
  induction h generalizing s with
  | nil => exact .pure fun _ => hs
  | cons hread _ ih =>
      exact Action.safe_performAll_cons (safe_perform_output (hG s) hread hs) fun _ ht => ih ht

theorem safe_lastFlush :
    Machine.lastFlush.Safe L.answer G C s fun _ t =>
      L.FlushesOutput G → L.pending .output t ≤ 0 := by
  refine .bind (R := fun a t => L.FlushesOutput G → a = .ok () ∧ L.pending .output t ≤ 0)
    (.request nofun fun h hG => ?_) ?_
  · have hok := Decidable.not_not.mp (hG s h)
    exact ⟨hok, Nat.le_of_eq (L.pending_flush .output s hok)⟩
  · rintro (e | _) t ht
    · exact .request nofun fun _ hG => absurd (ht hG).1 nofun
    · exact .pure fun hG => (ht hG).2

/-- A machine reads only when nothing is pending on the output, and where the output can be flushed it
is done only then. -/
theorem safe_step_output {m : Machine} (hG : ∀ s, G ⟨.flush .output, s⟩ →
      m.options.strictStreams = true ∨ ¬ L.Fails ⟨.flush .output, s⟩) :
    m.step.Safe L.answer G (L.pending .output · ≤ 0) s fun r t =>
      L.FlushesOutput G → m.done = false → r.1 ≠ .ok .running → L.pending .output t ≤ 0 := by
  obtain ⟨clear, hclear, hstop⟩ :=
    m.program.cautious_actions m.stack.peek (Instruction.decode m.fetch)
  refine Machine.safe_step (J := fun t => clear = true → L.pending .output t ≤ 0) ?_ ?_ ?_ ?_
  · exact fun h _ hd => absurd (hd.symm.trans h) nofun
  · exact fun _ _ _ h => absurd rfl h
  · exact fun _ _ => safe_performAll_output hG hclear nofun
  · intro r t _ ht
    -- A fault is followed by the last flush; a program that stops has flushed the output itself.
    cases r with
    | error e =>
        refine .bind safe_lastFlush fun _ t ht => ?_
        refine .bind (R := fun _ t => L.FlushesOutput G → L.pending .output t ≤ 0)
          (.request nofun fun _ hG => ?_) fun _ _ h => .pure fun hG _ _ => h hG
        exact Nat.le_trans (L.pending_note_le _ _ _) (ht hG)
    | ok v =>
        by_cases hi : Instruction.decode m.fetch = .stop
        · rw [hi, Machine.conclude_stop]
          refine .bind (R := fun _ t => L.pending .output t ≤ 0) (.request nofun fun _ => ?_)
            fun _ _ h => .pure fun _ _ _ => h
          exact Nat.le_trans (L.pending_note_le _ _ _) (ht rfl (hstop hi))
        · rw [Machine.conclude_next _ hi]
          exact .pure fun _ _ h => absurd rfl h

/-! ## The diagnostics -/

theorem safe_performAll_diagnostics {k : Nat}
    (hG : ∀ r s, r.channel? = some .diagnostics → G ⟨r, s⟩ →
      o.strictStreams = true ∨ ¬ L.Fails ⟨r, s⟩)
    (as : List Action) (hs : L.pending .diagnostics s ≤ k) :
    (Action.performAll o as).run.Safe L.answer G (L.pending .diagnostics · ≤ k) s
      fun r t => r.isOk → L.pending .diagnostics t ≤ k := by
  induction as generalizing s with
  | nil => exact .pure fun _ => hs
  | cons a as ih =>
      refine Action.safe_performAll_cons ?_ fun _ ht => ih ht
      cases a with
      | ask b =>
          exact safe_bind_ok (safe_prompt b hG) fun _ _ ht =>
            .pure fun _ => ht ▸ Nat.zero_le k
      | _ => exact safe_perform_of_ne nofun hs

theorem safe_step_diagnostics {m : Machine} {k : Nat}
    (hG : ∀ r s, r.channel? = some .diagnostics → G ⟨r, s⟩ →
      m.options.strictStreams = true ∨ ¬ L.Fails ⟨r, s⟩)
    (hs : m.done = false → L.pending .diagnostics s ≤ k) :
    m.step.Safe L.answer G (L.pending .diagnostics · ≤ k) s fun r t =>
      r.1 = .ok .running → L.pending .diagnostics t ≤ k := by
  refine Machine.safe_step (J := fun t => L.pending .diagnostics t ≤ k) ?_ ?_ ?_ ?_
  · exact fun _ => nofun
  · exact fun h _ => hs h
  · intro e h
    exact safe_performAll_diagnostics hG _ (Nat.le_trans (L.pending_note_le _ e s) (hs h))
  · intro r t _ ht
    cases r with
    | error e =>
        refine .bind safe_lastFlush fun _ t _ => ?_
        exact .bind (R := fun _ _ => True) (.request nofun fun _ => trivial) fun _ _ _ => .pure nofun
    | ok v =>
        by_cases hi : Instruction.decode m.fetch = .stop
        · rw [hi, Machine.conclude_stop]
          exact .bind (R := fun _ _ => True) (.request nofun fun _ => trivial)
            fun _ _ _ => .pure nofun
        · rw [Machine.conclude_next _ hi]
          exact .pure fun _ => ht rfl

end Ledger

/-! ## Consoles -/

theorem Sink.visible_flush {s : Sink} (h : s.flush.1 = .ok ()) :
    s.flush.2.visible = s.flush.2.data.size := by
  unfold flush at h ⊢
  split
  · rename_i e he
    split
    · rfl
    · rename_i hlt
      simp [he, hlt] at h
  · rfl

/-- What is pending at a console: the bytes accepted after the last flush that succeeded. -/
def Console.ledger : Ledger Console where
  answer := answer
  pending ch c := (c.sink ch).data.size - (c.sink ch).visible
  pending_flush ch c h := by
    have hflush : (c.sink ch).flush.1 = .ok () := by cases ch <;> exact h
    rw [(answer_flush c ch).2 ch, if_pos rfl, Sink.visible_flush hflush, Nat.sub_self]
  pending_le {ch r} c h := by
    have hsink : (answer r c).2.sink ch = c.sink ch := by
      cases r with
      | write ch' bytes =>
          have hne : ch ≠ ch' := fun he => h (congrArg some he.symm)
          rw [(answer_write c ch' bytes).2 ch, if_neg hne]
      | flush ch' =>
          have hne : ch ≠ ch' := fun he => h (congrArg some he.symm)
          rw [(answer_flush c ch').2 ch, if_neg hne]
      | readByte => rw [sink_answer_readByte]
      | readLine => rw [sink_answer_readLine]
      | note e => rw [(answer_note c e).2]
    exact Nat.le_of_eq (by rw [hsink])

/-! ## Runs -/

namespace Process

variable {σ : Type} {L : Ledger σ} {G : Asked σ → Prop} {x : Process σ}

theorem safe_steps_output (hG : ∀ s, G ⟨.flush .output, s⟩ →
      x.machine.options.strictStreams = true ∨ ¬ L.Fails ⟨.flush .output, s⟩)
    (n : Nat) (hasked : ∀ a ∈ x.asked L.answer n, G a) :
    (∀ a ∈ x.asked L.answer n, a.request.IsRead → L.pending .output a.streams ≤ 0) ∧
      (L.FlushesOutput G → x.machine.done = false →
        (x.steps L.answer n).2.machine.done = true →
        L.pending .output (x.steps L.answer n).2.streams ≤ 0) := by
  -- Once the process is done it makes no more requests, so that the output stays as it was left.
  refine And.imp_right And.right (safe_steps (C := (L.pending .output · ≤ 0))
    (I := fun y => y.machine.options = x.machine.options ∧
      (L.FlushesOutput G → x.machine.done = false → y.machine.done = true →
        L.pending .output y.streams ≤ 0)) ?_ n ?_ hasked)
  · rintro y ⟨ho, hy⟩
    rw [← ho] at hG
    refine (Ledger.safe_step_output hG).imp fun hQ => ⟨?_, fun hflush hx hdone => ?_⟩
    · exact (y.stepped L.answer).options_eq.trans ho
    · cases hd : y.machine.done with
      | true =>
          rw [Machine.run_step_of_done _ hd]
          exact hy hflush hx hd
      | false =>
          refine hQ hflush hd fun hr => ?_
          have hdone' := (y.stepped L.answer).done_eq_false_iff.mpr hr
          exact absurd (hdone.symm.trans hdone') nofun
  · exact ⟨rfl, fun _ hx hdone => absurd (hdone.symm.trans hx) nofun⟩

theorem safe_steps_diagnostics (hG : ∀ r s, r.channel? = some .diagnostics → G ⟨r, s⟩ →
      x.machine.options.strictStreams = true ∨ ¬ L.Fails ⟨r, s⟩)
    (n : Nat) (hasked : ∀ a ∈ x.asked L.answer n, G a) :
    ∀ a ∈ x.asked L.answer n, a.request.IsRead →
      L.pending .diagnostics a.streams ≤ L.pending .diagnostics x.streams := by
  -- Only a process that is done may have left a question that was not flushed.
  let k := L.pending .diagnostics x.streams
  refine (safe_steps (C := (L.pending .diagnostics · ≤ k))
    (I := fun y => y.machine.options = x.machine.options ∧ (y.machine.done = false →
      L.pending .diagnostics y.streams ≤ k)) ?_ n ?_ hasked).1
  · rintro y ⟨ho, hy⟩
    rw [← ho] at hG
    refine (Ledger.safe_step_diagnostics hG hy).imp fun hQ => ⟨?_, fun hd => ?_⟩
    · exact (y.stepped L.answer).options_eq.trans ho
    · exact hQ ((y.stepped L.answer).done_eq_false_iff.mp hd)
  · exact ⟨rfl, fun _ => Nat.le_refl _⟩

end Process

/-- Nothing is pending when a program waits or ends. Whenever it asks for input, all that was written has
been flushed, unless a failure of the sink was passed over; and once it is done, all that the output has
accepted has been flushed, unless one of its flushes has failed. -/
theorem Process.nothing_pending {σ : Type} (L : Ledger σ) (x : Process σ) (n : Nat) :
    let strict := x.machine.options.strictStreams = true
    let asked := x.asked L.answer n
    let y := (x.steps L.answer n).2
    (∀ a ∈ asked, a.request.IsRead →
      ((strict ∨ ∀ b ∈ asked, b.request = .flush .output → ¬ L.Fails b) →
        L.pending .output a.streams = 0) ∧
      ((strict ∨ ∀ b ∈ asked, b.request.channel? = some .diagnostics → ¬ L.Fails b) →
        L.pending .diagnostics a.streams ≤ L.pending .diagnostics x.streams)) ∧
    (x.machine.done = false → y.machine.done = true →
      (∀ b ∈ asked, b.request = .flush .output → ¬ L.Fails b) → L.pending .output y.streams = 0) := by
  intro strict asked y
  refine ⟨fun a ha hread => ⟨fun h => ?_, fun h => ?_⟩, fun hx hy h => ?_⟩
  · refine Nat.le_zero.mp ((safe_steps_output (x := x) (G := fun b =>
      strict ∨ (b.request = .flush .output → ¬ L.Fails b)) ?_ n ?_).1 a ha hread)
    · exact fun s hs => hs.imp_right (· rfl)
    · exact fun b hb => h.imp_right (· b hb)
  · refine safe_steps_diagnostics (x := x) (G := fun b =>
      strict ∨ (b.request.channel? = some .diagnostics → ¬ L.Fails b)) ?_ n ?_ a ha hread
    · exact fun r s hr hs => hs.imp_right (· hr)
    · exact fun b hb => h.imp_right (· b hb)
  · have hsteps := safe_steps_output (x := x) (L := L) (G := fun b =>
      b.request = .flush .output → ¬ L.Fails b) (fun s hs => .inr (hs rfl)) n h
    exact Nat.le_zero.mp (hsteps.2 (fun s hs => hs rfl) hx hy)

/-- A program that writes a number, asks what 5/0 is to be, reads the answer and stops. -/
theorem Process.nothing_pending_question :
    ∃ (L : Ledger Console) (x : Process Console), L = Console.ledger ∧
      x = start ⟨.ofRows 80 25 ["9.50/@".toList], {}⟩ 1 { input := [.bytes [55, 10]] } ∧
      (∃ a ∈ x.asked L.answer 6, a.request.IsRead ∧
        (a.streams.output.data.size = 2 ∧ L.pending .output a.streams = 0) ∧
        (a.streams.diagnostics.data.size = 28 ∧ L.pending .diagnostics a.streams = 0)) ∧
      (x.steps L.answer 6).2.machine.done = true ∧
      L.pending .output (x.steps L.answer 6).2.streams = 0 := by
  obtain ⟨x, hx⟩ : ∃ x : Process Console,
    x = start ⟨.ofRows 80 25 ["9.50/@".toList], {}⟩ 1 { input := [.bytes [55, 10]] } := ⟨_, rfl⟩
  have hgood : ∀ b ∈ x.asked Console.ledger.answer 6, ¬ Console.ledger.Fails b := by
    rw [hx]
    decide +kernel
  have hread : ∃ a ∈ x.asked Console.ledger.answer 6, a.request.IsRead ∧
      a.streams.output.data.size = 2 ∧ a.streams.diagnostics.data.size = 28 := by
    rw [hx]
    decide +kernel
  have hstart : x.machine.done = false := by rw [hx]; rfl
  have hdone : (x.steps Console.ledger.answer 6).2.machine.done = true := by
    rw [hx]
    decide +kernel
  obtain ⟨hreads, hend⟩ := nothing_pending Console.ledger x 6
  obtain ⟨a, ha, hread, hsize, hsize'⟩ := hread
  obtain ⟨hout, hdiag⟩ := hreads a ha hread
  have hout := hout (.inr fun b hb _ => hgood b hb)
  have hdiag := hdiag (.inr fun b hb _ => hgood b hb)
  have hfresh : Console.ledger.pending .diagnostics x.streams = 0 := by rw [hx]; rfl
  exact ⟨_, x, rfl, hx, ⟨a, ha, hread, ⟨hsize, hout⟩, hsize', Nat.le_zero.mp (hfresh ▸ hdiag)⟩, hdone,
    hend hstart hdone fun b hb _ => hgood b hb⟩

end Befunge
