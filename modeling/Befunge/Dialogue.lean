import Befunge.Event

/-!
# Dialogues

A machine never touches a stream. It makes requests, one after another, and goes on with the answer
to each. A dialogue is the tree of these requests: who gives the answers, a console of lists and
numbers or the terminal, is left open.
-/

namespace Befunge

inductive Channel
  | output
  | diagnostics
  deriving DecidableEq, Repr

inductive Request
  | write (channel : Channel) (bytes : List UInt8)
  | flush (channel : Channel)
  | readByte
  /-- Asks for the bytes up to and with the next line feed, or up to the end of the input. -/
  | readLine
  | note (e : Event)
  deriving DecidableEq, Repr

/-- The answers to a request. A byte is missing and a line is empty at the end of the input. -/
@[reducible] def Request.Answer : Request → Type
  | .write .. | .flush _ => Except StreamError Unit
  | .readByte => Except StreamError (Option UInt8)
  | .readLine => Except StreamError (List UInt8)
  | .note _ => Unit

/-- A computation that makes requests and ends in a value. -/
inductive Dialogue (α : Type)
  | done (a : α)
  | ask (r : Request) (k : r.Answer → Dialogue α)

namespace Dialogue

/-- Goes on with `f` when the dialogue has ended. -/
def bind (d : Dialogue α) (f : α → Dialogue β) : Dialogue β :=
  match d with
  | .done a => f a
  | .ask r k => .ask r fun answer => (k answer).bind f

instance : Monad Dialogue where
  pure := .done
  bind := .bind

def request (r : Request) : Dialogue r.Answer := .ask r .done

def write (channel : Channel) (bytes : List UInt8) : Dialogue (Except StreamError Unit) :=
  request (.write channel bytes)

def flush (channel : Channel) : Dialogue (Except StreamError Unit) := request (.flush channel)

def readByte : Dialogue (Except StreamError (Option UInt8)) := request .readByte

def readLine : Dialogue (Except StreamError (List UInt8)) := request .readLine

def note (e : Event) : Dialogue Unit := request (.note e)

/-- Holds the dialogue with someone who answers each request out of a state. -/
def run (answer : (r : Request) → σ → r.Answer × σ) (d : Dialogue α) (s : σ) : α × σ :=
  match d with
  | .done a => (a, s)
  | .ask r k =>
    let a := answer r s
    (k a.1).run answer a.2

/-! ## Facts -/

@[simp] theorem done_bind (a : α) (f : α → Dialogue β) : (Dialogue.done a).bind f = f a := rfl

@[simp] theorem ask_bind (r : Request) (k : r.Answer → Dialogue α) (f : α → Dialogue β) :
    (Dialogue.ask r k).bind f = .ask r fun a => (k a).bind f := rfl

theorem bind_done (d : Dialogue α) : d.bind .done = d := by
  induction d with
  | done a => rfl
  | ask r k ih => simp [ih]

theorem bind_assoc (d : Dialogue α) (f : α → Dialogue β) (g : β → Dialogue γ) :
    (d.bind f).bind g = d.bind fun a => (f a).bind g := by
  induction d with
  | done a => rfl
  | ask r k ih => simp [ih]

instance : LawfulMonad Dialogue :=
  LawfulMonad.mk' Dialogue (fun d => bind_done d) (fun _ _ => rfl)
    (fun d f g => bind_assoc d f g)

@[simp] theorem run_done (answer : (r : Request) → σ → r.Answer × σ) (a : α) (s : σ) :
    (Dialogue.done a).run answer s = (a, s) := rfl

@[simp] theorem run_pure (answer : (r : Request) → σ → r.Answer × σ) (a : α) (s : σ) :
    (pure a : Dialogue α).run answer s = (a, s) := rfl

@[simp] theorem run_request (answer : (r : Request) → σ → r.Answer × σ) (r : Request) (s : σ) :
    (request r).run answer s = answer r s := rfl

@[simp] theorem run_bind (answer : (r : Request) → σ → r.Answer × σ) (d : Dialogue α)
    (f : α → Dialogue β) (s : σ) :
    (d >>= f).run answer s = (f (d.run answer s).1).run answer (d.run answer s).2 := by
  show (d.bind f).run answer s = _
  induction d generalizing s with
  | done a => rfl
  | ask r k ih => exact ih _ _

@[simp] theorem run_map (answer : (r : Request) → σ → r.Answer × σ) (f : α → β) (d : Dialogue α)
    (s : σ) : (f <$> d).run answer s = (f (d.run answer s).1, (d.run answer s).2) := by
  rw [← bind_pure_comp, run_bind, run_pure]

/-- Two answerers that agree on every answer, in states that stay related, hold the same dialogue. -/
theorem run_related {f : (r : Request) → σ → r.Answer × σ} {g : (r : Request) → τ → r.Answer × τ}
    {R : σ → τ → Prop}
    (h : ∀ r s t, R s t → (f r s).1 = (g r t).1 ∧ R (f r s).2 (g r t).2)
    (d : Dialogue α) {s : σ} {t : τ} (hst : R s t) :
    (d.run f s).1 = (d.run g t).1 ∧ R (d.run f s).2 (d.run g t).2 := by
  induction d generalizing s t with
  | done a => exact ⟨rfl, hst⟩
  | ask r k ih =>
    obtain ⟨ha, hr⟩ := h r s t hst
    simp only [run]
    rw [← ha]
    exact ih _ hr

end Dialogue

end Befunge
