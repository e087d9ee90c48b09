import Befunge.Proofs.Runs

/-!
# The requests of a run

Every request that is made in a dialogue, with the state that the streams are in at that time. On these
rests a small logic of what a dialogue does between its requests: `Safe` says where it waits for input
and how it ends, and has one rule for each way to build a dialogue.
-/

namespace Befunge

/-- The request waits for input. -/
def Request.IsRead : Request → Prop
  | .readByte | .readLine => True
  | _ => False

instance : DecidablePred Request.IsRead
  | .readByte | .readLine => .isTrue trivial
  | .write .. | .flush _ | .note _ => .isFalse id

/-- The channel on which a request writes or flushes. -/
def Request.channel? : Request → Option Channel
  | .write ch _ | .flush ch => some ch
  | _ => none

/-- A request that is made while the streams are in a state. -/
structure Asked (σ : Type) where
  request : Request
  streams : σ

namespace Dialogue

variable {α β σ : Type} {f : Responder σ}

/-- The requests of a dialogue, in order. -/
def asked (f : Responder σ) : Dialogue α → σ → List (Asked σ)
  | .done _, _ => []
  | .ask r k, s => ⟨r, s⟩ :: asked f (k (f r s).1) (f r s).2

@[simp] theorem asked_pure (a : α) (s : σ) : asked f (pure a) s = [] := rfl

@[simp] theorem asked_request (r : Request) (s : σ) : asked f (request r) s = [⟨r, s⟩] := rfl

@[simp] theorem asked_bind (d : Dialogue α) (k : α → Dialogue β) (s : σ) :
    asked f (d >>= k) s = asked f d s ++ asked f (k (d.run f s).1) (d.run f s).2 := by
  show asked f (d.bind k) s = _
  induction d generalizing s with
  | done a => rfl
  | ask r k' ih => exact congrArg (_ :: ·) (ih _ _)

/-! ## What is safe -/

/-- Provided that all its requests are in `G`, the dialogue waits for input only in states in `C`, and it
ends as `Q` says. -/
def Safe (f : Responder σ) (G : Asked σ → Prop) (C : σ → Prop) (d : Dialogue α) (s : σ)
    (Q : α → σ → Prop) : Prop :=
  (∀ a ∈ asked f d s, G a) →
    (∀ a ∈ asked f d s, a.request.IsRead → C a.streams) ∧ Q (d.run f s).1 (d.run f s).2

namespace Safe

variable {G : Asked σ → Prop} {C : σ → Prop} {s : σ} {Q R : α → σ → Prop}

theorem pure {a : α} (h : Q a s) : Safe f G C (Pure.pure a) s Q := fun _ => ⟨by simp, h⟩

theorem request {r : Request} {Q : r.Answer → σ → Prop} (hr : r.IsRead → C s)
    (h : G ⟨r, s⟩ → Q (f r s).1 (f r s).2) : Safe f G C (Dialogue.request r) s Q := by
  intro hG
  simp only [asked_request, List.mem_singleton, forall_eq] at hG ⊢
  exact ⟨hr, h hG⟩

theorem bind {Q : β → σ → Prop} {d : Dialogue α} {k : α → Dialogue β} (h : Safe f G C d s R)
    (hk : ∀ a t, R a t → Safe f G C (k a) t Q) : Safe f G C (d >>= k) s Q := by
  intro hG
  simp only [asked_bind, List.mem_append, or_imp, forall_and] at hG
  obtain ⟨hreads, hR⟩ := h hG.1
  obtain ⟨hreads', hQ⟩ := hk _ _ hR hG.2
  simp only [asked_bind, List.mem_append, or_imp, forall_and, run_bind]
  exact ⟨⟨hreads, hreads'⟩, hQ⟩

theorem imp {d : Dialogue α} (h : Safe f G C d s Q)
    (hR : Q (d.run f s).1 (d.run f s).2 → R (d.run f s).1 (d.run f s).2) : Safe f G C d s R :=
  fun hG => ⟨(h hG).1, hR (h hG).2⟩

theorem mono {d : Dialogue α} (h : Safe f G C d s Q) (hR : ∀ a t, Q a t → R a t) :
    Safe f G C d s R :=
  h.imp (hR _ _)

end Safe

end Dialogue

/-! ## Attempts -/

namespace Attempt

variable {α β σ : Type} {f : Responder σ} {G : Asked σ → Prop} {C : σ → Prop} {s : σ}

theorem safe_bind {R : Except Fault α → σ → Prop} {Q : Except Fault β → σ → Prop} {x : Attempt α}
    {k : α → Attempt β} (h : x.run.Safe f G C s R) (hok : ∀ a t, R (.ok a) t → (k a).run.Safe f G C t Q)
    (herror : ∀ e t, R (.error e) t → Q (.error e) t) : (x >>= k).run.Safe f G C s Q := by
  rw [ExceptT.run_bind]
  refine Dialogue.Safe.bind h ?_
  rintro (e | a) t hR
  · exact .pure (herror e t hR)
  · exact hok a t hR

theorem safe_request_bind {Q : Except Fault β → σ → Prop} {r : Request} {k : r.Answer → Attempt β}
    (hr : r.IsRead → C s)
    (hk : G ⟨r, s⟩ → (k (f r s).1).run.Safe f G C (f r s).2 Q) :
    (liftM (Dialogue.request r) >>= k : Attempt β).run.Safe f G C s Q := by
  have hrun : (liftM (Dialogue.request r) >>= k : Attempt β).run =
      Dialogue.request r >>= fun a => (k a).run := rfl
  rw [hrun]
  refine .bind (R := fun a t => G ⟨r, s⟩ ∧ a = (f r s).1 ∧ t = (f r s).2) ?_ ?_
  · exact .request hr fun hG => ⟨hG, rfl, rfl⟩
  · rintro _ _ ⟨hG, rfl, rfl⟩
    exact hk hG

/-- From every state in `I`, the attempt is safe and comes back to `I`, however it ends. -/
def Keeps (f : Responder σ) (G : Asked σ → Prop) (C I : σ → Prop) (x : Attempt α) : Prop :=
  ∀ s, I s → x.run.Safe f G C s fun _ t => I t

section

variable {I : σ → Prop} {o : Options}

theorem keeps_pure (a : α) : Keeps f G C I (pure a : Attempt α) := fun _ h => .pure h

theorem keeps_throw (e : Fault) : Keeps f G C I (throw e : Attempt α) := fun _ h => .pure h

theorem keeps_bind {x : Attempt α} {k : α → Attempt β} (h : Keeps f G C I x)
    (hk : ∀ a, Keeps f G C I (k a)) : Keeps f G C I (x >>= k) :=
  fun s hs => safe_bind (h s hs) (fun a t ht => hk a t ht) (fun _ _ ht => ht)

theorem keeps_request_bind {r : Request} {k : r.Answer → Attempt β}
    (hr : r.IsRead → ∀ s, I s → C s) (hI : ∀ s, I s → I (f r s).2) (hk : ∀ a, Keeps f G C I (k a)) :
    Keeps f G C I (liftM (Dialogue.request r) >>= k) :=
  fun s hs => safe_request_bind (fun h => hr h s hs) fun _ => hk _ _ (hI s hs)

variable (hnote : ∀ e s, I s → I (f (.note e) s).2)

include hnote

theorem keeps_note (e : Event) : Keeps f G C I (liftM (Dialogue.note e)) :=
  fun s hs => .bind (.request nofun fun _ => hnote e s hs) fun _ _ h => .pure h

theorem keeps_settle (a : Except StreamError Unit) : Keeps f G C I (settle o a) := by
  cases a with
  | ok u => exact keeps_pure u
  | error e =>
      simp only [settle]
      split
      · exact keeps_throw _
      · exact keeps_note hnote _

theorem keeps_recover {x : Attempt α} (event : Fault → Event) (h : Keeps f G C I x) :
    Keeps f G C I (recover o event x) := by
  intro s hs
  rw [recover, ExceptT.run_mk]
  refine .bind (h s hs) ?_
  rintro (e | a) t ht
  · simp only
    split
    · exact .pure ht
    · exact .bind (.request False.elim fun _ => hnote _ t ht) fun _ _ h => .pure h
  · exact .pure ht

end

theorem safe_settle {o : Options} {a : Except StreamError Unit} {Q : Except Fault Unit → σ → Prop}
    (ha : o.strictStreams = true ∨ a = .ok ()) (hok : a = .ok () → Q (.ok ()) s)
    (herror : ∀ e, Q (.error e) s) : (settle o a).run.Safe f G C s Q := by
  cases a with
  | ok u => exact .pure (hok rfl)
  | error e =>
      -- What has failed is fatal, so nothing is passed over.
      have hs : o.strictStreams = true := ha.resolve_right nofun
      simp only [settle, hs, ↓reduceIte]
      exact .pure (herror _)

end Attempt

/-! ## Runs -/

namespace Process

variable {σ : Type} {f : Responder σ}

/-- The requests of a number of steps, in order. -/
def asked (f : Responder σ) : Nat → Process σ → List (Asked σ)
  | 0, _ => []
  | n + 1, x => x.machine.step.asked f x.streams ++ asked f n (x.step f).2

theorem asked_eq (n : Nat) (x : Process σ) :
    x.asked f n = (x.machine.steps n).asked f x.streams := by
  induction n generalizing x with
  | zero => rfl
  | succ n ih =>
      simp only [asked, Machine.steps, ih, Dialogue.asked_bind, Dialogue.asked_pure, List.append_nil]
      rfl

/-- The requests of a step of a run are requests of the run. -/
theorem mem_asked_of_step {k n : Nat} (hk : k < n) {x : Process σ} {a : Asked σ}
    (ha : a ∈ (x.steps f k).2.machine.step.asked f (x.steps f k).2.streams) : a ∈ x.asked f n := by
  induction n generalizing k x with
  | zero => exact absurd hk (Nat.not_lt_zero k)
  | succ n ih =>
      cases k with
      | zero => exact List.mem_append_left _ ha
      | succ k => exact List.mem_append_right _ (ih (Nat.lt_of_succ_lt_succ hk) ha)

/-- An instruction that asks nothing of the outside makes a step that asks no more than to be logged. -/
theorem step_of_consult_pure {x : Process σ} {i : Instruction} {v : Option Int64}
    (hd : x.machine.Dispatches) (hi : Instruction.decode x.machine.fetch = i) (hstop : i ≠ .stop)
    (hconsult : x.machine.program.consult x.machine.stack.peek i = pure v) :
    x.step f =
      (.ok .running, ⟨(x.machine.effect i v).advance,
        (f (.note (.dispatched x.machine.pos i)) x.streams).2⟩) := by
  subst hi
  rw [step, Machine.run_step_of_dispatches f hd]
  simp only [hconsult, ExceptT.run_pure, Dialogue.run_pure, Machine.conclude_next _ hstop]

/-- What is safe step by step is safe all along. -/
theorem safe_steps {G : Asked σ → Prop} {C : σ → Prop} {I : Process σ → Prop}
    (h : ∀ x, I x → x.machine.step.Safe f G C x.streams fun r t => I ⟨r.2, t⟩) (n : Nat)
    {x : Process σ} (hx : I x) (hG : ∀ a ∈ x.asked f n, G a) :
    (∀ a ∈ x.asked f n, a.request.IsRead → C a.streams) ∧ I (x.steps f n).2 := by
  induction n generalizing x with
  | zero => exact ⟨nofun, hx⟩
  | succ n ih =>
      simp only [asked, List.mem_append, or_imp, forall_and] at hG ⊢
      obtain ⟨hreads, hx'⟩ := h x hx hG.1
      obtain ⟨hreads', hI⟩ := ih hx' hG.2
      exact ⟨⟨hreads, hreads'⟩, hI⟩

end Process

end Befunge
