import Befunge.Proofs.Effect

/-!
# Couplings

A relation between attempts that holds for single requests, and is kept by sequencing and by recovery,
holds for all that an instruction asks. Facts about two runs are proved by giving such a relation.
-/

namespace Befunge

open Text

namespace Attempt

/-- A relation between attempts under the options `o` and attempts under the options `o'`. -/
structure Coupling (o o' : Options) (J : {α : Type} → Attempt α → Attempt α → Prop) : Prop where
  pure {α : Type} (a : α) : J (Pure.pure a) (Pure.pure a)
  throw {α : Type} (e : Fault) : J (MonadExcept.throw e : Attempt α) (MonadExcept.throw e)
  bind {α β : Type} {x y : Attempt α} {k l : α → Attempt β} :
    J x y → (∀ a, J (k a) (l a)) → J (x >>= k) (y >>= l)
  recover {α : Type} {x y : Attempt α} (event : Fault → Event) :
    J x y → J (recover o event x) (recover o' event y)
  emit (bytes : List UInt8) : J (emit o bytes) (emit o' bytes)
  flush : J (flush o) (flush o')
  prompt (dividend : Int64) : J (prompt o dividend) (prompt o' dividend)
  line : J (liftM Dialogue.readLine) (liftM Dialogue.readLine)
  byte : J (liftM Dialogue.readByte) (liftM Dialogue.readByte)
  note (e : Event) : J (liftM (Dialogue.note e)) (liftM (Dialogue.note e))

namespace Coupling

variable {o o' : Options} {J : {α : Type} → Attempt α → Attempt α → Prop}

theorem map (h : Coupling o o' J) {α β : Type} (f : α → β) {x y : Attempt α} (hxy : J x y) :
    J (f <$> x) (f <$> y) := by
  rw [← bind_pure_comp, ← bind_pure_comp]
  exact h.bind hxy fun a => h.pure (f a)

theorem readInteger (h : Coupling o o' J) : J (readInteger o) (readInteger o') := by
  unfold Attempt.readInteger
  refine h.bind h.flush fun _ => h.bind h.line fun answer => ?_
  split
  · exact h.throw _
  · exact h.throw _
  · split
    · exact h.throw _
    · split
      · exact h.pure _
      · exact h.throw _

theorem readByte (h : Coupling o o' J) : J readByte readByte := by
  unfold Attempt.readByte
  refine h.bind h.byte fun answer => ?_
  split
  · exact h.pure _
  · exact h.throw _
  · exact h.throw _

theorem readBytes (h : Coupling o o' J) (n : Nat) : J (readBytes n) (readBytes n) := by
  induction n with
  | zero => exact h.pure []
  | succ n ih => exact h.bind h.readByte fun _ => h.bind ih fun _ => h.pure _

theorem readRest (h : Coupling o o' J) (lead : UInt8) : J (readRest lead) (readRest lead) := by
  unfold Attempt.readRest
  split
  · exact h.throw _
  · refine h.bind (h.readBytes _) fun bytes => ?_
    split
    · exact h.pure _
    · exact h.throw _

theorem readChar (h : Coupling o o' J) (hu : o'.unicode = o.unicode) :
    J (readChar o) (readChar o') := by
  unfold Attempt.readChar
  rw [hu]
  refine h.bind h.flush fun _ => h.bind h.readByte fun lead => ?_
  split
  · exact h.bind (h.readRest lead) fun _ => h.pure _
  · exact h.pure _

theorem askQuotient (h : Coupling o o' J) (b : Int64) : J (askQuotient o b) (askQuotient o' b) :=
  h.bind (h.prompt b) fun _ => h.bind (h.recover _ h.readInteger) fun _ => h.pure _

theorem writeChar (h : Coupling o o' J) (hu : o'.unicode = o.unicode) (v : Int64) :
    J (Attempt.writeChar o v) (Attempt.writeChar o' v) := by
  unfold Attempt.writeChar
  rw [hu]
  split
  · split
    · exact h.emit _
    · exact h.throw _
  · exact h.emit _

/-- What holds for single requests holds for the requests of every instruction. -/
theorem consult {p : Program} (h : Coupling p.options p.options J) (peek : Nat → Int64)
    (i : Instruction) : J (p.consult peek i) (p.consult peek i) := by
  cases i with
  | divide =>
      refine h.map some ?_
      unfold Attempt.quotient
      split
      · exact h.pure _
      · split
        · exact h.throw _
        · exact h.askQuotient _
  | remainder =>
      simp only [Program.consult]
      split
      · exact h.throw _
      · exact h.pure _
  | writeInteger => exact h.bind (h.emit _) fun _ => h.pure _
  | writeChar => exact h.bind (h.writeChar rfl _) fun _ => h.pure _
  | put =>
      simp only [Program.consult]
      split
      · split
        · exact h.throw _
        · exact h.pure _
      · split
        · exact h.throw _
        · exact h.bind (h.note _) fun _ => h.pure _
  | get =>
      simp only [Program.consult]
      split
      · exact h.throw _
      · exact h.pure _
  | readInteger => exact h.recover _ h.readInteger
  | readChar => exact h.recover _ (h.readChar rfl)
  | stop => exact h.bind h.flush fun _ => h.pure _
  | unknown ch =>
      simp only [Program.consult]
      split
      · exact h.pure _
      · exact h.throw _
  | _ => exact h.pure none

end Coupling

end Attempt

end Befunge
