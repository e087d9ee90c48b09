import Befunge.Proofs.Actions
import Befunge.Proofs.Requests

/-!
# The reads of a step

Of the requests of a step, those that wait for input. An instruction that asks for a number asks for one
line, one that asks for a character asks for its bytes, and no other instruction asks for anything.
-/

namespace Befunge

open Text

/-- The requests of a dialogue that wait for input. -/
def Dialogue.reads {α σ : Type} (f : Responder σ) (d : Dialogue α) (s : σ) : List (Asked σ) :=
  (d.asked f s).filter (·.request.IsRead)

section

variable {α β σ : Type} {f : Responder σ} {o : Options}

theorem Dialogue.reads_bind (d : Dialogue α) (g : α → Dialogue β) (s : σ) :
    (d >>= g).reads f s = d.reads f s ++ (g (d.run f s).1).reads f (d.run f s).2 := by
  simp only [reads, asked_bind, List.filter_append]

theorem Dialogue.reads_map (d : Dialogue α) (g : α → β) (s : σ) :
    (g <$> d).reads f s = d.reads f s := by
  rw [← bind_pure_comp, reads_bind]
  exact List.append_nil _

namespace Attempt

theorem reads_bind (x : Attempt α) (g : α → Attempt β) (s : σ) :
    (x >>= g).run.reads f s = x.run.reads f s ++
      match x.run.run f s with
      | (.ok a, t) => (g a).run.reads f t
      | (.error _, _) => [] := by
  rw [ExceptT.run_bind, Dialogue.reads_bind]
  rcases x.run.run f s with ⟨_ | a, t⟩ <;> rfl

theorem reads_settle (a : Except StreamError Unit) (s : σ) : (settle o a).run.reads f s = [] := by
  cases a with
  | ok => rfl
  | error e =>
      simp only [settle]
      split
      · rfl
      · rfl

theorem reads_emit (bytes : List UInt8) (s : σ) : (emit o bytes).run.reads f s = [] :=
  reads_settle _ _

theorem reads_flush (s : σ) : (flush o).run.reads f s = [] := reads_settle _ _

theorem reads_prompt (b : Int64) (s : σ) : (prompt o b).run.reads f s = [] := by
  unfold prompt
  rw [reads_bind]
  refine List.append_eq_nil_iff.mpr ⟨rfl, ?_⟩
  split
  · split
    · exact reads_settle _ _
    · exact reads_settle _ _
  · rfl

theorem reads_recover (event : Fault → Event) (x : Attempt α) (s : σ) :
    (recover o event x).run.reads f s = x.run.reads f s := by
  rw [recover, ExceptT.run_mk, Dialogue.reads_bind]
  rcases x.run.run f s with ⟨e | a, t⟩
  · simp only
    split
    · exact List.append_nil _
    · exact List.append_nil _
  · exact List.append_nil _

theorem reads_integerLine (s : σ) : integerLine.run.reads f s = [⟨.readLine, s⟩] := by
  rw [run_integerLine, Dialogue.reads_map]
  rfl

/-- Reading an integer asks for one line, unless a failed flush is fatal. -/
theorem reads_readInteger (s : σ) :
    (readInteger o).run.reads f s = [] ∨ ∃ t, (readInteger o).run.reads f s = [⟨.readLine, t⟩] := by
  rw [readInteger_eq, reads_bind, reads_flush]
  rcases (flush o).run.run f s with ⟨e | _, t⟩
  · exact .inl rfl
  · exact .inr ⟨t, reads_integerLine t⟩

theorem reads_readChar (s : σ) :
    (readChar o).run.reads f s = [] ∨
      ∃ t, (readChar o).run.reads f s = (character o.unicode).run.reads f t := by
  rw [readChar_eq, reads_bind, reads_flush]
  rcases (flush o).run.run f s with ⟨e | _, t⟩
  · exact .inl rfl
  · exact .inr ⟨t, rfl⟩

theorem reads_request_bind (r : Request) (g : r.Answer → Attempt β) (s : σ) :
    (liftM (Dialogue.request r) >>= g).run.reads f s =
      (Dialogue.request r).reads f s ++ (g (f r s).1).run.reads f (f r s).2 :=
  Dialogue.reads_bind (Dialogue.request r) (fun a => (g a).run) s

theorem reads_readByte (s : σ) : readByte.run.reads f s = [⟨.readByte, s⟩] := by
  unfold readByte Dialogue.readByte
  rw [reads_request_bind]
  rcases (f .readByte s).1 with e | _ | b
  · rfl
  · rfl
  · rfl

theorem reads_map (x : Attempt α) (g : α → β) (s : σ) :
    (g <$> x).run.reads f s = x.run.reads f s := by
  rw [ExceptT.run_map, Dialogue.reads_map]

theorem reads_readRest (lead : UInt8) (s : σ) :
    (readRest lead).run.reads f s =
      (readBytes ((Utf8.length? lead).getD 1 - 1)).run.reads f s := by
  unfold readRest
  cases Utf8.length? lead with
  | none => rfl
  | some n =>
      simp only [reads_bind, Option.getD_some]
      rcases (readBytes (n - 1)).run.run f s with ⟨e | bs, t⟩
      · exact List.append_nil _
      · simp only
        split
        · exact List.append_nil _
        · exact List.append_nil _

end Attempt

/-- Other instructions than those for numbers, characters and quotients read nothing. -/
theorem Program.reads_consult {p : Program} {peek : Nat → Int64}
    {i : Instruction} (hi : i ≠ .readInteger ∧ i ≠ .readChar ∧ i ≠ .divide) (s : σ) :
    (p.consult peek i).run.reads f s = [] := by
  cases i with
  | readInteger => exact absurd rfl hi.1
  | readChar => exact absurd rfl hi.2.1
  | divide => exact absurd rfl hi.2.2
  | writeInteger =>
      rw [consult, bind_pure_comp, Attempt.reads_map, Attempt.reads_emit]
  | writeChar =>
      rw [consult, bind_pure_comp, Attempt.reads_map, Attempt.writeChar]
      split
      · split
        · exact Attempt.reads_emit _ _
        · rfl
      · exact Attempt.reads_emit _ _
  | stop => rw [consult, bind_pure_comp, Attempt.reads_map, Attempt.reads_flush]
  | remainder =>
      simp only [consult]
      split
      · rfl
      · rfl
  | put =>
      simp only [consult]
      split
      · split
        · rfl
        · rfl
      · split
        · rfl
        · rfl
  | get =>
      simp only [consult]
      split
      · rfl
      · rfl
  | unknown c =>
      simp only [consult]
      split
      · rfl
      · rfl
  | _ => rfl

theorem Program.reads_consult_divide (p : Program) (peek : Nat → Int64)
    (s : σ) :
    (p.consult peek .divide).run.reads f s = [] ∨
      ∃ t, (p.consult peek .divide).run.reads f s = [⟨.readLine, t⟩] := by
  rw [consult, Attempt.reads_map, Attempt.quotient]
  split
  · exact .inl rfl
  · split
    · exact .inl rfl
    · rw [Attempt.askQuotient, Attempt.reads_bind, Attempt.reads_prompt]
      rcases (Attempt.prompt p.options (peek 1)).run.run f s with ⟨e | _, t⟩
      · exact .inl rfl
      · simp only [bind_pure_comp, Attempt.reads_map, Attempt.reads_recover, List.nil_append]
        exact Attempt.reads_readInteger t

theorem Machine.reads_finish (m : Machine) (r : Except Fault Flow) (s : σ) :
    (m.finish r).reads f s = [] := by
  match r with
  | .ok .next => rfl
  | .ok .stop => rfl
  | .error e =>
      have hflush : lastFlush.reads f s = [] := by
        unfold lastFlush
        rw [Dialogue.reads_bind]
        refine List.append_eq_nil_iff.mpr ⟨rfl, ?_⟩
        split
        · rfl
        · rfl
      unfold finish
      rw [Dialogue.reads_bind, hflush]
      rfl

theorem Machine.reads_step_of_not_dispatches {m : Machine} (h : ¬ m.Dispatches) (s : σ) :
    m.step.reads f s = [] := by
  rcases m.step_trichotomy with hd | ⟨hd, hs, hq⟩ | hd
  · simp only [step, hd, ↓reduceIte]
    rfl
  · simp only [step, hd, hs, hq, Bool.false_eq_true, ↓reduceIte, ne_eq, not_false_eq_true, and_self]
    rfl
  · exact absurd hd h

theorem Machine.reads_step_of_dispatches {m : Machine} (h : m.Dispatches) (s : σ) :
    let i := Instruction.decode m.fetch
    m.step.reads f s =
      (m.program.consult m.stack.peek i).run.reads f (f (.note (.dispatched m.pos i)) s).2 := by
  simp only [step_of_dispatches h, Dialogue.reads_bind, conclude, reads_finish, List.append_nil]
  rfl

end

end Befunge
