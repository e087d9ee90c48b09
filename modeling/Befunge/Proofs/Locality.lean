import Befunge.Proofs.Exchange

/-!
# Execution is local

A step looks at the character under the machine, and `get` at one more. A run cannot depend on any other
character of the playfield: not on those that are jumped over, and not on those that are stored over
before they are looked at.
-/

namespace Befunge

/-! ## Playfields -/

namespace Grid

/-- The playfields are of one size and hold the same characters at the places in `A`. -/
structure AgreeOn (A : Pos → Prop) (g g' : Grid) : Prop where
  width_eq : g'.width = g.width
  height_eq : g'.height = g.height
  get?_eq (q : Pos) : A q → g'.get? q = g.get? q

variable {A : Pos → Prop} {g g' : Grid}

theorem AgreeOn.contains_iff (h : g.AgreeOn A g') (q : Pos) : g'.Contains q ↔ g.Contains q := by
  rw [Contains, Contains, h.width_eq, h.height_eq]

theorem AgreeOn.locate_eq (h : g.AgreeOn A g') (x y : Int64) : g'.locate x y = g.locate x y := by
  simp only [locate, h.contains_iff]

theorem AgreeOn.cell_eq (h : g.AgreeOn A g') {q : Pos} (hq : A q) : g'.cell q = g.cell q := by
  rw [cell, cell, h.get?_eq q hq]

end Grid

namespace Program

variable {A : Pos → Prop} {p : Program} {g : Grid}

/-- Of the playfield, what an instruction asks of the outside depends on the size only. -/
theorem consult_of_agreeOn (h : p.grid.AgreeOn A g) (peek : Nat → Int64) (i : Instruction) :
    consult ⟨g, p.options⟩ peek i = p.consult peek i := by
  cases i with
  | put => simp only [consult, h.locate_eq]
  | get => simp only [consult, h.locate_eq]
  | _ => rfl

theorem loaded_of_agreeOn (h : p.grid.AgreeOn A g) {x y : Int64}
    (hq : ∀ q, p.grid.locate x y = some q → A q) :
    loaded ⟨g, p.options⟩ x y = p.loaded x y := by
  simp only [loaded, h.locate_eq]
  cases hl : p.grid.locate x y with
  | none => rfl
  | some q => simp only [h.cell_eq (hq q hl)]

/-- Where the same value is stored, playfields come to agree, if it is the value of a character. -/
theorem agreeOn_after (h : p.grid.AgreeOn A g) {put : Option Put}
    (hput : ∀ w ∈ put, ∀ q, p.grid.Contains q → w.At q →
      ∃ c, Cell.ofValue? p.options.unicode w.v = some c) :
    (p.after put).grid.AgreeOn (fun q => A q ∨ ∃ w ∈ put, w.At q)
      (after ⟨g, p.options⟩ put).grid := by
  refine ⟨?_, ?_, ?_⟩
  · rw [width_after, width_after, h.width_eq]
  · rw [height_after, height_after, h.height_eq]
  · intro q hq
    cases put with
    | none => exact h.get?_eq q (hq.resolve_right nofun)
    | some w =>
        by_cases hc : p.grid.Contains q
        · have hc' : g.Contains q := (h.contains_iff q).mpr hc
          simp only [after, p.get?_stored w hc, get?_stored ⟨g, p.options⟩ w hc']
          by_cases hat : w.At q
          · obtain ⟨c, hv⟩ := hput w rfl q hc hat
            simp only [hat, hv, Option.some_or, ↓reduceIte]
          · simp only [hat, ↓reduceIte]
            refine h.get?_eq q (hq.resolve_right ?_)
            rintro ⟨_, ⟨⟩, hat'⟩
            exact hat hat'
        · rw [Grid.get?, if_neg, Grid.get?, if_neg]
          · simpa only [Grid.Contains, width_after, height_after] using hc
          · simpa only [Grid.Contains, width_after, height_after, h.width_eq, h.height_eq] using hc

end Program

/-! ## Steps -/

/-- The next step looks at the character at this place. -/
def Machine.LooksAt (m : Machine) (q : Pos) : Prop :=
  m.done = false ∧ (q = m.pos ∨ m.Dispatches ∧ Instruction.decode m.fetch = .get ∧
    m.program.grid.locate (m.stack.peek 1) (m.stack.peek 0) = some q)

instance (m : Machine) (q : Pos) : Decidable (m.LooksAt q) := inferInstanceAs (Decidable (_ ∧ _))

/-- The fault of a crash and its place: all that is reported, but for the program. -/
def StepError.fault? : StepError → Option (Fault × Pos)
  | .alreadyExecuted => none
  | .crash c => some (c.cause, c.pos)

theorem StepError.fault?_onto (p : Program) (e : StepError) : (e.onto p).fault? = e.fault? := by
  cases e <;> rfl

namespace Process

variable {σ : Type} {f : Responder σ} {A : Pos → Prop} {x y : Process σ} {n : Nat}

/-- The processes are the same but for the seeds on record and the playfields, which agree on `A`. -/
structure Alike (A : Pos → Prop) (x y : Process σ) : Prop where
  agree : x.machine.program.grid.AgreeOn A y.machine.program.grid
  machine_eq :
    y.machine = x.machine.onto ⟨y.machine.program.grid, x.machine.options⟩ y.machine.seed
  streams_eq : y.streams = x.streams

theorem Alike.eq_onto (h : x.Alike A y) :
    y = x.onto ⟨y.machine.program.grid, x.machine.options⟩ y.machine.seed := by
  obtain ⟨m, s⟩ := y
  rw [onto, ← h.machine_eq, ← h.streams_eq]

theorem Alike.indifferent (h : x.Alike A y) (hlooks : ∀ q, x.machine.LooksAt q → A q) :
    x.machine.Indifferent f x.streams ⟨y.machine.program.grid, x.machine.options⟩ where
  width_eq := h.agree.width_eq
  height_eq := h.agree.height_eq
  undefinedReads_eq := rfl
  fetch_eq hd := h.agree.cell_eq (hlooks _ ⟨hd, .inl rfl⟩)
  loaded_eq hd hi := Program.loaded_of_agreeOn h.agree fun q hq => hlooks q ⟨hd.1, .inr ⟨hd, hi, hq⟩⟩
  consult_eq _ := by
    intro i t
    rw [Machine.options, Program.consult_of_agreeOn h.agree]

theorem covers_of_at {g : Grid} {w : Put} {q : Pos} (hq : g.Contains q) (hat : w.At q) :
    g.Covers w.x w.y := by
  have hx : q.x < g.width := hq.1
  have hy : q.y < g.height := hq.2
  rw [Grid.Covers, hat.1, hat.2]
  omega

theorem Alike.step (h : x.Alike A y) (hlooks : ∀ q, x.machine.LooksAt q → A q) :
    (y.step f).1.mapError StepError.fault? = (x.step f).1.mapError StepError.fault? ∧
      (x.step f).2.Alike (fun q => A q ∨ ∃ w ∈ x.put? f, w.At q) (y.step f).2 := by
  have hstep := step_onto f (h.indifferent hlooks) y.machine.seed
  rw [← h.eq_onto] at hstep
  have hprogram := program_step f x
  have hvalue : ∀ w ∈ x.put? f, ∀ q, x.machine.program.grid.Contains q → w.At q →
      ∃ c, Cell.ofValue? x.machine.options.unicode w.v = some c :=
    fun w hw q hq hat => ofValue?_of_put? f hw (covers_of_at hq hat)
  rw [hstep]
  refine ⟨?_, ?_, ?_, rfl⟩
  · cases (x.step f).1 with
    | ok a => rfl
    | error e => exact congrArg Except.error (e.fault?_onto _)
  · rw [hprogram]
    exact Program.agreeOn_after h.agree hvalue
  · have hoptions : (x.step f).2.machine.options = x.machine.options := (x.stepped f).options_eq
    rw [hoptions]
    cases x.put? f with
    | none => rfl
    | some w => rfl

/-! ## Runs -/

theorem Alike.mono {B : Pos → Prop} (h : x.Alike A y) (hB : ∀ q, B q → A q) : x.Alike B y where
  agree := ⟨h.agree.width_eq, h.agree.height_eq, fun q hq => h.agree.get?_eq q (hB q hq)⟩
  machine_eq := h.machine_eq
  streams_eq := h.streams_eq

end Process

end Befunge
