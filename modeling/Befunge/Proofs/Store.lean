import Befunge.Proofs.Bounds
import Befunge.Proofs.Faults

/-!
# The playfield as a store

Over a whole run, a place of the playfield holds what was last stored there, or the character it was
built with. Only an instruction that stores changes anything, and only at the place it names.
-/

namespace Befunge

/-! ## Values -/

namespace Cell

/-- The code point under which a value is stored: the value itself in Unicode mode, and its remainder
modulo 256 in byte mode. -/
def codePoint (unicode : Bool) (v : Int64) : Int := if unicode then v.toInt else v.toInt % 256

theorem toNat_byte (v : Int64) : ((byte v).toNat : Int) = v.toInt % 256 := by
  have h := BitVec.toInt_eq_toNat_cond v.toBitVec
  rw [Int64.toInt_toBitVec, Int64.toNat_toBitVec] at h
  rw [byte, UInt64.toNat_toUInt8, h]
  split <;> omega

theorem toNat_of_ofValue? {unicode : Bool} {v : Int64} {c : Char}
    (h : ofValue? unicode v = some c) : (c.toNat : Int) = codePoint unicode v := by
  unfold ofValue? at h
  unfold codePoint
  split at h
  · rename_i hu
    rw [if_pos hu]
    by_cases hv : 0 ≤ v.toInt ∧ v.toInt.toNat.isValidChar
    · have hsome : ofCodePoint? v = some (Char.ofNatAux _ hv.2) := dif_pos hv
      rw [hsome] at h
      cases h
      exact Int.toNat_of_nonneg hv.1
    · have hnone : ofCodePoint? v = none := dif_neg hv
      rw [hnone] at h
      cases h
  · rename_i hu
    rw [if_neg hu, ← toNat_byte]
    cases h
    have hb : (byte v).toNat < 256 := (byte v).toNat_lt
    rw [Char.ofNat, dif_pos (.inl (by omega))]
    rfl

/-- The lowest eight bits of a byte are all of it. -/
theorem toInt_read {unicode : Bool} {c : Char} (h : unicode = false → c.toNat ≤ 0xFF) :
    (read unicode c).toInt = c.toNat := by
  have hc : c.toNat ≤ 0x10FFFF := by
    have := c.valid
    simp only [UInt32.isValidChar, Nat.isValidChar] at this
    show c.val.toNat ≤ 0x10FFFF
    omega
  have hvalue : (value c).toInt = c.toNat := Int64.toInt_ofNat_of_lt (by omega)
  cases unicode with
  | true => exact hvalue
  | false =>
      have hle := h rfl
      have hand : value c &&& 0xFF = value c := by
        apply Int64.toBitVec_inj.mp
        apply BitVec.eq_of_toNat_eq
        have hmod : c.toNat % 18446744073709551616 = c.toNat := by omega
        have hand : c.toNat &&& 0xFF = c.toNat := by
          rw [Nat.and_two_pow_sub_one_eq_mod c.toNat 8]
          omega
        simp [value, Int64.toBitVec_and, hmod, hand]
      show (value c &&& 0xFF).toInt = c.toNat
      rw [hand, hvalue]

end Cell

/-! ## Views of the playfield -/

namespace Grid

theorem locate_eq_some_iff {g : Grid} {x y : Int64} {q : Pos} :
    g.locate x y = some q ↔ g.Contains q ∧ x.toInt = q.x ∧ y.toInt = q.y := by
  simp only [locate, Option.ite_none_right_eq_some, Option.some.injEq]
  constructor
  · rintro ⟨⟨hx, hy, h⟩, rfl⟩
    exact ⟨h, (Int.toNat_of_nonneg hx).symm, (Int.toNat_of_nonneg hy).symm⟩
  · rintro ⟨h, hx, hy⟩
    obtain ⟨qx, qy⟩ := q
    simp only at hx hy
    rw [hx, hy, Int.toNat_natCast, Int.toNat_natCast]
    exact ⟨⟨Int.natCast_nonneg _, Int.natCast_nonneg _, h⟩, rfl⟩

/-- However one looks at the place `q`, the character there is `c`. -/
structure Shows (g : Grid) (q : Pos) (c : Char) : Prop where
  get?_eq : g.get? q = some c
  cell_eq : g.cell q = c
  locate_eq (x y : Int64) : x.toInt = q.x → y.toInt = q.y → (g.locate x y).map g.cell = some c
  row?_eq : (g.row? q.y).bind (·[q.x]?) = some c

theorem shows_cell {g : Grid} {q : Pos} (h : g.Contains q) : g.Shows q (g.cell q) := by
  have hget : g.get? q = some (g.cell q) := by rw [get?, if_pos h, getElem?_index h]
  refine ⟨hget, rfl, ?_, ?_⟩
  · intro x y hx hy
    rw [locate_eq_some_iff.mpr ⟨h, hx, hy⟩, Option.map_some]
  · have hsize : (q.y + 1) * g.width ≤ g.cells.size := by
      rw [g.size_cells, Nat.mul_comm g.width]
      exact Nat.mul_le_mul_right _ h.2
    have hx : q.x < g.width := h.1
    rw [Nat.succ_mul] at hsize
    rw [row?, if_pos h.2, Option.bind_some, Array.getElem?_toList, Array.getElem?_extract,
      if_pos (by rw [Nat.succ_mul]; omega)]
    exact getElem?_index h

end Grid

/-! ## What is stored -/

/-- The operands of an instruction that stores `v` at `(x, y)`. -/
structure Put where
  x : Int64
  y : Int64
  v : Int64
  deriving DecidableEq, Repr

/-- The coordinates are exactly those of the place. -/
def Put.At (w : Put) (q : Pos) : Prop := w.x.toInt = q.x ∧ w.y.toInt = q.y

instance (w : Put) (q : Pos) : Decidable (w.At q) := inferInstanceAs (Decidable (_ ∧ _))

namespace Program

/-- The code point at a place of a store in which the last value wins, after these values were stored
on the playfield of a program. -/
def latest (p : Program) (ws : List Put) (q : Pos) : Int :=
  match ws.reverse.find? (·.At q) with
  | some w => Cell.codePoint p.options.unicode w.v
  | none => (p.grid.cell q).toNat

theorem latest_concat (p : Program) (ws : List Put) (w : Put) (q : Pos) :
    p.latest (ws ++ [w]) q =
      if w.At q then Cell.codePoint p.options.unicode w.v else p.latest ws q := by
  simp only [latest, List.reverse_append, List.reverse_cons, List.reverse_nil, List.nil_append,
    List.cons_append, List.find?_cons]
  by_cases h : w.At q <;> simp [h]

end Program

namespace Process

variable {σ : Type} (f : Responder σ)

/-- The operands with which the next step stores a value without a fault, if it does. -/
def put? (x : Process σ) : Option Put :=
  let m := x.machine
  if m.Dispatches ∧ Instruction.decode m.fetch = .put ∧ (x.step f).1.isOk then
    some ⟨m.stack.peek 1, m.stack.peek 0, m.stack.peek 2⟩
  else none

/-- The operands of all that is stored without a fault in a number of steps, in order. -/
def puts : Nat → Process σ → List Put
  | 0, _ => []
  | n + 1, x => (x.put? f).toList ++ puts n (x.step f).2

theorem puts_succ (n : Nat) (x : Process σ) :
    x.puts f (n + 1) = x.puts f n ++ ((x.steps f n).2.put? f).toList := by
  induction n generalizing x with
  | zero => simp [puts, steps]
  | succ n ih =>
      rw [puts, ih, ← List.append_assoc]
      rfl

end Process

/-! ## Steps -/

theorem Program.get?_stored (p : Program) (w : Put) {q : Pos} (hq : p.grid.Contains q) :
    (p.stored w.x w.y w.v).get? q =
      if w.At q then (Cell.ofValue? p.options.unicode w.v).or (p.grid.get? q)
      else p.grid.get? q := by
  by_cases hw : w.At q
  · rw [if_pos hw, stored, Grid.locate_eq_some_iff.mpr ⟨hq, hw.1, hw.2⟩]
    cases Cell.ofValue? p.options.unicode w.v with
    | none => rfl
    | some c => simp [Grid.get?_set, hq]
  · rw [if_neg hw, stored]
    split
    · rename_i r c hr _
      have hne : r ≠ q := by
        rintro rfl
        exact hw (Grid.locate_eq_some_iff.mp hr).2
      rw [Grid.get?_set, if_neg fun h => hne h.2]
    · rfl

theorem Machine.grid_effect (m : Machine) {i : Instruction} (hi : i ≠ .put) (v : Option Int64) :
    (m.effect i v).program.grid = m.program.grid := by
  cases i with
  | put => exact absurd rfl hi
  | readInteger => cases v <;> rfl
  | _ => rfl

namespace Process

variable {σ : Type} (f : Responder σ)

/-- A step leaves the playfield as it is, unless it stores a value without a fault. -/
theorem grid_step (x : Process σ) :
    (x.step f).2.machine.program.grid =
      match x.put? f with
      | some w => x.machine.program.stored w.x w.y w.v
      | none => x.machine.program.grid := by
  have hstep := x.stepped f
  unfold put?
  simp only
  generalize (x.step f).1 = r at hstep ⊢
  generalize (x.step f).2.machine = m' at hstep ⊢
  cases hstep with
  | done h => simp [Machine.Dispatches, h]
  | char h hs hq => simp [Machine.Dispatches, hs, hq]; rfl
  | next h _ v =>
      by_cases hi : Instruction.decode x.machine.fetch = .put
      · simp [h, hi, Except.isOk, Except.toBool]
        rfl
      · simp only [hi, false_and, and_false, ↓reduceIte]
        exact x.machine.grid_effect hi v
  | stop h hi => simp [hi]; rfl
  | fault h e => simp [Except.isOk, Except.toBool]; rfl

/-- What is stored on the playfield without a fault stands for a character. -/
theorem ofValue?_of_put? {x : Process σ} {w : Put} (h : x.put? f = some w)
    (hw : x.machine.program.grid.Covers w.x w.y) :
    ∃ c, Cell.ofValue? x.machine.options.unicode w.v = some c := by
  simp only [put?, Option.ite_none_right_eq_some, Option.some.injEq] at h
  obtain ⟨⟨hd, hi, hok⟩, rfl⟩ := h
  cases hc : Cell.ofValue? x.machine.options.unicode (x.machine.stack.peek 2) with
  | some c => exact ⟨c, rfl⟩
  | none =>
      -- A value without a character would have been refused.
      have hu : x.machine.program.options.unicode = true := by
        cases hu : x.machine.program.options.unicode with
        | true => rfl
        | false => simp [Cell.ofValue?, Machine.options, hu] at hc
      have hr : x.machine.program.Refuses x.machine.stack.peek .put
          (.notACharacter (x.machine.stack.peek 2)) := by
        refine .put_value hw hu (Cell.ofCodePoint?_eq_none_iff.mp ?_)
        simpa [Cell.ofValue?, Machine.options, hu] using hc
      have hstep := Machine.run_step_of_refuses (f := f) hd (hi ▸ hr) x.streams
      rw [step, hstep] at hok
      cases hok

/-- A step changes a place only by storing there, without a fault. -/
theorem toNat_cell_step (x : Process σ) {q : Pos} (hq : x.machine.program.grid.Contains q) :
    (((x.step f).2.machine.program.grid.cell q).toNat : Int) =
      match x.put? f with
      | some w =>
        if w.At q then Cell.codePoint x.machine.options.unicode w.v
        else (x.machine.program.grid.cell q).toNat
      | none => (x.machine.program.grid.cell q).toNat := by
  rw [grid_step]
  cases hw : x.put? f with
  | none => rfl
  | some w =>
      simp only [Grid.cell, Program.get?_stored _ w hq]
      split
      · rename_i hat
        have hcovers : x.machine.program.grid.Covers w.x w.y := by
          have hx : q.x < x.machine.program.grid.width := hq.1
          have hy : q.y < x.machine.program.grid.height := hq.2
          rw [Grid.Covers, hat.1, hat.2]
          omega
        obtain ⟨c, hc⟩ := ofValue?_of_put? f hw hcovers
        have hc' : Cell.ofValue? x.machine.program.options.unicode w.v = some c := hc
        rw [hc']
        exact Cell.toNat_of_ofValue? hc
      · rfl

/-- A place of the playfield holds what was last stored there. -/
theorem toNat_cell_steps {p : Program} {clock : UInt64} {seed : UInt64} (s : σ)
    (hsound : ∀ n, ((start p clock s).steps f n).2.machine.Sound p seed) (n : Nat) {q : Pos}
    (hq : p.grid.Contains q) :
    ((((start p clock s).steps f n).2.machine.program.grid.cell q).toNat : Int) =
      p.latest ((start p clock s).puts f n) q := by
  induction n with
  | zero => rfl
  | succ n ih =>
      have hn := hsound n
      have hq' : ((start p clock s).steps f n).2.machine.program.grid.Contains q := by
        rw [Grid.Contains, hn.width_eq, hn.height_eq]
        exact hq
      rw [steps_succ, puts_succ]
      simp only
      rw [toNat_cell_step f _ hq', ih, hn.options_eq]
      cases ((start p clock s).steps f n).2.put? f with
      | none => simp
      | some w => rw [Option.toList_some, Program.latest_concat]

/-- What is read at a place of the playfield is what stands there. -/
theorem step_get {x : Process σ} (hd : x.machine.Dispatches)
    (hi : Instruction.decode x.machine.fetch = .get) {q : Pos}
    (hq : x.machine.program.grid.locate (x.machine.stack.peek 1) (x.machine.stack.peek 0) = some q) :
    (x.step f).1 = .ok .running ∧
      (x.step f).2.machine.stack = (x.machine.stack.drop 2).push
        (Cell.read x.machine.options.unicode (x.machine.program.grid.cell q)) := by
  rw [step, Machine.run_step_of_dispatches f hd]
  simp only [hi, Program.consult, hq, reduceCtorEq, false_and, ↓reduceIte]
  have hloaded : x.machine.program.loaded (x.machine.stack.peek 1) (x.machine.stack.peek 0) =
      Cell.read x.machine.options.unicode (x.machine.program.grid.cell q) := by
    simp only [Program.loaded, hq, Machine.options]
  refine ⟨rfl, ?_⟩
  rw [← hloaded]
  rfl

end Process

/-- The playfield is a store in which the last value wins: every way to look at a place shows the
character whose code point was last stored there without a fault, or else the one it was built with,
and no other step changes the playfield. -/
theorem Process.playfield_is_store {source : List Char} {o : Options} {p : Program}
    (hb : Program.build source o = .ok p) (clock : UInt64) {σ : Type} (f : Responder σ) (s : σ)
    (n : Nat) :
    let x := ((start p clock s).steps f n).2
    let m := x.machine
    let ws := (start p clock s).puts f n
    (∀ q, p.grid.Contains q →
      ∃ c, m.program.grid.Shows q c ∧ (c.toNat : Int) = p.latest ws q) ∧
    (∀ q, p.grid.Contains q → m.Dispatches → Instruction.decode m.fetch = .get →
      (m.stack.peek 1).toInt = q.x → (m.stack.peek 0).toInt = q.y →
      ∃ v, v.toInt = p.latest ws q ∧ (x.step f).1 = .ok .running ∧
        (x.step f).2.machine.stack = (m.stack.drop 2).push v) ∧
    ((∀ w q, x.put? f = some w → p.grid.Contains q → ¬ w.At q) →
      (x.step f).2.machine.program.grid = m.program.grid) := by
  intro x m ws
  have hreach : ∀ n, Reachable p clock f ((start p clock s).steps f n).2 :=
    fun n => (Reachable.start f s).steps n
  have hsound : m.Sound p (Machine.start p clock).seed := (hreach n).sound hb
  have hlatest : ∀ q, p.grid.Contains q → ((m.program.grid.cell q).toNat : Int) = p.latest ws q :=
    fun q hq => toNat_cell_steps f s (fun n => (hreach n).sound hb) n hq
  have hcontains : ∀ q, p.grid.Contains q ↔ m.program.grid.Contains q := by
    intro q
    rw [Grid.Contains, Grid.Contains, hsound.width_eq, hsound.height_eq]
  refine ⟨?_, ?_, ?_⟩
  · intro q hq
    exact ⟨_, Grid.shows_cell ((hcontains q).mp hq), hlatest q hq⟩
  · intro q hq hd hi hx hy
    have hq' := (hcontains q).mp hq
    obtain ⟨hr, hstack⟩ := step_get f hd hi (Grid.locate_eq_some_iff.mpr ⟨hq', hx, hy⟩)
    refine ⟨_, ?_, hr, hstack⟩
    -- In byte mode the cell holds a byte, so that nothing is cut off.
    have hbyte : m.options.unicode = false → (m.program.grid.cell q).toNat ≤ 0xFF :=
      fun hu => hsound.isByte hu _ (Array.mem_of_getElem? (Grid.getElem?_index hq'))
    rw [← hlatest q hq]
    exact Cell.toInt_read hbyte
  · intro hput
    rw [grid_step]
    cases hw : x.put? f with
    | none => rfl
    | some w =>
        -- A place that the coordinates name would lie on the playfield.
        have hlocate : m.program.grid.locate w.x w.y = none := by
          cases hq : m.program.grid.locate w.x w.y with
          | none => rfl
          | some q =>
              obtain ⟨hq, hat⟩ := Grid.locate_eq_some_iff.mp hq
              exact absurd hat (hput w q hw ((hcontains q).mpr hq))
        simp only [Program.stored]
        rw [hlocate]

/-- A program that stores -1 at `(5, 0)` in byte mode and reads it back as 255. -/
theorem Process.playfield_is_store_byte :
    ∃ (p : Program) (x : Process Console), Program.build "01-50p50g@".toList {} = .ok p ∧
      x = ((start p 1 ({} : Console)).steps Console.answer 8).2 ∧ p.grid.Contains ⟨5, 0⟩ ∧
      x.machine.Dispatches ∧ Instruction.decode x.machine.fetch = .get ∧
      ∃ v, v.toInt = 255 ∧ (x.step Console.answer).1 = .ok .running ∧
        (x.step Console.answer).2.machine.stack = (x.machine.stack.drop 2).push v := by
  have hb : Program.build "01-50p50g@".toList {} =
      .ok ⟨.ofRows 80 25 ["01-50p50g@".toList], {}⟩ := rfl
  obtain ⟨v, hv, hstep⟩ := (playfield_is_store hb 1 Console.answer ({} : Console) 8).2.1 ⟨5, 0⟩
    (by decide +kernel) (by decide +kernel) (by decide +kernel) (by decide +kernel)
    (by decide +kernel)
  exact ⟨_, _, hb, rfl, by decide +kernel, by decide +kernel, by decide +kernel, v,
    hv.trans (by decide +kernel), hstep⟩

end Befunge
