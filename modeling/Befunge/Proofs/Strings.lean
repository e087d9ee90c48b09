import Befunge.Proofs.Building
import Befunge.Proofs.Movement
import Befunge.Proofs.Requests
import Mathlib.Order.Nat

/-!
# String literals

From one quote to the next, every cell is pushed, whatever it means as an instruction. A quote that is
alone on its line ends the string that it begins, after a walk around the playfield.
-/

namespace Befunge

theorem Grid.contains_of_cell_ne {g : Grid} {p : Pos} (h : g.cell p ≠ ' ') : g.Contains p := by
  by_contra hout
  exact h (by simp [cell, get?, hout])

namespace Machine

/-! ## What lies ahead -/

/-- The place that lies `k` cells ahead of the machine. -/
def posAhead (m : Machine) (k : Nat) : Pos :=
  m.pos.ahead m.program.grid.width m.program.grid.height m.direction k

def cellAhead (m : Machine) (k : Nat) : Char := m.program.grid.cell (m.posAhead k)

/-- The values of the next `n` cells, in the order of the walk. -/
def valuesAhead (m : Machine) (n : Nat) : List Int64 :=
  (List.range n).map fun j => Cell.value (m.cellAhead (j + 1))

/-- The number of cells on the line that the machine moves along. -/
def span (m : Machine) : Nat := m.direction.span m.program.grid.width m.program.grid.height

theorem valuesAhead_succ (m : Machine) (n : Nat) :
    m.valuesAhead (n + 1) = m.valuesAhead n ++ [Cell.value (m.cellAhead (n + 1))] := by
  simp only [valuesAhead, List.range_succ, List.map_append, List.map_singleton]

section

variable {m : Machine} (hpos : m.program.grid.Contains m.pos)
include hpos

theorem contains_posAhead (k : Nat) : m.program.grid.Contains (m.posAhead k) :=
  Pos.ahead_lt m.direction (Nat.zero_lt_of_lt hpos.1) (Nat.zero_lt_of_lt hpos.2) k

theorem advance_posAhead (k : Nat) :
    (m.posAhead k).advance m.program.grid.width m.program.grid.height m.direction =
      m.posAhead (k + 1) :=
  Pos.advance_ahead m.direction (Nat.zero_lt_of_lt hpos.1) (Nat.zero_lt_of_lt hpos.2) k

theorem posAhead_zero : m.posAhead 0 = m.pos := Pos.ahead_zero m.direction hpos.1 hpos.2

theorem cellAhead_span : m.cellAhead m.span = m.fetch :=
  congrArg m.program.grid.cell (Pos.ahead_span m.direction hpos.1 hpos.2)

theorem span_pos : 0 < m.span := by
  have hw := Nat.zero_lt_of_lt hpos.1
  have hh := Nat.zero_lt_of_lt hpos.2
  unfold span
  cases m.direction with
  | right => exact hw
  | left => exact hw
  | down => exact hh
  | up => exact hh

/-! ## The next quote -/

/-- The quote that ends a string is found on the first walk around the playfield. -/
theorem exists_isLeast_quote (hquote : m.fetch = '"') :
    ∃ k ≤ m.span, IsLeast {j | 1 ≤ j ∧ m.cellAhead j = '"'} k := by
  have hspan : 1 ≤ m.span ∧ m.cellAhead m.span = '"' :=
    ⟨span_pos hpos, (cellAhead_span hpos).trans hquote⟩
  have hfind := Nat.isLeast_find (p := fun j => 1 ≤ j ∧ m.cellAhead j = '"') ⟨m.span, hspan⟩
  exact ⟨_, hfind.2 hspan, hfind⟩

/-- It is the quote that began the string if there is no other on the line. -/
theorem eq_span_of_alone {k : Nat} (hk : 1 ≤ k) (hle : k ≤ m.span) (hcell : m.cellAhead k = '"')
    (halone : ∀ q, m.program.grid.Contains q → m.direction.Along m.pos q → q ≠ m.pos →
      m.program.grid.cell q ≠ '"') : k = m.span := by
  by_contra hne
  have hback : m.posAhead k ≠ m.pos :=
    Pos.ahead_ne m.direction hpos.1 hpos.2 hk (Nat.lt_of_le_of_ne hle hne)
  have halong := Pos.along_ahead m.direction hpos.1 hpos.2 k
  exact halone _ (contains_posAhead hpos k) halong hback hcell

end

/-! ## Within a string -/

/-- The machine in the middle of the string that begins here, after `n` of its characters. -/
def inString (m : Machine) (n : Nat) : Machine :=
  { m with
    pos := m.posAhead (n + 1)
    stringMode := true
    stack := ⟨(m.valuesAhead n).reverse ++ m.stack.values⟩ }

/-- The machine past the string that begins here and has `n` characters. -/
def pastString (m : Machine) (n : Nat) : Machine :=
  { m with
    pos := m.posAhead (n + 2)
    stack := ⟨(m.valuesAhead n).reverse ++ m.stack.values⟩ }

theorem toList_stack_pastString (m : Machine) (n : Nat) :
    (m.pastString n).stack.toList = m.stack.toList ++ m.valuesAhead n := by
  simp [pastString, Stack.toList]

theorem step_of_char {m : Machine} (hdone : m.done = false) (hmode : m.stringMode = true)
    (hcell : m.fetch ≠ '"') :
    m.step = pure (.ok .running, (m.push (Cell.value m.fetch)).advance) := by
  simp [step, hdone, hmode, hcell]

theorem step_of_quote {m : Machine} (hdone : m.done = false) (hcell : m.fetch = '"') :
    m.step = (Dialogue.note (.dispatched m.pos .toggleString) >>= fun _ =>
      pure (.ok .running, { m with stringMode := !m.stringMode }.advance)) := by
  have hdispatches : m.Dispatches := ⟨hdone, fun h => h.2 hcell⟩
  rw [step_of_dispatches hdispatches, hcell]
  rfl

section

variable {m : Machine} (hdone : m.done = false) (hmode : m.stringMode = false)
  (hpos : m.program.grid.Contains m.pos)
include hdone hpos

theorem step_within {n : Nat} (hcell : m.cellAhead (n + 1) ≠ '"') :
    (m.inString n).step = pure (.ok .running, m.inString (n + 1)) := by
  have hadvance : ((m.inString n).push (Cell.value (m.cellAhead (n + 1)))).advance =
      m.inString (n + 1) := by
    simp only [advance, push, withStack, Stack.push, inString, advance_posAhead hpos,
      valuesAhead_succ, List.reverse_append, List.reverse_singleton, List.nil_append,
      List.cons_append]
  rw [← hadvance]
  exact step_of_char hdone rfl hcell

include hmode

theorem step_begin (hquote : m.fetch = '"') :
    m.step = (Dialogue.note (.dispatched m.pos .toggleString) >>= fun _ =>
      pure (.ok .running, m.inString 0)) := by
  have hadvance := advance_posAhead hpos 0
  rw [posAhead_zero hpos] at hadvance
  rw [step_of_quote hdone hquote, advance, hadvance, hmode]
  rfl

theorem step_end {n : Nat} (hcell : m.cellAhead (n + 1) = '"') :
    (m.inString n).step =
      (Dialogue.note (.dispatched (m.posAhead (n + 1)) .toggleString) >>= fun _ =>
        pure (.ok .running, m.pastString n)) := by
  have hadvance : { m.inString n with stringMode := false }.advance = m.pastString n := by
    simp only [advance, inString, pastString, advance_posAhead hpos, hmode]
  rw [← hadvance]
  exact step_of_quote hdone hcell

/-- From the middle of a string to its end: `n` more characters, and the quote. -/
theorem steps_inString {i n : Nat} (hclose : m.cellAhead (i + n + 1) = '"')
    (hbetween : ∀ j, i < j → j < i + n + 1 → m.cellAhead j ≠ '"') :
    (m.inString i).steps (n + 1) =
      (Dialogue.note (.dispatched (m.posAhead (i + n + 1)) .toggleString) >>= fun _ =>
        pure (List.replicate (n + 1) (.ok .running), m.pastString (i + n))) := by
  -- The induction is on the characters that are still to come; `i` have been pushed.
  induction n generalizing i with
  | zero =>
      rw [steps, step_end hdone hmode hpos hclose]
      rfl
  | succ n ih =>
      have hcell : m.cellAhead (i + 1) ≠ '"' := hbetween _ (by omega) (by omega)
      have hindex : i + (n + 1) = i + 1 + n := by omega
      rw [hindex] at hclose hbetween ⊢
      rw [steps, step_within hdone hpos hcell, pure_bind,
        ih hclose fun j hi hj => hbetween j (by omega) hj]
      rfl

/-- A string of `n` characters from quote to quote. -/
theorem steps_string (hquote : m.fetch = '"') {n : Nat}
    (hclose : m.cellAhead (n + 1) = '"') (hbetween : ∀ j, 0 < j → j < n + 1 → m.cellAhead j ≠ '"') :
    m.steps (n + 2) =
      (Dialogue.note (.dispatched m.pos .toggleString) >>= fun _ =>
        Dialogue.note (.dispatched (m.posAhead (n + 1)) .toggleString) >>= fun _ =>
        pure (List.replicate (n + 2) (.ok .running), m.pastString n)) := by
  rw [← Nat.zero_add n] at hclose hbetween
  rw [steps, step_begin hdone hmode hpos hquote, bind_assoc, pure_bind,
    steps_inString hdone hmode hpos hclose hbetween, Nat.zero_add]
  rfl

end

end Machine

/-- On a quote, outside a string, a process makes its way to the next quote ahead, around the playfield
if need be, and pushes the code points of the cells in between, in the order of the walk. Of the machine
it changes nothing else but its place. -/
theorem Process.string_pushes_cells_between_quotes {σ : Type} {f : Responder σ} {x : Process σ}
    (hdone : x.machine.done = false) (hmode : x.machine.stringMode = false)
    (hquote : x.machine.fetch = '"') :
    let m := x.machine
    let g := m.program.grid
    ∃ k, IsLeast {j | 1 ≤ j ∧ m.cellAhead j = '"'} k ∧ k ≤ m.span ∧
      ((∀ q, g.Contains q → m.direction.Along m.pos q → q ≠ m.pos → g.cell q ≠ '"') →
        k = m.span) ∧
      let run := x.steps f (k + 1)
      run.1 = List.replicate (k + 1) (.ok .running) ∧
      run.2.machine.stack.toList = m.stack.toList ++ m.valuesAhead (k - 1) ∧
      run.2.machine.stringMode = false ∧
      run.2.machine.pos = m.posAhead (k + 1) ∧
      run.2.machine = { m with pos := run.2.machine.pos, stack := run.2.machine.stack } ∧
      (x.asked f (k + 1)).map (·.request) =
        [.note (.dispatched m.pos .toggleString),
          .note (.dispatched (m.posAhead k) .toggleString)] ∧
      ∀ {β : Type} (view : σ → β), (∀ e t, view (f (.note e) t).2 = view t) →
        view run.2.streams = view x.streams := by
  intro m g
  -- Off the playfield there are only spaces.
  have hpos : g.Contains m.pos := Grid.contains_of_cell_ne (ne_of_eq_of_ne hquote (by decide))
  obtain ⟨k, hle, hleast⟩ := Machine.exists_isLeast_quote hpos hquote
  obtain ⟨n, rfl⟩ := Nat.exists_eq_add_of_le' hleast.1.1
  have hbetween : ∀ j, 0 < j → j < n + 1 → m.cellAhead j ≠ '"' :=
    fun j hj hlt hcell => absurd (hleast.2 ⟨hj, hcell⟩) (Nat.not_le_of_lt hlt)
  have hsteps := Machine.steps_string hdone hmode hpos hquote hleast.1.2 hbetween
  refine ⟨n + 1, hleast, hle, Machine.eq_span_of_alone hpos hleast.1.1 hle hleast.1.2, ?_⟩
  rw [steps_eq_run, asked_eq, hsteps]
  refine ⟨rfl, m.toList_stack_pastString n, hmode, rfl, rfl, rfl, ?_⟩
  intro β view hview
  exact (hview _ _).trans (hview _ _)

/-- A string that goes up from the top row, over cells that would move on and stop the machine, and ends
at the quote that began it. -/
theorem Process.string_pushes_cells_between_quotes_around :
    let p : Program := ⟨.ofRows 80 25 [['"'], ['@'], ['#']], {}⟩
    let x : Process Console := ⟨{ Machine.start p 1 with direction := .up }, {}⟩
    let run := x.steps Console.answer 26
    (x.machine.done = false ∧ x.machine.stringMode = false ∧ x.machine.fetch = '"') ∧
      run.1 = List.replicate 26 (.ok .running) ∧
      run.2.machine.stack.toList = List.replicate 22 32 ++ [35, 64] ∧
      run.2.machine.pos = ⟨0, 24⟩ ∧
      (run.2.streams.input, run.2.streams.output, run.2.streams.diagnostics) = ([], {}, {}) := by
  intro p x run
  have hcell : ∀ q, x.machine.program.grid.cell q =
      ((Source.charAt? [['"'], ['@'], ['#']] q).or
        (if q.x < 80 ∧ q.y < 25 then some ' ' else none)).getD ' ' :=
    fun q => congrArg (·.getD ' ') (Grid.get?_ofRows (by decide) (by decide) q)
  have hstate : x.machine.done = false ∧ x.machine.stringMode = false ∧ x.machine.fetch = '"' :=
    ⟨rfl, rfl, hcell _⟩
  obtain ⟨k, -, -, halone, hrun⟩ := string_pushes_cells_between_quotes (f := Console.answer)
    hstate.1 hstate.2.1 hstate.2.2
  have hk : k = 25 := by
    refine halone fun q hq halong hne => ?_
    obtain ⟨a, b⟩ := q
    obtain rfl : a = 0 := halong
    rw [hcell]
    have hrows : ∀ y < 25, y ≠ 0 → ((Source.charAt? [['"'], ['@'], ['#']] ⟨0, y⟩).or
        (if 0 < 80 ∧ y < 25 then some ' ' else none)).getD ' ' ≠ '"' := by decide
    exact hrows b hq.2 fun hb => hne (congrArg (Pos.mk 0) hb)
  subst hk
  obtain ⟨hanswers, hstack, -, hpos, -, -, hview⟩ := hrun
  have hvalues : x.machine.valuesAhead 24 = List.replicate 22 32 ++ [35, 64] := by
    simp only [Machine.valuesAhead, Machine.cellAhead, hcell]
    decide
  refine ⟨hstate, hanswers, hstack.trans hvalues, hpos.trans (by decide), ?_⟩
  refine hview (fun c => (c.input, c.output, c.diagnostics)) fun e c => ?_
  simp only [Console.answer]
  split <;> rfl

end Befunge
