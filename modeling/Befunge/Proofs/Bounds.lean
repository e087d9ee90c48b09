import Befunge.Proofs.Runs

/-!
# Machines stay on their playfield

Every instruction keeps the position on the playfield, the playfield's size, the options and the seed,
and in byte mode it stores bytes only. So every access that a step makes finds its cell.
-/

namespace Befunge

/-! ## Access -/

/-- Every cell of the playfield holds a byte. -/
def Grid.IsByte (g : Grid) : Prop := ∀ c ∈ g.cells, c.toNat ≤ 0xFF

theorem Grid.getElem?_index {g : Grid} {p : Pos} (h : g.Contains p) :
    g.cells[g.index p]? = some (g.cell p) := by
  have hi := index_lt h
  simp [cell, get?, h, hi]

theorem Grid.contains_of_locate {g : Grid} {x y : Int64} {p : Pos} (h : g.locate x y = some p) :
    g.Contains p := by
  simp only [locate] at h
  split at h
  · rename_i hc
    cases h
    exact hc.2.2
  · cases h

theorem Grid.IsByte.set {g : Grid} (h : g.IsByte) (p : Pos) {c : Char} (hc : c.toNat ≤ 0xFF) :
    (g.set p c).IsByte := by
  intro d hd
  unfold Grid.set at hd
  split at hd
  · rcases Array.mem_or_eq_of_mem_setIfInBounds hd with hd | rfl
    · exact h d hd
    · exact hc
  · exact h d hd

theorem Cell.toNat_le_of_ofValue? {v : Int64} {c : Char} (h : ofValue? false v = some c) :
    c.toNat ≤ 0xFF := by
  simp only [ofValue?, Bool.false_eq_true, ↓reduceIte, Option.some.injEq] at h
  subst h
  have hb : (byte v).toNat < 256 := (byte v).toNat_lt
  have hv : (byte v).toNat.isValidChar := .inl (by omega)
  rw [Char.ofNat, dif_pos hv]
  show (byte v).toNat ≤ 0xFF
  omega

/-! ## Building -/

theorem Grid.mem_fit {α : Type} {n : Nat} {a b : α} {l : List α} (h : b ∈ fit n a l) :
    b ∈ l ∨ b = a := by
  simp only [fit, List.rightpad, List.mem_append, List.mem_replicate] at h
  rcases h with h | h
  · exact .inl (List.mem_of_mem_take h)
  · exact .inr h.2

theorem Grid.mem_cells_ofRows {w h : Nat} {rows : List (List Char)} {c : Char}
    (hc : c ∈ (ofRows w h rows).cells) : (∃ r ∈ rows, c ∈ r) ∨ c = ' ' := by
  simp only [ofRows, List.mem_toArray, List.mem_flatten, fitRows] at hc
  obtain ⟨r, hr, hc⟩ := hc
  rcases mem_fit hr with hr | rfl
  · obtain ⟨s, hs, rfl⟩ := List.mem_map.mp hr
    rcases mem_fit hc with hc | rfl
    · exact .inl ⟨s, hs, hc⟩
    · exact .inr rfl
  · exact .inr (List.eq_of_mem_replicate hc)

theorem Source.isAscii_of_firstNonAscii? {lines : List (List Char)} (h : firstNonAscii? lines = none)
    {l : List Char} (hl : l ∈ lines) {c : Char} (hc : c ∈ l) : isAscii c = true := by
  obtain ⟨y, hy, rfl⟩ := List.getElem_of_mem hl
  have hmem : (lines[y], y) ∈ lines.zipIdx := by
    simp [List.mem_zipIdx_iff_getElem?, hy]
  have hnone := List.findSome?_eq_none_iff.mp h _ hmem
  simp only [Option.map_eq_none_iff, List.findIdx?_eq_none_iff] at hnone
  simpa using hnone c hc

/-- What is known of a program that was built. -/
theorem Program.of_build {source : List Char} {o : Options} {p : Program}
    (h : build source o = .ok p) :
    p.options = o ∧ standardWidth ≤ p.grid.width ∧ standardHeight ≤ p.grid.height ∧
      (o.unicode = false → p.grid.IsByte) := by
  unfold build at h
  simp only at h
  split at h
  · cases h
  · rename_i hnone
    cases h
    refine ⟨rfl, Nat.le_max_right _ _, Nat.le_max_right _ _, ?_⟩
    intro hu c hc
    rcases Grid.mem_cells_ofRows hc with ⟨l, hl, hc⟩ | rfl
    · have hascii : Source.firstNonAscii? (Source.lines source) = none := by
        unfold Source.problem? at hnone
        split at hnone
        · cases hnone
        · simp only [hu, Bool.false_eq_true, ↓reduceIte] at hnone
          split at hnone
          · cases hnone
          · assumption
      have := Source.isAscii_of_firstNonAscii? hascii hl hc
      simp only [isAscii, decide_eq_true_eq] at this
      omega
    · decide

/-! ## The invariant -/

namespace Machine

/-- The machine stands on its playfield, which has the size and the options of the program it was
started from, and in byte mode holds bytes only. -/
structure Sound (p : Program) (seed : UInt64) (m : Machine) : Prop where
  contains : m.program.grid.Contains m.pos
  width_eq : m.program.grid.width = p.grid.width
  height_eq : m.program.grid.height = p.grid.height
  options_eq : m.options = p.options
  seed_eq : m.seed = seed
  isByte : m.options.unicode = false → m.program.grid.IsByte

namespace Sound

variable {p : Program} {seed : UInt64} {m m' : Machine}

/-- Of a machine, the invariant sees the position, the program and the seed only. -/
theorem of_eq (h : m.Sound p seed) (hpos : m'.pos = m.pos) (hprogram : m'.program = m.program)
    (hseed : m'.seed = m.seed) : m'.Sound p seed where
  contains := by rw [hpos, hprogram]; exact h.contains
  width_eq := by rw [hprogram]; exact h.width_eq
  height_eq := by rw [hprogram]; exact h.height_eq
  options_eq := by rw [options, hprogram]; exact h.options_eq
  seed_eq := hseed.trans h.seed_eq
  isByte := by rw [options, hprogram]; exact h.isByte

theorem advance (h : m.Sound p seed) : m.advance.Sound p seed where
  contains := by
    have hw : 0 < m.program.grid.width := Nat.zero_lt_of_lt h.contains.1
    have hh : 0 < m.program.grid.height := Nat.zero_lt_of_lt h.contains.2
    exact Pos.advance_lt hw hh m.direction m.pos
  width_eq := h.width_eq
  height_eq := h.height_eq
  options_eq := h.options_eq
  seed_eq := h.seed_eq
  isByte := h.isByte

theorem put (h : m.Sound p seed) (s : Stack) (x y v : Int64) :
    Sound p seed { m with
      stack := s
      program := { m.program with grid := m.program.stored x y v } } := by
  unfold Program.stored
  split
  · rename_i q c hq hc
    refine ⟨?_, ?_, ?_, h.options_eq, h.seed_eq, ?_⟩
    · exact (Grid.contains_set _ _ _ _).mpr h.contains
    · exact (Grid.width_set _ _ _).trans h.width_eq
    · exact (Grid.height_set _ _ _).trans h.height_eq
    · intro hu
      have hu : m.program.options.unicode = false := hu
      rw [hu] at hc
      exact (h.isByte hu).set q (Cell.toNat_le_of_ofValue? hc)
  · exact h.of_eq rfl rfl rfl

theorem effect (h : m.Sound p seed) (i : Instruction) (v : Option Int64) :
    (m.effect i v).Sound p seed := by
  cases i with
  | bridge => exact h.advance
  | put => exact h.put _ _ _ _
  | readInteger =>
      cases v with
      | some v => exact h.of_eq rfl rfl rfl
      | none => exact h.of_eq rfl rfl rfl
  | _ => exact h.of_eq rfl rfl rfl

theorem stepped (h : m.Sound p seed) {r} (hs : Stepped m r m') : m'.Sound p seed := by
  cases hs with
  | done => exact h
  | char =>
      have hp : (m.push (Cell.value m.fetch)).Sound p seed := h.of_eq rfl rfl rfl
      exact hp.advance
  | next _ _ v => exact (h.effect _ v).advance
  | stop => exact h.of_eq rfl rfl rfl
  | fault => exact h.of_eq rfl rfl rfl

theorem start (hw : 0 < p.grid.width) (hh : 0 < p.grid.height)
    (hb : p.options.unicode = false → p.grid.IsByte) (clock : UInt64) :
    (Machine.start p clock).Sound p (Machine.start p clock).seed :=
  ⟨⟨hw, hh⟩, rfl, rfl, rfl, rfl, hb⟩

end Sound

end Machine

theorem Process.Reachable.sound {source : List Char} {o : Options} {p : Program} {clock : UInt64}
    {σ : Type} {f : Responder σ} {x : Process σ} (hb : Program.build source o = .ok p)
    (h : Reachable p clock f x) : x.machine.Sound p (Machine.start p clock).seed := by
  obtain ⟨rfl, hw, hh, hbyte⟩ := Program.of_build hb
  have hw : 0 < p.grid.width := Nat.lt_of_lt_of_le (by decide) hw
  have hh : 0 < p.grid.height := Nat.lt_of_lt_of_le (by decide) hh
  exact h.invariant (Machine.Sound.start hw hh hbyte clock) (fun _ _ _ hm hs => hm.stepped hs)

/-- Whatever its streams do, a process of a program that was built stands on its playfield, which keeps
its size. So the storage has a cell for the instruction to be fetched, and for every place that
coordinates on the stack can name. -/
theorem Process.reachable_onPlayfield {source : List Char} {o : Options} {p : Program}
    {clock : UInt64} {σ : Type} {f : Responder σ} {x : Process σ}
    (hb : Program.build source o = .ok p) (h : Reachable p clock f x) :
    let m := x.machine
    let g := m.program.grid
    (m.pos.x < g.width ∧ m.pos.y < g.height) ∧
      (g.cells.size = g.width * g.height ∧ 80 ≤ g.width ∧ 25 ≤ g.height) ∧
      (g.width = p.grid.width ∧ g.height = p.grid.height ∧ m.options = o ∧
        m.seed = if o.seed = 0 then clock else o.seed) ∧
      (o.unicode = false → ∀ c ∈ g.cells, c.toNat ≤ 0xFF) ∧
      g.cells[m.pos.y * g.width + m.pos.x]? = some m.fetch ∧
      ∀ a b q, g.locate a b = some q → g.cells[q.y * g.width + q.x]? = some (g.cell q) := by
  obtain ⟨rfl, hw, hh, -⟩ := Program.of_build hb
  have hs := h.sound hb
  refine ⟨hs.contains, ⟨Grid.size_cells _, ?_, ?_⟩,
    ⟨hs.width_eq, hs.height_eq, hs.options_eq, hs.seed_eq⟩, ?_, Grid.getElem?_index hs.contains, ?_⟩
  · rw [hs.width_eq]; exact hw
  · rw [hs.height_eq]; exact hh
  · intro hu
    exact hs.isByte (by rw [hs.options_eq]; exact hu)
  · intro a b q hq
    exact Grid.getElem?_index (Grid.contains_of_locate hq)

/-- A machine that has left the playfield on one side and come back on the other, at other streams than
those it started with. -/
theorem Process.reachable_onPlayfield_fork :
    let p : Program := ⟨.ofRows 80 25 [['<']], {}⟩
    let x := ((start p 1 ({} : Console)).step Console.answer).2.fork ({} : Console)
    Program.build ['<'] {} = .ok p ∧ Reachable p 1 Console.answer x ∧
      x.machine.program.grid.cells[x.machine.pos.y * x.machine.program.grid.width +
        x.machine.pos.x]? = some x.machine.fetch := by
  intro p x
  have hb : Program.build ['<'] {} = .ok p := rfl
  have hx : Reachable p 1 Console.answer x := ((Reachable.start _ _).step).fork _ _
  exact ⟨hb, hx, (reachable_onPlayfield hb hx).2.2.2.2.1⟩

end Befunge
