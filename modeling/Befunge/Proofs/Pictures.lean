import Befunge.Grid.Render
import Befunge.Proofs.Building
import Befunge.Proofs.Store
import Mathlib.Data.List.DropRight
import Mathlib.Data.Nat.Log

/-!
# Pictures

In the picture of a playfield every cell has its place, which depends on nothing but the size of the
playfield. The rulers tell the size, so the picture tells the playfield, whatever its cells hold.
-/

namespace Befunge

open Text

/-- A text is cut in one way only before the first occurrence of a character. -/
theorem Text.eq_of_append_cons {c : Char} {s t u v : List Char} (hs : c ∉ s) (ht : c ∉ t)
    (h : s ++ c :: u = t ++ c :: v) : s = t ∧ u = v := by
  have hlength : s.length = t.length := by
    have hindex := congrArg (List.idxOf c) h
    rwa [List.idxOf_append_of_notMem hs, List.idxOf_append_of_notMem ht, List.idxOf_cons_self,
      List.idxOf_cons_self] at hindex
  obtain ⟨hst, hrest⟩ := List.append_inj h hlength
  exact ⟨hst, List.tail_eq_of_cons_eq hrest⟩

theorem Text.Decimal.length_ofNat (n : Nat) : (ofNat n).length = Nat.log 10 n + 1 := by
  induction n using Nat.strongRecOn with
  | ind n ih =>
      by_cases hn : n < 10
      · rw [ofNat, Nat.toDigits_of_lt_base hn, Nat.log_of_lt hn]
        rfl
      · have hlength := ih (n / 10) (by omega)
        rw [ofNat] at hlength ⊢
        rw [Nat.toDigits_of_base_le (by decide) (Nat.not_lt.mp hn), List.length_append, hlength,
          Nat.log_of_one_lt_of_le (by decide) (Nat.not_lt.mp hn)]
        rfl

namespace Grid

/-! ## Lines -/

/-- The width of the numbers of that many rows. -/
def numberWidth (height : Nat) : Nat := Nat.log 10 (height - 1) + 1

/-- What the ruler of tens has above a column. -/
def tensMark (x : Nat) : Char := if x % 10 = 0 then unit (x / 10) else ' '

/-- The ruler of tens, up to its last digit. -/
def tensLine (width height : Nat) : List Char :=
  List.replicate (numberWidth height + 1) ' ' ++
    (List.range ((width - 1) / 10 * 10 + 1)).map tensMark

def unitsLine (width height : Nat) : List Char :=
  List.replicate (numberWidth height + 1) ' ' ++ (List.range width).map unit

/-- A row's number, at the right end of its field, a space, and the cells. -/
def rowLine (g : Grid) (y : Nat) : List Char :=
  List.replicate (numberWidth g.height - (Decimal.ofNat y).length) ' ' ++ Decimal.ofNat y ++
    ' ' :: (List.range g.width).map fun x => g.cell ⟨x, y⟩

/-- The number of characters before a cell in the picture of a playfield of the given size. -/
def cellOffset (width height : Nat) (q : Pos) : Nat :=
  let d := numberWidth height
  (d + 1 + ((width - 1) / 10 * 10 + 1) + 1) + (d + 1 + width + 1) + q.y * (d + 1 + width + 1) +
    (d + 1 + q.x)

theorem isBlank_unit (n : Nat) : isBlank (unit n) = false := by
  have hdigit : ∀ k < 10, isBlank (Nat.digitChar k) = false := by decide
  exact hdigit _ (Nat.mod_lt n (by decide))

theorem unit_ne_newline (n : Nat) : unit n ≠ '\n' := by
  intro h
  have hblank := isBlank_unit n
  rw [h] at hblank
  revert hblank
  decide

theorem tensMark_ne_newline (x : Nat) : tensMark x ≠ '\n' := by
  unfold tensMark
  split
  · exact unit_ne_newline _
  · decide

theorem newline_notMem_ruler {n : Nat} {columns : List Nat} {mark : Nat → Char}
    (hmark : ∀ x, mark x ≠ '\n') : '\n' ∉ List.replicate n ' ' ++ columns.map mark := by
  intro h
  rcases List.mem_append.mp h with h | h
  · exact absurd (List.eq_of_mem_replicate h) (by decide)
  · obtain ⟨x, -, hx⟩ := List.mem_map.mp h
    exact hmark x hx

theorem newline_notMem_tensLine (width height : Nat) : '\n' ∉ tensLine width height :=
  newline_notMem_ruler tensMark_ne_newline

theorem newline_notMem_unitsLine (width height : Nat) : '\n' ∉ unitsLine width height :=
  newline_notMem_ruler unit_ne_newline

theorem tensRuler_eq {width : Nat} (hw : 0 < width) :
    tensRuler width = (List.range ((width - 1) / 10 * 10 + 1)).map tensMark := by
  let n := (width - 1) / 10 * 10
  have hsplit : List.range width =
      List.range (n + 1) ++ (List.range (width - (n + 1))).map (n + 1 + ·) := by
    rw [← List.range_add]
    congr 1
    omega
  -- The columns behind the last digit are less than ten.
  have hblank : ∀ c ∈ ((List.range (width - (n + 1))).map (n + 1 + ·)).map tensMark,
      isBlank c = true := by
    intro c hc
    simp only [List.mem_map, List.mem_range] at hc
    obtain ⟨x, ⟨i, hi, rfl⟩, rfl⟩ := hc
    have hmod : ¬ (n + 1 + i) % 10 = 0 := by omega
    rw [tensMark, if_neg hmod]
    rfl
  have hlast : ¬ isBlank (tensMark n) = true := by
    rw [tensMark, if_pos (by omega), isBlank_unit]
    decide
  calc
    tensRuler width = trimEnd ((List.range width).map tensMark) := rfl
    _ = trimEnd ((List.range (n + 1)).map tensMark) := by
      rw [hsplit, List.map_append, trimEnd_append_blanks _ hblank]
    _ = (List.range (n + 1)).map tensMark := by
      rw [List.range_succ, List.map_append]
      exact List.rdropWhile_concat_neg isBlank _ _ hlast

theorem gutter_eq (g : Grid) : g.gutter = numberWidth g.height := Decimal.length_ofNat _

theorem length_ofNat_le {y height : Nat} (hy : y < height) :
    (Decimal.ofNat y).length ≤ numberWidth height := by
  rw [Decimal.length_ofNat]
  exact Nat.succ_le_succ (Nat.log_mono_right (by omega))

theorem length_rowLine {g : Grid} {y : Nat} (hy : y < g.height) :
    (g.rowLine y ++ ['\n']).length = numberWidth g.height + 1 + g.width + 1 := by
  have hle := length_ofNat_le hy
  simp only [rowLine, List.length_append, List.length_replicate, List.length_cons, List.length_map,
    List.length_range, List.length_nil]
  omega

theorem row?_eq {g : Grid} {y : Nat} (hy : y < g.height) :
    g.row? y = some ((List.range g.width).map fun x => g.cell ⟨x, y⟩) := by
  have hsize : (y + 1) * g.width ≤ g.cells.size := by
    rw [g.size_cells, Nat.mul_comm g.width]
    exact Nat.mul_le_mul_right _ hy
  have hlength : (g.cells.extract (y * g.width) ((y + 1) * g.width)).toList.length = g.width := by
    rw [Array.length_toList, Array.size_extract, Nat.min_eq_left hsize, Nat.succ_mul]
    omega
  rw [row?, if_pos hy, Option.some.injEq]
  refine List.ext_getElem? fun x => ?_
  by_cases hx : x < g.width
  · have hshows := (shows_cell (g := g) (q := ⟨x, y⟩) ⟨hx, hy⟩).row?_eq
    rw [row?, if_pos hy, Option.bind_some] at hshows
    rw [hshows, List.getElem?_map, List.getElem?_range hx]
    rfl
  · rw [List.getElem?_eq_none (by omega), List.getElem?_eq_none (by simp; omega)]

theorem renderRow_eq {g : Grid} {y : Nat} (hy : y < g.height) : g.renderRow y = g.rowLine y := by
  rw [renderRow, alignRight, List.leftpad, gutter_eq, row?_eq hy]
  rfl

theorem render_eq {g : Grid} (hw : 0 < g.width) :
    g.render = tensLine g.width g.height ++ '\n' :: (unitsLine g.width g.height ++
      '\n' :: ((List.range g.height).map fun y => g.rowLine y ++ ['\n']).flatten) := by
  have hrows : ((List.range g.height).map g.renderRow).flatMap (· ++ ['\n']) =
      ((List.range g.height).map fun y => g.rowLine y ++ ['\n']).flatten := by
    rw [List.flatMap_map, List.flatMap]
    congr 1
    refine List.map_congr_left fun y hy => ?_
    rw [renderRow_eq (List.mem_range.mp hy)]
  simp only [render, renderLines, List.flatMap_cons, hrows, gutter_eq, tensRuler_eq hw,
    unitsRuler, tensLine, unitsLine, List.append_assoc, List.singleton_append]

/-! ## What the picture tells -/

theorem getElem?_rowLine {g : Grid} {x y : Nat} (hx : x < g.width) (hy : y < g.height) :
    (g.rowLine y ++ ['\n'])[numberWidth g.height + 1 + x]? = some (g.cell ⟨x, y⟩) := by
  have hle := length_ofNat_le hy
  have hnumber : (List.replicate (numberWidth g.height - (Decimal.ofNat y).length) ' ' ++
      Decimal.ofNat y).length = numberWidth g.height := by
    rw [List.length_append, List.length_replicate]
    omega
  have hindex : numberWidth g.height + 1 + x - numberWidth g.height = x + 1 := by omega
  have hlength := length_rowLine hy
  rw [List.length_append, List.length_singleton] at hlength
  rw [List.getElem?_append_left (by omega), rowLine, List.getElem?_append_right (by omega), hnumber,
    hindex, List.getElem?_cons_succ, List.getElem?_map, List.getElem?_range hx]
  rfl

theorem getElem?_render {g : Grid} {q : Pos} (hq : g.Contains q) :
    g.render[cellOffset g.width g.height q]? = some (g.cell q) := by
  let rows := (List.range g.height).map fun y => g.rowLine y ++ ['\n']
  let head := tensLine g.width g.height ++ '\n' :: (unitsLine g.width g.height ++ ['\n'])
  have hrender : g.render = head ++ rows.flatten := by
    rw [render_eq (Nat.zero_lt_of_lt hq.1)]
    simp only [head, rows, List.append_assoc, List.cons_append, List.nil_append]
  have hhead : head.length = (numberWidth g.height + 1 + ((g.width - 1) / 10 * 10 + 1) + 1) +
      (numberWidth g.height + 1 + g.width + 1) := by
    simp only [head, tensLine, unitsLine, List.length_append, List.length_replicate,
      List.length_cons, List.length_map, List.length_range, List.length_nil]
    omega
  have hlength : ∀ r ∈ rows, r.length = numberWidth g.height + 1 + g.width + 1 := by
    intro r hr
    obtain ⟨y, hy, rfl⟩ := List.mem_map.mp hr
    exact length_rowLine (List.mem_range.mp hy)
  have hx : numberWidth g.height + 1 + q.x < numberWidth g.height + 1 + g.width + 1 := by
    have := hq.1
    omega
  have hrow : rows[q.y]? = some (g.rowLine q.y ++ ['\n']) := by
    rw [List.getElem?_map, List.getElem?_range hq.2]
    rfl
  rw [hrender, cellOffset, Nat.add_assoc, ← hhead, List.getElem?_append_right (Nat.le_add_right _ _),
    Nat.add_sub_cancel_left, getElem?_flatten_of_forall hlength hx, hrow]
  exact getElem?_rowLine hq.1 hq.2

/-- The ruler of units tells the size of the field of the row numbers, and the width. -/
theorem unitsLine_inj {w w' h h' : Nat} (hw : 0 < w) (hw' : 0 < w')
    (heq : unitsLine w h = unitsLine w' h') : numberWidth h = numberWidth h' ∧ w = w' := by
  have hzero : ∀ {n k : Nat}, 0 < n → unitsLine n k =
      List.replicate (numberWidth k + 1) ' ' ++ '0' :: ((List.range n).map unit).tail := by
    intro n k hn
    obtain ⟨n, rfl⟩ := Nat.exists_eq_succ_of_ne_zero (Nat.ne_of_gt hn)
    rw [unitsLine, List.range_succ_eq_map]
    rfl
  have hnotMem : ∀ n, '0' ∉ List.replicate n ' ' :=
    fun n hmem => absurd (List.eq_of_mem_replicate hmem) (by decide)
  rw [hzero hw, hzero hw'] at heq
  obtain ⟨hmargin, htail⟩ := eq_of_append_cons (hnotMem _) (hnotMem _) heq
  have hd := congrArg List.length hmargin
  have hn := congrArg List.length htail
  simp only [List.length_replicate, List.length_tail, List.length_map, List.length_range] at hd hn
  omega

theorem size_eq_of_render_eq {g g' : Grid} (hw : 0 < g.width) (hw' : 0 < g'.width)
    (h : g.render = g'.render) : g.width = g'.width ∧ g.height = g'.height := by
  rw [render_eq hw, render_eq hw'] at h
  -- Whatever the cells hold, the first two line feeds are those behind the rulers.
  obtain ⟨-, h⟩ := eq_of_append_cons (newline_notMem_tensLine _ _) (newline_notMem_tensLine _ _) h
  obtain ⟨hunits, hrows⟩ :=
    eq_of_append_cons (newline_notMem_unitsLine _ _) (newline_notMem_unitsLine _ _) h
  obtain ⟨hnumber, hwidth⟩ := unitsLine_inj hw hw' hunits
  have hlength : ∀ f : Grid, ((List.range f.height).map fun y => f.rowLine y ++ ['\n']).flatten.length =
      (numberWidth f.height + 1 + f.width + 1) * f.height := by
    intro f
    rw [length_flatten_of_forall, List.length_map, List.length_range]
    intro r hr
    obtain ⟨y, hy, rfl⟩ := List.mem_map.mp hr
    exact length_rowLine (List.mem_range.mp hy)
  have hcount := congrArg List.length hrows
  rw [hlength, hlength, ← hnumber, ← hwidth] at hcount
  exact ⟨hwidth, Nat.eq_of_mul_eq_mul_left (Nat.succ_pos _) hcount⟩

theorem eq_iff {g g' : Grid} :
    g = g' ↔ g.width = g'.width ∧ g.height = g'.height ∧ g.cells = g'.cells := by
  cases g
  cases g'
  rw [Grid.mk.injEq]

theorem render_inj {g g' : Grid} (hw : 0 < g.width) (hw' : 0 < g'.width) :
    g.render = g'.render ↔ g = g' := by
  constructor
  · intro h
    obtain ⟨hwidth, hheight⟩ := size_eq_of_render_eq hw hw' h
    refine ext_get? hwidth hheight fun q => ?_
    have hcontains : g'.Contains q ↔ g.Contains q := by
      unfold Contains
      rw [hwidth, hheight]
    by_cases hq : g.Contains q
    · have hq' := hcontains.mpr hq
      have hcell := getElem?_render hq
      rw [h, hwidth, hheight, getElem?_render hq'] at hcell
      rw [(shows_cell hq).get?_eq, (shows_cell hq').get?_eq, hcell]
    · rw [get?, get?, if_neg hq, if_neg (hcontains.not.mpr hq)]
  · exact congrArg render

/-! ## Programs -/

/-- The playfield after characters have been put on it, one after another. -/
def setAll (g : Grid) (ws : List (Pos × Char)) : Grid := ws.foldl (fun g w => g.set w.1 w.2) g

theorem size_setAll (g : Grid) (ws : List (Pos × Char)) :
    (g.setAll ws).width = g.width ∧ (g.setAll ws).height = g.height := by
  induction ws generalizing g with
  | nil => exact ⟨rfl, rfl⟩
  | cons w ws ih =>
      obtain ⟨hwidth, hheight⟩ := ih (g.set w.1 w.2)
      exact ⟨hwidth.trans (width_set _ _ _), hheight.trans (height_set _ _ _)⟩

end Grid

theorem Program.width_setAll_pos {source : List Char} {o : Options} {p : Program}
    (hb : build source o = .ok p) (ws : List (Pos × Char)) : 0 < (p.grid.setAll ws).width := by
  rw [(p.grid.size_setAll ws).1]
  exact Nat.lt_of_lt_of_le (by decide) (of_build hb).2.1

/-- The picture of a program is two rulers and then its rows, all of one length, with the cells as they
are, line feeds included. So two programs have the same picture just if they have the same size and the
same cells. -/
theorem Program.picture_loses_nothing {source source' : List Char} {o o' : Options}
    {p p' : Program} (hb : build source o = .ok p) (hb' : build source' o' = .ok p')
    (ws ws' : List (Pos × Char)) :
    let g := p.grid.setAll ws
    let g' := p'.grid.setAll ws'
    let d := Nat.log 10 (g.height - 1) + 1
    let row := fun y => List.replicate (d - (Decimal.ofNat y).length) ' ' ++ Decimal.ofNat y ++
      ' ' :: (List.range g.width).map (fun x => g.cell ⟨x, y⟩) ++ ['\n']
    g.render = Grid.tensLine g.width g.height ++ '\n' :: (Grid.unitsLine g.width g.height ++
      '\n' :: ((List.range g.height).map row).flatten) ∧
      ('\n' ∉ Grid.tensLine g.width g.height ∧ '\n' ∉ Grid.unitsLine g.width g.height) ∧
      (∀ y < g.height, (Decimal.ofNat y).length ≤ d ∧ (row y).length = d + 1 + g.width + 1) ∧
      (∀ x y, x < g.width → y < g.height →
        g.render[Grid.cellOffset g.width g.height ⟨x, y⟩]? = some (g.cell ⟨x, y⟩)) ∧
      (g.render = g'.render ↔
        g.width = g'.width ∧ g.height = g'.height ∧ g.cells = g'.cells) := by
  intro g g' d row
  have hw : 0 < g.width := width_setAll_pos hb ws
  have hw' : 0 < g'.width := width_setAll_pos hb' ws'
  refine ⟨?_, ?_, ?_, ?_, ?_⟩
  · exact Grid.render_eq hw
  · exact ⟨Grid.newline_notMem_tensLine _ _, Grid.newline_notMem_unitsLine _ _⟩
  · exact fun y hy => ⟨Grid.length_ofNat_le hy, Grid.length_rowLine hy⟩
  · exact fun x y hx hy => Grid.getElem?_render ⟨hx, hy⟩
  · rw [Grid.render_inj hw hw']
    exact Grid.eq_iff

/-- A line feed at the end of a row, where it looks like the end of a line. -/
theorem Program.picture_loses_nothing_newline :
    let p : Program := ⟨.ofRows 80 25 [['@']], {}⟩
    let g := p.grid.setAll [(⟨79, 1⟩, '\n')]
    build ['@'] {} = .ok p ∧ g.render[325]? = some '\n' ∧ g.render ≠ p.grid.render := by
  intro p g
  have hb : build ['@'] {} = .ok p := rfl
  have hcontains : p.grid.Contains ⟨79, 1⟩ := by decide
  have hget : g.get? ⟨79, 1⟩ = some '\n' :=
    (Grid.get?_set p.grid ⟨79, 1⟩ ⟨79, 1⟩ '\n').trans (if_pos ⟨hcontains, rfl⟩)
  have hbefore : p.grid.get? ⟨79, 1⟩ = some ' ' := Grid.get?_ofRows (by decide) (by decide) _
  obtain ⟨hwidth, hheight⟩ := p.grid.size_setAll [(⟨79, 1⟩, '\n')]
  obtain ⟨-, -, -, hcell, hiff⟩ := picture_loses_nothing hb hb [(⟨79, 1⟩, '\n')] []
  refine ⟨hb, ?_, ?_⟩
  · have hplace := hcell 79 1 (by rw [hwidth]; decide) (by rw [hheight]; decide)
    rw [hwidth, hheight] at hplace
    have hoffset : Grid.cellOffset p.grid.width p.grid.height ⟨79, 1⟩ = 325 := by decide
    rw [hoffset] at hplace
    exact hplace.trans (congrArg some (congrArg (·.getD ' ') hget))
  · intro heq
    have hsame : g = p.grid := Grid.eq_iff.mpr (hiff.mp heq)
    rw [hsame, hbefore] at hget
    exact absurd hget (by decide)

end Befunge
