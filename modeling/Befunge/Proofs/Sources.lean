import Befunge.Proofs.Pictures

/-!
# Texts of one program

Many texts build the same program. How their lines end makes no difference, nor does a line feed at the
very end, and the rows of a playfield are a text that builds it again.
-/

namespace Befunge

/-! ## Ends of lines -/

namespace Source

/-- The second text is the first one with carriage returns before some of its line feeds. -/
inductive WithReturns : List Char → List Char → Prop
  | nil : WithReturns [] []
  | keep (c : Char) {s t : List Char} (h : WithReturns s t) : WithReturns (c :: s) (c :: t)
  | insert {s t : List Char} (h : WithReturns s t) : WithReturns ('\n' :: s) ('\r' :: '\n' :: t)

theorem dropFinal_concat (c : Char) (s : List Char) : dropFinal c (s ++ [c]) = s := by
  simp [dropFinal]

theorem dropFinal_of_ne {c : Char} {s : List Char} (h : s.getLast? ≠ some c) :
    dropFinal c s = s := by
  simp [dropFinal, h]

theorem map_dropFinal_of_ne {c : Char} {ls : List (List Char)}
    (h : ∀ l ∈ ls, l.getLast? ≠ some c) : ls.map (dropFinal c) = ls := by
  rw [List.map_congr_left fun l hl => dropFinal_of_ne (h l hl), List.map_id']

/-- The pieces of a text that ends in the character at which it is split. -/
theorem splitOn_concat (c : Char) (s : List Char) : (s ++ [c]).splitOn c = s.splitOn c ++ [[]] := by
  rw [List.splitOn_append_cons_self, List.splitOn_nil]

/-- A text with no empty piece does not end where it could be split. -/
theorem getLast?_ne_of_splitOn {c : Char} {s : List Char} (h : [] ∉ s.splitOn c) :
    s.getLast? ≠ some c := by
  intro hlast
  obtain ⟨t, rfl⟩ := List.getLast?_eq_some_iff.mp hlast
  rw [splitOn_concat] at h
  exact h List.mem_concat_self

/-- Lines joined, and closed once more, are lines that are all closed. -/
theorem intercalate_concat {c : Char} {ls : List (List Char)} (h : ls ≠ []) :
    [c].intercalate ls ++ [c] = ls.flatMap (· ++ [c]) := by
  induction ls with
  | nil => exact absurd rfl h
  | cons l ls ih =>
      cases ls with
      | nil => simp
      | cons l' ls =>
          rw [List.intercalate_cons_cons, List.append_assoc, ih (List.cons_ne_nil _ _)]
          simp only [List.flatMap_cons]

theorem lines_concat (s : List Char) :
    lines (s ++ ['\n']) = (s.splitOn '\n').map (dropFinal '\r') := by
  rw [lines, dropFinal_concat]

theorem lines_of_ne {s : List Char} (h : s.getLast? ≠ some '\n') :
    lines s = (s.splitOn '\n').map (dropFinal '\r') := by
  rw [lines, dropFinal_of_ne h]

namespace WithReturns

variable {s t : List Char}

theorem getLast?_eq (h : WithReturns s t) : t.getLast? = s.getLast? := by
  induction h with
  | nil => rfl
  | keep c _ ih => simp [List.getLast?_cons, ih]
  | insert _ ih => simp [List.getLast?_cons, ih]

/-- Every piece between line feeds is the same, but for a carriage return at its end. -/
theorem pieces (h : WithReturns s t) :
    List.Forall₂ (fun l l' => l' = l ∨ l' = l ++ ['\r']) (s.splitOn '\n') (t.splitOn '\n') := by
  induction h with
  | nil => exact .cons (.inl rfl) .nil
  | @keep c s t _ ih =>
      rw [List.splitOn_cons_eq_if_modifyHead, List.splitOn_cons_eq_if_modifyHead]
      by_cases hc : (c == '\n') = true
      · rw [if_pos hc, if_pos hc]
        exact .cons (.inl rfl) ih
      · rw [if_neg hc, if_neg hc]
        generalize s.splitOn '\n' = ps at ih ⊢
        generalize t.splitOn '\n' = ps' at ih ⊢
        cases ih with
        | nil => exact .nil
        | cons hl hrest => exact .cons (hl.imp (congrArg (c :: ·)) (congrArg (c :: ·))) hrest
  | @insert s t _ ih =>
      rw [List.splitOn_cons_eq_if_modifyHead, List.splitOn_cons_eq_if_modifyHead,
        List.splitOn_cons_eq_if_modifyHead]
      exact .cons (.inr rfl) ih

/-- Once they have lost a carriage return, the pieces are the same. -/
theorem map_dropFinal_eq (h : WithReturns s t)
    (hs : ∀ l ∈ s.splitOn '\n', l.getLast? ≠ some '\r') :
    (t.splitOn '\n').map (dropFinal '\r') = (s.splitOn '\n').map (dropFinal '\r') := by
  have hpieces := h.pieces
  generalize s.splitOn '\n' = ps at hpieces hs ⊢
  generalize t.splitOn '\n' = ps' at hpieces ⊢
  induction hpieces with
  | nil => rfl
  | @cons l l' _ _ hl _ ih =>
      have hdrop : dropFinal '\r' l' = dropFinal '\r' l := by
        rcases hl with rfl | rfl
        · rfl
        · rw [dropFinal_concat, dropFinal_of_ne (hs l List.mem_cons_self)]
      rw [List.map_cons, List.map_cons, hdrop, ih fun p hp => hs p (List.mem_cons_of_mem _ hp)]

theorem lines_eq (h : WithReturns s t) (hs : ∀ l ∈ s.splitOn '\n', l.getLast? ≠ some '\r') :
    lines t = lines s := by
  have hmap := h.map_dropFinal_eq hs
  by_cases hlast : s.getLast? = some '\n'
  · -- Both end in a line feed, behind which there is one more piece, which is no line.
    obtain ⟨s', rfl⟩ := List.getLast?_eq_some_iff.mp hlast
    obtain ⟨t', rfl⟩ := List.getLast?_eq_some_iff.mp (h.getLast?_eq.trans hlast)
    rw [splitOn_concat, splitOn_concat, List.map_append, List.map_append] at hmap
    rw [lines_concat, lines_concat, List.append_cancel_right hmap]
  · rw [lines_of_ne hlast, lines_of_ne (h.getLast?_eq ▸ hlast), hmap]

/-- Lines may all end in both characters. -/
theorem flatMap (rows : List (List Char)) :
    WithReturns (rows.flatMap (· ++ ['\n'])) (rows.flatMap (· ++ ['\r', '\n'])) := by
  have hline : ∀ {s t : List Char} (l : List Char), WithReturns s t →
      WithReturns (l ++ '\n' :: s) (l ++ '\r' :: '\n' :: t) := by
    intro s t l h
    induction l with
    | nil => exact .insert h
    | cons c l ih => exact .keep c ih
  induction rows with
  | nil => exact .nil
  | cons l rows ih => simpa using hline l ih

end WithReturns

end Source

/-- Building a program sees nothing of a text but its lines. -/
theorem Program.build_congr {s t : List Char} (h : Source.lines t = Source.lines s) (o : Options) :
    build t o = build s o := by
  simp only [build, h]

/-- However the lines of a text end, it builds the same program, or is refused with the same error at the
same place: carriage returns may be put before any of its line feeds, if none of the pieces between
these ends in one already, and a text that does not end in a line feed may be closed by one. -/
theorem Program.line_ends_do_not_matter (o : Options) (s : List Char) :
    ((∀ l ∈ s.splitOn '\n', l.getLast? ≠ some '\r') →
      ∀ t, Source.WithReturns s t → build t o = build s o) ∧
      (s.getLast? ≠ some '\n' → build (s ++ ['\n']) o = build s o) := by
  constructor
  · intro hs t h
    exact build_congr (h.lines_eq hs) o
  · intro hs
    refine build_congr ?_ o
    rw [Source.lines_concat, Source.lines_of_ne hs]

/-- A text that fills the standard playfield to its last cell, with both characters at the end of every
line, the last one included. -/
theorem Program.line_ends_do_not_matter_full :
    let rows := List.replicate 25 (List.replicate 80 '@')
    let s := ['\n'].intercalate rows
    let p : Program := ⟨.ofRows 80 25 rows, {}⟩
    (s.getLast? ≠ some '\n' ∧ ∀ l ∈ (s ++ ['\n']).splitOn '\n', l.getLast? ≠ some '\r') ∧
      Source.WithReturns (s ++ ['\n']) (rows.flatMap (· ++ ['\r', '\n'])) ∧
      build s {} = .ok p ∧ build (rows.flatMap (· ++ ['\r', '\n'])) {} = .ok p := by
  intro rows s p
  have hrows : ∀ l ∈ rows, l = List.replicate 80 '@' := fun l => List.eq_of_mem_replicate
  have hsplit : s.splitOn '\n' = rows := by
    refine List.splitOn_intercalate '\n' (fun l hl => ?_) (List.cons_ne_nil _ _)
    rw [hrows l hl]
    decide
  have hlast : s.getLast? ≠ some '\n' := by
    refine Source.getLast?_ne_of_splitOn fun hempty => ?_
    exact absurd (hrows _ (hsplit ▸ hempty)) (by decide)
  have hreturn : ∀ l ∈ rows, l.getLast? ≠ some '\r' := by
    intro l hl
    rw [hrows l hl]
    decide
  have hpieces : ∀ l ∈ (s ++ ['\n']).splitOn '\n', l.getLast? ≠ some '\r' := by
    rw [Source.splitOn_concat, hsplit, List.forall_mem_append, List.forall_mem_singleton]
    exact ⟨hreturn, nofun⟩
  have hreturns : Source.WithReturns (s ++ ['\n']) (rows.flatMap (· ++ ['\r', '\n'])) := by
    have hclosed : s ++ ['\n'] = rows.flatMap (· ++ ['\n']) :=
      Source.intercalate_concat (List.cons_ne_nil _ _)
    rw [hclosed]
    exact .flatMap rows
  have hb : build s {} = .ok p := by
    have hlines : Source.lines s = rows := by
      rw [Source.lines_of_ne hlast, hsplit, Source.map_dropFinal_of_ne hreturn]
    have hascii : Source.IsAscii rows := by
      intro l hl c hc
      rw [hrows l hl] at hc
      rw [List.eq_of_mem_replicate hc]
      decide
    have hw : Source.IsWidth rows 80 :=
      ⟨⟨_, List.mem_cons_self, rfl⟩, fun l hl => Nat.le_of_eq (congrArg List.length (hrows l hl))⟩
    have hbuilds : Builds rows {} (.ok p) :=
      .built ⟨rfl, rfl, rfl⟩ (.inr hascii) hw (.inr (by decide)) (Grid.isPlayfieldOf_ofRows hw) rfl
    exact (Builds.eq_build (hlines ▸ hbuilds)).symm
  refine ⟨⟨hlast, hpieces⟩, hreturns, hb, ?_⟩
  rw [(line_ends_do_not_matter {} (s ++ ['\n'])).1 hpieces _ hreturns,
    (line_ends_do_not_matter {} s).2 hlast, hb]

/-! ## Rows as lines -/

namespace Grid

/-- The rows of the playfield can stand as lines in a text. -/
structure IsText (unicode : Bool) (g : Grid) : Prop where
  /-- No cell holds a line feed. -/
  feed (q : Pos) : g.get? q ≠ some '\n'
  /-- No cell at the end of a row holds a carriage return. -/
  final (y : Nat) : g.get? ⟨g.width - 1, y⟩ ≠ some '\r'
  /-- In byte mode the cells hold ASCII only. -/
  ascii (hu : unicode = false) (q : Pos) (c : Char) (hc : g.get? q = some c) : c.toNat < 128

theorem rows_eq (g : Grid) :
    g.rows = (List.range g.height).map fun y => (List.range g.width).map fun x => g.cell ⟨x, y⟩ := by
  rw [rows, ← List.filterMap_eq_map]
  refine List.filterMap_congr fun y hy => ?_
  rw [row?_eq (List.mem_range.mp hy)]
  rfl

theorem length_rows (g : Grid) : g.rows.length = g.height := by
  rw [rows_eq, List.length_map, List.length_range]

/-- The rows show what the playfield shows. -/
theorem charAt?_rows (g : Grid) (q : Pos) : Source.charAt? g.rows q = g.get? q := by
  rw [Source.charAt?, rows_eq, List.getElem?_map]
  by_cases hy : q.y < g.height
  · rw [List.getElem?_range hy, Option.map_some, Option.bind_some, List.getElem?_map]
    by_cases hx : q.x < g.width
    · rw [List.getElem?_range hx, (shows_cell ⟨hx, hy⟩).get?_eq]
      rfl
    · rw [List.getElem?_eq_none (by simpa using hx), get?, if_neg fun hq => hx hq.1]
      rfl
  · rw [List.getElem?_eq_none (by simpa using hy), get?, if_neg fun hq => hy hq.2]
    rfl

theorem length_of_mem_rows {g : Grid} {r : List Char} (h : r ∈ g.rows) : r.length = g.width := by
  rw [rows_eq] at h
  obtain ⟨y, -, rfl⟩ := List.mem_map.mp h
  rw [List.length_map, List.length_range]

theorem get?_of_mem_rows {g : Grid} {r : List Char} (h : r ∈ g.rows) :
    ∃ y, ∀ x, r[x]? = g.get? ⟨x, y⟩ := by
  obtain ⟨y, hy⟩ := List.mem_iff_getElem?.mp h
  refine ⟨y, fun x => ?_⟩
  rw [← charAt?_rows, Source.charAt?, hy, Option.bind_some]

/-- The rows as lines, with line feeds between them. -/
def text (g : Grid) : List Char := ['\n'].intercalate g.rows

section

variable {g : Grid} (hw : 0 < g.width) (hh : 0 < g.height)
include hh

theorem rows_ne_nil : g.rows ≠ [] := by
  rw [← List.length_pos_iff, length_rows]
  exact hh

theorem isWidth_rows : Source.IsWidth g.rows g.width where
  mem := by
    obtain ⟨r, hr⟩ := List.exists_mem_of_ne_nil _ (rows_ne_nil hh)
    exact ⟨r, hr, length_of_mem_rows hr⟩
  le _ hr := Nat.le_of_eq (length_of_mem_rows hr)

namespace IsText

variable {unicode : Bool} (h : g.IsText unicode)
include h

theorem splitOn_text : g.text.splitOn '\n' = g.rows := by
  refine List.splitOn_intercalate '\n' (fun r hr hfeed => ?_) (rows_ne_nil hh)
  obtain ⟨y, hy⟩ := get?_of_mem_rows hr
  obtain ⟨x, hx⟩ := List.mem_iff_getElem?.mp hfeed
  exact h.feed ⟨x, y⟩ ((hy x).symm.trans hx)

theorem lines_text_concat : Source.lines (g.text ++ ['\n']) = g.rows := by
  have hreturn : ∀ r ∈ g.rows, r.getLast? ≠ some '\r' := by
    intro r hr
    obtain ⟨y, hy⟩ := get?_of_mem_rows hr
    rw [List.getLast?_eq_getElem?, hy, length_of_mem_rows hr]
    exact h.final y
  rw [Source.lines_concat, h.splitOn_text hh, Source.map_dropFinal_of_ne hreturn]

include hw

/-- The last row is not empty, so its last cell ends the text, and that is no line feed. -/
theorem getLast?_text : g.text.getLast? ≠ some '\n' := by
  refine Source.getLast?_ne_of_splitOn fun hempty => ?_
  rw [h.splitOn_text hh] at hempty
  exact absurd (length_of_mem_rows hempty) (Nat.ne_of_lt hw)

end IsText

end

theorem isAscii_rows {g : Grid} (h : ∀ q c, g.get? q = some c → c.toNat < 128) :
    Source.IsAscii g.rows := by
  intro r hr c hc
  obtain ⟨y, hy⟩ := get?_of_mem_rows hr
  obtain ⟨x, hx⟩ := List.mem_iff_getElem?.mp hc
  exact h ⟨x, y⟩ c ((hy x).symm.trans hx)

/-- A playfield of at least the standard size is that of its rows. -/
theorem isPlayfieldOf_rows {g : Grid} (hw : 80 ≤ g.width) (hh : 25 ≤ g.height) :
    g.IsPlayfieldOf g.rows g.width where
  width_eq := by omega
  height_eq := by
    rw [length_rows]
    omega
  get?_eq q := by
    rw [charAt?_rows]
    by_cases hq : g.Contains q
    · rw [(shows_cell hq).get?_eq]
      rfl
    · rw [get?, if_neg hq, Option.none_or]
      exact (if_neg hq).symm

end Grid

namespace Program

/-- A program that was built has options without unsupported switches, and a size that they allow. -/
theorem supported_of_build {source : List Char} {o : Options} {p : Program}
    (hb : build source o = .ok p) :
    o.Supported ∧ (o.anySize = true ∨ (p.grid.width ≤ 80 ∧ p.grid.height ≤ 25)) := by
  have hbuilds := builds_build source o
  rw [hb] at hbuilds
  cases hbuilds with
  | built ho hu hw hsize hgrid hoptions =>
      rw [hgrid.width_eq, hgrid.height_eq]
      exact ⟨ho, hsize.imp_right (by omega)⟩

/-- The text of a playfield builds it, whether a line feed closes it or not. -/
theorem build_text {g : Grid} {o : Options} (ho : o.Supported) (hw : 80 ≤ g.width)
    (hh : 25 ≤ g.height) (hsize : o.anySize = true ∨ (g.width ≤ 80 ∧ g.height ≤ 25))
    (h : g.IsText o.unicode) :
    build (g.text ++ ['\n']) o = .ok ⟨g, o⟩ ∧ build g.text o = .ok ⟨g, o⟩ := by
  have hw' : 0 < g.width := Nat.zero_lt_of_lt hw
  have hh' : 0 < g.height := Nat.zero_lt_of_lt hh
  have hascii : o.unicode = true ∨ Source.IsAscii g.rows := by
    cases hu : o.unicode with
    | true => exact .inl rfl
    | false => exact .inr (Grid.isAscii_rows (h.ascii hu))
  have hsize' : o.anySize = true ∨ (g.width ≤ 80 ∧ g.rows.length ≤ 25) := by
    rwa [Grid.length_rows]
  have hbuilds : Builds g.rows o (.ok ⟨g, o⟩) :=
    .built ho hascii (Grid.isWidth_rows hh') hsize' (Grid.isPlayfieldOf_rows hw hh) rfl
  have hclosed : build (g.text ++ ['\n']) o = .ok ⟨g, o⟩ :=
    (Builds.eq_build (h.lines_text_concat hh' ▸ hbuilds)).symm
  have hopen : Source.lines g.text = Source.lines (g.text ++ ['\n']) := by
    rw [Source.lines_concat, Source.lines_of_ne (h.getLast?_text hw' hh')]
  exact ⟨hclosed, (build_congr hopen o).trans hclosed⟩

/-- The rows of a program that was built, whatever was put on its playfield since, build this very
program again, with or without a line feed at the end, provided that no cell holds a line feed, none at
the end of a row a carriage return, and none what the options do not allow. -/
theorem rows_build_again {source : List Char} {o : Options} {p : Program}
    (hb : build source o = .ok p) (ws : List (Pos × Char)) :
    let g := p.grid.setAll ws
    (∀ q, g.get? q ≠ some '\n') → (∀ y, g.get? ⟨g.width - 1, y⟩ ≠ some '\r') →
      (o.unicode = false → ∀ q c, g.get? q = some c → c.toNat < 128) →
      build (['\n'].intercalate g.rows) o = .ok { p with grid := g } ∧
        build (['\n'].intercalate g.rows ++ ['\n']) o = .ok { p with grid := g } := by
  intro g hfeed hfinal hascii
  obtain ⟨ho, hsize⟩ := supported_of_build hb
  obtain ⟨rfl, hw, hh, -⟩ := of_build hb
  obtain ⟨hwidth, hheight⟩ := p.grid.size_setAll ws
  have h : g.IsText p.options.unicode := ⟨hfeed, hfinal, hascii⟩
  rw [← hwidth] at hw hsize
  rw [← hheight] at hh hsize
  exact (build_text ho hw hh hsize h).symm

/-- A carriage return in the middle of a row, and a line feed that was to be put off the playfield. -/
theorem rows_build_again_return :
    let p : Program := ⟨.ofRows 80 25 [['@']], {}⟩
    let g := p.grid.setAll [(⟨3, 1⟩, '\r'), (⟨80, 0⟩, '\n')]
    build ['@'] {} = .ok p ∧ g.get? ⟨3, 1⟩ = some '\r' ∧
      build (['\n'].intercalate g.rows ++ ['\n']) {} = .ok { p with grid := g } := by
  intro p g
  have hget : ∀ q, g.get? q = if ⟨3, 1⟩ = q then some '\r' else p.grid.get? q := by
    intro q
    have hput : p.grid.Contains ⟨3, 1⟩ := by decide
    have hoff : ¬ (p.grid.set ⟨3, 1⟩ '\r').Contains ⟨80, 0⟩ := by
      rw [Grid.contains_set]
      decide
    show ((p.grid.set ⟨3, 1⟩ '\r').set ⟨80, 0⟩ '\n').get? q = _
    rw [Grid.get?_set, if_neg fun h => hoff h.1, Grid.get?_set]
    simp only [hput, true_and]
  have hcells : ∀ q c, g.get? q = some c → (⟨3, 1⟩ = q ∧ c = '\r') ∨ c = '@' ∨ c = ' ' := by
    intro q c hc
    rw [hget] at hc
    split at hc
    · rename_i hq
      exact .inl ⟨hq, (Option.some.inj hc).symm⟩
    · unfold Grid.get? at hc
      split at hc
      · rcases Grid.mem_cells_ofRows (Array.mem_of_getElem? hc) with ⟨r, hr, hc⟩ | hc
        · exact .inr (.inl (by simp_all))
        · exact .inr (.inr hc)
      · cases hc
  have hb : build ['@'] {} = .ok p := rfl
  refine ⟨hb, (hget _).trans (if_pos rfl), (rows_build_again hb _ ?_ ?_ ?_).2⟩
  · intro q hq
    rcases hcells q _ hq with ⟨-, h⟩ | h | h <;> exact absurd h (by decide)
  · intro y hy
    have hwidth : g.width = 80 := (p.grid.size_setAll _).1
    rcases hcells _ _ hy with ⟨hq, -⟩ | h | h
    · exact absurd ((congrArg Pos.x hq).trans (congrArg (· - 1) hwidth)) (by decide)
    · exact absurd h (by decide)
    · exact absurd h (by decide)
  · intro _ q c hc
    rcases hcells q c hc with ⟨-, rfl⟩ | rfl | rfl <;> decide

end Program

end Befunge
