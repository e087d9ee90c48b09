import Befunge.Proofs.Bounds
import Mathlib.Data.List.Forall2

/-!
# What building a program does

The rules of building, stated on the lines of a source text without reference to how they are found
or searched: which texts and options are refused, with what error, and which playfield the others
give. `Program.build` gives exactly the outcome that the rules allow.
-/

namespace Befunge

/-! ## Lines -/

namespace Source

/-- The text `t` is `s` without one `c` at its end, if it has one there. -/
def Chomped (c : Char) (s t : List Char) : Prop := s = t ++ [c] ∨ (s = t ∧ s.getLast? ≠ some c)

/-- The pieces are the parts of `s` before, between and after its occurrences of `c`. -/
structure SplitsInto (c : Char) (s : List Char) (pieces : List (List Char)) : Prop where
  ne_nil : pieces ≠ []
  notMem : ∀ l ∈ pieces, c ∉ l
  join_eq : [c].intercalate pieces = s

/-- The text, without one final line feed, splits at line feeds into the lines, of which each has lost
one final carriage return. -/
def HasLines (s : List Char) (lines : List (List Char)) : Prop :=
  ∃ body pieces, Chomped '\n' s body ∧ SplitsInto '\n' body pieces ∧
    List.Forall₂ (Chomped '\r') pieces lines

theorem chomped_iff {c : Char} {s t : List Char} : Chomped c s t ↔ t = dropFinal c s := by
  unfold Chomped dropFinal
  constructor
  · rintro (rfl | ⟨rfl, h⟩)
    · simp
    · simp [h]
  · rintro rfl
    split
    · rename_i h
      obtain ⟨t, rfl⟩ := List.getLast?_eq_some_iff.mp h
      exact .inl (by rw [List.dropLast_concat])
    · rename_i h
      exact .inr ⟨rfl, h⟩

theorem notMem_of_mem_splitOn {c : Char} {s l : List Char} (h : l ∈ s.splitOn c) : c ∉ l := by
  induction s generalizing l with
  | nil => simp_all
  | cons d s ih =>
      rw [List.splitOn_cons_eq_if_modifyHead] at h
      split at h
      · rcases List.mem_cons.mp h with rfl | h
        · exact List.not_mem_nil
        · exact ih h
      · rename_i hd
        have hd : c ≠ d := by
          rintro rfl
          exact hd (beq_self_eq_true _)
        cases hs : s.splitOn c with
        | nil => exact absurd hs (List.splitOn_ne_nil _ _)
        | cons first rest =>
            rw [hs] at h
            rcases List.mem_cons.mp h with rfl | h
            · simp [hd, ih (hs ▸ List.mem_cons_self : first ∈ s.splitOn c)]
            · exact ih (hs ▸ List.mem_cons_of_mem _ h)

theorem splitsInto_iff {c : Char} {s : List Char} {pieces : List (List Char)} :
    SplitsInto c s pieces ↔ pieces = s.splitOn c := by
  constructor
  · rintro ⟨hne, hmem, rfl⟩
    exact (List.splitOn_intercalate c hmem hne).symm
  · rintro rfl
    exact ⟨List.splitOn_ne_nil _ _, fun l hl => notMem_of_mem_splitOn hl,
      List.intercalate_splitOn c⟩

theorem forall₂_chomped_iff {c : Char} {pieces ls : List (List Char)} :
    List.Forall₂ (Chomped c) pieces ls ↔ ls = pieces.map (dropFinal c) := by
  induction pieces generalizing ls with
  | nil => rw [List.forall₂_nil_left_iff, List.map_nil]
  | cons l pieces ih =>
      rw [List.forall₂_cons_left_iff, List.map_cons]
      simp only [chomped_iff, ih]
      constructor
      · rintro ⟨_, _, rfl, rfl, rfl⟩
        rfl
      · rintro rfl
        exact ⟨_, _, rfl, rfl, rfl⟩

/-- Every text has its lines, and no others. -/
theorem hasLines_iff {s : List Char} {ls : List (List Char)} : HasLines s ls ↔ ls = lines s := by
  simp only [HasLines, chomped_iff, splitsInto_iff, forall₂_chomped_iff]
  constructor
  · rintro ⟨_, _, rfl, rfl, rfl⟩
    rfl
  · rintro rfl
    exact ⟨_, _, rfl, rfl, rfl⟩

theorem lines_ne_nil (s : List Char) : lines s ≠ [] := by
  simp [lines, List.splitOn_ne_nil]

/-! ## Characters and sizes -/

/-- The character with number `x` of the line with number `y`, if there is one. -/
def charAt? (lines : List (List Char)) (q : Pos) : Option Char := lines[q.y]?.bind (·[q.x]?)

/-- Every character of every line is in ASCII. -/
def IsAscii (lines : List (List Char)) : Prop := ∀ l ∈ lines, ∀ c ∈ l, c.toNat < 128

/-- The place of a character outside ASCII with only ASCII in the lines above it and to its left. -/
structure FirstNonAscii (lines : List (List Char)) (q : Pos) : Prop where
  nonAscii : ∃ c, charAt? lines q = some c ∧ 128 ≤ c.toNat
  ascii_before : ∀ r c, r.y < q.y ∨ r.y = q.y ∧ r.x < q.x → charAt? lines r = some c → c.toNat < 128

/-- The length of the longest line. -/
structure IsWidth (lines : List (List Char)) (w : Nat) : Prop where
  mem : ∃ l ∈ lines, l.length = w
  le : ∀ l ∈ lines, l.length ≤ w

theorem charAt?_eq_some_iff {lines : List (List Char)} {q : Pos} {c : Char} :
    charAt? lines q = some c ↔ ∃ l, lines[q.y]? = some l ∧ l[q.x]? = some c :=
  Option.bind_eq_some_iff

/-- Of two places of first offenders neither comes before the other. -/
theorem FirstNonAscii.unique {lines : List (List Char)} {q r : Pos} (hq : FirstNonAscii lines q)
    (hr : FirstNonAscii lines r) : q = r := by
  obtain ⟨⟨c, hc, hc'⟩, hbefore⟩ := hq
  obtain ⟨⟨d, hd, hd'⟩, hbefore'⟩ := hr
  have h₁ : ¬ (r.y < q.y ∨ r.y = q.y ∧ r.x < q.x) := by
    intro h
    have := hbefore r d h hd
    omega
  have h₂ : ¬ (q.y < r.y ∨ q.y = r.y ∧ q.x < r.x) := by
    intro h
    have := hbefore' q c h hc
    omega
  rw [Pos.mk.injEq]
  omega

theorem firstNonAscii_of_firstNonAscii? {lines : List (List Char)} {q : Pos}
    (h : firstNonAscii? lines = some q) : FirstNonAscii lines q := by
  obtain ⟨above, ⟨l, y⟩, below, hsplit, hl, habove⟩ := List.findSome?_eq_some_iff.mp h
  obtain ⟨x, hx, rfl⟩ := Option.map_eq_some_iff.mp hl
  obtain ⟨hlt, hbad, hleft⟩ := List.findIdx?_eq_some_iff_getElem.mp hx
  have hzip : ∀ i : Nat, lines[i]?.map (·, i) = (above ++ (l, y) :: below)[i]? := by
    intro i
    rw [← hsplit, List.getElem?_zipIdx, Nat.zero_add]
  have hy := hzip above.length
  simp only [List.getElem?_append_right (Nat.le_refl _), Nat.sub_self, List.getElem?_cons_zero,
    Option.map_eq_some_iff, Prod.mk.injEq] at hy
  obtain ⟨l, hline, rfl, rfl⟩ := hy
  refine ⟨⟨l[x], by simp [charAt?, hline, hlt], by simpa [isAscii] using hbad⟩, ?_⟩
  intro r c hr hc
  obtain ⟨l', hl', hc⟩ := charAt?_eq_some_iff.mp hc
  rcases hr with hr | ⟨hr, hrx⟩
  · have hmem : (l', r.y) ∈ above := by
      have hz := hzip r.y
      rw [hl', Option.map_some, List.getElem?_append_left hr] at hz
      exact List.mem_of_getElem? hz.symm
    have hnone := habove _ hmem
    simp only [Option.map_eq_none_iff, List.findIdx?_eq_none_iff] at hnone
    simpa [isAscii] using hnone c (List.mem_of_getElem? hc)
  · simp only [hr, hline, Option.some.injEq] at hl'
    subst hl'
    have hrx' : r.x < l.length := Nat.lt_trans hrx hlt
    rw [List.getElem?_eq_getElem hrx', Option.some.injEq] at hc
    simpa [isAscii, hc] using hleft r.x hrx

theorem isAscii_of_firstNonAscii?_eq_none {lines : List (List Char)}
    (h : firstNonAscii? lines = none) : IsAscii lines := by
  intro l hl c hc
  simpa [isAscii] using isAscii_of_firstNonAscii? h hl hc

theorem FirstNonAscii.not_isAscii {lines : List (List Char)} {q : Pos}
    (h : FirstNonAscii lines q) : ¬ IsAscii lines := by
  intro hascii
  obtain ⟨c, hc, hbad⟩ := h.nonAscii
  obtain ⟨l, hl, hc⟩ := charAt?_eq_some_iff.mp hc
  have := hascii l (List.mem_of_getElem? hl) c (List.mem_of_getElem? hc)
  omega

theorem firstNonAscii?_eq_some_iff {lines : List (List Char)} {q : Pos} :
    firstNonAscii? lines = some q ↔ FirstNonAscii lines q := by
  constructor
  · exact firstNonAscii_of_firstNonAscii?
  · intro hq
    cases h : firstNonAscii? lines with
    | none => exact absurd (isAscii_of_firstNonAscii?_eq_none h) hq.not_isAscii
    | some r => rw [(firstNonAscii_of_firstNonAscii? h).unique hq]

theorem firstNonAscii?_eq_none_iff {lines : List (List Char)} :
    firstNonAscii? lines = none ↔ IsAscii lines := by
  constructor
  · exact isAscii_of_firstNonAscii?_eq_none
  · intro hascii
    cases h : firstNonAscii? lines with
    | none => rfl
    | some q => exact absurd hascii (firstNonAscii_of_firstNonAscii? h).not_isAscii

theorem isWidth_iff {lines : List (List Char)} (h : lines ≠ []) {w : Nat} :
    IsWidth lines w ↔ w = width lines := by
  have hmax : IsWidth lines w ↔ (lines.map List.length).max? = some w := by
    rw [List.max?_eq_some_iff]
    constructor
    · rintro ⟨⟨l, hl, rfl⟩, hle⟩
      exact ⟨List.mem_map_of_mem hl, by simpa using hle⟩
    · rintro ⟨hmem, hle⟩
      obtain ⟨l, hl, rfl⟩ := List.mem_map.mp hmem
      exact ⟨⟨l, hl, rfl⟩, by simpa using hle⟩
  rw [hmax]
  cases lines with
  | nil => exact absurd rfl h
  | cons l lines =>
      rw [List.map_cons, List.max?_cons', Option.some.injEq, eq_comm]
      simp only [width, List.map_cons, List.foldl_cons, Nat.zero_max]

end Source

/-! ## Playfields -/

namespace Grid

theorem getElem?_fit {α : Type} (n : Nat) (a : α) (l : List α) (i : Nat) :
    (fit n a l)[i]? = if i < n then some (l[i]?.getD a) else none := by
  have hlen := length_fit n a l
  by_cases hi : i < n
  · rw [if_pos hi]
    by_cases hl : i < l.length
    · have ht : i < (l.take n).length := by rw [List.length_take]; omega
      rw [fit, List.rightpad, List.getElem?_append_left ht, List.getElem?_take_of_lt hi]
      simp [hl]
    · have ht : (l.take n).length ≤ i := by rw [List.length_take]; omega
      rw [fit, List.rightpad, List.getElem?_append_right ht, List.getElem?_replicate,
        List.getElem?_eq_none (Nat.not_lt.mp hl), List.length_take]
      rw [if_pos (by omega), Option.getD_none]
  · rw [if_neg hi, List.getElem?_eq_none (by omega)]

/-- In rows of the same width, a cell lies behind the rows above it and the cells to its left. -/
theorem getElem?_flatten_of_forall {α : Type} {w : Nat} {rows : List (List α)}
    (h : ∀ r ∈ rows, r.length = w) {x : Nat} (hx : x < w) (y : Nat) :
    rows.flatten[y * w + x]? = rows[y]?.bind (·[x]?) := by
  induction rows generalizing y with
  | nil => simp
  | cons r rows ih =>
      have hr : r.length = w := h r List.mem_cons_self
      cases y with
      | zero => simp [List.getElem?_append_left, hr, hx]
      | succ y =>
          have hpos : (y + 1) * w + x = r.length + (y * w + x) := by
            rw [hr, Nat.succ_mul]
            omega
          rw [List.flatten_cons, hpos, List.getElem?_append_right (by omega), Nat.add_sub_cancel_left,
            List.getElem?_cons_succ]
          exact ih (fun s hs => h s (List.mem_cons_of_mem _ hs)) y

theorem getElem?_fitRows (w h : Nat) (rows : List (List Char)) (y : Nat) :
    (fitRows w h rows)[y]? = if y < h then some (fit w ' ' (rows[y]?.getD [])) else none := by
  have hblank : List.replicate w ' ' = fit w ' ' [] := by simp [fit]
  rw [fitRows, getElem?_fit, List.getElem?_map, hblank]
  cases rows[y]? <;> rfl

/-- A playfield made of rows that fit into it shows their characters, and spaces elsewhere. -/
theorem get?_ofRows {w h : Nat} {rows : List (List Char)} (hw : ∀ r ∈ rows, r.length ≤ w)
    (hh : rows.length ≤ h) (q : Pos) :
    (ofRows w h rows).get? q =
      (Source.charAt? rows q).or (if q.x < w ∧ q.y < h then some ' ' else none) := by
  unfold get?
  split
  · rename_i hq
    have hx : q.x < w := hq.1
    have hy : q.y < h := hq.2
    have hrow : ∀ r ∈ fitRows w h rows, r.length = w := fun r hr => length_of_mem_fitRows hr
    show (fitRows w h rows).flatten.toArray[q.y * w + q.x]? = _
    rw [List.getElem?_toArray, getElem?_flatten_of_forall hrow hx, getElem?_fitRows, if_pos hy,
      if_pos ⟨hx, hy⟩, Option.bind_some, getElem?_fit, if_pos hx, Source.charAt?]
    cases hr : rows[q.y]? with
    | none => simp
    | some r => cases hc : r[q.x]? <;> simp [hc]
  · rename_i hq
    have hq : ¬ (q.x < w ∧ q.y < h) := hq
    rw [if_neg hq, Option.or_none]
    cases hc : Source.charAt? rows q with
    | none => rfl
    | some c =>
        -- A character of the rows would lie on the playfield.
        obtain ⟨r, hr, hc⟩ := Source.charAt?_eq_some_iff.mp hc
        obtain ⟨hy, -⟩ := List.getElem?_eq_some_iff.mp hr
        obtain ⟨hx, -⟩ := List.getElem?_eq_some_iff.mp hc
        have := hw r (List.mem_of_getElem? hr)
        exact absurd ⟨by omega, by omega⟩ hq

/-- Two playfields of the same size with the same characters are the same. -/
theorem ext_get? {g g' : Grid} (hw : g.width = g'.width) (hh : g.height = g'.height)
    (h : ∀ q, g.get? q = g'.get? q) : g = g' := by
  have hsize : g.cells.size = g'.cells.size := by rw [g.size_cells, g'.size_cells, hw, hh]
  have hcells : g.cells = g'.cells := by
    refine Array.ext_getElem? fun i => ?_
    by_cases hi : i < g.cells.size
    · -- The cell with number `i` is the one in column `i % width` of row `i / width`.
      have hpos : 0 < g.width := by
        rcases Nat.eq_zero_or_pos g.width with h0 | h0
        · rw [g.size_cells, h0, Nat.zero_mul] at hi
          omega
        · exact h0
      have hcontains : g.Contains ⟨i % g.width, i / g.width⟩ := by
        refine ⟨Nat.mod_lt _ hpos, ?_⟩
        rw [Nat.div_lt_iff_lt_mul hpos, Nat.mul_comm, ← g.size_cells]
        exact hi
      have hcontains' : g'.Contains ⟨i % g.width, i / g.width⟩ := by
        unfold Contains
        rw [← hw, ← hh]
        exact hcontains
      have hindex : i / g.width * g.width + i % g.width = i := Nat.div_add_mod' i g.width
      have hq := h ⟨i % g.width, i / g.width⟩
      rw [get?, get?, if_pos hcontains, if_pos hcontains'] at hq
      simpa only [index, ← hw, hindex] using hq
    · rw [Array.getElem?_eq_none (by omega), Array.getElem?_eq_none (by omega)]
  rcases g with ⟨w, h, cells, _⟩
  rcases g' with ⟨w', h', cells', _⟩
  simp only at hw hh hcells
  subst hw hh hcells
  rfl

/-- The playfield of a text with the given lines, the longest of which has `w` characters: it is at
least of the standard size, shows the characters of the lines, and has spaces elsewhere. -/
structure IsPlayfieldOf (lines : List (List Char)) (w : Nat) (g : Grid) : Prop where
  width_eq : g.width = max w 80
  height_eq : g.height = max lines.length 25
  get?_eq (q : Pos) : g.get? q = (Source.charAt? lines q).or
    (if q.x < g.width ∧ q.y < g.height then some ' ' else none)

theorem isPlayfieldOf_ofRows {lines : List (List Char)} {w : Nat} (hw : Source.IsWidth lines w) :
    IsPlayfieldOf lines w (ofRows (max w 80) (max lines.length 25) lines) where
  width_eq := rfl
  height_eq := rfl
  get?_eq q := by
    have hrows : ∀ l ∈ lines, l.length ≤ max w 80 :=
      fun l hl => Nat.le_trans (hw.le l hl) (Nat.le_max_left _ _)
    exact get?_ofRows hrows (Nat.le_max_left _ _) q

theorem IsPlayfieldOf.unique {lines : List (List Char)} {w : Nat} {g g' : Grid}
    (h : IsPlayfieldOf lines w g) (h' : IsPlayfieldOf lines w g') : g = g' := by
  have hw : g.width = g'.width := h.width_eq.trans h'.width_eq.symm
  have hh : g.height = g'.height := h.height_eq.trans h'.height_eq.symm
  refine ext_get? hw hh fun q => ?_
  rw [h.get?_eq, h'.get?_eq, hw, hh]

end Grid

/-! ## The rules -/

namespace Options

/-- None of the switches that are not supported is on. -/
structure Supported (o : Options) : Prop where
  wrapLongLines : o.wrapLongLines = false
  wrapBridgesShort : o.wrapBridgesShort = false
  keepOffByOne : o.keepOffByOne = false

/-- The switch is on, and it is the first one that is not supported. -/
def FirstUnsupported (o : Options) : UnsupportedOption → Prop
  | .wrapLongLines => o.wrapLongLines = true
  | .wrapBridgesShort => o.wrapLongLines = false ∧ o.wrapBridgesShort = true
  | .keepOffByOne =>
    o.wrapLongLines = false ∧ o.wrapBridgesShort = false ∧ o.keepOffByOne = true

theorem unsupported?_eq_none_iff {o : Options} : o.unsupported? = none ↔ o.Supported := by
  simp only [unsupported?, List.find?_eq_none, List.mem_cons, List.not_mem_nil, or_false,
    forall_eq_or_imp, forall_eq, has, Bool.not_eq_true]
  exact ⟨fun ⟨h₁, h₂, h₃⟩ => ⟨h₁, h₂, h₃⟩, fun ⟨h₁, h₂, h₃⟩ => ⟨h₁, h₂, h₃⟩⟩

theorem unsupported?_eq_some_iff {o : Options} {u : UnsupportedOption} :
    o.unsupported? = some u ↔ o.FirstUnsupported u := by
  cases h₁ : o.wrapLongLines <;> cases h₂ : o.wrapBridgesShort <;> cases h₃ : o.keepOffByOne <;>
    cases u <;> simp [unsupported?, has, FirstUnsupported, h₁, h₂, h₃]

end Options

namespace Program

/-- The outcomes of building a text with the given lines under the options `o`. An unsupported switch
is refused first, then a character outside ASCII, then a text that is too large. -/
inductive Builds (lines : List (List Char)) (o : Options) : Except BuildError Program → Prop
  | unsupported {u : UnsupportedOption} (hu : o.FirstUnsupported u) :
      Builds lines o (.error ⟨.unsupported u, ⟨0, 0⟩⟩)
  | notAscii {q : Pos} (ho : o.Supported) (hu : o.unicode = false)
      (hq : Source.FirstNonAscii lines q) : Builds lines o (.error ⟨.notAscii, q⟩)
  | tooLarge {w : Nat} (ho : o.Supported) (hu : o.unicode = true ∨ Source.IsAscii lines)
      (hw : Source.IsWidth lines w) (hsize : o.anySize = false) (h : 80 < w ∨ 25 < lines.length) :
      Builds lines o (.error ⟨.tooLarge, ⟨w, lines.length⟩⟩)
  | built {w : Nat} {p : Program} (ho : o.Supported)
      (hu : o.unicode = true ∨ Source.IsAscii lines) (hw : Source.IsWidth lines w)
      (hsize : o.anySize = true ∨ (w ≤ 80 ∧ lines.length ≤ 25))
      (hgrid : p.grid.IsPlayfieldOf lines w) (hoptions : p.options = o) : Builds lines o (.ok p)

variable {source : List Char} {o : Options}

theorem build_of_unsupported {u : UnsupportedOption} (hu : o.FirstUnsupported u) :
    build source o = .error ⟨.unsupported u, ⟨0, 0⟩⟩ := by
  simp only [build, Source.problem?, Options.validate, Options.unsupported?_eq_some_iff.mpr hu]

/-- The search for characters outside ASCII is made in byte mode only. -/
theorem nonAscii?_eq_none_iff {lines : List (List Char)} :
    (if o.unicode then none else Source.firstNonAscii? lines) = none ↔
      o.unicode = true ∨ Source.IsAscii lines := by
  cases o.unicode <;> simp [Source.firstNonAscii?_eq_none_iff]

theorem build_of_firstNonAscii {q : Pos} (ho : o.Supported) (hu : o.unicode = false)
    (hq : Source.FirstNonAscii (Source.lines source) q) :
    build source o = .error ⟨.notAscii, q⟩ := by
  simp only [build, Source.problem?, Options.validate, Options.unsupported?_eq_none_iff.mpr ho, hu,
    Source.firstNonAscii?_eq_some_iff.mpr hq, Bool.false_eq_true, ↓reduceIte]

/-- What building does when neither a switch nor a character is in the way. -/
theorem build_of_supported (ho : o.Supported)
    (hu : o.unicode = true ∨ Source.IsAscii (Source.lines source)) :
    build source o =
      let lines := Source.lines source
      let w := Source.width lines
      if o.anySize = true ∨ (w ≤ 80 ∧ lines.length ≤ 25) then
        .ok ⟨.ofRows (max w 80) (max lines.length 25) lines, o⟩
      else .error ⟨.tooLarge, ⟨w, lines.length⟩⟩ := by
  simp only [build, Source.problem?, Options.validate, Options.unsupported?_eq_none_iff.mpr ho,
    nonAscii?_eq_none_iff.mpr hu, standardWidth, standardHeight]
  by_cases h : o.anySize = true ∨
      (Source.width (Source.lines source) ≤ 80 ∧ (Source.lines source).length ≤ 25)
  · simp only [h, ↓reduceIte]
  · simp only [h, ↓reduceIte]

/-- What building does is an outcome of the rules. -/
theorem builds_build (source : List Char) (o : Options) :
    Builds (Source.lines source) o (build source o) := by
  have hw := (Source.isWidth_iff (Source.lines_ne_nil source)).mpr rfl
  cases hs : o.unsupported? with
  | some u =>
      have hu := Options.unsupported?_eq_some_iff.mp hs
      rw [build_of_unsupported hu]
      exact .unsupported hu
  | none =>
      have ho := Options.unsupported?_eq_none_iff.mp hs
      cases ha : if o.unicode then none else Source.firstNonAscii? (Source.lines source) with
      | some q =>
          obtain ⟨hu, hq⟩ : o.unicode = false ∧ Source.FirstNonAscii (Source.lines source) q := by
            simpa [Source.firstNonAscii?_eq_some_iff] using ha
          rw [build_of_firstNonAscii ho hu hq]
          exact .notAscii ho hu hq
      | none =>
          have hu := nonAscii?_eq_none_iff.mp ha
          rw [build_of_supported ho hu]
          simp only
          split
          · rename_i hsize
            exact .built ho hu hw hsize (Grid.isPlayfieldOf_ofRows hw) rfl
          · rename_i hsize
            simp only [not_or, Bool.not_eq_true] at hsize
            exact .tooLarge ho hu hw hsize.1 (by omega)

/-- Of a text, the rules allow no other outcome than what building does. -/
theorem Builds.eq_build {r : Except BuildError Program} (h : Builds (Source.lines source) o r) :
    r = build source o := by
  have hiff := fun w => Source.isWidth_iff (Source.lines_ne_nil source) (w := w)
  cases h with
  | unsupported hu => rw [build_of_unsupported hu]
  | notAscii ho hu hq => rw [build_of_firstNonAscii ho hu hq]
  | tooLarge ho hu hw hsize h =>
      obtain rfl := (hiff _).mp hw
      rw [build_of_supported ho hu]
      simp only
      rw [if_neg]
      rintro (hany | hfits)
      · simp [hsize] at hany
      · omega
  | @built _ p ho hu hw hsize hgrid hoptions =>
      obtain rfl := (hiff _).mp hw
      obtain ⟨g, _⟩ := p
      subst hoptions
      rw [build_of_supported ho hu]
      simp only
      rw [if_pos hsize, ← hgrid.unique (Grid.isPlayfieldOf_ofRows hw)]

/-- Building a program follows the rules, for every text and all options: the outcome is `r` exactly if
`r` is an outcome that the rules allow for the lines of the text. There is always one, and only one. -/
theorem build_eq_iff (source : List Char) (o : Options) (r : Except BuildError Program) :
    build source o = r ↔ ∃ lines, Source.HasLines source lines ∧ Builds lines o r := by
  simp only [Source.hasLines_iff, exists_eq_left]
  constructor
  · rintro rfl
    exact builds_build source o
  · intro h
    exact h.eq_build.symm

end Program

end Befunge
