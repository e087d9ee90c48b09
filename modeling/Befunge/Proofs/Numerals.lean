import Befunge.Proofs.Characters
import Mathlib.Data.List.DropRight

/-!
# Numerals

Which texts denote an integer, and what is wrong with the others. A numeral is read from left to right, and
the first problem decides: so a digit that takes the value out of range counts before anything that follows
it, and a character that is no digit before any digit behind it.
-/

namespace Befunge

open Text

/-! ## Blank ends -/

namespace Text

/-- What is left of a line when all blank characters are taken from both of its ends. -/
structure Trims (line s : List Char) : Prop where
  ends : ∃ before after, line = before ++ (s ++ after) ∧
    (∀ c ∈ before, isBlank c = true) ∧ ∀ c ∈ after, isBlank c = true
  head {c : Char} (h : s.head? = some c) : isBlank c = false
  last {c : Char} (h : s.getLast? = some c) : isBlank c = false

theorem Trims.trim_eq {line s : List Char} (h : Trims line s) : trim line = s := by
  obtain ⟨before, after, rfl, hbefore, hafter⟩ := h.ends
  have hstart : trimStart (before ++ (s ++ after)) = trimStart (s ++ after) :=
    List.dropWhile_append_of_pos hbefore
  rw [trim, hstart]
  cases s with
  | nil =>
      have hnil : trimStart after = [] := List.dropWhile_eq_nil_iff.mpr hafter
      rw [List.nil_append, hnil]
      rfl
  | cons c s =>
      have hself : trimStart (c :: s ++ after) = c :: s ++ after :=
        List.dropWhile_cons_of_neg (Bool.eq_false_iff.mp (h.head rfl))
      rw [hself, trimEnd_append_blanks _ hafter]
      refine List.rdropWhile_eq_self_iff.mpr fun hne => Bool.eq_false_iff.mp (h.last ?_)
      exact List.getLast?_eq_some_getLast hne

theorem trims_trim (line : List Char) : Trims line (trim line) := by
  have hsplit : trimEnd (trimStart line) ++ (trimStart line).rtakeWhile isBlank = trimStart line :=
    List.rdropWhile_append_rtakeWhile
  refine ⟨⟨line.takeWhile isBlank, (trimStart line).rtakeWhile isBlank, ?_, ?_, ?_⟩, ?_, ?_⟩
  · rw [trim, hsplit]
    exact List.takeWhile_append_dropWhile.symm
  · exact fun c hc => List.mem_takeWhile_imp hc
  · exact fun c hc => List.mem_rtakeWhile_imp hc
  · intro c hc
    -- What the text starts with is what is left at the start of the line.
    have hhead : (trimStart line).head? = some c := by
      rw [← hsplit, List.head?_append, ← trim, hc]
      rfl
    rw [trimStart, ← List.find?_not_eq_head?_dropWhile] at hhead
    simpa using List.find?_some hhead
  · intro c hc
    have hne : trim line ≠ [] := by
      rintro hnil
      rw [hnil] at hc
      cases hc
    rw [List.getLast?_eq_some_getLast hne] at hc
    cases hc
    exact Bool.eq_false_iff.mpr (List.rdropWhile_last_not isBlank _ hne)

end Text

/-! ## The grammar -/

namespace Text.Decimal

/-- The text with its sign, if it starts with one, set apart: whether that is a minus sign, and what follows
it. -/
inductive Signed : List Char → Bool → List Char → Prop
  | plus (body : List Char) : Signed ('+' :: body) false body
  | minus (body : List Char) : Signed ('-' :: body) true body
  | unsigned {body : List Char} (hplus : body.head? ≠ some '+') (hminus : body.head? ≠ some '-') :
      Signed body false body

def IsDigits (ds : List Char) : Prop := ∀ c ∈ ds, c.isDigit = true

instance (ds : List Char) : Decidable (IsDigits ds) := List.decidableBAll _ ds

/-- The number that digits denote after a sign; no digits denote zero. -/
def denoted (negative : Bool) (ds : List Char) : Int :=
  if negative then -(Nat.ofDigitChars 10 ds 0 : Int) else (Nat.ofDigitChars 10 ds 0 : Int)

def InRange (v : Int) : Prop := -0x8000000000000000 ≤ v ∧ v ≤ 0x7FFFFFFFFFFFFFFF

instance (v : Int) : Decidable (InRange v) := inferInstanceAs (Decidable (_ ∧ _))

/-- Of all the digits at the start of a text, `ds` are the first that denote a value in `P`. -/
structure First (P : Int → Prop) (negative : Bool) (body ds : List Char) : Prop where
  start : ds <+: body
  isDigits : IsDigits ds
  holds : P (denoted negative ds)
  earlier {es : List Char} (h : es <+: ds) (hne : es ≠ ds) : ¬ P (denoted negative es)

/-- The text denotes the value: it is at most one sign, then one or more digits. -/
def Denotes (s : List Char) (v : Int64) : Prop :=
  ∃ negative ds, Signed s negative ds ∧ ds ≠ [] ∧ IsDigits ds ∧ v.toInt = denoted negative ds

/-- The text is a sign that stands alone, or a character after its sign is no digit, and the digits before
the first such character denote a value that is in range. -/
inductive HasInvalidDigit (s : List Char) : Prop
  | loneSign {negative : Bool} (h : Signed s negative []) (hne : s ≠ [])
  | nonDigit {negative : Bool} {ds rest : List Char} {c : Char} (h : Signed s negative (ds ++ c :: rest))
      (hds : IsDigits ds) (hc : c.isDigit = false) (hrange : InRange (denoted negative ds))

def IsTooLarge (s : List Char) : Prop :=
  ∃ body ds, Signed s false body ∧ First (0x7FFFFFFFFFFFFFFF < ·) false body ds

def IsTooSmall (s : List Char) : Prop :=
  ∃ body ds, Signed s true body ∧ First (· < -0x8000000000000000) true body ds

/-- What reading a text as an integer has to come to. -/
def Reads (s : List Char) : Except Error Int64 → Prop
  | .ok v => Denotes s v
  | .error .empty => s = []
  | .error .invalidDigit => HasInvalidDigit s
  | .error .tooLarge => IsTooLarge s
  | .error .tooSmall => IsTooSmall s

/-! ### Digits and values -/

theorem digit?_of_isDigit {c : Char} (h : c.isDigit = true) :
    digit? c = some (c.toNat - '0'.toNat) := by
  simp only [Char.isDigit, Bool.and_eq_true, decide_eq_true_eq] at h
  exact if_pos h

theorem digit?_of_not_isDigit {c : Char} (h : c.isDigit = false) : digit? c = none := by
  simp only [Char.isDigit, Bool.and_eq_false_iff, decide_eq_false_iff_not] at h
  exact if_neg fun hc => h.elim (absurd hc.1) (absurd hc.2)

theorem denoted_nil (negative : Bool) : denoted negative [] = 0 := by
  cases negative <;> rfl

theorem denoted_concat (negative : Bool) (ds : List Char) (c : Char) :
    denoted negative (ds ++ [c]) = extend negative (denoted negative ds) (c.toNat - '0'.toNat) := by
  unfold denoted extend
  rw [Nat.ofDigitChars_append, Nat.ofDigitChars_cons, Nat.ofDigitChars_nil]
  split <;> omega

theorem denoted_nonneg (ds : List Char) : 0 ≤ denoted false ds := Int.natCast_nonneg _

theorem denoted_nonpos (ds : List Char) : denoted true ds ≤ 0 :=
  Int.neg_nonpos_of_nonneg (Int.natCast_nonneg _)

theorem inRange_toInt (v : Int64) : InRange v.toInt := ⟨v.le_toInt, Int.le_of_lt_add_one v.toInt_lt⟩

/-- A value that is in range is in range without its last digits. -/
theorem InRange.of_append {negative : Bool} {ds es : List Char}
    (h : InRange (denoted negative (ds ++ es))) : InRange (denoted negative ds) := by
  have hle : Nat.ofDigitChars 10 ds 0 ≤ Nat.ofDigitChars 10 (ds ++ es) 0 := by
    rw [Nat.ofDigitChars_append, Nat.ofDigitChars_eq_ofDigitChars_zero (l := es)]
    have hpos : 0 < 10 ^ es.length := Nat.pow_pos (Nat.succ_pos 9)
    exact Nat.le_add_right_of_le (Nat.le_mul_of_pos_left _ hpos)
  cases negative with
  | false =>
      simp only [InRange, denoted, Bool.false_eq_true, ↓reduceIte] at h ⊢
      omega
  | true =>
      simp only [InRange, denoted, ↓reduceIte] at h ⊢
      omega

theorem inRange_of_inRange {v : Int} (h : InRange v) : ∃ w, inRange v = .ok w ∧ w.toInt = v := by
  obtain ⟨hmin, hmax⟩ := h
  have hlow : ¬ v < Int64.minValue.toInt := Int.not_lt.mpr hmin
  have hhigh : ¬ Int64.maxValue.toInt < v := Int.not_lt.mpr hmax
  refine ⟨Int64.ofInt v, ?_, Int64.toInt_ofInt_of_le hmin (Int.lt_add_one_of_le hmax)⟩
  rw [inRange, if_neg hlow, if_neg hhigh]

theorem inRange_of_lt {v : Int} (h : v < -0x8000000000000000) : inRange v = .error .tooSmall :=
  if_pos h

theorem inRange_of_gt {v : Int} (h : 0x7FFFFFFFFFFFFFFF < v) : inRange v = .error .tooLarge := by
  have hlow : ¬ v < Int64.minValue.toInt := by
    have : Int64.minValue.toInt = -0x8000000000000000 := rfl
    omega
  rw [inRange, if_neg hlow]
  exact if_pos h

/-! ### Reading digits -/

/-- What reading digits has to come to, on all that follows the sign. -/
inductive ReadsBody (negative : Bool) (body : List Char) : Except Error Int64 → Prop
  | integer {v : Int64} (hds : IsDigits body) (hv : v.toInt = denoted negative body) :
      ReadsBody negative body (.ok v)
  | nonDigit {ds rest : List Char} {c : Char} (hbody : body = ds ++ c :: rest) (hds : IsDigits ds)
      (hc : c.isDigit = false) (hrange : InRange (denoted negative ds)) :
      ReadsBody negative body (.error .invalidDigit)
  | tooLarge {ds : List Char} (hn : negative = false)
      (h : First (0x7FFFFFFFFFFFFFFF < ·) negative body ds) : ReadsBody negative body (.error .tooLarge)
  | tooSmall {ds : List Char} (hn : negative = true)
      (h : First (· < -0x8000000000000000) negative body ds) : ReadsBody negative body (.error .tooSmall)

/-- If the value was in range before the last digit, then that digit is the first to take it out of range. -/
theorem first_concat {P : Int → Prop} {negative : Bool} (ds : List Char) (c : Char) (rest : List Char)
    (hds : IsDigits (ds ++ [c])) (hP : P (denoted negative (ds ++ [c])))
    (hrange : InRange (denoted negative ds)) (hnot : ∀ {v}, InRange v → ¬ P v) :
    First P negative (ds ++ c :: rest) (ds ++ [c]) where
  start := ⟨rest, by rw [List.append_assoc]; rfl⟩
  isDigits := hds
  holds := hP
  earlier := by
    intro es hes hne
    obtain ⟨fs, rfl⟩ := (List.prefix_concat_iff.mp hes).resolve_left hne
    exact hnot hrange.of_append

theorem isDigits_concat {ds : List Char} {c : Char} (hds : IsDigits ds) (hc : c.isDigit = true) :
    IsDigits (ds ++ [c]) := by
  intro d hd
  rcases List.mem_append.mp hd with hd | hd
  · exact hds d hd
  · rw [List.mem_singleton.mp hd]
    exact hc

theorem readsBody_readDigits {negative : Bool} {ds : List Char} {v : Int64} (hds : IsDigits ds)
    (hv : v.toInt = denoted negative ds) (cs : List Char) :
    ReadsBody negative (ds ++ cs) (readDigits negative v cs) := by
  -- The induction is on what is still to be read; the digits before it have the value `v`.
  induction cs generalizing ds v with
  | nil =>
      rw [List.append_nil]
      exact .integer hds hv
  | cons c cs ih =>
      have hrange : InRange (denoted negative ds) := hv ▸ inRange_toInt v
      cases hc : c.isDigit with
      | false =>
          rw [readDigits, digit?_of_not_isDigit hc]
          exact .nonDigit rfl hds hc hrange
      | true =>
          have hdigits := isDigits_concat hds hc
          have hextend := denoted_concat negative ds c
          rw [← hv] at hextend
          simp only [readDigits, digit?_of_isDigit hc, ← hextend]
          by_cases hlow : denoted negative (ds ++ [c]) < -0x8000000000000000
          · rw [inRange_of_lt hlow]
            cases negative with
            | false => exact absurd (denoted_nonneg (ds ++ [c])) (by omega)
            | true => exact .tooSmall rfl (first_concat _ _ _ hdigits hlow hrange fun h => Int.not_lt.mpr h.1)
          by_cases hhigh : 0x7FFFFFFFFFFFFFFF < denoted negative (ds ++ [c])
          · rw [inRange_of_gt hhigh]
            cases negative with
            | false => exact .tooLarge rfl (first_concat _ _ _ hdigits hhigh hrange fun h => Int.not_lt.mpr h.2)
            | true => exact absurd (denoted_nonpos (ds ++ [c])) (by omega)
          obtain ⟨w, hw, htoInt⟩ := inRange_of_inRange ⟨Int.not_lt.mp hlow, Int.not_lt.mp hhigh⟩
          rw [hw, List.append_cons]
          exact ih hdigits htoInt

/-- Digits whose value is in range are read one after another. -/
theorem readDigits_append {negative : Bool} {ds es : List Char} {v : Int64}
    (hv : v.toInt = denoted negative ds) (hes : IsDigits es)
    (hrange : InRange (denoted negative (ds ++ es))) (rest : List Char) :
    ∃ w : Int64, w.toInt = denoted negative (ds ++ es) ∧
      readDigits negative v (es ++ rest) = readDigits negative w rest := by
  induction es generalizing ds v with
  | nil => exact ⟨v, by rw [hv, List.append_nil], rfl⟩
  | cons c es ih =>
      have hc : c.isDigit = true := hes c List.mem_cons_self
      rw [List.append_cons] at hrange ⊢
      obtain ⟨w, hw, htoInt⟩ := inRange_of_inRange hrange.of_append
      obtain ⟨u, hu, hread⟩ := ih htoInt (fun d hd => hes d (List.mem_cons_of_mem c hd)) hrange
      refine ⟨u, hu, ?_⟩
      rw [denoted_concat, ← hv] at hw
      simp only [List.cons_append, readDigits, digit?_of_isDigit hc, hw, hread]

theorem First.ne_nil {P : Int → Prop} {negative : Bool} {body ds : List Char}
    (h : First P negative body ds) (h0 : ¬ P 0) : ds ≠ [] := by
  rintro rfl
  exact h0 (denoted_nil negative ▸ h.holds)

theorem First.readDigits_eq {P : Int → Prop} {negative : Bool} {body ds : List Char} {e : Error}
    (h : First P negative body ds) (h0 : ¬ P 0)
    (hrange : ∀ {es : List Char}, ¬ P (denoted negative es) → InRange (denoted negative es))
    (hP : ∀ {v : Int}, P v → inRange v = .error e) : readDigits negative 0 body = .error e := by
  obtain ⟨es, c, rfl⟩ := (List.eq_nil_or_concat' ds).resolve_left (h.ne_nil h0)
  obtain ⟨rest, rfl⟩ := h.start
  have hes : ¬ P (denoted negative es) :=
    h.earlier (List.prefix_append es [c]) (by simp)
  have hc : c.isDigit = true := h.isDigits c (by simp)
  obtain ⟨w, hw, hread⟩ := readDigits_append (v := 0) (denoted_nil negative).symm
    (fun d hd => h.isDigits d (List.mem_append_left _ hd)) (hrange hes) (c :: rest)
  have hextend := denoted_concat negative es c
  rw [List.nil_append] at hw
  rw [← hw] at hextend
  rw [List.append_assoc, List.singleton_append, hread]
  simp only [readDigits, digit?_of_isDigit hc, ← hextend, hP h.holds]

theorem ReadsBody.readDigits_eq {negative : Bool} {body : List Char} {r : Except Error Int64}
    (h : ReadsBody negative body r) : readDigits negative 0 body = r := by
  have h0 : (0 : Int64).toInt = denoted negative [] := (denoted_nil negative).symm
  cases h with
  | @integer v hds hv =>
      obtain ⟨w, hw, hread⟩ := readDigits_append h0 hds (hv ▸ inRange_toInt v) []
      rw [List.append_nil] at hread
      rw [hread, readDigits, Int64.toInt_inj.mp (hw.trans hv.symm)]
  | nonDigit hbody hds hc hrange =>
      obtain ⟨w, -, hread⟩ := readDigits_append h0 hds hrange _
      rw [hbody, hread, readDigits, digit?_of_not_isDigit hc]
  | tooLarge hn h =>
      subst hn
      refine h.readDigits_eq (by decide) (fun {es} hes => ?_) inRange_of_gt
      have := denoted_nonneg es
      exact ⟨by omega, Int.not_lt.mp hes⟩
  | tooSmall hn h =>
      subst hn
      refine h.readDigits_eq (by decide) (fun {es} hes => ?_) inRange_of_lt
      have := denoted_nonpos es
      exact ⟨Int.not_lt.mp hes, by omega⟩

/-! ### Reading signs -/

theorem exists_signed (s : List Char) : ∃ negative body, Signed s negative body := by
  by_cases hplus : s.head? = some '+'
  · obtain ⟨body, rfl⟩ := List.head?_eq_some_iff.mp hplus
    exact ⟨false, body, .plus body⟩
  by_cases hminus : s.head? = some '-'
  · obtain ⟨body, rfl⟩ := List.head?_eq_some_iff.mp hminus
    exact ⟨true, body, .minus body⟩
  · exact ⟨false, s, .unsigned hplus hminus⟩

theorem Signed.parse_eq {s body : List Char} {negative : Bool} (h : Signed s negative body)
    (hne : body ≠ []) : parse s = readDigits negative 0 body := by
  obtain ⟨c, cs, rfl⟩ := List.exists_cons_of_ne_nil hne
  cases h with
  | plus => rfl
  | minus => rfl
  | unsigned hplus hminus =>
      rw [List.head?_cons, ne_eq, Option.some.injEq] at hplus hminus
      simp [parse, hplus, hminus]

theorem Signed.parse_eq_invalidDigit {s : List Char} {negative : Bool} (h : Signed s negative [])
    (hne : s ≠ []) : parse s = .error .invalidDigit := by
  cases h with
  | plus => rfl
  | minus => rfl
  | unsigned => exact absurd rfl hne

theorem First.parse_eq {P : Int → Prop} {negative : Bool} {s body ds : List Char}
    (h : First P negative body ds) (h0 : ¬ P 0) (hs : Signed s negative body) :
    parse s = readDigits negative 0 body :=
  hs.parse_eq fun hnil => h.ne_nil h0 (List.prefix_nil.mp (hnil ▸ h.start))

theorem Reads.parse_eq {s : List Char} {r : Except Error Int64} (h : Reads s r) : parse s = r := by
  match r with
  | .ok v =>
      obtain ⟨negative, ds, hs, hne, hds, hv⟩ := h
      rw [hs.parse_eq hne]
      exact ReadsBody.readDigits_eq (.integer hds hv)
  | .error .empty =>
      have hs : s = [] := h
      rw [hs]
      rfl
  | .error .invalidDigit =>
      cases h with
      | loneSign hs hne => exact hs.parse_eq_invalidDigit hne
      | nonDigit hs hds hc hrange =>
          rw [hs.parse_eq (List.append_ne_nil_of_right_ne_nil _ (List.cons_ne_nil _ _))]
          exact ReadsBody.readDigits_eq (.nonDigit rfl hds hc hrange)
  | .error .tooLarge =>
      obtain ⟨body, ds, hs, hfirst⟩ := h
      rw [hfirst.parse_eq (by decide) hs]
      exact ReadsBody.readDigits_eq (.tooLarge rfl hfirst)
  | .error .tooSmall =>
      obtain ⟨body, ds, hs, hfirst⟩ := h
      rw [hfirst.parse_eq (by decide) hs]
      exact ReadsBody.readDigits_eq (.tooSmall rfl hfirst)

theorem reads_parse (s : List Char) : Reads s (parse s) := by
  obtain ⟨negative, body, hs⟩ := exists_signed s
  by_cases hbody : body = []
  · subst hbody
    by_cases hnil : s = []
    · subst hnil
      exact Eq.refl []
    · rw [hs.parse_eq_invalidDigit hnil]
      exact .loneSign hs hnil
  · rw [hs.parse_eq hbody]
    have hdigits : IsDigits [] := nofun
    have hzero : (0 : Int64).toInt = denoted negative [] := (denoted_nil negative).symm
    have h := readsBody_readDigits hdigits hzero body
    rw [List.nil_append] at h
    generalize readDigits negative 0 body = r at h
    cases h with
    | integer hds hv => exact ⟨negative, body, hs, hbody, hds, hv⟩
    | nonDigit h hds hc hrange => exact .nonDigit (h ▸ hs) hds hc hrange
    | tooLarge hn h =>
        subst hn
        exact ⟨body, _, hs, h⟩
    | tooSmall hn h =>
        subst hn
        exact ⟨body, _, hs, h⟩

/-- The parser accepts the grammar and nothing else, and names the first problem that there is. -/
theorem parse_eq_iff {s : List Char} {r : Except Error Int64} : parse s = r ↔ Reads s r := by
  constructor
  · rintro rfl
    exact reads_parse s
  · exact Reads.parse_eq

theorem parse_eq_ok_iff {s : List Char} {v : Int64} : parse s = .ok v ↔ Denotes s v := parse_eq_iff

end Text.Decimal

/-! ## Lines -/

theorem Text.Utf8.encode_ne_nil {t : List Char} (h : t ≠ []) : encode t ≠ [] := by
  intro hnil
  have hdecode := decode?_encode t
  rw [hnil] at hdecode
  exact h (Option.some.inj (hdecode.symm.trans (decode?_encode [])))

section

variable {σ : Type} {f : Responder σ} {t : σ}

namespace Attempt

/-- Once it has asked for a line, reading an integer comes to what the answer holds. -/
theorem run_readInteger_of_asked {o : Options} {u : σ}
    (h : ⟨.readLine, t⟩ ∈ (readInteger o).run.asked f u) :
    (readInteger o).run.run f u = (integerOf (f .readLine t).1, (f .readLine t).2) := by
  have hreads : ⟨.readLine, t⟩ ∈ (readInteger o).run.reads f u :=
    List.mem_filter.mpr ⟨h, decide_eq_true trivial⟩
  rw [readInteger_eq, reads_bind, reads_flush, List.nil_append] at hreads
  rw [readInteger_eq, run_bind]
  generalize (flush o).run.run f u = x at hreads ⊢
  obtain ⟨e | _, v⟩ := x
  · cases hreads
  · simp only [reads_integerLine] at hreads
    cases List.mem_singleton.mp hreads
    simp only [run_integerLine, Dialogue.run_map]
    rfl

theorem integerOf_line {line s : List Char} (hne : line ≠ []) (hs : Trims line s) :
    integerOf (.ok (Utf8.encode line)) = (Decimal.parse s).mapError .notAnInteger := by
  obtain ⟨b, bs, hcons⟩ := List.exists_cons_of_ne_nil (Utf8.encode_ne_nil hne)
  have hdecode := Utf8.decode?_encode line
  rw [hcons] at hdecode ⊢
  simp only [integerOf, hdecode, hs.trim_eq]

end Attempt

/-- What an instruction that asks for a number, `&` or `/`, comes to on what it has read. A quotient that
cannot be read is zero. -/
def Machine.withInteger (m : Machine) (r : Except Fault Int64) : Except StepError Progress × Machine :=
  let i := Instruction.decode m.fetch
  let rest := m.stack.drop i.arity
  match r with
  | .ok v => (.ok .running, (m.withStack (rest.push v)).advance)
  | .error e =>
    if m.options.strictStreams then (.error (.crash (m.report e)), m.faulted i)
    else
      let v := if i = .divide then (0, m.generator) else m.failedRead
      (.ok .running, { m with stack := rest.push v.1, generator := v.2 }.advance)

/-- What is left of a failed attempt after its recovery: nothing, or `substitute` in place of a value. -/
def Attempt.recovered (o : Options) (substitute : Option Int64) :
    Except Fault Int64 → Except Fault (Option Int64)
  | .ok v => .ok (some v)
  | .error e => if o.strictStreams then .error e else .ok substitute

theorem Attempt.fst_run_recover (o : Options) (event : Fault → Event) (a : Attempt Int64) (s : σ) :
    ((recover o event a).run.run f s).1 = recovered o none (a.run.run f s).1 := by
  rw [run_recover]
  obtain ⟨e | v, u⟩ := a.run.run f s
  · by_cases hs : o.strictStreams = true
    · simp only [recovered, hs, ↓reduceIte]
    · simp only [recovered, hs, Bool.false_eq_true, ↓reduceIte]
  · rfl

/-- A quotient is asked for by reading an integer, and is zero if that fails. -/
theorem Attempt.askQuotient_of_reads {o : Options} {b : Int64} {s : σ}
    (h : ⟨.readLine, t⟩ ∈ (askQuotient o b).run.reads f s) :
    ∃ u, ⟨.readLine, t⟩ ∈ (readInteger o).run.asked f u ∧
      ((some <$> askQuotient o b).run.run f s).1 =
        recovered o (some 0) ((readInteger o).run.run f u).1 := by
  rw [askQuotient, reads_bind, reads_prompt, List.nil_append] at h
  rw [askQuotient, ExceptT.run_map, Dialogue.run_map, run_bind]
  generalize (prompt o b).run.run f s = y at h ⊢
  obtain ⟨e | _, u⟩ := y
  · cases h
  · simp only [bind_pure_comp, reads_map, reads_recover] at h
    refine ⟨u, (List.mem_filter.mp h).1, ?_⟩
    simp only [bind_pure_comp, ExceptT.run_map, Dialogue.run_map, fst_run_recover]
    generalize ((readInteger o).run.run f u).1 = r
    cases r with
    | ok v => rfl
    | error e =>
        by_cases hs : o.strictStreams = true
        · simp only [recovered, hs, ↓reduceIte]
          rfl
        · simp only [recovered, hs, Bool.false_eq_true, ↓reduceIte]
          rfl

theorem Program.consult_divide_of_reads {p : Program} {peek : Nat → Int64} {s : σ}
    (h : ⟨.readLine, t⟩ ∈ (p.consult peek .divide).run.reads f s) :
    ∃ u, ⟨.readLine, t⟩ ∈ (Attempt.readInteger p.options).run.asked f u ∧
      ((p.consult peek .divide).run.run f s).1 =
        Attempt.recovered p.options (some 0) ((Attempt.readInteger p.options).run.run f u).1 := by
  rw [consult, Attempt.reads_map] at h
  rw [consult]
  by_cases h0 : peek 0 ≠ 0
  · rw [Attempt.quotient, if_pos h0] at h
    cases h
  by_cases hs : p.options.strictDivision = true
  · rw [Attempt.quotient, if_neg h0, if_pos hs] at h
    cases h
  rw [Attempt.quotient, if_neg h0, if_neg hs] at h ⊢
  exact Attempt.askQuotient_of_reads h

namespace Process

variable {x : Process σ}

theorem step_of_recovered {i : Instruction} (hd : x.machine.Dispatches)
    (hi : Instruction.decode x.machine.fetch = i) {r : Except Fault Int64}
    {substitute : Option Int64}
    (hi' : i = .readInteger ∧ substitute = none ∨ i = .divide ∧ substitute = some 0)
    (h : ((x.machine.program.consult x.machine.stack.peek i).run.run f
      (f (.note (.dispatched x.machine.pos i)) x.streams).2).1 =
        Attempt.recovered x.machine.options substitute r) :
    let y := x.step f
    (y.1, y.2.machine) = x.machine.withInteger r := by
  simp only [step_of_run_consult hd hi (Prod.ext h rfl), Machine.withInteger, hi]
  generalize (Dialogue.run f _ _).2 = u
  cases r with
  | ok v => rcases hi' with ⟨rfl, -⟩ | ⟨rfl, -⟩ <;> rfl
  | error e =>
      by_cases hs : x.machine.options.strictStreams = true
      · simp only [hs, ↓reduceIte, Machine.run_conclude_error]
      · simp only [hs, Bool.false_eq_true, ↓reduceIte]
        rcases hi' with ⟨rfl, rfl⟩ | ⟨rfl, rfl⟩ <;> rfl

/-- An instruction that asks for a line asks for a number. -/
theorem step_of_asked_line
    (hi : Instruction.decode x.machine.fetch = .readInteger ∨
      Instruction.decode x.machine.fetch = .divide)
    (h : ⟨.readLine, t⟩ ∈ x.machine.step.asked f x.streams) :
    ∃ u, ⟨.readLine, t⟩ ∈ (Attempt.readInteger x.machine.options).run.asked f u ∧
      let y := x.step f
      (y.1, y.2.machine) =
        x.machine.withInteger ((Attempt.readInteger x.machine.options).run.run f u).1 := by
  have hreads : ⟨.readLine, t⟩ ∈ x.machine.step.reads f x.streams :=
    List.mem_filter.mpr ⟨h, decide_eq_true trivial⟩
  by_cases hd : x.machine.Dispatches
  case neg =>
    rw [Machine.reads_step_of_not_dispatches hd] at hreads
    cases hreads
  rw [Machine.reads_step_of_dispatches hd] at hreads
  rcases hi with hi | hi
  · rw [hi, Program.consult, Attempt.reads_recover] at hreads
    exact ⟨_, (List.mem_filter.mp hreads).1,
      step_of_recovered hd hi (.inl ⟨rfl, rfl⟩) (Attempt.fst_run_recover _ _ _ _)⟩
  · rw [hi] at hreads
    obtain ⟨u, hu, hrun⟩ := Program.consult_divide_of_reads hreads
    exact ⟨u, hu, step_of_recovered hd hi (.inr ⟨rfl, rfl⟩) hrun⟩

end Process

end

/-- Integer input accepts exactly its grammar: a line gives `v` if its text without the blanks at its
ends is at most one sign and then digits that denote `v`, and fails at the first problem from the left.
That is what `&`, or `/` by zero, pushes or faults with when it is answered with this line. -/
theorem Process.integer_input_follows_grammar {σ : Type} (f : Responder σ) {t : σ}
    {line s : List Char} (hline : (f .readLine t).1 = .ok (Utf8.encode line)) (hne : line ≠ [])
    (hs : Trims line s) :
    (∀ (o : Options) (u : σ), ⟨.readLine, t⟩ ∈ (Attempt.readInteger o).run.asked f u →
      let r := ((Attempt.readInteger o).run.run f u).1
      (∀ v, r = .ok v ↔ Decimal.Denotes s v) ∧
      (r = .error (.notAnInteger .empty) ↔ s = []) ∧
      (r = .error (.notAnInteger .invalidDigit) ↔ Decimal.HasInvalidDigit s) ∧
      (r = .error (.notAnInteger .tooLarge) ↔ Decimal.IsTooLarge s) ∧
      (r = .error (.notAnInteger .tooSmall) ↔ Decimal.IsTooSmall s)) ∧
    ∀ x : Process σ, ⟨.readLine, t⟩ ∈ x.machine.step.asked f x.streams →
      (Instruction.decode x.machine.fetch = .readInteger ∨
        Instruction.decode x.machine.fetch = .divide) →
      ∃ u, ⟨.readLine, t⟩ ∈ (Attempt.readInteger x.machine.options).run.asked f u ∧
        let y := x.step f
        (y.1, y.2.machine) =
          x.machine.withInteger ((Attempt.readInteger x.machine.options).run.run f u).1 := by
  refine ⟨fun o u hu => ?_, fun x hx hi => step_of_asked_line hi hx⟩
  have hread : ((Attempt.readInteger o).run.run f u).1 =
      (Decimal.parse s).mapError .notAnInteger := by
    rw [Attempt.run_readInteger_of_asked hu, hline]
    exact Attempt.integerOf_line hne hs
  have hiff : ∀ r, ((Attempt.readInteger o).run.run f u).1 = r.mapError .notAnInteger ↔
      Decimal.Reads s r := by
    intro r
    rw [hread, ← Decimal.parse_eq_iff]
    cases Decimal.parse s <;> cases r <;> simp [Except.mapError]
  exact ⟨fun v => hiff (.ok v), hiff (.error .empty), hiff (.error .invalidDigit),
    hiff (.error .tooLarge), hiff (.error .tooSmall)⟩

/-- A line that starts with a blank of two bytes. What is wrong with the number on it is its last digit, not
the letter after it. -/
theorem Process.integer_input_follows_grammar_tooLarge :
    let s := "+9223372036854775808x".toList
    let line := '\u00A0' :: s ++ ['\n']
    let o : Options := { strictStreams := true }
    ∃ x : Process Console, x = start ⟨.ofRows 80 25 ["&@".toList], o⟩ 1
        { input := [.bytes (Utf8.encode line)] } ∧
      Trims line s ∧ Decimal.IsTooLarge s ∧
      ((Attempt.readInteger o).run.run Console.answer x.streams).1 =
        .error (.notAnInteger .tooLarge) ∧
      (x.step Console.answer).1 = .error (.crash {
        message := "invalid integer input: number too large to fit in target type"
        cause := .notAnInteger .tooLarge
        pos := ⟨0, 0⟩
        program := x.machine.program }) := by
  intro s line o
  obtain ⟨x, hx⟩ : ∃ x : Process Console, x = start ⟨.ofRows 80 25 ["&@".toList], o⟩ 1
    { input := [.bytes (Utf8.encode line)] } := ⟨_, rfl⟩
  have hs : Trims line s :=
    ⟨⟨['\u00A0'], ['\n'], rfl, List.forall_mem_singleton.mpr rfl, List.forall_mem_singleton.mpr rfl⟩,
      by rintro _ ⟨⟩; decide, by rintro _ ⟨⟩; decide⟩
  have hlarge : Decimal.IsTooLarge s :=
    ⟨_, _, .plus _, Decimal.first_concat "922337203685477580".toList '8' ['x']
      (by decide) (by decide) (by decide) fun h => Int.not_lt.mpr h.2⟩
  have hi : Instruction.decode x.machine.fetch = .readInteger := by
    rw [hx]
    decide +kernel
  have hd : x.machine.Dispatches := by
    rw [hx]
    exact ⟨rfl, nofun⟩
  have hread : ⟨.readLine, (Console.answer (.flush .output) x.streams).2⟩ ∈
      (Attempt.readInteger o).run.asked Console.answer x.streams := by
    rw [hx]
    exact List.mem_cons_of_mem _ List.mem_cons_self
  have hasked : ⟨.readLine, (Console.answer (.flush .output) x.streams).2⟩ ∈
      x.machine.step.reads Console.answer x.streams := by
    have ho : x.machine.program.options = o := by rw [hx]; rfl
    have hnote : (Console.answer (.note (.dispatched x.machine.pos .readInteger)) x.streams).2 =
        x.streams := by rw [hx]; rfl
    rw [Machine.reads_step_of_dispatches hd, hi, Program.consult, Attempt.reads_recover, ho, hnote]
    exact List.mem_filter.mpr ⟨hread, decide_eq_true trivial⟩
  have hline : (Console.answer .readLine (Console.answer (.flush .output) x.streams).2).1 =
      .ok (Utf8.encode line) := by
    rw [hx]
    decide +kernel
  obtain ⟨hgrammar, hstep⟩ :=
    integer_input_follows_grammar Console.answer hline (List.cons_ne_nil _ _) hs
  obtain ⟨u, hu, hy⟩ := hstep x (List.mem_filter.mp hasked).1 (.inl hi)
  refine ⟨x, hx, hs, hlarge, (hgrammar o x.streams hread).2.2.2.1.mpr hlarge, ?_⟩
  rw [(hgrammar _ u hu).2.2.2.1.mpr hlarge] at hy
  refine (congrArg Prod.fst hy).trans ?_
  have hstrict : x.machine.options.strictStreams = true := by rw [hx]; rfl
  have hpos : x.machine.pos = ⟨0, 0⟩ := by rw [hx]; rfl
  have hmessage : (Fault.notAnInteger .tooLarge).message =
      "invalid integer input: number too large to fit in target type" := by decide +kernel
  simp only [Machine.withInteger, hstrict, ↓reduceIte, Machine.report, hmessage, hpos]

end Befunge
