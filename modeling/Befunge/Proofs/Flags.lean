import Befunge.CommandLine
import Befunge.Proofs.Building

/-!
# What the arguments say

Which options an invocation has, read off its arguments: a switch is on if its flag stands among the
arguments before `--`, and a setting has the value that stands after its flag, in the next argument or
behind an equals sign.
-/

namespace Befunge

open Text

namespace CommandLine

/-- The arguments that may be options. -/
def optionArgs (args : List String) : List String := args.takeWhile (· ≠ "--")

/-- The flag of a setting with its value in the same argument. -/
def Setting.joined (s : Setting) (text : List Char) : String :=
  String.ofList (s.flag.toList ++ '=' :: text)

/-- The setting is given the value, by two arguments or by one. -/
def Sets (args : List String) (s : Setting) (v : UInt64) : Prop :=
  ∃ text : List Char, Decimal.parseUnsigned? text = some v ∧
    ([s.flag, String.ofList text] <:+: optionArgs args ∨ s.joined text ∈ optionArgs args)

/-! ## Flags -/

theorem Switch.isOption_flag (s : Switch) : isOption s.flag = true := by cases s <;> rfl

theorem Setting.isOption_flag (s : Setting) : isOption s.flag = true := by cases s <;> rfl

theorem Setting.isOption_joined (s : Setting) (text : List Char) :
    isOption (s.joined text) = true := by
  cases s <;> simp [isOption, joined, flag]

theorem Switch.flag_ne_end (s : Switch) : s.flag ≠ "--" := by cases s <;> decide

theorem Setting.flag_ne_end (s : Setting) : s.flag ≠ "--" := by cases s <;> decide

theorem Switch.notMem_flag (s : Switch) : '=' ∉ s.flag.toList := by cases s <;> decide

theorem Setting.notMem_flag (s : Setting) : '=' ∉ s.flag.toList := by cases s <;> decide

theorem Switch.flag_ne_setting (s : Switch) (t : Setting) : s.flag ≠ t.flag := by
  cases s <;> cases t <;> decide

theorem Switch.ofFlag?_eq_some_iff {arg : String} {s : Switch} :
    ofFlag? arg = some s ↔ s.flag = arg := by
  constructor
  · intro h
    simpa using List.find?_some h
  · rintro rfl
    cases s <;> rfl

theorem Setting.ofFlag?_eq_some_iff {arg : String} {s : Setting} :
    ofFlag? arg = some s ↔ s.flag = arg := by
  constructor
  · intro h
    simpa using List.find?_some h
  · rintro rfl
    cases s <;> rfl

theorem Switch.flag_inj {s t : Switch} : s.flag = t.flag ↔ s = t := by
  rw [← ofFlag?_eq_some_iff, ofFlag?_eq_some_iff.mpr rfl, Option.some_inj, eq_comm]

theorem Setting.flag_inj {s t : Setting} : s.flag = t.flag ↔ s = t := by
  rw [← ofFlag?_eq_some_iff, ofFlag?_eq_some_iff.mpr rfl, Option.some_inj, eq_comm]

theorem Setting.joined_ne {s : Setting} {text : List Char} {arg : String} (h : '=' ∉ arg.toList) :
    s.joined text ≠ arg := by
  rintro rfl
  simp [joined] at h

/-- An argument with an equals sign is put together again from what it is split into. -/
theorem eq_of_splitValue_some {arg name : String} {text : List Char}
    (h : splitValue arg = (name, some text)) :
    arg = String.ofList (name.toList ++ '=' :: text) := by
  have hsplit := List.takeWhile_append_dropWhile (p := (· != '=')) (l := arg.toList)
  simp only [splitValue] at h
  generalize hdrop : arg.toList.dropWhile (· != '=') = rest at h hsplit
  cases rest with
  | nil => cases h
  | cons c rest =>
      cases h
      have hc := List.head?_dropWhile_not (· != '=') arg.toList
      obtain rfl : c = '=' := by simpa [hdrop] using hc
      rw [String.toList_ofList, hsplit, String.ofList_toList]

theorem eq_of_splitValue_none {arg name : String} (h : splitValue arg = (name, none)) :
    name = arg := by
  have hsplit := List.takeWhile_append_dropWhile (p := (· != '=')) (l := arg.toList)
  simp only [splitValue] at h
  generalize arg.toList.dropWhile (· != '=') = rest at h hsplit
  cases rest with
  | nil =>
      cases h
      rw [List.append_nil] at hsplit
      rw [hsplit, String.ofList_toList]
  | cons c rest => cases h

theorem Setting.splitValue_joined (s : Setting) (text : List Char) :
    splitValue (s.joined text) = (s.flag, some text) := by
  have hflag : ∀ c ∈ s.flag.toList, (c != '=') = true := by
    intro c hc
    exact bne_iff_ne.mpr fun h => s.notMem_flag (h ▸ hc)
  simp only [splitValue, joined, String.toList_ofList, List.takeWhile_append_of_pos hflag,
    List.dropWhile_append_of_pos hflag]
  simp

theorem Setting.joined_inj {s t : Setting} {text text' : List Char} :
    s.joined text = t.joined text' ↔ s = t ∧ text = text' := by
  refine ⟨fun h => ?_, fun ⟨hs, htext⟩ => by rw [hs, htext]⟩
  have hsplit := congrArg splitValue h
  simpa only [splitValue_joined, Prod.mk.injEq, flag_inj, Option.some_inj] using hsplit

/-! ## Items -/

/-- The arguments, read from left to right, stand for the items. -/
inductive Spells : List String → List Item → Prop
  | nil : Spells [] []
  | files (names : List String) : Spells ("--" :: names) (names.map .file)
  | file {arg : String} {args : List String} {items : List Item} (harg : isOption arg = false)
      (h : Spells args items) : Spells (arg :: args) (.file arg :: items)
  | switch (s : Switch) {args : List String} {items : List Item} (h : Spells args items) :
      Spells (s.flag :: args) (.switch s :: items)
  | joined (s : Setting) {text : List Char} {v : UInt64} {args : List String} {items : List Item}
      (hv : Decimal.parseUnsigned? text = some v) (h : Spells args items) :
      Spells (s.joined text :: args) (.setting s v :: items)
  | apart (s : Setting) {text : List Char} {v : UInt64} {args : List String} {items : List Item}
      (htext : isOption (String.ofList text) = false)
      (hv : Decimal.parseUnsigned? text = some v) (h : Spells args items) :
      Spells (s.flag :: String.ofList text :: args) (.setting s v :: items)

theorem spells_of_items? {args : List String} {items : List Item} (h : items? args = some items) :
    Spells args items := by
  fun_induction items? args generalizing items with
  | case1 =>
      cases h
      exact .nil
  | case2 names =>
      cases h
      exact .files names
  | case3 arg args _ harg ih =>
      obtain ⟨items, hitems, rfl⟩ := Option.map_eq_some_iff.mp h
      exact .file (by simpa using harg) (ih hitems)
  | case4 arg args _ _ s hs ih =>
      obtain ⟨items, hitems, rfl⟩ := Option.map_eq_some_iff.mp h
      obtain rfl := Switch.ofFlag?_eq_some_iff.mp hs
      exact .switch s (ih hitems)
  | case5 arg args _ _ name text hsplit _ ih =>
      simp only [Option.bind_eq_bind, Option.bind_eq_some_iff, settingItem?,
        Option.map_eq_some_iff] at h
      obtain ⟨s, hs, _, ⟨v, hv, rfl⟩, items, hitems, rfl⟩ := h
      obtain rfl := Setting.ofFlag?_eq_some_iff.mp hs
      rw [eq_of_splitValue_some hsplit]
      exact .joined s hv (ih hitems)
  | case6 => cases h
  | case7 arg _ _ name hsplit _ value args ih =>
      obtain ⟨text, rfl⟩ : ∃ text, value = String.ofList text :=
        ⟨value.toList, String.ofList_toList.symm⟩
      simp only [Option.bind_eq_bind, Option.bind_eq_some_iff] at h
      obtain ⟨s, hs, h⟩ := h
      split at h
      · cases h
      rename_i htext
      simp only [Option.bind_eq_some_iff, settingItem?, Option.map_eq_some_iff,
        String.toList_ofList] at h
      obtain ⟨_, ⟨v, hv, rfl⟩, items, hitems, rfl⟩ := h
      obtain rfl := Setting.ofFlag?_eq_some_iff.mp hs
      obtain rfl := eq_of_splitValue_none hsplit
      exact .apart s (Bool.eq_false_iff.mpr htext) hv (ih hitems)

/-! ## Which options there are -/

section

variable {arg : String} {args : List String} {items : List Item} {s : Setting} {v : UInt64}

theorem ne_end_of_isOption (h : isOption arg = false) : arg ≠ "--" := by
  rintro rfl
  cases h

theorem Setting.joined_ne_end (s : Setting) (text : List Char) : s.joined text ≠ "--" :=
  joined_ne (by decide)

theorem optionArgs_cons (h : arg ≠ "--") : optionArgs (arg :: args) = arg :: optionArgs args := by
  simp [optionArgs, h]

theorem optionArgs_end : optionArgs ("--" :: args) = [] := rfl

theorem sets_cons (h : arg ≠ "--") :
    Sets (arg :: args) s v ↔
      (∃ text, Decimal.parseUnsigned? text = some v ∧
        (arg = s.flag ∧ [String.ofList text] <+: optionArgs args ∨ arg = s.joined text)) ∨
      Sets args s v := by
  simp only [Sets, optionArgs_cons h, List.infix_cons_iff, List.cons_prefix_cons, List.mem_cons,
    ← exists_or]
  refine exists_congr fun text => ?_
  rw [← and_or_left, or_or_or_comm, eq_comm (a := s.flag), eq_comm (a := s.joined text)]

theorem Spells.switch_mem_iff (h : Spells args items) (sw : Switch) :
    .switch sw ∈ items ↔ sw.flag ∈ optionArgs args := by
  induction h with
  | nil => simp [optionArgs]
  | files names => simp [optionArgs_end]
  | @file arg args items harg _ ih =>
      have hne : sw.flag ≠ arg := by
        rintro rfl
        rw [sw.isOption_flag] at harg
        cases harg
      simp [optionArgs_cons (ne_end_of_isOption harg), ih, hne]
  | switch s _ ih => simp [optionArgs_cons s.flag_ne_end, ih, Switch.flag_inj]
  | @joined s text v args items _ _ ih =>
      have hne : sw.flag ≠ s.joined text := (Setting.joined_ne sw.notMem_flag).symm
      simp [optionArgs_cons (s.joined_ne_end text), ih, hne]
  | @apart s text v args items htext _ _ ih =>
      have hne : sw.flag ≠ String.ofList text := by
        intro h
        rw [← h, sw.isOption_flag] at htext
        cases htext
      simp [optionArgs_cons s.flag_ne_end, optionArgs_cons (ne_end_of_isOption htext), ih, hne,
        sw.flag_ne_setting]

/-- An argument that is no option has no part in setting a value, other than being the value. -/
theorem sets_cons_of_isOption (h : isOption arg = false) : Sets (arg :: args) s v ↔ Sets args s v := by
  have hflag : arg ≠ s.flag := by
    rintro rfl
    rw [s.isOption_flag] at h
    cases h
  have hjoined : ∀ text, arg ≠ s.joined text := by
    rintro text rfl
    rw [s.isOption_joined] at h
    cases h
  simp [sets_cons (ne_end_of_isOption h), hflag, hjoined]

theorem Spells.setting_mem_iff (h : Spells args items) :
    .setting s v ∈ items ↔ Sets args s v := by
  induction h with
  | nil => simp [Sets, optionArgs]
  | files names => simp [Sets, optionArgs_end]
  | file harg _ ih => simp [sets_cons_of_isOption harg, ih]
  | switch sw _ ih =>
      have hjoined : ∀ text, sw.flag ≠ s.joined text :=
        fun text => (Setting.joined_ne sw.notMem_flag).symm
      simp [sets_cons sw.flag_ne_end, sw.flag_ne_setting, hjoined, ih]
  | @joined t text w args items hw _ ih =>
      have hflag : t.joined text ≠ s.flag := Setting.joined_ne s.notMem_flag
      have hnow : (∃ text', Decimal.parseUnsigned? text' = some v ∧
          (t.joined text = s.flag ∧ [String.ofList text'] <+: optionArgs args ∨
            t.joined text = s.joined text')) ↔ s = t ∧ v = w := by
        simp [hflag, Setting.joined_inj, hw, eq_comm, and_comm]
      rw [sets_cons (t.joined_ne_end text), hnow, List.mem_cons, Item.setting.injEq, ih]
  | @apart t text w args items htext hw _ ih =>
      have hjoined : ∀ text, t.flag ≠ s.joined text :=
        fun text => (Setting.joined_ne t.notMem_flag).symm
      have hnow : (∃ text', Decimal.parseUnsigned? text' = some v ∧
          (t.flag = s.flag ∧ [String.ofList text'] <+: String.ofList text :: optionArgs args ∨
            t.flag = s.joined text')) ↔ s = t ∧ v = w := by
        simp [hjoined, Setting.flag_inj, String.ofList_inj, hw, eq_comm, and_comm]
      rw [sets_cons t.flag_ne_end, optionArgs_cons (ne_end_of_isOption htext), hnow,
        sets_cons_of_isOption htext, List.mem_cons, Item.setting.injEq, ih]

theorem Spells.file_mem (h : Spells args items) {name : String} (hname : .file name ∈ items) :
    name ∈ args := by
  induction h with
  | nil => cases hname
  | files names => exact List.mem_cons_of_mem _ (by simpa using hname)
  | file _ _ ih => exact List.mem_cons.mpr ((List.mem_cons.mp hname).imp Item.file.inj ih)
  | switch _ _ ih => simpa using .inr (ih (by simpa using hname))
  | joined _ _ _ ih => simpa using .inr (ih (by simpa using hname))
  | apart _ _ _ _ ih => simpa using .inr (.inr (ih (by simpa using hname)))

/-- No setting is given twice, so that the first value is the only one. -/
theorem value?_eq_some_iff (h : (items.filterMap Item.flag?).Nodup) :
    value? items s = some v ↔ .setting s v ∈ items := by
  induction items with
  | nil => simp [value?]
  | cons item items ih =>
      cases item with
      | switch sw =>
          have hvalue : value? (.switch sw :: items) s = value? items s := rfl
          rw [hvalue, ih (List.nodup_cons.mp h).2]
          simp
      | file name =>
          have hvalue : value? (.file name :: items) s = value? items s := rfl
          rw [hvalue, ih h]
          simp
      | setting t w =>
          obtain ⟨hnot, hnodup⟩ := List.nodup_cons.mp h
          by_cases ht : t = s
          · subst ht
            have hvalue : value? (.setting t w :: items) t = some w := by simp [value?]
            have hlater : .setting t v ∉ items :=
              fun hmem => hnot (List.mem_filterMap.mpr ⟨_, hmem, rfl⟩)
            simp [hvalue, hlater, eq_comm]
          · have hvalue : value? (.setting t w :: items) s = value? items s := by
              simp [value?, ht]
            have hne : ¬ s = t := fun h => ht h.symm
            simp [hvalue, ih hnodup, hne]

end

end CommandLine

/-! ## Invocations -/

namespace Invocation

open CommandLine

/-- Whether the invocation has a switch on. -/
def isOn (inv : Invocation) : Switch → Bool
  | .undefinedReads => inv.options.undefinedReads
  | .ignoreUnknown => inv.options.ignoreUnknown
  | .anySize => inv.options.anySize
  | .unicode => inv.options.unicode
  | .strictDivision => inv.options.strictDivision
  | .strictStreams => inv.options.strictStreams
  | .strictBounds => inv.options.strictBounds
  | .printProgram => inv.printProgram

/-- The invocation is what its arguments say. -/
structure Obeys (inv : Invocation) (args : List String) : Prop where
  file_mem : inv.file ∈ args
  isOn_iff (s : Switch) : inv.isOn s = true ↔ s.flag ∈ optionArgs args
  seed_of_sets (v : UInt64) : Sets args .seed v → inv.options.seed = v
  seed_of_not_sets : (∀ v, ¬ Sets args .seed v) → inv.options.seed = 0
  maxSteps_iff (v : UInt64) : inv.maxSteps = some v ↔ Sets args .maxSteps v
  /-- There are no flags for the switches that are not supported. -/
  supported : inv.options.Supported

theorem obeys_of_parse? {args : List String} {inv : Invocation} (h : parse? args = some inv) :
    inv.Obeys args := by
  simp only [parse?, Option.bind_eq_bind, Option.bind_eq_some_iff] at h
  obtain ⟨items, hitems, h⟩ := h
  have hspells := spells_of_items? hitems
  split at h
  case h_2 => cases h
  rename_i file hfile
  split at h
  case isFalse => cases h
  rename_i hnodup
  cases h
  have hvalue : ∀ {s v}, value? items s = some v ↔ Sets args s v :=
    (value?_eq_some_iff hnodup).trans hspells.setting_mem_iff
  refine ⟨?_, fun s => ?_, ?_, ?_, ?_, ?_⟩
  · obtain ⟨item, hmem, hitem⟩ : ∃ item ∈ items, item.file? = some file :=
      List.mem_filterMap.mp (hfile ▸ List.mem_singleton_self file)
    cases item with
    | file name =>
        cases hitem
        exact hspells.file_mem hmem
    | switch s => cases hitem
    | setting s v => cases hitem
  · rw [← hspells.switch_mem_iff]
    cases s <;> exact List.contains_iff_mem
  · intro v hv
    simp only [optionsOf, hvalue.mpr hv, Option.getD_some]
  · intro hnot
    have hnone : value? items .seed = none :=
      Option.eq_none_iff_forall_ne_some.mpr fun v hv => hnot v (hvalue.mp hv)
    simp only [optionsOf, hnone, Option.getD_none]
  · intro v
    exact hvalue
  · exact ⟨rfl, rfl, rfl⟩

end Invocation

end Befunge
