import Befunge.Proofs.Requests
import Befunge.Proofs.Sinks
import Mathlib.Logic.Relation

/-!
# The make-up of an input

An input comes in pieces, and reads of it are interrupted now and then. A reader sees none of this: what
it gets are bytes, reported ends and failures, one item after another. Runs at inputs with the same items
are the same, and leave inputs with the same items.
-/

namespace Befunge

/-! ## Items -/

namespace Input

/-- What a reader gets of an input at one time. -/
inductive Item
  | byte (b : UInt8)
  | pause
  | failure (e : StreamError)
  deriving DecidableEq, Repr

def Part.items : Part → List Item
  | .bytes bs => bs.map .byte
  | .pause => [.pause]
  | .failure e => if e.kind = .interrupted then [] else [.failure e]

def items (i : Input) : List Item := i.flatMap Part.items

/-- The second input has one more cut, one more empty piece or one more interruption than the first. -/
inductive Recut : Input → Input → Prop
  | cut (before after : Input) (bs cs : List UInt8) :
      Recut (before ++ .bytes (bs ++ cs) :: after) (before ++ .bytes bs :: .bytes cs :: after)
  | empty (before after : Input) : Recut (before ++ after) (before ++ .bytes [] :: after)
  | interrupt (before after : Input) {e : StreamError} (h : e.kind = .interrupted) :
      Recut (before ++ after) (before ++ .failure e :: after)

/-- The inputs differ only in where their pieces are cut, in empty pieces and in interruptions. -/
def Alike : Input → Input → Prop := Relation.EqvGen Recut

@[simp] theorem items_cons (p : Part) (i : Input) : items (p :: i) = p.items ++ items i := rfl

@[simp] theorem items_append (i j : Input) : items (i ++ j) = items i ++ items j := by
  simp only [items, List.flatMap_append]

theorem Recut.items_eq {i j : Input} (h : Recut i j) : i.items = j.items := by
  cases h with
  | cut before after bs cs => simp [Part.items]
  | empty before after => simp [Part.items]
  | interrupt before after h => simp [Part.items, h]

theorem Alike.items_eq {i j : Input} (h : Alike i j) : i.items = j.items := by
  induction h with
  | rel i j h => exact h.items_eq
  | refl i => rfl
  | symm i j _ ih => exact ih.symm
  | trans i j k _ _ ih ih' => exact ih.trans ih'

theorem Recut.cons {i j : Input} (h : Recut i j) (p : Part) : Recut (p :: i) (p :: j) := by
  cases h with
  | cut before after bs cs => exact .cut (p :: before) after bs cs
  | empty before after => exact .empty (p :: before) after
  | interrupt before after h => exact .interrupt (p :: before) after h

theorem Alike.cons {i j : Input} (h : Alike i j) (p : Part) : Alike (p :: i) (p :: j) := by
  induction h with
  | rel i j h => exact .rel _ _ (h.cons p)
  | refl i => exact .refl _
  | symm i j _ ih => exact .symm _ _ ih
  | trans i j k _ _ ih ih' => exact .trans _ _ _ ih ih'

def Item.part : Item → Part
  | .byte b => .bytes [b]
  | .pause => .pause
  | .failure e => .failure e

theorem alike_bytes {i j : Input} (h : Alike i j) (bs : List UInt8) :
    Alike (.bytes bs :: i) (bs.map (fun b => .bytes [b]) ++ j) := by
  induction bs with
  | nil => exact .trans _ _ _ (.symm _ _ (.rel _ _ (.empty [] i))) h
  | cons b bs ih => exact .trans _ _ _ (.rel _ _ (.cut [] i [b] bs)) (ih.cons (.bytes [b]))

/-- Every input is alike to the one that has each of its items in a part of its own. -/
theorem alike_parts (i : Input) : Alike i (i.items.map Item.part) := by
  induction i with
  | nil => exact .refl _
  | cons p i ih =>
      rw [items_cons, List.map_append]
      cases p with
      | bytes bs =>
          rw [Part.items, List.map_map]
          exact alike_bytes ih bs
      | pause => exact ih.cons .pause
      | failure e =>
          by_cases h : e.kind = .interrupted
          · simp only [Part.items, h, ↓reduceIte, List.map_nil, List.nil_append]
            exact .trans _ _ _ (.symm _ _ (.rel _ _ (.interrupt [] i h))) ih
          · simp only [Part.items, h, ↓reduceIte]
            exact ih.cons (.failure e)

theorem alike_iff {i j : Input} : Alike i j ↔ i.items = j.items := by
  constructor
  · exact Alike.items_eq
  · intro h
    have hi := alike_parts i
    rw [h] at hi
    exact .trans _ _ _ hi (.symm _ _ (alike_parts j))

/-! ## Reading items -/

/-- Takes the next byte from a list of items. -/
def takeByte : List Item → Except StreamError (Option UInt8) × List Item
  | [] => (.ok none, [])
  | .byte b :: rest => (.ok (some b), rest)
  | .pause :: rest => (.ok none, rest)
  | .failure e :: rest => (.error e, rest)

/-- Takes the bytes up to and with the next line feed from a list of items. -/
def takeLine : List Item → Except StreamError (List UInt8) × List Item
  | [] => (.ok [], [])
  | .byte b :: rest =>
    if b = 10 then (.ok [b], rest) else ((takeLine rest).1.map (b :: ·), (takeLine rest).2)
  | .pause :: rest => (.ok [], rest)
  | .failure e :: rest => (.error e, rest)

theorem readByte_eq_takeByte (i : Input) :
    i.readByte.1 = (takeByte i.items).1 ∧ i.readByte.2.items = (takeByte i.items).2 := by
  fun_induction readByte i with
  | case1 => exact ⟨rfl, rfl⟩
  | case2 rest ih => exact ih
  | case3 b bs rest => exact ⟨rfl, rfl⟩
  | case4 rest => exact ⟨rfl, rfl⟩
  | case5 e rest h ih => simpa [Part.items, h] using ih
  | case6 e rest h => simp [Part.items, h, takeByte]

theorem takeLine_bytes (bs : List UInt8) (rest : List Item) :
    takeLine (bs.map .byte ++ rest) =
      match splitLine bs with
      | (line, some after) => (.ok line, after.map .byte ++ rest)
      | (line, none) => ((takeLine rest).1.map (line ++ ·), (takeLine rest).2) := by
  induction bs with
  | nil => cases h : (takeLine rest).1 <;> simp [splitLine, Except.map, ← h]
  | cons b bs ih =>
      simp only [List.map_cons, List.cons_append, takeLine, splitLine]
      split
      · rfl
      · rw [ih]
        rcases splitLine bs with ⟨line, _ | after⟩
        · cases (takeLine rest).1 <;> rfl
        · rfl

theorem readLine_eq_takeLine (i : Input) :
    i.readLine.1 = (takeLine i.items).1 ∧ i.readLine.2.items = (takeLine i.items).2 := by
  induction i with
  | nil => exact ⟨rfl, rfl⟩
  | cons p i ih =>
      cases p with
      | bytes bs =>
          simp only [readLine, items_cons, Part.items, takeLine_bytes]
          rcases splitLine bs with ⟨line, _ | after⟩
          · exact ⟨by rw [ih.1], ih.2⟩
          · exact ⟨rfl, rfl⟩
      | pause => exact ⟨rfl, rfl⟩
      | failure e =>
          by_cases h : e.kind = .interrupted
          · simpa [readLine, Part.items, h] using ih
          · simp [readLine, Part.items, h, takeLine]

end Input

/-! ## Streams with another input -/

theorem Streams.input_answer {σ : Type} (k : Streams σ) {r : Request} (hr : ¬ r.IsRead) (s : σ) :
    k.input (k.answer r s).2 = k.input s := by
  cases r with
  | write ch bytes => exact k.input_write s ch bytes
  | flush ch => exact k.input_flush s ch
  | note e => exact k.input_note s e
  | readByte => exact absurd trivial hr
  | readLine => exact absurd trivial hr

theorem Streams.byte_items {σ : Type} (k : Streams σ) (s : σ) :
    (k.answer .readByte s).1 = (Input.takeByte (k.input s).items).1 ∧
      (k.input (k.answer .readByte s).2).items = (Input.takeByte (k.input s).items).2 := by
  obtain ⟨ha, hs⟩ := k.byte s
  obtain ⟨hb, hrest⟩ := (k.input s).readByte_eq_takeByte
  exact ⟨ha.trans hb, by rw [hs, hrest]⟩

theorem Streams.line_items {σ : Type} (k : Streams σ) (s : σ) :
    (k.answer .readLine s).1 = (Input.takeLine (k.input s).items).1 ∧
      (k.input (k.answer .readLine s).2).items = (Input.takeLine (k.input s).items).2 := by
  obtain ⟨ha, hs⟩ := k.line s
  obtain ⟨hl, hrest⟩ := (k.input s).readLine_eq_takeLine
  exact ⟨ha.trans hl, by rw [hs, hrest]⟩

/-- Streams whose input can be exchanged. Their sinks may do as they please and may take notice of every
read, but nothing depends on the input except the answers to reads. -/
structure Refillable (σ : Type) extends Streams σ where
  /-- The streams with this input in place of their own. -/
  refill : Input → σ → σ
  input_refill (i : Input) (s : σ) : input (refill i s) = i
  refill_input (s : σ) : refill (input s) s = s
  answer_refill {r : Request} (hr : ¬ r.IsRead) (i : Input) (s : σ) :
    (answer r (refill i s)).1 = (answer r s).1
  refill_answer (r : Request) (i j : Input) (s : σ) :
    refill i (answer r (refill j s)).2 = refill i (answer r s).2

theorem Console.observe_refill (c : Console) (i j : Input) :
    { observe { c with input := j } with input := i } = { c.observe with input := i } := by
  by_cases h : c.seen.back? = some (c.output.visible, c.diagnostics.visible)
  · simp only [observe, h, ↓reduceIte]
  · simp only [observe, h, ↓reduceIte]

def Console.refillable : Refillable Console where
  toStreams := streams
  refill i c := { c with input := i }
  input_refill _ _ := rfl
  refill_input _ := rfl
  answer_refill := by
    intro r hr i c
    cases r with
    | write ch bytes => cases ch <;> rfl
    | flush ch => cases ch <;> rfl
    | note e => rfl
    | readByte => exact absurd trivial hr
    | readLine => exact absurd trivial hr
  refill_answer := by
    intro r i j c
    cases r with
    | write ch bytes => cases ch <;> rfl
    | flush ch => cases ch <;> rfl
    | note e =>
        have hlogs : logs { c with input := j } e = c.logs e := rfl
        by_cases h : c.logs e = true
        · simp only [streams, answer, hlogs, h, ↓reduceIte]
        · simp only [streams, answer, hlogs, h, Bool.false_eq_true, ↓reduceIte]
    | readByte => exact observe_refill c i j
    | readLine => exact observe_refill c i j

namespace Refillable

variable {σ : Type} (k : Refillable σ)

theorem answer_snd_refill (r : Request) (i : Input) (s : σ) :
    ∃ j, (k.answer r (k.refill i s)).2 = k.refill j (k.answer r s).2 := by
  refine ⟨k.input (k.answer r (k.refill i s)).2, ?_⟩
  rw [← k.refill_answer r _ i s, k.refill_input]

/-- Streams that differ only in the make-up of their input. -/
def Alike (s t : σ) : Prop := ∃ i, t = k.refill i s ∧ (k.input s).items = i.items

theorem Alike.answer_eq {k : Refillable σ} (r : Request) (s t : σ) (h : k.Alike s t) :
    (k.answer r s).1 = (k.answer r t).1 ∧ k.Alike (k.answer r s).2 (k.answer r t).2 := by
  obtain ⟨i, rfl, hi⟩ := h
  obtain ⟨j, hj⟩ := k.answer_snd_refill r i s
  have hinput : j = k.input (k.answer r (k.refill i s)).2 := by rw [hj, k.input_refill]
  by_cases hr : r.IsRead
  · cases r with
    | readByte =>
        obtain ⟨ha, hs⟩ := k.byte_items s
        obtain ⟨ha', hs'⟩ := k.byte_items (k.refill i s)
        rw [k.input_refill] at ha' hs'
        exact ⟨by rw [ha, ha', hi], j, hj, by rw [hs, hinput, hs', hi]⟩
    | readLine =>
        obtain ⟨ha, hs⟩ := k.line_items s
        obtain ⟨ha', hs'⟩ := k.line_items (k.refill i s)
        rw [k.input_refill] at ha' hs'
        exact ⟨by rw [ha, ha', hi], j, hj, by rw [hs, hinput, hs', hi]⟩
    | write => exact absurd hr id
    | flush => exact absurd hr id
    | note => exact absurd hr id
  · refine ⟨(k.answer_refill hr i s).symm, j, hj, ?_⟩
    rw [k.input_answer hr, hinput, k.input_answer hr, k.input_refill, hi]

end Refillable

/-- How an input is made up cannot be seen: inputs that differ only in where their pieces are cut, in
empty pieces and in interruptions give the same run, and differ only in this way after it. -/
theorem Process.segmentation_is_invisible {σ : Type} (k : Refillable σ) (m : Machine) (s : σ)
    {i : Input} (h : (k.input s).Alike i) (n : Nat) :
    let run := steps k.answer n ⟨m, s⟩
    let run' := steps k.answer n ⟨m, k.refill i s⟩
    run'.1 = run.1 ∧ run'.2.machine = run.2.machine ∧
      ∃ i', (k.input run.2.streams).Alike i' ∧ run'.2.streams = k.refill i' run.2.streams := by
  have hs : k.Alike s (k.refill i s) := ⟨i, rfl, Input.alike_iff.mp h⟩
  obtain ⟨ha, i', hi', hitems⟩ :=
    Dialogue.run_related Refillable.Alike.answer_eq (m.steps n) hs
  simp only [steps_eq_run]
  exact ⟨by rw [ha], by rw [ha], i', Input.alike_iff.mpr hitems, hi'⟩

/-- A program that reads a number and a character of two bytes, from one piece of input, and from an input
that is interrupted in the middle of both. -/
theorem Process.segmentation_is_invisible_interrupted :
    let m : Machine := .start ⟨.ofRows 80 25 ["&~,.@".toList], { unicode := true }⟩ 1
    let c : Console := { input := [.bytes [0x34, 0x32, 0x0A, 0xC3, 0xA9, 0x21]] }
    let busy : StreamError := ⟨.interrupted, "try again"⟩
    let i : Input := [.bytes [0x34], .failure busy, .bytes [], .bytes [0x32, 0x0A, 0xC3],
      .failure busy, .bytes [0xA9], .bytes [0x21]]
    c.input.Alike i ∧
      (steps Console.answer 5 ⟨m, { c with input := i }⟩).1 = (steps Console.answer 5 ⟨m, c⟩).1 ∧
      (steps Console.answer 5 ⟨m, { c with input := i }⟩).2.streams.output =
        (steps Console.answer 5 ⟨m, c⟩).2.streams.output ∧
      (steps Console.answer 5 ⟨m, c⟩).2.streams.output.data.toList =
        [0xC3, 0xA9, 0x34, 0x32, 0x20] := by
  intro m c busy i
  have h : c.input.Alike i := Input.alike_iff.mpr (by decide)
  have hrun : ∀ (m : Machine) (c : Console), c.input.Alike i →
      (steps Console.answer 5 ⟨m, { c with input := i }⟩).1 = (steps Console.answer 5 ⟨m, c⟩).1 ∧
      (steps Console.answer 5 ⟨m, { c with input := i }⟩).2.streams.output =
        (steps Console.answer 5 ⟨m, c⟩).2.streams.output := by
    intro m c h
    obtain ⟨ha, -, i', -, hi'⟩ := segmentation_is_invisible Console.refillable m c h 5
    have houtput := congrArg Console.output hi'
    exact ⟨ha, houtput⟩
  exact ⟨h, (hrun m c h).1, (hrun m c h).2, by decide +kernel⟩

end Befunge
