import Befunge.Proofs.Forks
import Befunge.Proofs.Printing
import Befunge.Proofs.Reads
import Mathlib.Logic.Function.Iterate

/-!
# Characters in and out

In Unicode mode a character is read as the well-formed UTF-8 encoding of it and in no other form, and all
bytes that were read on the way to a failure are gone. What is written character by character is read back
as the same characters.
-/

namespace Befunge

open Text

/-! ## Encodings -/

namespace Text.Utf8

def IsContinuation (b : UInt8) : Prop := 0x80 ≤ b ∧ b ≤ 0xBF

instance (b : UInt8) : Decidable (IsContinuation b) := inferInstanceAs (Decidable (_ ∧ _))

/-- The number that the bytes of a character spell: the low bits of the first byte, then six bits of each
of the others. -/
def number : List UInt8 → Nat
  | [a] => a.toNat
  | [a, b] => a.toNat % 32 * 64 + b.toNat % 64
  | [a, b, c] => (a.toNat % 16 * 64 + b.toNat % 64) * 64 + c.toNat % 64
  | [a, b, c, d] =>
    ((a.toNat % 8 * 64 + b.toNat % 64) * 64 + c.toNat % 64) * 64 + d.toNat % 64
  | _ => 0

/-- The least number that takes so many bytes. -/
def least : Nat → Nat
  | 0 | 1 => 0
  | 2 => 0x80
  | 3 => 0x800
  | _ => 0x10000

/-- What can be wrong with bytes that are as many as the first of them announces. -/
inductive IllFormed (bytes : List UInt8) : Prop
  | broken {b : UInt8} (hb : b ∈ bytes.tail) (h : ¬ IsContinuation b) : IllFormed bytes
  | overlong (h : number bytes < least bytes.length) : IllFormed bytes
  | surrogate (h : 0xD800 ≤ number bytes ∧ number bytes ≤ 0xDFFF) : IllFormed bytes
  | tooLarge (h : 0x10FFFF < number bytes) : IllFormed bytes

theorem decode?_eq_some_iff {bytes : List UInt8} {s : List Char} :
    decode? bytes = some s ↔ bytes = encode s := by
  constructor
  · intro h
    obtain ⟨a, ha, rfl⟩ := Option.map_eq_some_iff.mp h
    have hencode := ByteArray.utf8Encode_get_utf8Decode? (b := bytes.toByteArray)
      (h := by rw [ha]; rfl)
    simp only [ha, Option.get_some, List.utf8Encode] at hencode
    simpa [encode] using (congrArg (·.data.toList) hencode).symm
  · rintro rfl
    exact decode?_encode s

theorem encode_singleton (c : Char) : encode [c] = String.utf8EncodeChar c := List.append_nil _

theorem length?_eq_some_iff {b : UInt8} {n : Nat} : length? b = some n ↔
    (n = 1 ∧ b.toNat ≤ 0x7F) ∨ (n = 2 ∧ 0xC2 ≤ b.toNat ∧ b.toNat ≤ 0xDF) ∨
      (n = 3 ∧ 0xE0 ≤ b.toNat ∧ b.toNat ≤ 0xEF) ∨ (n = 4 ∧ 0xF0 ≤ b.toNat ∧ b.toNat ≤ 0xF4) := by
  simp only [length?, UInt8.le_iff_toNat_le, UInt8.reduceToNat]
  grind

theorem isContinuation_iff {b : UInt8} : IsContinuation b ↔ 0x80 ≤ b.toNat ∧ b.toNat ≤ 0xBF := by
  simp [IsContinuation, UInt8.le_iff_toNat_le]

theorem not_illFormed_iff {bytes : List UInt8} :
    ¬ IllFormed bytes ↔ (∀ b ∈ bytes.tail, IsContinuation b) ∧ least bytes.length ≤ number bytes ∧
      ¬ (0xD800 ≤ number bytes ∧ number bytes ≤ 0xDFFF) ∧ number bytes ≤ 0x10FFFF := by
  constructor
  · intro h
    refine ⟨fun b hb => ?_, ?_, fun hs => h (.surrogate hs), ?_⟩
    · exact Decidable.byContradiction fun hnot => h (.broken hb hnot)
    · exact Nat.le_of_not_lt fun hlt => h (.overlong hlt)
    · exact Nat.le_of_not_lt fun hlt => h (.tooLarge hlt)
  · rintro ⟨hcont, hleast, hsurrogate, hlarge⟩ (⟨hb, hnot⟩ | hlt | hs | hlt)
    · exact hnot (hcont _ hb)
    · exact Nat.not_le_of_lt hlt hleast
    · exact hsurrogate hs
    · exact Nat.not_le_of_lt hlt hlarge

theorem not_illFormed_one {a : UInt8} : ¬ IllFormed [a] := by
  simp only [not_illFormed_iff, number, least, List.length_cons, List.length_nil]
  refine ⟨nofun, Nat.zero_le _, ?_⟩
  have := a.toNat_lt
  omega

theorem not_illFormed_two {a b : UInt8} :
    ¬ IllFormed [a, b] ↔ IsContinuation b ∧ 0x80 ≤ number [a, b] ∧
      ¬ (0xD800 ≤ number [a, b] ∧ number [a, b] ≤ 0xDFFF) ∧ number [a, b] ≤ 0x10FFFF := by
  simp [not_illFormed_iff, least]

theorem not_illFormed_three {a b c : UInt8} :
    ¬ IllFormed [a, b, c] ↔ (IsContinuation b ∧ IsContinuation c) ∧ 0x800 ≤ number [a, b, c] ∧
      ¬ (0xD800 ≤ number [a, b, c] ∧ number [a, b, c] ≤ 0xDFFF) ∧ number [a, b, c] ≤ 0x10FFFF := by
  simp [not_illFormed_iff, least]

theorem not_illFormed_four {a b c d : UInt8} :
    ¬ IllFormed [a, b, c, d] ↔ (IsContinuation b ∧ IsContinuation c ∧ IsContinuation d) ∧
      0x10000 ≤ number [a, b, c, d] ∧
      ¬ (0xD800 ≤ number [a, b, c, d] ∧ number [a, b, c, d] ≤ 0xDFFF) ∧
      number [a, b, c, d] ≤ 0x10FFFF := by
  simp [not_illFormed_iff, least]

section

variable {b : UInt8} {bs : List UInt8} {c : Char}

/-- Byte by byte, the encoding of a character announces its length and spells the character's number. -/
theorem spells_of_eq_encode (h : b :: bs = encode [c]) :
    length? b = some (bs.length + 1) ∧ ¬ IllFormed (b :: bs) ∧ number (b :: bs) = c.toNat := by
  have hvalid : c.toNat.isValidChar := c.valid
  have hval : c.val.toNat = c.toNat := rfl
  rw [encode_singleton, String.utf8EncodeChar, hval] at h
  rw [length?_eq_some_iff]
  generalize c.toNat = v at h hvalid ⊢
  simp only [Nat.isValidChar] at hvalid
  -- One case for each length that an encoding can have; the number comes first, the rest follows from it.
  split at h
  · cases h
    refine ⟨.inl ⟨rfl, ?_⟩, not_illFormed_one, ?_⟩ <;>
      simp only [number, UInt8.toNat_ofNat'] <;> omega
  · split at h
    · cases h
      have hnumber : number [UInt8.ofNat (v / 64 % 32 + 0xC0), UInt8.ofNat (v % 64 + 0x80)] = v := by
        simp only [number, UInt8.toNat_ofNat']
        omega
      refine ⟨.inr (.inl ⟨rfl, ?_⟩), not_illFormed_two.mpr ?_, hnumber⟩
      · rw [UInt8.toNat_ofNat']
        omega
      · simp only [hnumber, isContinuation_iff, UInt8.toNat_ofNat']
        omega
    · split at h
      · cases h
        have hnumber : number [UInt8.ofNat (v / 4096 % 16 + 0xE0), UInt8.ofNat (v / 64 % 64 + 0x80),
            UInt8.ofNat (v % 64 + 0x80)] = v := by
          simp only [number, UInt8.toNat_ofNat']
          omega
        refine ⟨.inr (.inr (.inl ⟨rfl, ?_⟩)), not_illFormed_three.mpr ?_, hnumber⟩
        · rw [UInt8.toNat_ofNat']
          omega
        · simp only [hnumber, isContinuation_iff, UInt8.toNat_ofNat']
          omega
      · cases h
        have hnumber : number [UInt8.ofNat (v / 262144 % 8 + 0xF0),
            UInt8.ofNat (v / 4096 % 64 + 0x80), UInt8.ofNat (v / 64 % 64 + 0x80),
            UInt8.ofNat (v % 64 + 0x80)] = v := by
          simp only [number, UInt8.toNat_ofNat']
          omega
        refine ⟨.inr (.inr (.inr ⟨rfl, ?_⟩)), not_illFormed_four.mpr ?_, hnumber⟩
        · rw [UInt8.toNat_ofNat']
          omega
        · simp only [hnumber, isContinuation_iff, UInt8.toNat_ofNat']
          omega

theorem eq_encode_of_spells (hb : length? b = some (bs.length + 1)) (hwell : ¬ IllFormed (b :: bs))
    (hnumber : number (b :: bs) = c.toNat) : b :: bs = encode [c] := by
  have hval : c.val.toNat = c.toNat := rfl
  rw [encode_singleton, String.utf8EncodeChar, hval]
  rw [length?_eq_some_iff] at hb
  generalize c.toNat = v at hnumber
  have hbyte : ∀ {d : UInt8} {n : Nat}, d = UInt8.ofNat n ↔ d.toNat = n % 256 := by
    intro d n
    rw [← UInt8.toNat_inj, UInt8.toNat_ofNat']
  match bs with
  | [] =>
      simp only [List.length_nil, number] at hb hnumber
      rw [if_pos (by omega)]
      simp only [List.cons.injEq, hbyte, and_true]
      omega
  | [x] =>
      simp only [not_illFormed_two, isContinuation_iff, number, List.length_cons, List.length_nil]
        at hb hwell hnumber
      rw [if_neg (by omega), if_pos (by omega)]
      simp only [List.cons.injEq, hbyte, and_true]
      omega
  | [x, y] =>
      simp only [not_illFormed_three, isContinuation_iff, number, List.length_cons, List.length_nil]
        at hb hwell hnumber
      rw [if_neg (by omega), if_neg (by omega), if_pos (by omega)]
      simp only [List.cons.injEq, hbyte, and_true]
      omega
  | [x, y, z] =>
      simp only [not_illFormed_four, isContinuation_iff, number, List.length_cons, List.length_nil]
        at hb hwell hnumber
      rw [if_neg (by omega), if_neg (by omega), if_neg (by omega)]
      simp only [List.cons.injEq, hbyte, and_true]
      omega
  | x :: y :: z :: w :: bs =>
      simp only [List.length_cons] at hb
      omega

/-- Bytes that are as many as announced are the encoding of a character unless they are ill-formed. -/
theorem exists_eq_encode_iff (hb : length? b = some (bs.length + 1)) :
    (∃ c, b :: bs = encode [c]) ↔ ¬ IllFormed (b :: bs) := by
  constructor
  · rintro ⟨c, hc⟩
    exact (spells_of_eq_encode hc).2.1
  · intro hwell
    obtain ⟨-, -, hsurrogate, hlarge⟩ := not_illFormed_iff.mp hwell
    have hvalid : (number (b :: bs)).isValidChar := by
      simp only [Nat.isValidChar]
      omega
    exact ⟨Char.ofNatAux _ hvalid, eq_encode_of_spells hb hwell rfl⟩

/-- The byte starts the encoding of a character, and that has `n` bytes. -/
def Announces (b : UInt8) (n : Nat) : Prop := ∃ c bs, encode [c] = b :: bs ∧ bs.length + 1 = n

theorem exists_encode_of_length? {n : Nat} (h : length? b = some n) :
    ∃ c bs, encode [c] = b :: bs ∧ bs.length + 1 = n := by
  obtain ⟨bs, hbs, hlength⟩ : ∃ bs, ¬ IllFormed (b :: bs) ∧ bs.length + 1 = n := by
    rcases length?_eq_some_iff.mp h with ⟨rfl, hb⟩ | ⟨rfl, hb⟩ | ⟨rfl, hb⟩ | ⟨rfl, hb⟩
    · exact ⟨[], not_illFormed_one, rfl⟩
    · refine ⟨[0x80], not_illFormed_two.mpr ?_, rfl⟩
      simp only [isContinuation_iff, number, UInt8.reduceToNat]
      omega
    -- After `E0` and `F0` the least continuation byte would make the encoding overlong.
    · by_cases hE0 : b.toNat = 0xE0
      · refine ⟨[0xA0, 0x80], not_illFormed_three.mpr ?_, rfl⟩
        simp only [isContinuation_iff, number, UInt8.reduceToNat]
        omega
      · refine ⟨[0x80, 0x80], not_illFormed_three.mpr ?_, rfl⟩
        simp only [isContinuation_iff, number, UInt8.reduceToNat]
        omega
    · by_cases hF0 : b.toNat = 0xF0
      · refine ⟨[0x90, 0x80, 0x80], not_illFormed_four.mpr ?_, rfl⟩
        simp only [isContinuation_iff, number, UInt8.reduceToNat]
        omega
      · refine ⟨[0x80, 0x80, 0x80], not_illFormed_four.mpr ?_, rfl⟩
        simp only [isContinuation_iff, number, UInt8.reduceToNat]
        omega
  obtain ⟨c, hc⟩ := (exists_eq_encode_iff (hlength ▸ h)).mpr hbs
  exact ⟨c, bs, hc.symm, hlength⟩

theorem announces_iff {n : Nat} : Announces b n ↔ length? b = some n := by
  constructor
  · rintro ⟨c, bs, hc, rfl⟩
    exact (spells_of_eq_encode hc.symm).1
  · exact exists_encode_of_length?

end

/-- What reading a character from these bytes comes to, and the bytes that it leaves. -/
inductive Reading : List UInt8 → Except Fault Char → List UInt8 → Prop
  | character (c : Char) (rest : List UInt8) : Reading (encode [c] ++ rest) (.ok c) rest
  | ended : Reading [] (.error .endOfInput) []
  | notALead {b : UInt8} (rest : List UInt8) (hb : ∀ n, ¬ Announces b n) :
      Reading (b :: rest) (.error .notUtf8) rest
  /-- Fewer bytes are left than the first of them announces. -/
  | cutShort {b : UInt8} {bs : List UInt8} {n : Nat} (hb : Announces b n)
      (hlt : (b :: bs).length < n) : Reading (b :: bs) (.error .endOfInput) []
  | illFormed {b : UInt8} {bs : List UInt8} (rest : List UInt8)
      (hb : Announces b (b :: bs).length) (h : IllFormed (b :: bs)) :
      Reading (b :: bs ++ rest) (.error .notUtf8) rest

theorem exists_reading (bytes : List UInt8) : ∃ r rest, Reading bytes r rest := by
  match bytes with
  | [] => exact ⟨_, _, .ended⟩
  | b :: bs =>
      by_cases hb : ∃ n, Announces b n
      case neg => exact ⟨_, _, .notALead bs (not_exists.mp hb)⟩
      obtain ⟨n, hb⟩ := hb
      by_cases hlt : (b :: bs).length < n
      · exact ⟨_, _, .cutShort hb hlt⟩
      · obtain ⟨n, rfl⟩ := Nat.exists_eq_succ_of_ne_zero
          (Nat.ne_of_gt (Action.length?_pos (announces_iff.mp hb)))
        have hle : n ≤ bs.length := by
          rw [List.length_cons] at hlt
          omega
        have hlength : (bs.take n).length = n := List.length_take_of_le hle
        rw [← List.take_append_drop n bs, ← List.cons_append]
        rw [← hlength] at hb
        by_cases hbad : IllFormed (b :: bs.take n)
        · exact ⟨_, _, .illFormed _ hb hbad⟩
        · obtain ⟨c, hc⟩ := (exists_eq_encode_iff (announces_iff.mp hb)).mpr hbad
          rw [hc]
          exact ⟨_, _, .character c _⟩

end Text.Utf8

/-! ## Reading -/

namespace Streams

open Attempt

variable {σ : Type} (k : Streams σ) {s : σ}

theorem run_readByte_of_items {b : UInt8} {l : List Input.Item}
    (h : (k.input s).items = .byte b :: l) :
    ∃ t, k.answer .readByte s = (.ok (some b), t) ∧ (k.input t).items = l := by
  obtain ⟨ha, hs⟩ := k.byte_items s
  rw [h] at ha hs
  exact ⟨_, Prod.ext ha rfl, hs⟩

theorem byteFails_of_items (h : (k.input s).items = []) :
    Action.ByteFails k.answer s .endOfInput ∧ (k.input (k.answer .readByte s).2).items = [] := by
  obtain ⟨ha, hs⟩ := k.byte_items s
  rw [h] at ha hs
  exact ⟨.ended ha, hs⟩

theorem run_readBytes_of_items {bs : List UInt8} {l : List Input.Item}
    (h : (k.input s).items = bs.map .byte ++ l) :
    ∃ t, (readBytes bs.length).run.run k.answer s = (.ok bs, t) ∧ (k.input t).items = l := by
  induction bs generalizing s with
  | nil => exact ⟨s, rfl, h⟩
  | cons b bs ih =>
      obtain ⟨t, hb, ht⟩ := k.run_readByte_of_items h
      obtain ⟨v, hbs, hv⟩ := ih ht
      refine ⟨v, ?_, hv⟩
      simp only [List.length_cons, readBytes, Attempt.run_bind, Action.run_readByte_of_eq hb, hbs]
      rfl

theorem run_readBytes_of_short {bs : List UInt8} {n : Nat} (hn : bs.length < n)
    (h : (k.input s).items = bs.map .byte) :
    ∃ t, (readBytes n).run.run k.answer s = (.error .endOfInput, t) ∧ (k.input t).items = [] := by
  induction bs generalizing n s with
  | nil =>
      obtain ⟨n, rfl⟩ := Nat.exists_eq_succ_of_ne_zero (Nat.ne_of_gt hn)
      obtain ⟨hfails, hs⟩ := k.byteFails_of_items h
      refine ⟨_, ?_, hs⟩
      simp only [readBytes, Attempt.run_bind, hfails.run_readByte]
  | cons b bs ih =>
      obtain ⟨n, rfl⟩ := Nat.exists_eq_succ_of_ne_zero (Nat.ne_of_gt (Nat.zero_lt_of_lt hn))
      obtain ⟨t, hb, ht⟩ := k.run_readByte_of_items h
      obtain ⟨v, hbs, hv⟩ := ih (Nat.lt_of_succ_lt_succ hn) ht
      refine ⟨v, ?_, hv⟩
      simp only [readBytes, Attempt.run_bind, Action.run_readByte_of_eq hb, hbs]

theorem run_character {bytes rest : List UInt8} {r : Except Fault Char}
    (h : (k.input s).items = bytes.map .byte) (hr : Utf8.Reading bytes r rest) :
    ∃ t, (character true).run.run k.answer s = (r.map Cell.value, t) ∧
      (k.input t).items = rest.map .byte := by
  cases hr with
  | character c rest =>
      obtain ⟨b, bs, hc⟩ : ∃ b bs, b :: bs = Utf8.encode [c] := by
        cases he : Utf8.encode [c] with
        | nil =>
            have hlength := String.length_utf8EncodeChar c
            rw [← Utf8.encode_singleton, he] at hlength
            exact absurd hlength (Nat.ne_of_lt c.utf8Size_pos)
        | cons b bs => exact ⟨b, bs, rfl⟩
      obtain ⟨hlead, -, -⟩ := Utf8.spells_of_eq_encode hc
      rw [← hc, List.cons_append, List.map_cons, List.map_append] at h
      obtain ⟨t, hb, ht⟩ := k.run_readByte_of_items h
      obtain ⟨v, hbs, hv⟩ := k.run_readBytes_of_items ht
      refine ⟨v, ?_, hv⟩
      have hd : Utf8.decode? (b :: bs) = some [c] := Utf8.decode?_eq_some_iff.mpr hc
      simp only [Action.run_character_of_lead hb, ↓reduceIte, hlead, Nat.add_sub_cancel, hbs, hd]
      rfl
  | ended =>
      obtain ⟨hfails, hs⟩ := k.byteFails_of_items h
      exact ⟨_, by rw [character, Attempt.run_bind, hfails.run_readByte]; rfl, hs⟩
  | notALead rest hlead =>
      have hlead : Utf8.length? _ = none :=
        Option.eq_none_iff_forall_ne_some.mpr fun n hn => hlead n (Utf8.announces_iff.mpr hn)
      obtain ⟨t, hb, ht⟩ := k.run_readByte_of_items h
      refine ⟨t, ?_, ht⟩
      simp only [Action.run_character_of_lead hb, ↓reduceIte, hlead]
      rfl
  | @cutShort b bs n hlead hlt =>
      rw [Utf8.announces_iff] at hlead
      obtain ⟨t, hb, ht⟩ := k.run_readByte_of_items h
      rw [List.length_cons] at hlt
      obtain ⟨v, hbs, hv⟩ := k.run_readBytes_of_short (by omega : bs.length < n - 1) ht
      refine ⟨v, ?_, hv⟩
      simp only [Action.run_character_of_lead hb, ↓reduceIte, hlead, hbs]
      rfl
  | @illFormed b bs rest hlead hbad =>
      rw [Utf8.announces_iff] at hlead
      rw [List.cons_append, List.map_cons, List.map_append] at h
      obtain ⟨t, hb, ht⟩ := k.run_readByte_of_items h
      obtain ⟨v, hbs, hv⟩ := k.run_readBytes_of_items ht
      refine ⟨v, ?_, hv⟩
      have hd : ∀ c, Utf8.decode? (b :: bs) ≠ some [c] := fun c hd =>
        (Utf8.exists_eq_encode_iff hlead).mp ⟨c, Utf8.decode?_eq_some_iff.mp hd⟩ hbad
      rw [List.length_cons] at hlead
      simp only [Action.run_character_of_lead hb, ↓reduceIte, hlead, Nat.add_sub_cancel, hbs]
      rfl

theorem run_flush_of_accepted {o : Options}
    (h : o.strictStreams = false ∨ (k.answer (.flush .output) s).1 = .ok ()) :
    ∃ t, (Attempt.flush o).run.run k.answer s = (.ok (), t) ∧ k.input t = k.input s := by
  rw [Action.run_flush, ← k.input_flush s .output]
  generalize k.answer (.flush .output) s = x at h ⊢
  obtain ⟨e | _, t⟩ := x
  · have ho : o.strictStreams = false := h.resolve_right nofun
    refine ⟨(k.answer (.note (.streamErrorIgnored e)) t).2, ?_, k.input_note t _⟩
    rw [DifferInSinks.settle_error ho]
    rfl
  · exact ⟨t, rfl, rfl⟩

theorem run_readChar {o : Options} (hu : o.unicode = true)
    (hflush : o.strictStreams = false ∨ (k.answer (.flush .output) s).1 = .ok ())
    {bytes rest : List UInt8} {r : Except Fault Char} (h : (k.input s).items = bytes.map .byte)
    (hr : Utf8.Reading bytes r rest) :
    ∃ t, (readChar o).run.run k.answer s = (r.map Cell.value, t) ∧
      (k.input t).items = rest.map .byte := by
  obtain ⟨t, ht, hinput⟩ := k.run_flush_of_accepted hflush
  rw [← hinput] at h
  obtain ⟨v, hv, hrest⟩ := k.run_character h hr
  refine ⟨v, ?_, hrest⟩
  rw [readChar_eq, Attempt.run_bind, ht, hu]
  exact hv

end Streams

/-! ## Along a row of the same instruction -/

namespace Machine

/-- The machine is about to execute, and the `n` cells ahead, its own among them, hold the character. -/
structure Faces (m : Machine) (c : Char) (n : Nat) : Prop where
  done_eq : m.done = false
  stringMode_eq : m.stringMode = false
  fetch_eq {j : Nat} (hj : j < n) : (advance^[j] m).fetch = c

theorem iterate_advance_withStack (m : Machine) (s : Stack) (j : Nat) :
    advance^[j] (m.withStack s) = (advance^[j] m).withStack s := by
  induction j generalizing m with
  | zero => rfl
  | succ j ih =>
      rw [Function.iterate_succ_apply, Function.iterate_succ_apply, ← ih]
      rfl

variable {m : Machine} {c : Char} {n : Nat}

theorem Faces.dispatches (h : m.Faces c (n + 1)) : m.Dispatches ∧ m.fetch = c :=
  ⟨⟨h.done_eq, fun hs => absurd (hs.1.symm.trans h.stringMode_eq) nofun⟩,
    h.fetch_eq (Nat.succ_pos n)⟩

theorem Faces.next (h : m.Faces c (n + 1)) (s : Stack) : (m.withStack s).advance.Faces c n where
  done_eq := h.done_eq
  stringMode_eq := h.stringMode_eq
  fetch_eq {j} hj := by
    rw [← Function.iterate_succ_apply, iterate_advance_withStack]
    exact h.fetch_eq (Nat.succ_lt_succ hj)

end Machine

/-! ## Writing a row of characters -/

namespace Recorder.Writes

variable {τ : Type} {l : Recorder τ} {m : Machine} {n : Nat} {values : List Int64}

theorem step_writeChar {c : Char} (hfaces : m.Faces ',' (n + 1)) (hu : m.options.unicode = true)
    (hvalues : m.stack.values = Cell.value c :: values) :
    l.Writes m.step (.ok .running, (m.withStack ⟨values⟩).advance) (Utf8.encode [c]) := by
  obtain ⟨hd, hfetch⟩ := hfaces.dispatches
  have hpeek : m.stack.peek 0 = Cell.value c := by rw [Stack.peek, hvalues, List.getD_cons_zero]
  have hdrop : m.stack.drop 1 = ⟨values⟩ := by rw [Stack.drop, hvalues, List.drop_one, List.tail_cons]
  have hwrite : l.Writes (Attempt.writeChar m.options (Cell.value c)).run (.ok ())
      (Utf8.encode [c]) := by
    rw [Attempt.writeChar_value (.inl hu)]
    exact emit _ _
  refine step (v := none) hd ?_ ?_
  · rw [hfetch]
    exact (hpeek ▸ hwrite).withoutValue
  · rw [hfetch, ← hdrop]
    exact pure _

/-- The characters on the stack are written from the top on. -/
theorem steps_writeChar {t : List Char} (hfaces : m.Faces ',' t.length)
    (hu : m.options.unicode = true) (hvalues : m.stack.values = t.map Cell.value ++ values) :
    ∃ m', l.Writes (m.steps t.length) (List.replicate t.length (.ok .running), m')
      (Utf8.encode t) := by
  induction t generalizing m with
  | nil => exact ⟨m, pure _⟩
  | cons c t ih =>
      have hstep := step_writeChar (l := l) hfaces hu hvalues
      obtain ⟨m', hsteps⟩ := ih (hfaces.next ⟨t.map Cell.value ++ values⟩) hu rfl
      have hencode : Utf8.encode (c :: t) = Utf8.encode [c] ++ Utf8.encode t :=
        Utf8.encode_append [c] t
      rw [hencode]
      exact ⟨m', hstep.steps hsteps⟩

end Recorder.Writes

/-! ## Reading a row of characters -/

theorem Streams.input_run_of_reads {α σ : Type} (k : Streams σ) (d : Dialogue α) {s : σ}
    (h : d.reads k.answer s = []) : k.input (d.run k.answer s).2 = k.input s := by
  induction d generalizing s with
  | done a => rfl
  | ask r next ih =>
      simp only [Dialogue.reads, Dialogue.asked, List.filter_eq_nil_iff, List.mem_cons,
        forall_eq_or_imp, decide_eq_true_eq] at h
      have hnext : (next (k.answer r s).1).reads k.answer (k.answer r s).2 = [] := by
        simp only [Dialogue.reads, List.filter_eq_nil_iff, decide_eq_true_eq]
        exact h.2
      rw [Dialogue.run, ih _ hnext, k.input_answer h.1]

/-- A step is made of what its instruction comes back with. -/
theorem Process.step_of_run_consult {σ : Type} {f : Responder σ} {x : Process σ} {i : Instruction}
    {r : Except Fault (Option Int64)} {t : σ} (hd : x.machine.Dispatches)
    (hi : Instruction.decode x.machine.fetch = i)
    (h : (x.machine.program.consult x.machine.stack.peek i).run.run f
      (f (.note (.dispatched x.machine.pos i)) x.streams).2 = (r, t)) :
    x.step f =
      let z := (x.machine.conclude i r).run f t
      (z.1.1, ⟨z.1.2, z.2⟩) := by
  subst hi
  simp only [step, Machine.run_step_of_dispatches f hd, h]

/-- What `~` comes to on what it has read. -/
def Machine.withChar (m : Machine) : Except Fault Char → Except StepError Progress × Machine
  | .ok c => (.ok .running, (m.push (Cell.value c)).advance)
  | .error e =>
    if m.options.strictStreams then (.error (.crash (m.report e)), m.faulted .readChar)
    else (.ok .running, (m.push (-1)).advance)

namespace Archive

variable {σ : Type} {k : Archive σ} {x : Process σ} {n : Nat}

theorem step_readChar (hx : k.Open x.streams) (hfaces : x.machine.Faces '~' (n + 1))
    (hu : x.machine.options.unicode = true) {bytes rest : List UInt8} {r : Except Fault Char}
    (h : (k.input x.streams).items = bytes.map .byte) (hr : Utf8.Reading bytes r rest) :
    let y := x.step k.answer
    y.1 = (x.machine.withChar r).1 ∧ y.2.machine = (x.machine.withChar r).2 ∧
      (k.input y.2.streams).items = rest.map .byte := by
  obtain ⟨hd, hfetch⟩ := hfaces.dispatches
  have hi : Instruction.decode x.machine.fetch = .readChar := by
    rw [hfetch]
    rfl
  obtain ⟨hopen, -⟩ := k.other hx (r := .note (.dispatched x.machine.pos .readChar)) rfl
  rw [← k.input_note x.streams (.dispatched x.machine.pos .readChar)] at h
  obtain ⟨t, ht, hrest⟩ := k.run_readChar hu (.inr (k.flush hopen .output).1) h hr
  have hconsult := Attempt.run_recover k.answer x.machine.options .characterInputFailed
    (Attempt.readChar x.machine.options)
    (k.answer (.note (.dispatched x.machine.pos .readChar)) x.streams).2
  rw [ht] at hconsult
  cases r with
  | ok c =>
      rw [Process.step_of_run_consult hd hi hconsult]
      exact ⟨rfl, rfl, hrest⟩
  | error e =>
      by_cases hs : x.machine.options.strictStreams = true
      · simp only [Except.map, hs, ↓reduceIte] at hconsult
        rw [Process.step_of_run_consult hd hi hconsult]
        -- What ends the step reads nothing, so it leaves the input as the reading has left it.
        have hinput := k.input_run_of_reads (x.machine.conclude .readChar (.error e))
          (Machine.reads_finish _ _ t)
        rw [Machine.run_conclude_error] at hinput
        simp only [Machine.withChar, hs, ↓reduceIte, Machine.run_conclude_error]
        exact ⟨trivial, trivial, by rw [hinput, hrest]⟩
      · simp only [Except.map, hs, Bool.false_eq_true, ↓reduceIte] at hconsult
        rw [Process.step_of_run_consult hd hi hconsult]
        simp only [Machine.withChar, hs, Bool.false_eq_true, ↓reduceIte]
        refine ⟨rfl, rfl, ?_⟩
        rw [← hrest, ← k.input_note t]
        rfl

/-- What is left of the input after a row of `~` has read the characters, and the values that it has
pushed. -/
theorem steps_readChar {t : List Char} {rest : List UInt8} (hx : k.Open x.streams)
    (hfaces : x.machine.Faces '~' (t.length + n)) (hu : x.machine.options.unicode = true)
    (h : (k.input x.streams).items = (Utf8.encode t ++ rest).map .byte) :
    let run := x.steps k.answer t.length
    run.1 = List.replicate t.length (.ok .running) ∧
      run.2.machine.stack.toList = x.machine.stack.toList ++ t.map Cell.value ∧
      run.2.machine.Faces '~' n ∧ (k.input run.2.streams).items = rest.map .byte := by
  induction t generalizing x with
  | nil =>
      rw [List.length_nil, Nat.zero_add] at hfaces
      exact ⟨rfl, (List.append_nil _).symm, hfaces, h⟩
  | cons c t ih =>
      rw [List.length_cons, Nat.add_right_comm] at hfaces
      have hencode : Utf8.encode (c :: t) = Utf8.encode [c] ++ Utf8.encode t :=
        Utf8.encode_append [c] t
      rw [hencode, List.append_assoc] at h
      obtain ⟨hanswer, hmachine, hinput⟩ := step_readChar hx hfaces hu h (.character c _)
      have hopen : k.Open (x.step k.answer).2.streams := isOpen_steps hx 1
      have hnext := hfaces.next (x.machine.stack.push (Cell.value c))
      obtain ⟨hanswers, hstack, hlater, hrest⟩ := ih hopen (hmachine ▸ hnext) (hmachine ▸ hu) hinput
      refine ⟨?_, ?_, hlater, hrest⟩
      · simp only [Process.steps, List.length_cons, List.replicate_succ, hanswer, hanswers]
        rfl
      · have hpush : (x.step k.answer).2.machine.stack.toList =
            x.machine.stack.toList ++ [Cell.value c] := by
          rw [hmachine]
          exact Stack.toList_push _ _
        rw [hpush, List.append_assoc] at hstack
        exact hstack

end Archive

/-- In Unicode mode a character is read from well-formed UTF-8 and from nothing else, and `Reading`
says what any other bytes give and how many of them are taken. Hence `~` reads back what `,` writes. -/
theorem Process.readChar_inverts_writeChar {σ τ : Type} :
    (∀ (k : Streams σ) (s : σ) (o : Options) (bytes : List UInt8), o.unicode = true →
      (k.input s).items = bytes.map .byte →
      (o.strictStreams = false ∨ (k.answer (.flush .output) s).1 = .ok ()) →
      let read := (Attempt.readChar o).run.run k.answer s
      (∀ v, read.1 = .ok v ↔ ∃ c rest, bytes = Utf8.encode [c] ++ rest ∧ v = Cell.value c) ∧
      (∃ r rest, Utf8.Reading bytes r rest) ∧
      ∀ r rest, Utf8.Reading bytes r rest →
        read.1 = r.map Cell.value ∧ (k.input read.2).items = rest.map .byte) ∧
    ∀ (l : Recorder τ) (k : Archive σ) (w : Process τ) (x : Process σ) (t : List Char)
      (below : List Int64), l.Open w.streams → w.machine.options.unicode = true →
      w.machine.Faces ',' t.length → w.machine.stack.values = t.map Cell.value ++ below →
      k.Open x.streams → x.machine.options.unicode = true → x.machine.Faces '~' (t.length + 1) →
      ∃ bytes,
        (let run := w.steps l.answer t.length
        run.1 = List.replicate t.length (.ok .running) ∧
          l.written run.2.streams = l.written w.streams ++ bytes) ∧
        ((k.input x.streams).items = bytes.map .byte →
          let run := x.steps k.answer t.length
          let last := run.2.step k.answer
          let ended := run.2.machine.withChar (.error .endOfInput)
          run.1 = List.replicate t.length (.ok .running) ∧
            run.2.machine.stack.toList = x.machine.stack.toList ++ t.map Cell.value ∧
            (k.input run.2.streams).items = [] ∧
            last.1 = ended.1 ∧ last.2.machine = ended.2) := by
  constructor
  · intro k s o bytes hu h hflush read
    have hread : ∀ r rest, Utf8.Reading bytes r rest →
        read.1 = r.map Cell.value ∧ (k.input read.2).items = rest.map .byte := by
      intro r rest hr
      obtain ⟨t, ht, hrest⟩ := k.run_readChar hu hflush h hr
      have hread : read = _ := ht
      rw [hread]
      exact ⟨rfl, hrest⟩
    refine ⟨fun v => ⟨fun hv => ?_, ?_⟩, Utf8.exists_reading bytes, hread⟩
    · obtain ⟨r, rest, hr⟩ := Utf8.exists_reading bytes
      rw [(hread r rest hr).1] at hv
      cases hr with
      | character c rest => exact ⟨c, rest, rfl, (Except.ok.inj hv).symm⟩
      | _ => cases hv
    · rintro ⟨c, rest, rfl, rfl⟩
      exact (hread _ _ (.character c rest)).1
  · intro l k w x t below hw huw hcommas hvalues hx hux hfaces
    obtain ⟨m, hwrites⟩ := Recorder.Writes.steps_writeChar (l := l) hcommas huw hvalues
    obtain ⟨hanswers, -, hwritten, -⟩ := hwrites.process hw
    refine ⟨Utf8.encode t, ⟨hanswers, hwritten⟩, fun hinput => ?_⟩
    rw [← List.append_nil (Utf8.encode t)] at hinput
    obtain ⟨hanswers, hstack, hlater, hrest⟩ := Archive.steps_readChar hx hfaces hux hinput
    have hu : (x.steps k.answer t.length).2.machine.options.unicode = true := by
      rw [options_steps, hux]
    obtain ⟨hlast, hmachine, -⟩ :=
      Archive.step_readChar (Archive.isOpen_steps hx t.length) hlater hu hrest .ended
    exact ⟨hanswers, hstack, hrest, hlast, hmachine⟩

/-- Characters of one, two, three and four bytes are written and read back, and an overlong encoding is
read and refused. -/
theorem Process.readChar_inverts_writeChar_four :
    let t := ['a', 'é', '€', '😀']
    let o : Options := { unicode := true }
    ∃ w x : Process Console,
      w = ⟨{ Machine.start ⟨.ofRows 80 25 [",,,,@".toList], o⟩ 1 with stack := ⟨t.map Cell.value⟩ }, {}⟩ ∧
      x = start ⟨.ofRows 80 25 ["~~~~~@".toList], o⟩ 1
        { input := [.bytes [0x61, 0xC3, 0xA9, 0xE2, 0x82, 0xAC, 0xF0, 0x9F, 0x98, 0x80]] } ∧
      w.machine.Faces ',' t.length ∧ x.machine.Faces '~' (t.length + 1) ∧
      (x.steps Console.answer t.length).2.machine.stack.toList = t.map Cell.value ∧
      ((x.steps Console.answer t.length).2.step Console.answer).1 = .ok .running ∧
      ((Attempt.readChar o).run.run Console.answer { input := [.bytes [0xE0, 0x80, 0x80, 0x41]] }).1 =
        .error .notUtf8 := by
  intro t o
  obtain ⟨w, hw⟩ : ∃ w : Process Console, w = ⟨{ Machine.start ⟨.ofRows 80 25 [",,,,@".toList], o⟩ 1
    with stack := ⟨t.map Cell.value⟩ }, {}⟩ := ⟨_, rfl⟩
  obtain ⟨x, hx⟩ : ∃ x : Process Console, x = start ⟨.ofRows 80 25 ["~~~~~@".toList], o⟩ 1
    { input := [.bytes [0x61, 0xC3, 0xA9, 0xE2, 0x82, 0xAC, 0xF0, 0x9F, 0x98, 0x80]] } := ⟨_, rfl⟩
  have hcommas : w.machine.Faces ',' t.length := by
    have hrow : ∀ j < t.length, (Machine.advance^[j] w.machine).fetch = ',' := by
      rw [hw]
      decide +kernel
    exact ⟨by rw [hw]; rfl, by rw [hw]; rfl, fun hj => hrow _ hj⟩
  have hfaces : x.machine.Faces '~' (t.length + 1) := by
    have hrow : ∀ j < t.length + 1, (Machine.advance^[j] x.machine).fetch = '~' := by
      rw [hx]
      decide +kernel
    exact ⟨by rw [hx]; rfl, by rw [hx]; rfl, fun hj => hrow _ hj⟩
  obtain ⟨hread, hwrite⟩ := readChar_inverts_writeChar (σ := Console) (τ := Console)
  have hoverlong : Utf8.Reading ([0xE0, 0x80, 0x80] ++ [0x41]) (.error .notUtf8) [0x41] :=
    .illFormed [0x41] (Utf8.announces_iff.mpr rfl) (.overlong (by decide))
  obtain ⟨bytes, ⟨-, hwritten⟩, hback⟩ := hwrite Console.recorder Console.archive w x t []
    (by rw [hw]; exact ⟨rfl, rfl⟩) (by rw [hw]; rfl) hcommas (by rw [hw]; rfl)
    (by rw [hx]; exact fun ch => by cases ch <;> exact ⟨rfl, rfl⟩) (by rw [hx]; rfl) hfaces
  have hbytes : bytes = [0x61, 0xC3, 0xA9, 0xE2, 0x82, 0xAC, 0xF0, 0x9F, 0x98, 0x80] := by
    have hdata : Console.recorder.written (w.steps Console.answer t.length).2.streams =
        [0x61, 0xC3, 0xA9, 0xE2, 0x82, 0xAC, 0xF0, 0x9F, 0x98, 0x80] := by
      rw [hw]
      decide +kernel
    have hnone : Console.recorder.written w.streams = [] := by rw [hw]; rfl
    rw [hnone] at hwritten
    exact hwritten.symm.trans hdata
  obtain ⟨-, hstack, -, hlast, -⟩ := hback (by rw [hbytes, hx]; rfl)
  have hempty : x.machine.stack.toList = [] := by rw [hx]; rfl
  rw [hempty] at hstack
  refine ⟨w, x, hw, hx, hcommas, hfaces, hstack, hlast.trans ?_, ?_⟩
  · have ho : (x.steps Console.answer t.length).2.machine.options = o :=
      (options_steps Console.answer _ x).trans (by rw [hx]; rfl)
    have hs : ¬ (x.steps Console.answer t.length).2.machine.options.strictStreams = true := by
      rw [ho]
      exact Bool.false_ne_true
    exact congrArg Prod.fst (if_neg hs)
  · exact ((hread Console.streams _ o _ rfl rfl (.inl rfl)).2.2 _ _ hoverlong).1

end Befunge
