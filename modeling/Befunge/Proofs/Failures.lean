import Befunge.Proofs.Characters
import Befunge.Proofs.Lookahead

/-!
# Failures and warnings

What fails on the streams in the course of some requests, by the answers to them, and what is logged
meanwhile. An action that an instruction performs logs each failure that it meets, or none if stream
errors are fatal.
-/

namespace Befunge

open Text

/-! ## Failures -/

/-- A failure that a process meets on its streams. -/
inductive Failure
  /-- A write or a flush has failed. -/
  | sink (e : StreamError)
  /-- No integer or no character was read, for this reason. -/
  | read (e : Fault)
  deriving DecidableEq, Repr

/-- The failures in an attempt at reading that has come to this. -/
def Failure.ofRead {α : Type} : Except Fault α → List Failure
  | .ok _ => []
  | .error e => [.read e]

/-- The failure that the answer to a single request amounts to. A line fails to be read also if it holds
no integer. -/
def Request.failure? : (r : Request) → r.Answer → Option Failure
  | .write .., .error e | .flush _, .error e => some (.sink e)
  | .readLine, answer =>
    match Attempt.integerOf answer with
    | .error e => some (.read e)
    | .ok _ => none
  | .readByte, .ok none => some (.read .endOfInput)
  | .readByte, .error e => some (.read (if e.kind = .endOfInput then .endOfInput else .stream e))
  | .write .., .ok _ | .flush _, .ok _ | .readByte, .ok (some _) | .note _, _ => none

/-- The bytes are the encoding of one character. -/
def Text.Utf8.IsCharacter (bytes : List UInt8) : Prop := ∃ c, bytes = encode [c]

theorem Text.Utf8.isCharacter_iff {bytes : List UInt8} :
    IsCharacter bytes ↔ ∃ c, decode? bytes = some [c] := by
  simp only [IsCharacter, decode?_eq_some_iff]

instance (bytes : List UInt8) : Decidable (Utf8.IsCharacter bytes) :=
  decidable_of_iff ((Utf8.decode? bytes).map List.length = some 1) <| by
    rw [Utf8.isCharacter_iff]
    simp only [Option.map_eq_some_iff, List.length_eq_one_iff]
    exact ⟨fun ⟨_, hs, c, hc⟩ => ⟨c, hc ▸ hs⟩, fun ⟨c, hc⟩ => ⟨_, hc, c, rfl⟩⟩

namespace Asked

variable {σ : Type} (f : Responder σ)

def event? : Asked σ → Option Event
  | ⟨.note e, _⟩ => some e
  | _ => none

/-- What is logged in the course of the requests. -/
def events (l : List (Asked σ)) : List Event := l.filterMap event?

def warnings (l : List (Asked σ)) : List Event := (events l).filter (·.level = .warn)

def failure? (a : Asked σ) : Option Failure := a.request.failure? (f a.request a.streams).1

/-- Among the requests are some for bytes; all of these were given one, and together the bytes are no
character. -/
def Misspelt (l : List (Asked σ)) : Prop :=
  let bytes := l.filter (·.request = .readByte)
  bytes ≠ [] ∧ (∀ a ∈ bytes, a.Complete f) ∧ ¬ Utf8.IsCharacter (bytes.flatMap (·.given f))

instance (l : List (Asked σ)) : Decidable (Misspelt f l) := inferInstanceAs (Decidable (_ ∧ _))

/-- The failures that the requests of one step meet. In Unicode mode bytes that are no character make one
of their own, after those of single requests. -/
def failures (unicode : Bool) (l : List (Asked σ)) : List Failure :=
  l.filterMap (failure? f) ++ if unicode ∧ Misspelt f l then [.read .notUtf8] else []

variable {f} {l k : List (Asked σ)} {u : Bool}

@[simp] theorem events_append : events (l ++ k) = events l ++ events k := List.filterMap_append

@[simp] theorem warnings_append : warnings (l ++ k) = warnings l ++ warnings k := by
  simp only [warnings, events_append, List.filter_append]

theorem filter_readByte_eq_nil (h : ∀ a ∈ l, a.request ≠ .readByte) :
    l.filter (·.request = .readByte) = [] :=
  List.filter_eq_nil_iff.mpr fun a ha => by simpa using h a ha

theorem misspelt_append (h : ∀ a ∈ l, a.request ≠ .readByte) :
    Misspelt f (l ++ k) ↔ Misspelt f k := by
  simp only [Misspelt, List.filter_append, filter_readByte_eq_nil h, List.nil_append]

theorem misspelt_concat (h : ∀ a ∈ k, a.request ≠ .readByte) :
    Misspelt f (l ++ k) ↔ Misspelt f l := by
  simp only [Misspelt, List.filter_append, filter_readByte_eq_nil h, List.append_nil]

/-- Failures that come before any byte is asked for are failures of single requests. -/
theorem failures_append (h : ∀ a ∈ l, a.request ≠ .readByte) :
    failures f u (l ++ k) = l.filterMap (failure? f) ++ failures f u k := by
  simp only [failures, misspelt_append h, List.filterMap_append, List.append_assoc]

theorem failures_concat (h : ∀ a ∈ k, a.request ≠ .readByte) (h' : k.filterMap (failure? f) = []) :
    failures f u (l ++ k) = failures f u l := by
  simp only [failures, misspelt_concat h, List.filterMap_append, h', List.append_nil]

theorem failures_nil : failures f u [] = [] := by simp [failures, Misspelt]

theorem failures_of_no_byte (h : ∀ a ∈ l, a.request ≠ .readByte) :
    failures f u l = l.filterMap (failure? f) := by
  have happend := failures_append (f := f) (k := []) (u := u) h
  rwa [List.append_nil, failures_nil, List.append_nil] at happend

@[simp] theorem events_note (e : Event) (s : σ) : events (⟨.note e, s⟩ :: l) = e :: events l := rfl

theorem failures_note (e : Event) (s : σ) :
    failures f u (⟨.note e, s⟩ :: l) = failures f u l :=
  failures_append (l := [⟨.note e, s⟩]) (by simp)

theorem failures_concat_note (e : Event) (s : σ) :
    failures f u (l ++ [⟨.note e, s⟩]) = failures f u l :=
  failures_concat (k := [⟨.note e, s⟩]) (by simp) rfl

theorem warnings_note_of_ne {e : Event} (he : e.level ≠ .warn) (s : σ) :
    warnings (⟨.note e, s⟩ :: l) = warnings l := by
  simp only [warnings, events_note, List.filter_cons, he, decide_false, Bool.false_eq_true, ↓reduceIte]

end Asked

/-! ## Reading bytes -/

namespace Asked

variable {σ : Type} (f : Responder σ)

/-- The requests are for bytes, and they were given these. -/
def Spell (l : List (Asked σ)) (bytes : List UInt8) : Prop :=
  (∀ a ∈ l, a.request = .readByte ∧ a.Complete f) ∧ l.flatMap (·.given f) = bytes

/-- The requests are for bytes, and the last one was not given any. -/
def BreakOff (l : List (Asked σ)) (e : Fault) : Prop :=
  (∀ a ∈ l, a.request = .readByte) ∧ (∃ a ∈ l, ¬ a.Complete f) ∧
    l.filterMap (failure? f) = [.read e]

variable {f} {l k : List (Asked σ)} {bytes bytes' : List UInt8} {e : Fault} {u : Bool}

theorem failure?_of_complete {a : Asked σ} (ha : a.request = .readByte) (h : a.Complete f) :
    a.failure? f = none := by
  obtain ⟨r, s⟩ := a
  subst ha
  obtain ⟨b, hb, -⟩ := complete_readByte h
  simp only [failure?, hb]
  rfl

theorem filter_readByte (h : ∀ a ∈ l, a.request = .readByte) :
    l.filter (·.request = .readByte) = l :=
  List.filter_eq_self.mpr fun a ha => decide_eq_true (h a ha)

theorem Spell.filterMap_failure? (h : Spell f l bytes) : l.filterMap (failure? f) = [] :=
  List.filterMap_eq_nil_iff.mpr fun a ha => failure?_of_complete (h.1 a ha).1 (h.1 a ha).2

theorem Spell.append (h : Spell f l bytes) (h' : Spell f k bytes') :
    Spell f (l ++ k) (bytes ++ bytes') := by
  refine ⟨fun a ha => ?_, by rw [List.flatMap_append, h.2, h'.2]⟩
  rcases List.mem_append.mp ha with ha | ha
  · exact h.1 a ha
  · exact h'.1 a ha

theorem Spell.append_breakOff (h : Spell f l bytes) (h' : BreakOff f k e) :
    BreakOff f (l ++ k) e := by
  obtain ⟨hbytes, ⟨a, ha, hnot⟩, hfailure⟩ := h'
  refine ⟨fun a ha => ?_, ⟨a, List.mem_append_right l ha, hnot⟩, ?_⟩
  · rcases List.mem_append.mp ha with ha | ha
    · exact (h.1 a ha).1
    · exact hbytes a ha
  · rw [List.filterMap_append, h.filterMap_failure?, hfailure, List.nil_append]

theorem Spell.failures_eq (h : Spell f l bytes) (hne : l ≠ []) :
    failures f u l = if u = true ∧ ¬ Utf8.IsCharacter bytes then [.read .notUtf8] else [] := by
  have hmisspelt : Misspelt f l ↔ ¬ Utf8.IsCharacter bytes := by
    rw [Misspelt, filter_readByte fun a ha => (h.1 a ha).1, h.2]
    exact ⟨fun hmis => hmis.2.2, fun hnot => ⟨hne, fun a ha => (h.1 a ha).2, hnot⟩⟩
  simp only [failures, hmisspelt, h.filterMap_failure?, List.nil_append]

theorem BreakOff.failures_eq (h : BreakOff f l e) : failures f u l = [.read e] := by
  obtain ⟨hbytes, ⟨a, ha, hnot⟩, hfailure⟩ := h
  have hmisspelt : ¬ Misspelt f l := by
    intro hmis
    rw [Misspelt, filter_readByte hbytes] at hmis
    exact hnot (hmis.2.1 a ha)
  simp only [failures, hfailure, hmisspelt, and_false, ↓reduceIte, List.append_nil]

theorem events_of_readByte (h : ∀ a ∈ l, a.request = .readByte) : events l = [] := by
  refine List.filterMap_eq_nil_iff.mpr fun a ha => ?_
  obtain ⟨r, s⟩ := a
  obtain rfl : r = .readByte := h _ ha
  rfl

end Asked

namespace Attempt

open Asked

variable {α β σ : Type} {f : Responder σ} {o : Options}

theorem asked_bind (x : Attempt α) (g : α → Attempt β) (s : σ) :
    (x >>= g).run.asked f s = x.run.asked f s ++
      match x.run.run f s with
      | (.ok a, t) => (g a).run.asked f t
      | (.error _, _) => [] := by
  rw [ExceptT.run_bind, Dialogue.asked_bind]
  rcases x.run.run f s with ⟨_ | a, t⟩ <;> rfl

theorem asked_request_bind (r : Request) (g : r.Answer → Attempt β) (s : σ) :
    (liftM (Dialogue.request r) >>= g).run.asked f s =
      ⟨r, s⟩ :: (g (f r s).1).run.asked f (f r s).2 := rfl

theorem asked_readByte (s : σ) : readByte.run.asked f s = [⟨.readByte, s⟩] := by
  unfold readByte Dialogue.readByte
  rw [asked_request_bind]
  rcases (f .readByte s).1 with e | _ | b
  · rfl
  · rfl
  · rfl

/-- A byte is given, or the read breaks off. -/
theorem readByte_spells (s : σ) :
    (∃ b t, f .readByte s = (.ok (some b), t) ∧ Spell f [⟨.readByte, s⟩] [b]) ∨
      ∃ e t, readByte.run.run f s = (.error e, t) ∧ BreakOff f [⟨.readByte, s⟩] e := by
  have hfails : ∀ {e}, Action.ByteFails f s e → ∃ t, readByte.run.run f s = (.error e, t) ∧
      BreakOff f [⟨.readByte, s⟩] e := by
    intro e he
    refine ⟨_, he.run_readByte, ?_⟩
    cases he with
    | ended h => simp [BreakOff, Complete, Request.Complete, failure?, Request.failure?, h]
    | endedWithin h he => simp [BreakOff, Complete, Request.Complete, failure?, Request.failure?, h, he]
    | failed h he => simp [BreakOff, Complete, Request.Complete, failure?, Request.failure?, h, he]
  rcases h : f .readByte s with ⟨e | _ | b, t⟩
  · by_cases he : e.kind = .endOfInput
    · exact .inr ⟨_, hfails (.endedWithin (by rw [h]) he)⟩
    · exact .inr ⟨_, hfails (.failed (by rw [h]) he)⟩
  · exact .inr ⟨_, hfails (.ended (by rw [h]))⟩
  · refine .inl ⟨b, t, rfl, ?_, ?_⟩
    · simp [Complete, Request.Complete, h]
    · simp [given, Request.given, h]

theorem readBytes_spells (n : Nat) (s : σ) :
    let l := (readBytes n).run.asked f s
    (∃ bs t, (readBytes n).run.run f s = (.ok bs, t) ∧ Spell f l bs) ∨
      ∃ e t, (readBytes n).run.run f s = (.error e, t) ∧ BreakOff f l e := by
  induction n generalizing s with
  | zero => exact .inl ⟨[], s, rfl, List.forall_mem_nil _, rfl⟩
  | succ n ih =>
      simp only [readBytes, asked_bind, run_bind, asked_readByte]
      rcases readByte_spells (f := f) s with ⟨b, t, hb, hspell⟩ | ⟨e, t, he, hbreak⟩
      · simp only [Action.run_readByte_of_eq hb]
        rcases ih t with ⟨bs, v, hbs, hspell'⟩ | ⟨e, v, he, hbreak⟩
        · simp only [hbs]
          exact .inl ⟨b :: bs, v, rfl, hspell.append (List.append_nil _ ▸ hspell')⟩
        · simp only [he]
          exact .inr ⟨e, v, rfl, hspell.append_breakOff (List.append_nil _ ▸ hbreak)⟩
      · simp only [he]
        exact .inr ⟨e, t, rfl, hbreak⟩

theorem asked_map (x : Attempt α) (g : α → β) (s : σ) :
    (g <$> x).run.asked f s = x.run.asked f s := by
  rw [ExceptT.run_map, ← bind_pure_comp, Dialogue.asked_bind]
  exact List.append_nil _

theorem asked_readRest (lead : UInt8) (s : σ) :
    (readRest lead).run.asked f s =
      (readBytes ((Utf8.length? lead).getD 1 - 1)).run.asked f s := by
  unfold readRest
  cases Utf8.length? lead with
  | none => rfl
  | some n =>
      simp only [asked_bind, Option.getD_some]
      rcases (readBytes (n - 1)).run.run f s with ⟨e | bs, t⟩
      · exact List.append_nil _
      · simp only
        split
        · exact List.append_nil _
        · exact List.append_nil _

theorem asked_character_of_lead {u : Bool} {s t : σ} {b : UInt8}
    (hb : f .readByte s = (.ok (some b), t)) :
    (character u).run.asked f s = ⟨.readByte, s⟩ ::
      if u then (readBytes ((Utf8.length? b).getD 1 - 1)).run.asked f t else [] := by
  rw [character, asked_bind, asked_readByte, Action.run_readByte_of_eq hb]
  cases u with
  | false => rfl
  | true => simp only [↓reduceIte, bind_pure_comp, asked_map, asked_readRest, List.singleton_append]

theorem not_isCharacter_of_length? {b : UInt8} (h : Utf8.length? b = none) :
    ¬ Utf8.IsCharacter [b] := by
  rintro ⟨c, hc⟩
  rw [(Utf8.spells_of_eq_encode hc).1] at h
  cases h

theorem failures_character (u : Bool) (s : σ) :
    let l := (character u).run.asked f s
    (∀ a ∈ l, a.request = .readByte) ∧ failures f u l = Failure.ofRead ((character u).run.run f s).1 := by
  rcases readByte_spells (f := f) s with ⟨b, t, hb, hspell⟩ | ⟨e, t, he, hbreak⟩
  case inr =>
    have hasked : (character u).run.asked f s = [⟨.readByte, s⟩] := by
      rw [character, asked_bind, asked_readByte, he]
      rfl
    have hrun : (character u).run.run f s = (.error e, t) := by rw [character, run_bind, he]
    rw [hasked, hrun]
    exact ⟨hbreak.1, hbreak.failures_eq⟩
  rw [asked_character_of_lead hb, Action.run_character_of_lead hb]
  cases u with
  | false => exact ⟨fun a ha => (hspell.1 a ha).1, hspell.failures_eq (List.cons_ne_nil _ _)⟩
  | true =>
      simp only [↓reduceIte]
      cases hlength : Utf8.length? b with
      | none =>
          refine ⟨fun a ha => (hspell.1 a ha).1, (hspell.failures_eq (List.cons_ne_nil _ _)).trans ?_⟩
          exact if_pos ⟨rfl, not_isCharacter_of_length? hlength⟩
      | some n =>
          rw [Option.getD_some]
          rcases readBytes_spells (f := f) (n - 1) t with ⟨bs, v, hbs, hspell'⟩ | ⟨e, v, he, hbreak⟩
          · have hall := hspell.append hspell'
            refine ⟨fun a ha => (hall.1 a ha).1, (hall.failures_eq (List.cons_ne_nil _ _)).trans ?_⟩
            simp only [hbs]
            by_cases hc : Utf8.IsCharacter (b :: bs)
            · obtain ⟨c, hd⟩ := Utf8.isCharacter_iff.mp hc
              simp only [hd]
              exact if_neg fun h => h.2 hc
            · have hd : ∀ c, Utf8.decode? (b :: bs) ≠ some [c] :=
                fun c hd => hc (Utf8.isCharacter_iff.mpr ⟨c, hd⟩)
              simp only [List.singleton_append, hc, not_false_eq_true, and_self, ↓reduceIte,
                Failure.ofRead]
          · have hall := hspell.append_breakOff hbreak
            simp only [he]
            exact ⟨hall.1, hall.failures_eq⟩

theorem asked_settle (a : Except StreamError Unit) (s : σ) :
    (settle o a).run.asked f s = match a with
      | .ok _ => []
      | .error e => if o.strictStreams then [] else [⟨.note (.streamErrorIgnored e), s⟩] := by
  cases a with
  | ok => rfl
  | error e =>
      simp only [settle]
      split
      · rfl
      · rfl

theorem asked_recover (event : Fault → Event) (x : Attempt α) (s : σ) :
    (recover o event x).run.asked f s = x.run.asked f s ++
      match x.run.run f s with
      | (.ok _, _) => []
      | (.error e, t) => if o.strictStreams then [] else [⟨.note (event e), t⟩] := by
  rw [recover, ExceptT.run_mk, Dialogue.asked_bind]
  rcases x.run.run f s with ⟨e | a, t⟩
  · simp only
    split
    · rfl
    · rfl
  · rfl

end Attempt

/-! ## How failures are logged -/

namespace Asked

variable {σ : Type} (f : Responder σ) (o : Options) (report : Failure → Event)

/-- Of the requests, the failures are logged in the given way if stream errors are passed over, and not
at all if they are fatal; and the end of the program is not logged. -/
structure Logged (l : List (Asked σ)) : Prop where
  warnings_eq : warnings l = if o.strictStreams then [] else (failures f o.unicode l).map report
  level_ne : ∀ e ∈ events l, e.level ≠ .debug

variable {f o report} {l k : List (Asked σ)}

theorem Logged.nil : Logged f o report [] where
  warnings_eq := by
    rw [failures_nil]
    exact (ite_self _).symm
  level_ne := List.forall_mem_nil _

theorem Logged.append (hbytes : ∀ a ∈ l, a.request ≠ .readByte) (h : Logged f o report l)
    (h' : Logged f o report k) : Logged f o report (l ++ k) where
  warnings_eq := by
    rw [warnings_append, h.warnings_eq, h'.warnings_eq, failures_append hbytes,
      failures_of_no_byte hbytes]
    split
    · rfl
    · rw [List.map_append]
  level_ne := by
    intro e he
    rw [events_append, List.mem_append] at he
    exact he.elim (h.level_ne e) (h'.level_ne e)

section

variable (hlevel : ∀ x, (report x).level = .warn)

include hlevel

/-- One failure, and what the policy makes of it. -/
theorem Logged.failure {x : Failure} (hl : events l = []) (hfailures : failures f o.unicode l = [x])
    (t : σ) :
    Logged f o report (l ++ if o.strictStreams then [] else [⟨.note (report x), t⟩]) where
  warnings_eq := by
    have hwarnings : warnings l = [] := by rw [warnings, hl, List.filter_nil]
    split
    · rw [List.append_nil, hwarnings]
    · rw [failures_concat (by simp) rfl, hfailures, warnings_append, hwarnings]
      simp [warnings, events, event?, hlevel]
  level_ne := by
    intro e he
    rw [events_append, hl, List.nil_append] at he
    split at he
    · cases he
    · simp only [events, event?, List.filterMap_cons, List.filterMap_nil, List.mem_singleton] at he
      rw [he, hlevel]
      nofun

/-- A write or a flush, and what the policy makes of its answer. -/
theorem Logged.settle {a : Asked σ} {answer : Except StreamError Unit} (ha : a.event? = none)
    (hbyte : a.request ≠ .readByte)
    (hanswer : a.failure? f = match answer with
      | .ok _ => none
      | .error e => some (.sink e))
    (hsink : ∀ e, report (.sink e) = .streamErrorIgnored e) (t : σ) :
    Logged f o report (a :: (Attempt.settle o answer).run.asked f t) := by
  have hl : events [a] = [] := List.filterMap_cons_none ha
  have hfailures : failures f o.unicode [a] = [a].filterMap (failure? f) :=
    failures_of_no_byte (List.forall_mem_singleton.mpr hbyte)
  rw [Attempt.asked_settle]
  cases answer with
  | ok u =>
      rw [List.filterMap_cons_none hanswer] at hfailures
      refine ⟨?_, by rw [hl]; exact List.forall_mem_nil _⟩
      rw [warnings, hl, hfailures]
      exact (ite_self _).symm
  | error e =>
      rw [List.filterMap_cons_some hanswer] at hfailures
      simp only [← hsink]
      exact Logged.failure hlevel hl hfailures t

end

end Asked

namespace Action

open Asked Attempt

/-- The failures of the action are logged in the given way. -/
def IsLoggedBy (report : Failure → Event) : Action → Prop
  | .readInteger failed => ∀ e, report (.read e) = failed e
  | .readChar => ∀ e, report (.read e) = .characterInputFailed e
  | .write _ | .flush | .ask _ | .discard .. => ∀ e, report (.sink e) = .streamErrorIgnored e

variable {σ : Type} {f : Responder σ} {o : Options} {report : Failure → Event}

theorem logged_write (hlevel : ∀ x, (report x).level = .warn)
    (hsink : ∀ e, report (.sink e) = .streamErrorIgnored e) (ch : Channel) (bytes : List UInt8)
    (s : σ) :
    Logged f o report (⟨.write ch bytes, s⟩ ::
      (settle o (f (.write ch bytes) s).1).run.asked f (f (.write ch bytes) s).2) := by
  refine .settle hlevel rfl (fun h : Request.write ch bytes = .readByte => by cases h) ?_ hsink _
  simp only [failure?]
  cases (f (.write ch bytes) s).1 <;> rfl

theorem logged_flush (hlevel : ∀ x, (report x).level = .warn)
    (hsink : ∀ e, report (.sink e) = .streamErrorIgnored e) (ch : Channel) (s : σ) :
    Logged f o report (⟨.flush ch, s⟩ ::
      (settle o (f (.flush ch) s).1).run.asked f (f (.flush ch) s).2) := by
  refine .settle hlevel rfl (fun h : Request.flush ch = .readByte => by cases h) ?_ hsink _
  simp only [failure?]
  cases (f (.flush ch) s).1 <;> rfl

theorem asked_prompt (b : Int64) (s : σ) :
    (prompt o b).run.asked f s = ⟨.write .diagnostics (question b), s⟩ ::
      match f (.write .diagnostics (question b)) s with
      | (.ok _, t) => ⟨.flush .diagnostics, t⟩ ::
        (settle o (f (.flush .diagnostics) t).1).run.asked f (f (.flush .diagnostics) t).2
      | (.error e, t) => (settle o (.error e)).run.asked f t := by
  unfold prompt Dialogue.write question
  simp only
  rw [asked_request_bind]
  rcases f (.write .diagnostics _) s with ⟨e | _, t⟩
  · rfl
  · rfl

theorem logged_recover {α : Type} {x : Attempt α} {failed : Fault → Event} {s : σ}
    (hlevel : ∀ x, (report x).level = .warn) (hread : ∀ e, report (.read e) = failed e)
    (hevents : events (x.run.asked f s) = [])
    (hfailures : failures f o.unicode (x.run.asked f s) = Failure.ofRead (x.run.run f s).1) :
    Logged f o report ((recover o failed x).run.asked f s) := by
  rw [asked_recover]
  generalize x.run.run f s = y at hfailures ⊢
  obtain ⟨e | v, t⟩ := y
  · simp only [← hread]
    exact .failure hlevel hevents hfailures t
  · rw [List.append_nil]
    refine ⟨?_, by rw [hevents]; exact List.forall_mem_nil _⟩
    rw [warnings, hevents, hfailures]
    exact (ite_self _).symm

theorem asked_integerLine (s : σ) : integerLine.run.asked f s = [⟨.readLine, s⟩] := by
  rw [run_integerLine, ← bind_pure_comp, Dialogue.asked_bind]
  rfl

theorem run_integerLine_eq (s : σ) :
    integerLine.run.run f s = (integerOf (f .readLine s).1, (f .readLine s).2) := by
  rw [run_integerLine, Dialogue.run_map]
  rfl

theorem asked_discard (x y v : Int64) (s : σ) :
    ((Action.discard x y v).perform o).run.asked f s = [⟨.note (.putDiscarded x y v), s⟩] := rfl

theorem logged_perform {a : Action} (hlevel : ∀ x, (report x).level = .warn)
    (ha : a.IsLoggedBy report) (s : σ) : Logged f o report ((a.perform o).run.asked f s) := by
  cases a with
  | write bytes =>
      rw [perform, bind_pure_comp, asked_map]
      exact logged_write hlevel ha .output bytes s
  | flush =>
      rw [perform, bind_pure_comp, asked_map]
      exact logged_flush hlevel ha .output s
  | ask b =>
      rw [perform, bind_pure_comp, asked_map, asked_prompt]
      have hwrite := logged_write (f := f) (o := o) hlevel ha .diagnostics (question b) s
      generalize h : f (.write .diagnostics (question b)) s = x at hwrite ⊢
      obtain ⟨e | u, t⟩ := x
      · exact hwrite
      · exact .append (l := [_]) (by simp) hwrite (logged_flush hlevel ha .diagnostics t)
  | readInteger failed =>
      refine logged_recover hlevel ha (by rw [asked_integerLine]; rfl) ?_
      rw [asked_integerLine, run_integerLine_eq, failures_of_no_byte (by simp)]
      simp only [List.filterMap_cons, List.filterMap_nil, failure?, Request.failure?]
      cases integerOf (f .readLine s).1 <;> rfl
  | readChar =>
      obtain ⟨hbytes, hfailures⟩ := failures_character (f := f) o.unicode s
      exact logged_recover hlevel ha (events_of_readByte hbytes) hfailures
  | discard x y v =>
      rw [asked_discard]
      refine ⟨?_, List.forall_mem_singleton.mpr (by simp [Event.level])⟩
      rw [failures_of_no_byte (by simp)]
      exact (ite_self _).symm

theorem exists_note_of_settle (answer : Except StreamError Unit) (s : σ) :
    ∀ b ∈ (settle o answer).run.asked f s, ∃ e, b.request = .note e := by
  rw [asked_settle]
  cases answer with
  | ok => exact List.forall_mem_nil _
  | error e =>
      simp only
      split
      · exact List.forall_mem_nil _
      · exact List.forall_mem_singleton.mpr ⟨_, rfl⟩

theorem settle_ne_readByte (answer : Except StreamError Unit) (s : σ) :
    ∀ b ∈ (settle o answer).run.asked f s, b.request ≠ .readByte := by
  intro b hb
  obtain ⟨e, he⟩ := exists_note_of_settle answer s b hb
  simp [he]

theorem perform_ne_readByte {a : Action} (ha : a ≠ .readChar) (s : σ) :
    ∀ b ∈ (a.perform o).run.asked f s, b.request ≠ .readByte := by
  cases a with
  | write bytes =>
      rw [perform, bind_pure_comp, asked_map]
      exact List.forall_mem_cons.mpr ⟨by simp, settle_ne_readByte _ _⟩
  | flush =>
      rw [perform, bind_pure_comp, asked_map]
      exact List.forall_mem_cons.mpr ⟨by simp, settle_ne_readByte _ _⟩
  | ask b =>
      rw [perform, bind_pure_comp, asked_map, asked_prompt]
      refine List.forall_mem_cons.mpr ⟨by simp, ?_⟩
      rcases f (.write .diagnostics (question b)) s with ⟨e | u, t⟩
      · exact settle_ne_readByte _ _
      · exact List.forall_mem_cons.mpr ⟨by simp, settle_ne_readByte _ _⟩
  | readInteger failed =>
      rw [perform, asked_recover, asked_integerLine]
      refine List.forall_mem_cons.mpr ⟨by simp, ?_⟩
      rcases integerLine.run.run f s with ⟨e | v, t⟩
      · simp only
        split
        · exact List.forall_mem_nil _
        · simp
      · exact List.forall_mem_nil _
  | readChar => exact absurd rfl ha
  | discard x y v =>
      rw [asked_discard]
      simp

theorem logged_performAll {as : List Action} (hlevel : ∀ x, (report x).level = .warn)
    (has : ∀ a ∈ as, a.IsLoggedBy report) (hchar : ∀ a ∈ as.dropLast, a ≠ .readChar) (s : σ) :
    Logged f o report ((performAll o as).run.asked f s) := by
  induction as generalizing s with
  | nil => exact .nil
  | cons a as ih =>
      have ha := logged_perform (f := f) (o := o) hlevel (has a List.mem_cons_self) s
      rw [performAll, asked_bind]
      simp only [bind_pure_comp, asked_map]
      cases as with
      | nil =>
          -- There is nothing after the last action, which may be one that reads a character.
          rw [← List.append_nil ((a.perform o).run.asked f s)] at ha
          rcases (a.perform o).run.run f s with ⟨e | v, t⟩
          · exact ha
          · exact ha
      | cons b bs =>
          refine .append (perform_ne_readByte (hchar a List.mem_cons_self) s) ha ?_
          rcases (a.perform o).run.run f s with ⟨e | v, t⟩
          · exact .nil
          · exact ih (fun a ha => has a (List.mem_cons_of_mem _ ha))
              (fun a ha => hchar a (List.mem_cons_of_mem _ ha)) t

end Action

end Befunge
