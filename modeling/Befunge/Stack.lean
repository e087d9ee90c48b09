/-!
# The operand stack

A stack of 64-bit integers that never runs out: below its last value lie zeros without end.
-/

namespace Befunge

structure Stack where
  /-- The values, top first. -/
  values : List Int64 := []
  deriving DecidableEq, Repr, Inhabited

namespace Stack

def push (s : Stack) (v : Int64) : Stack := ⟨v :: s.values⟩

/-- The value with `i` values above it; zero if there is none. -/
def peek (s : Stack) (i : Nat) : Int64 := s.values.getD i 0

def drop (s : Stack) (n : Nat) : Stack := ⟨s.values.drop n⟩

/-- Takes the top of the stack; an empty stack gives zero and stays empty. -/
def pop (s : Stack) : Int64 × Stack := (s.peek 0, s.drop 1)

/-- Takes two values: first the top, then the one below it. -/
def pop2 (s : Stack) : (Int64 × Int64) × Stack := ((s.peek 0, s.peek 1), s.drop 2)

def depth (s : Stack) : Nat := s.values.length

def isEmpty (s : Stack) : Bool := s.values.isEmpty

/-- The values from the bottom to the top. -/
def toList (s : Stack) : List Int64 := s.values.reverse

@[simp] theorem peek_push_zero (s : Stack) (v : Int64) : (s.push v).peek 0 = v := rfl

@[simp] theorem peek_push_succ (s : Stack) (v : Int64) (i : Nat) :
    (s.push v).peek (i + 1) = s.peek i := rfl

@[simp] theorem drop_zero (s : Stack) : s.drop 0 = s := rfl

@[simp] theorem drop_push_succ (s : Stack) (v : Int64) (n : Nat) :
    (s.push v).drop (n + 1) = s.drop n := rfl

theorem drop_drop (s : Stack) (m n : Nat) : (s.drop m).drop n = s.drop (m + n) := by
  simp [drop]

theorem peek_drop (s : Stack) (n i : Nat) : (s.drop n).peek i = s.peek (n + i) := by
  simp [peek, drop, List.getD]

@[simp] theorem pop_push (s : Stack) (v : Int64) : (s.push v).pop = (v, s) := rfl

theorem pop2_eq (s : Stack) : s.pop2 = ((s.pop.1, s.pop.2.pop.1), s.pop.2.pop.2) := by
  simp [pop, pop2, peek_drop, drop_drop]

@[simp] theorem toList_push (s : Stack) (v : Int64) : (s.push v).toList = s.toList ++ [v] := by
  simp [toList, push]

end Stack

end Befunge
