import Befunge.Attempt
import Befunge.Cell
import Befunge.Machine

/-!
# Executing an instruction

A handler works on the machine in place: it takes operands from the stack, makes requests and pushes
what comes of them. A fault ends it at once. Nothing is undone then: the machine stays as the handler
has left it at that moment.
-/

namespace Befunge

open Text

/-- How an instruction ends that does not fault. -/
inductive Flow
  /-- The program goes on: the machine has yet to leave the cell. -/
  | next
  | stop
  deriving DecidableEq, Repr

/-- A computation that changes a machine, makes requests and may fault. -/
abbrev Handler := ExceptT Fault (StateT Machine Dialogue)

namespace Handler

/-- Makes an attempt, which neither sees the machine nor changes it. -/
def attempt (x : Attempt α) : Handler α := ExceptT.mk fun m => (·, m) <$> x.run

instance : MonadLift Attempt Handler := ⟨attempt⟩

/-! ## Parts of the machine -/

def push (v : Int64) : Handler Unit := modify (·.push v)

def pop : Handler Int64 := modifyGet fun m => (m.stack.pop.1, m.withStack m.stack.pop.2)

def pop2 : Handler (Int64 × Int64) :=
  modifyGet fun m => (m.stack.pop2.1, m.withStack m.stack.pop2.2)

def turn (d : Direction) : Handler Unit := modify ({ · with direction := d })

def drawDirection : Handler Direction :=
  modifyGet fun m =>
    (m.generator.direction.1, { m with generator := m.generator.direction.2 })

def drawInteger : Handler Int64 :=
  modifyGet fun m => (m.generator.integer.1, { m with generator := m.generator.integer.2 })

/-- The character that a value stands for. -/
def toChar (o : Options) (v : Int64) : Handler Char :=
  match Cell.ofValue? o.unicode v with
  | some c => pure c
  | none => throw (.notACharacter v)

/-! ## Instructions -/

def divide (o : Options) : Handler Unit := do
  let (a, b) ← pop2
  if a ≠ 0 then push (b / a)
  else if o.strictDivision then throw (.divisionByZero '/' b)
  else push (← Attempt.askQuotient o b)

def remainder : Handler Unit := do
  let (a, b) ← pop2
  if a = 0 then throw (.divisionByZero '%' b)
  push (b % a)

def writeChar (o : Options) : Handler Unit := do
  let a ← pop
  if o.unicode then Attempt.emit o (Utf8.encode [← toChar o a])
  else Attempt.emit o [Cell.byte a]

def store (o : Options) : Handler Unit := do
  let (y, x) ← pop2
  let v ← pop
  match (← get).program.grid.locate x y with
  | some p =>
    let c ← toChar o v
    modify (·.store p c)
  | none =>
    if o.strictBounds then throw (.outOfBounds x y)
    Dialogue.note (.putDiscarded x y v)

def load (o : Options) : Handler Unit := do
  let (y, x) ← pop2
  let grid := (← get).program.grid
  match grid.locate x y with
  | some p => push (Cell.read o.unicode (grid.cell p))
  | none =>
    if o.strictBounds then throw (.outOfBounds x y)
    push 0

def readInteger (o : Options) : Handler Unit := do
  match ← Attempt.recover o .integerInputFailed (Attempt.readInteger o) with
  | some v => push v
  | none =>
    if o.undefinedReads then push (← drawInteger)
    else push (-1)

def readChar (o : Options) : Handler Unit := do
  let v ← Attempt.recover o .characterInputFailed (Attempt.readChar o)
  push (v.getD (-1))

def execute (o : Options) (i : Instruction) : Handler Flow := do
  match i with
  | .digit d => push (Int64.ofNat d.val)
  | .binary op => do
    let (a, b) ← pop2
    push (op.eval b a)
  | .divide => divide o
  | .remainder => remainder
  | .not => do
    let a ← pop
    push (if a = 0 then 1 else 0)
  | .move d => turn d
  | .random => turn (← drawDirection)
  | .horizontalIf => turn (if (← pop) = 0 then .right else .left)
  | .verticalIf => turn (if (← pop) = 0 then .down else .up)
  | .toggleString => modify fun m => { m with stringMode := !m.stringMode }
  | .duplicate => do
    let a ← pop
    push a
    push a
  | .swap => do
    let (a, b) ← pop2
    push a
    push b
  | .discard => discard pop
  | .writeInteger => do
    let a ← pop
    Attempt.emit o (Utf8.encode (Decimal.ofInt64 a ++ [' ']))
  | .writeChar => writeChar o
  | .bridge => modify (·.advance)
  | .put => store o
  | .get => load o
  | .readInteger => readInteger o
  | .readChar => readChar o
  | .stop => do
    Attempt.flush o
    return .stop
  | .nop => pure ()
  | .unknown ch => unless o.ignoreUnknown do throw (.unknownInstruction ch)
  pure .next

end Handler

end Befunge
