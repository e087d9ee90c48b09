import Befunge.Direction

/-!
# The random generator

A generator of 64-bit words with four words of state (xoshiro256++), whose state is filled from a
seed by a second, smaller generator (PCG32).
-/

namespace Befunge

structure Generator where
  s0 : UInt64
  s1 : UInt64
  s2 : UInt64
  s3 : UInt64
  deriving DecidableEq, Repr, Inhabited

namespace Generator

/-- The word rotated left by `k` bits, for `0 < k < 64`. -/
def rotateLeft (w k : UInt64) : UInt64 := (w <<< k) ||| (w >>> (64 - k))

/-- The 32-bit word rotated right by `k` bits, for `k < 32`. -/
def rotateRight32 (w k : UInt32) : UInt32 := (w >>> k) ||| (w <<< (32 - k))

/-! ## Seeding -/

def seedStep (st : UInt64) : UInt64 := st * 6364136223846793005 + 11634580027462260723

/-- The 32-bit word that a seeding state gives. -/
def seedWord (st : UInt64) : UInt32 :=
  rotateRight32 (((st >>> 18) ^^^ st) >>> 27).toUInt32 (st >>> 59).toUInt32

/-- The 64-bit word that two seeding steps give, low half first, and the state after them. -/
def seedPair (st : UInt64) : UInt64 × UInt64 :=
  let lo := seedStep st
  let hi := seedStep lo
  ((seedWord lo).toUInt64 + ((seedWord hi).toUInt64 <<< 32), hi)

def ofSeed (seed : UInt64) : Generator :=
  let (s0, st) := seedPair seed
  let (s1, st) := seedPair st
  let (s2, st) := seedPair st
  let (s3, _) := seedPair st
  ⟨s0, s1, s2, s3⟩

/-! ## Drawing -/

/-- The next word, and the generator after it. -/
def next (g : Generator) : UInt64 × Generator :=
  let s2 := g.s2 ^^^ g.s0
  let s3 := g.s3 ^^^ g.s1
  (rotateLeft (g.s0 + g.s3) 23 + g.s0,
    { s0 := g.s0 ^^^ s3
      s1 := g.s1 ^^^ s2
      s2 := s2 ^^^ (g.s1 <<< 17)
      s3 := rotateLeft s3 45 })

def integer (g : Generator) : Int64 × Generator := (g.next.1.toInt64, g.next.2)

/-- The direction chosen by the two highest bits of a word. -/
def directionOf (w : UInt64) : Direction :=
  match (w >>> 62).toNat with
  | 0 => .right
  | 1 => .down
  | 2 => .left
  | _ => .up

def direction (g : Generator) : Direction × Generator := (directionOf g.next.1, g.next.2)

/-- The first words of xoshiro256++ from the state 1, 2, 3, 4. -/
example :
    let g : Generator := ⟨1, 2, 3, 4⟩
    (g.next.1, g.next.2.next.1, g.next.2.next.2.next.1) =
      (41943041, 58720359, 3588806011781223) := by
  decide

/-- What seed 7 gives: an integer, and then a direction. -/
example :
    let g := ofSeed 7
    (g.integer.1, g.integer.2.direction.1) = (-570703542245633307, .down) := by
  decide

end Generator

end Befunge
