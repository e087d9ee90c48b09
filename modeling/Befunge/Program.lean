import Befunge.Grid
import Befunge.Options
import Befunge.Source

/-!
# Programs

A program is a playfield together with the options it was built with. Building one from a source
text refuses, in this order, unsupported switches, characters outside ASCII and texts larger than the
standard playfield; smaller texts are filled up with spaces to that size.
-/

namespace Befunge

/-- A playfield with the options that hold for it. -/
structure Program where
  grid : Grid
  options : Options
  deriving DecidableEq, Repr

namespace BuildError

/-- What is wrong with a source text or its options. -/
inductive Cause
  | notAscii
  /-- The text does not fit the standard playfield. -/
  | tooLarge
  /-- A switch is on that is not supported. -/
  | unsupported (o : UnsupportedOption)
  deriving DecidableEq, Repr

def Cause.message : Cause → String
  | .notAscii => "non-ASCII content"
  | .tooLarge => "program too large"
  | .unsupported o => s!"unsupported option: {o.name}"

end BuildError

structure BuildError where
  cause : BuildError.Cause
  /-- The first offending character, or the size of a text that is too large. -/
  pos : Pos
  deriving DecidableEq, Repr

def BuildError.message (e : BuildError) : String :=
  s!"compilation error at ({e.pos.x}, {e.pos.y}): {e.cause.message}"

def Options.validate (o : Options) : Except BuildError Unit :=
  match o.unsupported? with
  | some u => .error ⟨.unsupported u, ⟨0, 0⟩⟩
  | none => .ok ()

def isAscii (c : Char) : Bool := c.toNat < 128

/-- The place of the first character outside ASCII, line by line. -/
def Source.firstNonAscii? (lines : List (List Char)) : Option Pos :=
  lines.zipIdx.findSome? fun (l, y) => (l.findIdx? (!isAscii ·)).map (⟨·, y⟩)

/-- The first thing that is wrong with a text of these lines under the given options. -/
def Source.problem? (lines : List (List Char)) (options : Options) : Option BuildError :=
  match options.validate with
  | .error e => some e
  | .ok () =>
    match if options.unicode then none else firstNonAscii? lines with
    | some p => some ⟨.notAscii, p⟩
    | none =>
      if options.anySize ∨ (width lines ≤ standardWidth ∧ lines.length ≤ standardHeight) then none
      else some ⟨.tooLarge, ⟨width lines, lines.length⟩⟩

def Program.build (source : List Char) (options : Options) : Except BuildError Program :=
  let lines := Source.lines source
  match Source.problem? lines options with
  | some e => .error e
  | none =>
    let width := max (Source.width lines) standardWidth
    let height := max lines.length standardHeight
    .ok ⟨.ofRows width height lines, options⟩

end Befunge
