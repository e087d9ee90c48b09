import Befunge.StreamError

/-!
# Inputs

An input is what is still to come of a stream: pieces of bytes, reported ends and failures. After the
last of them every read reports the end. Where one piece stops and the next begins is of no account,
and an interrupted read is repeated.
-/

namespace Befunge

inductive Input.Part
  | bytes (bs : List UInt8)
  /-- One read reports the end of the input. -/
  | pause
  | failure (e : StreamError)
  deriving DecidableEq, Repr

abbrev Input := List Input.Part

namespace Input

/-- Takes the next byte; `none` is the end of the input. -/
def readByte : Input → Except StreamError (Option UInt8) × Input
  | [] => (.ok none, [])
  | .bytes [] :: rest => readByte rest
  | .bytes (b :: bs) :: rest => (.ok (some b), .bytes bs :: rest)
  | .pause :: rest => (.ok none, rest)
  | .failure e :: rest => if e.kind = .interrupted then readByte rest else (.error e, rest)

/-- The bytes up to and with the first line feed, and those after it if there is one. -/
def splitLine : List UInt8 → List UInt8 × Option (List UInt8)
  | [] => ([], none)
  | b :: bs =>
    if b = 10 then ([b], some bs)
    else
      let (line, rest) := splitLine bs
      (b :: line, rest)

/-- Takes the bytes up to and with the next line feed, or up to the end of the input. A failure loses
the bytes before it. -/
def readLine : Input → Except StreamError (List UInt8) × Input
  | [] => (.ok [], [])
  | .bytes bs :: rest =>
    match splitLine bs with
    | (line, some after) => (.ok line, .bytes after :: rest)
    | (line, none) =>
      let (more, rest) := readLine rest
      (more.map (line ++ ·), rest)
  | .pause :: rest => (.ok [], rest)
  | .failure e :: rest => if e.kind = .interrupted then readLine rest else (.error e, rest)

end Input

end Befunge
