import Befunge.Options
import Befunge.Text.Decimal

/-!
# The command line

An invocation names one file and sets options, each at most once. Switches stand alone; settings take
an unsigned number, either as the next argument or after an equals sign. After `--` every argument is
a file name, and so is a lone `-`.
-/

namespace Befunge.CommandLine

open Text

inductive Switch
  | undefinedReads
  | ignoreUnknown
  | anySize
  | unicode
  | strictDivision
  | strictStreams
  | strictBounds
  | printProgram
  deriving DecidableEq, Repr

inductive Setting
  | seed
  | maxSteps
  deriving DecidableEq, Repr

namespace Switch

def all : List Switch :=
  [.undefinedReads, .ignoreUnknown, .anySize, .unicode, .strictDivision, .strictStreams,
    .strictBounds, .printProgram]

def flag : Switch → String
  | .undefinedReads => "--read-error-undefined"
  | .ignoreUnknown => "--ignore-unsupported-instructions"
  | .anySize => "--allow-arbitrary-code-size"
  | .unicode => "--allow-unicode"
  | .strictDivision => "--disallow-div-zero"
  | .strictStreams => "--terminate-on-io-err"
  | .strictBounds => "--terminate-on-put-get-out-of-bounds"
  | .printProgram => "--print-prog"

def ofFlag? (s : String) : Option Switch := all.find? (·.flag == s)

end Switch

namespace Setting

def flag : Setting → String
  | .seed => "--rand-seed"
  | .maxSteps => "--max-steps"

def ofFlag? (s : String) : Option Setting := [seed, maxSteps].find? (·.flag == s)

end Setting

/-- What an argument, or a setting with its value, stands for. -/
inductive Item
  | switch (s : Switch)
  | setting (s : Setting) (v : UInt64)
  | file (name : String)
  deriving DecidableEq, Repr

/-- An argument that is an option: it starts with a hyphen and goes on. -/
def isOption (arg : String) : Bool :=
  match arg.toList with
  | '-' :: _ :: _ => true
  | _ => false

/-- The part of an argument before its first equals sign, and the part after it. -/
def splitValue (arg : String) : String × Option (List Char) :=
  let cs := arg.toList
  let name := String.ofList (cs.takeWhile (· != '='))
  match cs.dropWhile (· != '=') with
  | [] => (name, none)
  | _ :: value => (name, some value)

/-- A setting with its value given as text. -/
def settingItem? (s : Setting) (value : List Char) : Option Item :=
  (Decimal.parseUnsigned? value).map (.setting s)

/-- Reads the arguments one by one; `none` if one of them has no meaning. -/
def items? : List String → Option (List Item)
  | [] => some []
  | arg :: rest =>
    if arg = "--" then some (rest.map .file)
    else if !isOption arg then (items? rest).map (.file arg :: ·)
    else
      match Switch.ofFlag? arg, splitValue arg with
      | some s, _ => (items? rest).map (.switch s :: ·)
      | none, (name, some value) => do
        let item ← settingItem? (← Setting.ofFlag? name) value
        (items? rest).map (item :: ·)
      | none, (name, none) =>
        match rest with
        | [] => none
        | value :: rest => do
          let setting ← Setting.ofFlag? name
          if isOption value then none
          else
            let item ← settingItem? setting value.toList
            (items? rest).map (item :: ·)

/-- The text that identifies an option, or `none` for a file. -/
def Item.flag? : Item → Option String
  | .switch s => some s.flag
  | .setting s _ => some s.flag
  | .file _ => none

/-- The name of a file, or `none` for an option. -/
def Item.file? : Item → Option String
  | .file name => some name
  | _ => none

/-- The value of a setting among the items. -/
def value? (items : List Item) (s : Setting) : Option UInt64 :=
  items.findSome? fun
    | .setting t v => if t = s then some v else none
    | _ => none

end CommandLine

open CommandLine

structure Invocation where
  file : String
  options : Options
  /-- The playfield is printed before the run, and after a fault. -/
  printProgram : Bool
  /-- The number of steps after which the run is broken off. -/
  maxSteps : Option UInt64
  deriving DecidableEq, Repr

namespace Invocation

def optionsOf (items : List Item) : Options where
  undefinedReads := items.contains (.switch .undefinedReads)
  ignoreUnknown := items.contains (.switch .ignoreUnknown)
  anySize := items.contains (.switch .anySize)
  unicode := items.contains (.switch .unicode)
  strictDivision := items.contains (.switch .strictDivision)
  seed := (value? items .seed).getD 0
  strictStreams := items.contains (.switch .strictStreams)
  strictBounds := items.contains (.switch .strictBounds)

/-- The invocation of a list of arguments; `none` if it is not well formed. -/
def parse? (args : List String) : Option Invocation := do
  let items ← items? args
  match items.filterMap Item.file? with
  | [file] =>
    if (items.filterMap Item.flag?).Nodup then
      some {
        file
        options := optionsOf items
        printProgram := items.contains (.switch .printProgram)
        maxSteps := value? items .maxSteps }
    else none
  | _ => none

end Invocation

end Befunge
