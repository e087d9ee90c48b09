import Befunge.Attempt
import Befunge.Cell
import Befunge.Command
import Befunge.CommandLine
import Befunge.Console
import Befunge.Dialogue
import Befunge.Direction
import Befunge.Event
import Befunge.Fault
import Befunge.Generator
import Befunge.Grid
import Befunge.Grid.Render
import Befunge.Input
import Befunge.Instruction
import Befunge.Machine
import Befunge.Machine.Execute
import Befunge.Machine.Step
import Befunge.Main
import Befunge.Options
import Befunge.Program
import Befunge.Proofs.Bounds
import Befunge.Proofs.Coupling
import Befunge.Proofs.Effect
import Befunge.Proofs.Runs
import Befunge.Proofs.Strictness
import Befunge.Session
import Befunge.Sink
import Befunge.Source
import Befunge.Stack
import Befunge.StreamError
import Befunge.Text.Blank
import Befunge.Text.Decimal
import Befunge.Text.Printable
import Befunge.Text.Utf8
import Befunge.Proofs.Sinks
import Befunge.Proofs.Underflow
import Befunge.Proofs.Actions
import Befunge.Proofs.Building
import Befunge.Proofs.Faults
import Befunge.Proofs.Store
import Befunge.Proofs.Flushing
import Befunge.Proofs.Drivers
import Befunge.Proofs.Atomicity
import Befunge.Proofs.Exchange
import Befunge.Proofs.Locality
import Befunge.Proofs.Modes
import Befunge.Proofs.Reads
import Befunge.Proofs.Segments
import Befunge.Proofs.Lookahead
import Befunge.Proofs.Drawing
import Befunge.Proofs.Printing
import Befunge.Proofs.Forks
import Befunge.Proofs.Characters
import Befunge.Proofs.Failures
import Befunge.Proofs.Warnings
import Befunge.Proofs.Flags
import Befunge.Proofs.Questions
import Befunge.Proofs.Invocations
import Befunge.Proofs.Lines
import Befunge.Proofs.Numerals
import Befunge.Proofs.Movement
import Befunge.Proofs.Strings
import Befunge.Proofs.Pictures
import Befunge.Proofs.Arithmetic
import Befunge.Proofs.Sources
import Befunge.Proofs.Walks
