import WordMachine.Image
import WordMachine.Json.Printer
import WordMachine.Tool.Address
import WordMachine.Tool.Arguments
import WordMachine.Tool.Record
import WordMachine.Tool.Report
import WordMachine.Tool.Settings

/-!
# Running a program

The tool that loads a program, runs it and shows how the machine then is. The program
is a source text if its path says so (`isSource`), and else an image at the first
address.
-/

namespace WordMachine.Tool

/-- What the tool is to run, and how. -/
structure RunOptions where
  path : String
  entry : Word
  limit : Nat
  /-- The piece of memory to show, as written. -/
  piece : Option String
  /-- The path of the settings. -/
  settings : Option String
  json : Bool
deriving DecidableEq, Repr

/-- A program as it is in a file. -/
inductive Program where
  | source (text : String)
  | image (words : List Word)
deriving DecidableEq, Repr

/-- Whether the file `path` is a source text. -/
def isSource (path : String) : Bool :=
  ['.', 's'].isSuffixOf path.toList || ['.', 'a', 's', 'm'].isSuffixOf path.toList

/-- The program in the file `path`. -/
def readProgram (files : Files) (path : String) : Except FileFault Program :=
  if isSource path then (files.text path).map .source
  else (files path).map fun bytes => .image (wordsOfBytes bytes)

/-- The failure of a program in the file `path` whose lines have faults. -/
def assemblyFailure (path : String) (a : Assembly) (message : String) : Failure :=
  { notes := a.messages.map fun text => s!"{path}: {text}", message := message }

/-- The machine with a program loaded from the file `path`. -/
def loadProgram (path : String) (m : Machine) : Program → Except Stop Machine
  | .image words => .ok (m.loadImage words)
  | .source text => do
    let a ← (WordMachine.assemble text).mapError .overrun
    if a.success then .ok (m.loadChanges a.changes)
    else
      let count := Numeral.natural a.faults.length
      .error (.failure (assemblyFailure path a s!"{count} assembly error(s)"))

namespace RunOptions

/-- The options of the tool. -/
def rules : List OptionRule :=
  [.valued "entry" (some 'e'), .valued "max-steps" none, .valued "dump" none,
    .valued "config" none, .flag "json"]

/-- The options from the arguments, if they are as they should be. -/
def ofArguments (args : List String) : Option RunOptions := do
  let a ← Arguments.read rules [] args
  let [path] := a.places | none
  let entry ← (readAddress ((a.value? "entry").getD "0")).toOption
  let limit ← (Numeral.readBounded 10 Numeral.max64
    ((a.value? "max-steps").getD "1000000").toList).toOption
  some {
    path, entry, limit
    piece := a.value? "dump"
    settings := a.value? "config"
    json := a.has "json" }

variable (o : RunOptions)

/-- The paths of the files that the tool reads. -/
def reads : List String := o.path :: o.settings.toList

/-- The settings that the machine is built with. -/
def readSettings (files : Files) : Except Failure Settings :=
  match o.settings with
  | none => .ok {}
  | some path => do
    let text ← (files.text path).mapError (FileFault.failureAt path)
    (Settings.ofJson text).mapError fun fault =>
      { message := "parsing CPU config", cause := some (SettingsFault.message fault) }

/-- Where the piece of memory to show is. -/
def readPiece? : Except Failure (Option (Word × Nat)) :=
  match o.piece with
  | none => .ok none
  | some text =>
    match readPiece text with
    | .ok piece => .ok (some piece)
    | .error fault => .error { message := fault.message }

end RunOptions

/-- How the machine is after a run. -/
structure RunResult where
  machine : Machine
  outcome : Outcome
  /-- The piece of memory to show. -/
  piece : Option (Word × Nat)

namespace RunResult

variable (r : RunResult)

/-- The record of the result. -/
def record : Json :=
  let pieceWords (piece : Word × Nat) := Json.words (r.machine.memory.slice piece.1 piece.2)
  .object [("outcome", r.outcome.record), ("cpu", r.machine.cpu.record),
    ("dump", .optional pieceWords r.piece)]

/-- The line on how the run ended. -/
def outcomeText : String :=
  let steps := Numeral.natural r.outcome.steps
  let pc := Numeral.hexLiteral r.machine.cpu.pc.toNat
  if r.outcome.halted then s!"halted after {steps} steps at {pc}\n"
  else s!"stopped after {steps} steps at {pc} (step limit)\n"

/-- The content of a register behind its name. -/
def registerText (register : Register) : String :=
  let name := String.ofList (register.name.toList.leftpad 3 ' ')
  let word := Numeral.hex 4 (r.machine.cpu.get register).toNat
  s!"{name}={word}"

/-- The registers, four to a line. -/
def registersText : String :=
  let line (registers : List Register) := "  ".intercalate (registers.map r.registerText) ++ "\n"
  let rows := (List.range 4).map fun i => (Register.all.drop (4 * i)).take 4
  String.join (rows.map line)

/-- The lines for the piece of memory. -/
def pieceText : String :=
  match r.piece with
  | none => ""
  | some (start, length) =>
    let line (w : Word) (address : Nat) :=
      let address := Numeral.hex 4 address
      let word := Numeral.hex 4 w.toNat
      s!"{address}: {word}\n"
    let words := r.machine.memory.slice start length
    String.join ((words.zipIdx start.toNat).map fun (w, address) => line w address)

/-- The result as text. -/
def text : String :=
  let outcome := r.outcomeText
  let registers := r.registersText
  let status := r.machine.cpu.status
  let bits := Numeral.hex 4 status.bits.toNat
  let flags := status.describe
  let next := disassemble (r.machine.memory.read r.machine.cpu.pc)
  let piece := r.pieceText
  s!"{outcome}{registers}PSW={bits} {flags}\nnext: {next}\n{piece}"

end RunResult

namespace RunOptions

variable (o : RunOptions)

/-- Runs the program. -/
def result (files : Files) : Except Stop RunResult := do
  let settings ← (o.readSettings files).mapError .failure
  let piece ← o.readPiece?.mapError .failure
  let program ← (readProgram files o.path).mapError fun fault => .failure (fault.failureAt o.path)
  let m ← loadProgram o.path (Machine.start settings) program
  let (machine, outcome) := (m.setPc o.entry).run o.limit
  .ok { machine, outcome, piece }

/-- The report of the tool. -/
def perform (files : Files) : Except Overrun Report :=
  report <| (o.result files).map fun r =>
    { output := if o.json then r.record.pretty ++ "\n" else r.text }

end RunOptions

end WordMachine.Tool
