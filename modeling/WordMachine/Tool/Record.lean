import WordMachine.Assembly.Basic
import WordMachine.Json.Basic
import WordMachine.Machine.Basic

/-!
# Records

What the tools write for other programs: a fault, an assembly, the outcome of a
run and the state of the processor, each as a JSON value.
-/

namespace WordMachine

namespace Json

/-- A word. -/
def word (w : Word) : Json := .number w.toNat

/-- Words in a row. -/
def words (ws : List Word) : Json := .array (ws.map word)

/-- A value that may be missing. -/
def optional {α : Type} (record : α → Json) (value : Option α) : Json :=
  (value.map record).getD .null

end Json

namespace Fault

/-- The name of what is wrong. -/
def kind : Fault → String
  | unknownRegister _ => "UnknownRegister"
  | invalidImmediate _ _ => "InvalidImmediate"
  | unknownLabel _ => "UnknownLabel"
  | unknownInstruction _ => "UnknownInstruction"
  | branchOutOfRange _ => "BranchRangeExceeded"
  | flagIndexOutOfRange _ => "FlagIndexOutOfRange"
  | operandCount _ _ _ => "OperandCount"
  | unknownDirective _ => "UnknownDirective"
  | invalidLabel _ => "InvalidLabel"
  | labelNotAlone _ => "LabelNotAlone"
  | duplicateLabel _ _ => "DuplicateLabel"
  | addressOverflow _ => "AddressOverflow"
  | flagsOnly _ => "UnsupportedForm"

/-- What the fault is about. -/
def detail : Fault → Json
  | unknownRegister token => .string token
  | invalidImmediate value expected =>
    .object [("value", .string value), ("expected", .string expected.text)]
  | unknownLabel name => .string name
  | unknownInstruction mnemonic => .string mnemonic
  | branchOutOfRange offset => .object [("offset", .number offset)]
  | flagIndexOutOfRange index => .number index
  | operandCount mnemonic expected found =>
    .object [("mnemonic", .string mnemonic), ("expected", .string expected.text),
      ("found", .number found)]
  | unknownDirective name => .string name
  | invalidLabel name => .string name
  | labelNotAlone name => .string name
  | duplicateLabel name firstLine =>
    .object [("name", .string name), ("first_line", .number firstLine)]
  | addressOverflow address => .number address
  | flagsOnly op => .string (flagsOnlyText op)

/-- The record of a fault: what it is about, under the name of what is wrong. -/
def record (fault : Fault) : Json := .object [(fault.kind, fault.detail)]

end Fault

/-- The record of a fault and its line. -/
def LineFault.record (e : LineFault) : Json :=
  .object [("line", .number e.line), ("error", e.fault.record)]

/-- The record of a row. -/
def Row.record (row : Row) : Json :=
  .object [("line", .number row.line), ("address", .optional .word row.address),
    ("words", .words row.words), ("source", .string row.text),
    ("error", .optional Fault.record row.fault)]

/-- The record of an assembly. -/
def Assembly.record (a : Assembly) : Json :=
  .object [("success", .bool a.success),
    ("symbols", .object (a.symbols.sorted.map fun s => (s.name, .word s.address))),
    ("errors", .array (a.faults.map LineFault.record)),
    ("listing", .array (a.listing.map Row.record))]

/-- The record of an outcome. -/
def Outcome.record (o : Outcome) : Json :=
  .object [("steps", .number o.steps), ("halted", .bool o.halted)]

/-- The record of the segment registers. -/
def Segments.record (s : Segments) : Json :=
  .object [("cs", .word s.code), ("ds", .word s.data), ("ss", .word s.stack),
    ("es", .word s.extra)]

/-- The record of the shadow. -/
def Shadow.record (s : Shadow) : Json :=
  .object [("psw", .string s.status.text), ("pc", .word s.pc), ("cs", .word s.code)]

/-- The record of the settings. -/
def Settings.record (s : Settings) : Json :=
  .object [("sp_reset", .word s.stackReset), ("swi_vector", .word s.supervisorEntry)]

/-- The record of the state of the processor. -/
def Cpu.record (cpu : Cpu) : Json :=
  .object [("regs", .words cpu.registers.toList), ("psw", .string cpu.status.text),
    ("seg", cpu.segments.record), ("shadow", cpu.shadow.record),
    ("running", .bool cpu.running), ("cfg", cpu.settings.record)]

end WordMachine
