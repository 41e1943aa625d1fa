import WordMachine.Tool.Assemble
import WordMachine.Tool.Disassemble

/-!
# Commands

A command is one of the three tools with its options: `run`, `asm` or `dis`.
-/

namespace WordMachine.Tool

/-- A tool and its options. -/
inductive Command where
  | run (o : RunOptions)
  | assemble (o : AssembleOptions)
  | disassemble (o : DisassembleOptions)
deriving DecidableEq, Repr

namespace Command

/-- The command from the name of a tool and its arguments, if they are as they
    should be. -/
def ofArguments (tool : String) (args : List String) : Option Command :=
  match tool with
  | "run" => (RunOptions.ofArguments args).map run
  | "asm" => (AssembleOptions.ofArguments args).map assemble
  | "dis" => (DisassembleOptions.ofArguments args).map disassemble
  | _ => none

/-- The paths of the files that the command reads. -/
def reads : Command → List String
  | run o => o.reads
  | assemble o => o.reads
  | disassemble o => o.reads

/-- The report of the command. -/
def perform (files : Files) : Command → Except Overrun Report
  | run o => o.perform files
  | assemble o => o.perform files
  | disassemble o => .ok (o.perform files)

end Command

end WordMachine.Tool
