import WordMachine.Fault
import WordMachine.Text.Case

/-!
# Mnemonics

The names of instructions in a text, each with its *form*: which instruction it
stands for and what operands it takes. A name is found in any letter case.

Operations on one flag have two kinds of name. `SET`, `CLR`, `SET2` and `CLR2`
take the number of the flag; the flags with a letter have names of their own,
such as `SETZ`, and take nothing.
-/

namespace WordMachine

/-- What a mnemonic stands for, and so what its operands are. -/
inductive Form where
  /-- A number. -/
  | loadImmediate
  /-- A register, a base register, and optionally an offset. -/
  | transfer (store : Bool)
  /-- A register, and a register or a number. -/
  | alu (op : AluOp) (write : Bool)
  /-- A register, and optionally a count. -/
  | shift (op : ShiftOp)
  /-- A label or an offset. -/
  | branch (condition : Condition)
  /-- Two registers, and optionally a number. -/
  | move
  /-- A register and a number. -/
  | loadSigned
  /-- The number of a flag, or nothing if the name implies it. -/
  | flag (set : Bool) (group : FlagGroup) (index : Option Nat)
  /-- Nothing. -/
  | system (op : SystemOp)
  /-- Nothing. -/
  | halt
deriving DecidableEq, Repr

/-- The number of operands of a form. -/
def Form.arity : Form → Arity
  | loadImmediate => .exactly 1
  | transfer _ => .orOneMore 2
  | alu _ _ => .exactly 2
  | shift _ => .orOneMore 1
  | branch _ => .exactly 1
  | move => .orOneMore 2
  | loadSigned => .exactly 2
  | flag _ _ (some _) => .exactly 0
  | flag _ _ none => .exactly 1
  | system _ => .exactly 0
  | halt => .exactly 0

/-- A name for instructions. -/
structure Mnemonic where
  name : String
  form : Form
deriving DecidableEq, Repr

namespace Mnemonic

/-- The flags that have a letter, each by its group and its number there. -/
def flagLetters : List (String × FlagGroup × Nat) :=
  [("N", .low, 0), ("Z", .low, 1), ("V", .low, 2), ("C", .low, 3), ("I", .high, 0), ("S", .high, 1)]

/-- The name for setting or clearing the flag with a given number in a group. -/
def flagName (set : Bool) (group : FlagGroup) : String :=
  (if set then "SET" else "CLR") ++ (match group with | .low => "" | .high => "2")

/-- All mnemonics. -/
def table : List Mnemonic :=
  [⟨"LDI", .loadImmediate⟩, ⟨"LD", .transfer false⟩, ⟨"ST", .transfer true⟩]
    ++ AluOp.all.map (fun op => ⟨op.mnemonic, .alu op true⟩)
    ++ AluOp.all.filterMap (fun op => op.flagsOnlyMnemonic?.map (⟨·, .alu op false⟩))
    ++ ShiftOp.all.map (fun op => ⟨op.mnemonic, .shift op⟩)
    ++ Condition.all.map (fun condition => ⟨condition.mnemonic, .branch condition⟩)
    ++ [⟨"MOV", .move⟩, ⟨"LSI", .loadSigned⟩]
    ++ [(true, .low), (false, .low), (true, .high), (false, .high)].map
      (fun (set, group) => ⟨flagName set group, .flag set group none⟩)
    ++ flagLetters.flatMap (fun (letter, group, index) =>
      [⟨"SET" ++ letter, .flag true group (some index)⟩,
        ⟨"CLR" ++ letter, .flag false group (some index)⟩])
    ++ SystemOp.all.map (fun op => ⟨op.mnemonic, .system op⟩)
    ++ [⟨"HALT", .halt⟩]

/-- The mnemonic that a token is, letter case aside. -/
def find? (token : String) : Option Mnemonic :=
  let text := Text.upper token.toList
  table.find? fun m => m.name.toList == text

/-- The name of the operation on a flag that has a letter. -/
def flagAlias? (set : Bool) (group : FlagGroup) (index : Nat) : Option String :=
  (table.find? fun m => m.form == .flag set group (some index)).map name

end Mnemonic

end WordMachine
