import WordMachine.Fault
import WordMachine.Numeral.Literal
import WordMachine.Text.Case

/-!
# Statements

What one line of source text says (`Statement.ofLine`). A comment, from the
first `;` on, and space at either end of a line say nothing. Of the rest,

* a text that ends in `:` declares a label, and nothing else may share its line;
* a text that starts with `.` is a directive: `.org`, which moves the address
  counter, or `.word`, which gives data;
* any other text is a mnemonic and its operands, with commas or space between.

Tokens are kept as written: which register, number or label they name is for
the assembly to tell, so that a line that says something wrong still says how
many words it takes.
-/

namespace WordMachine

/-- What a line of source text says. -/
inductive Statement where
  | blank
  | label (name : String)
  /-- What follows is assembled at an address. -/
  | origin (address : Word)
  /-- Words, each a number or the name of a label. -/
  | data (values : List String)
  | instruction (mnemonic : String) (operands : List String)
deriving DecidableEq, Repr

namespace Statement

/-- Whether a name can start with a character. -/
def startsName (c : Char) : Bool := c.isAlpha || c == '_' || c == '.'

/-- Whether a name can go on with a character. -/
def continuesName (c : Char) : Bool := c.isAlphanum || c == '_' || c == '.'

/-- Whether a text can be the name of a label. -/
def isName : List Char → Bool
  | [] => false
  | c :: rest => startsName c && rest.all continuesName

/-- Whether a character stands between a mnemonic and operands. -/
def isSeparator (c : Char) : Bool := c == ',' || Text.isBlank c

/-- The declaration of a label, from the text before its colon. -/
def ofLabel (text : List Char) : Except Fault Statement :=
  let name := Text.trim text
  if isName name then .ok (.label (String.ofList name))
  else .error (.invalidLabel (String.ofList name))

/-- The directive `.org`, from the text of its operand. -/
def ofOrigin (text : String) : Except Fault Statement :=
  match Numeral.literal? text with
  | some value =>
    if 0 ≤ value ∧ value < 0x10000 then .ok (.origin (BitVec.ofInt 16 value))
    else .error (.invalidImmediate text .address)
  | none => .error (.invalidImmediate text .address)

/-- The directive `.word`, from the text of its operands. -/
def ofData (text : List Char) : Except Fault Statement :=
  let values := (text.splitOnP (· == ',')).map Text.trim
  if values.any List.isEmpty then
    .error (.operandCount ".word" (.atLeast 1) (values.countP fun value => !value.isEmpty))
  else .ok (.data (values.map String.ofList))

/-- A directive, from its text. -/
def ofDirective (text : List Char) : Except Fault Statement :=
  let name := text.takeWhile fun c => !Text.isBlank c
  let operands := Text.trim (text.dropWhile fun c => !Text.isBlank c)
  if Text.upper name = ".ORG".toList then ofOrigin (String.ofList operands)
  else if Text.upper name = ".WORD".toList then ofData operands
  else .error (.unknownDirective (String.ofList name))

/-- A mnemonic and its operands, from their text. -/
def ofInstruction (text : List Char) : Except Fault Statement :=
  match (text.splitOnP isSeparator).filter (fun token => !token.isEmpty) with
  | [] => .ok (.instruction "" [])
  | mnemonic :: operands =>
    if mnemonic.getLast? = some ':' then
      .error (.labelNotAlone (String.ofList mnemonic.dropLast))
    else .ok (.instruction (String.ofList mnemonic) (operands.map String.ofList))

/-- A statement, from a text without comment and without space at its ends. -/
def ofText (text : List Char) : Except Fault Statement :=
  if text.isEmpty then .ok .blank
  else if text.getLast? = some ':' then ofLabel text.dropLast
  else if text.head? = some '.' then ofDirective text
  else ofInstruction text

/-- What a line of source text says, or why it says nothing right. -/
def ofLine (line : List Char) : Except Fault Statement :=
  ofText (Text.trim (line.takeWhile (· != ';')))

end Statement

end WordMachine
