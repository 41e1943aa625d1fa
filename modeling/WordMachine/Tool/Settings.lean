import WordMachine.Json.Content
import WordMachine.Json.Number
import WordMachine.Json.Token
import WordMachine.Machine.Cpu
import WordMachine.Text.Quoted

/-!
# Settings of a machine in a file

The settings of a machine, read from a JSON text (`Settings.ofJson`): an object with
the members `sp_reset` and `swi_vector`, both words, and any others, or an
array of the two words. A text that is something else has a fault, which says
what and at which place of the text.
-/

namespace WordMachine

open Json (Place Token)

/-- What should stand at a place. -/
inductive SettingsPart where
  | settings
  | word
deriving DecidableEq, Repr

/-- The words for what should stand at a place. -/
def SettingsPart.text : SettingsPart → String
  | settings => "struct CpuConfig"
  | word => "u16"

/-- Why a JSON text says no settings. -/
inductive SettingsFault where
  | missingMember (name : String)
  | repeatedMember (name : String)
  /-- Something else stands where `expected` should. -/
  | wrongType (found : String) (expected : SettingsPart)
  /-- A whole number stands where a word should. -/
  | notWord (found : String)
  | tooShort (length : Nat)
  | tooLong
  /-- A number is past the largest one of double precision. -/
  | numberTooLarge
  | noString (fault : Json.ContentFault)
  /-- The text is no JSON text. -/
  | unreadable
deriving DecidableEq, Repr

namespace SettingsFault

/-- The words for what is wrong with a text. -/
def text : SettingsFault → String
  | missingMember name => s!"missing field `{name}`"
  | repeatedMember name => s!"duplicate field `{name}`"
  | wrongType found expected =>
    let expected := expected.text
    s!"invalid type: {found}, expected {expected}"
  | notWord found =>
    let expected := SettingsPart.word.text
    s!"invalid value: {found}, expected {expected}"
  | tooShort length =>
    let length := Numeral.natural length
    let expected := SettingsPart.settings.text
    s!"invalid length {length}, expected {expected} with 2 elements"
  | tooLong => "trailing characters"
  | numberTooLarge => "number out of range"
  | noString fault => fault.text
  | unreadable => "EOF while parsing a value"

/-- The words for what is wrong, and where. -/
def message (fault : SettingsFault × Place) : String :=
  let text := fault.1.text
  let line := Numeral.natural fault.2.line
  let column := Numeral.natural fault.2.column
  s!"{text} at line {line} column {column}"

end SettingsFault

namespace Settings

/-- The string of a token that starts at `start`, from what is written between its quotes. -/
def readString (start : Place) (written : List Char) : Except (SettingsFault × Place) String :=
  -- the quote is one byte
  match Json.Content.read 1 written with
  | .ok content => .ok (String.ofList content)
  | .error (fault, bytes) => .error (.noString fault, start.along bytes)

/-- The number of a token that starts at `start`. -/
def readNumber (start : Place) (text : List Char) : Except (SettingsFault × Place) Json.Number :=
  (Json.Number.ofText text).mapError fun bytes => (.numberTooLarge, start.along bytes)

/-- The fault of a number that stands where something else is expected. -/
def numberFault (expected : SettingsPart) : Json.Number → SettingsFault
  | .whole i =>
    let number := Numeral.integer i
    let found := s!"integer `{number}`"
    match expected with
    | .settings => .wrongType found .settings
    | .word => .notWord found
  | .double negative size =>
    let sign := if negative then "-" else ""
    let number := size.text
    .wrongType s!"floating point `{sign}{number}`" expected

/-- The fault of a value that stands where something else is expected. -/
def unexpected (t : Token) (expected : SettingsPart) : SettingsFault × Place :=
  match t.kind with
  | .mark c =>
    let found := if c = '[' then "sequence" else "map"
    (.wrongType found expected, t.start)
  | .string written =>
    match readString t.start written with
    | .ok s =>
      let shown := Text.quoted s
      (.wrongType s!"string {shown}" expected, t.stop)
    | .error fault => fault
  | .word ['n', 'u', 'l', 'l'] => (.wrongType "null" expected, t.stop)
  | .word ['t', 'r', 'u', 'e'] => (.wrongType "boolean `true`" expected, t.stop)
  | .word ['f', 'a', 'l', 's', 'e'] => (.wrongType "boolean `false`" expected, t.stop)
  | .word text =>
    match readNumber t.start text with
    | .ok number => (numberFault expected number, t.stop)
    | .error fault => fault

/-- The word that a token writes. -/
def readWord (t : Token) : Except (SettingsFault × Place) Word :=
  match t.kind with
  | .word text =>
    match (Numeral.magnitude? 10 text).filter (· ≤ Numeral.max16) with
    | some n => .ok (BitVec.ofNat 16 n)
    | none => .error (unexpected t .word)
  | _ => .error (unexpected t .word)

/-- The name of a member. -/
def readName (t : Token) : Except (SettingsFault × Place) String :=
  match t.kind with
  | .string written => readString t.start written
  | _ => .ok ""

/-- The two settings, as far as they have been read. -/
structure Draft where
  stackReset : Option Word := none
  supervisorEntry : Option Word := none

/-- Reads the members of an object, from the tokens after its first bracket. -/
def readMembers (draft : Draft) : List Token → Except (SettingsFault × Place) Draft
  | key :: colon :: value :: _ :: rest => do
    match ← readName key with
    | "sp_reset" =>
      if draft.stackReset.isSome then .error (.repeatedMember "sp_reset", colon.start)
      else
        let w ← readWord value
        readMembers { draft with stackReset := some w } rest
    | "swi_vector" =>
      if draft.supervisorEntry.isSome then .error (.repeatedMember "swi_vector", colon.start)
      else
        let w ← readWord value
        readMembers { draft with supervisorEntry := some w } rest
    | _ => readMembers draft rest
  | _ => .ok draft

/-- The settings of an object, from its tokens; it ends at `stop`. -/
def ofMembers (tokens : List Token) (stop : Place) : Except (SettingsFault × Place) Settings := do
  let draft ← readMembers {} tokens
  match draft.stackReset, draft.supervisorEntry with
  | some stackReset, some supervisorEntry => .ok { stackReset, supervisorEntry }
  | none, _ => .error (.missingMember "sp_reset", stop)
  | some _, none => .error (.missingMember "swi_vector", stop)

/-- The settings of an array, from its tokens; it ends at `stop`. -/
def ofItems (tokens : List Token) (stop : Place) : Except (SettingsFault × Place) Settings :=
  match tokens with
  | [stackReset, _, supervisorEntry, _] => do
    let stackReset ← readWord stackReset
    let supervisorEntry ← readWord supervisorEntry
    .ok { stackReset, supervisorEntry }
  | [stackReset, _] => do
    let _ ← readWord stackReset
    .error (.tooShort 1, stop)
  | stackReset :: _ :: supervisorEntry :: _ :: next :: _ => do
    let _ ← readWord stackReset
    let _ ← readWord supervisorEntry
    .error (.tooLong, ⟨next.start.line, next.start.column + 1⟩)
  | _ => .error (.tooShort 0, stop)

/-- The settings that a JSON text says. -/
def ofJson (text : String) : Except (SettingsFault × Place) Settings :=
  let tokens := Token.outline 0 (Token.ofText text)
  let stop := (tokens.getLast?.map (·.stop)).getD (.after text.toList)
  match tokens with
  | [] => .error (.unreadable, stop)
  | first :: rest =>
    if first.kind = .mark '\x7b' then ofMembers rest stop
    else if first.kind = .mark '[' then ofItems rest stop
    else .error (unexpected first .settings)

end Settings

end WordMachine
