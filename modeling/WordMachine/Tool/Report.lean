import WordMachine.Assembly.Basic

/-!
# Reports

A tool is a function of its options and of the files that there are. It has no
effects: what it shows and writes is its `Report`. The output comes first, then the
files in their order, and then the failure, if there is one. A file that cannot be
written is a failure too, and nothing comes after it.
-/

namespace WordMachine.Tool

/-- Why a tool does not do what it is told to. -/
structure Failure where
  /-- What is shown before, line by line. -/
  notes : List String := []
  message : String
  /-- What the message is a consequence of. -/
  cause : Option String := none
deriving DecidableEq, Repr

/-- What is shown for a failure. -/
def Failure.text (f : Failure) : String :=
  let notes := String.join (f.notes.map (· ++ "\n"))
  let cause := (f.cause.map ("\nCaused by:\n    " ++ · ++ "\n")).getD ""
  let message := f.message
  s!"{notes}Error: {message}\n{cause}"

/-- Why a file is of no use. -/
inductive FileFault where
  | missing
  /-- The path leads on from something that is no directory. -/
  | notDirectory
  | directory
  | nameTooLong
  /-- The file is not a text in UTF-8. -/
  | notText
  /-- What else the system may say. -/
  | other (message : String)
deriving DecidableEq, Repr

/-- The words for why a file is of no use. -/
def FileFault.message : FileFault → String
  | missing => "No such file or directory (os error 2)"
  | notDirectory => "Not a directory (os error 20)"
  | directory => "Is a directory (os error 21)"
  | nameTooLong => "File name too long (os error 36)"
  | notText => "stream did not contain valid UTF-8"
  | other message => message

/-- The failure at a file, without a word on which it is. -/
def FileFault.failure (fault : FileFault) : Failure := { message := fault.message }

/-- The failure at reading the file `path`. -/
def FileFault.failureAt (path : String) (fault : FileFault) : Failure :=
  { message := s!"reading {path}", cause := some fault.message }

/-- What there is at each path: the bytes of a file, or why there are none. -/
abbrev Files := String → Except FileFault (List UInt8)

/-- The text of a file. -/
def Files.text (files : Files) (path : String) : Except FileFault String := do
  let bytes ← files path
  match String.fromUTF8? ⟨bytes.toArray⟩ with
  | some text => .ok text
  | none => .error .notText

/-- A file that is written. -/
structure Writing where
  path : String
  bytes : List UInt8
deriving DecidableEq, Repr

/-- The writing of a text. -/
def Writing.ofText (path text : String) : Writing := ⟨path, text.toUTF8.toList⟩

/-- What a tool shows and writes. -/
structure Report where
  output : String := ""
  writings : List Writing := []
  failure : Option Failure := none
deriving DecidableEq, Repr

/-- How a tool ends: with a failure, or well. -/
structure Ending where
  failure : Option Failure
deriving DecidableEq, Repr

namespace Ending

/-- What is shown on the error output. -/
def errors (e : Ending) : String := (e.failure.map Failure.text).getD ""

/-- The code that the tool ends with. -/
def code (e : Ending) : Nat := if e.failure.isSome then 1 else 0

end Ending

/-- How the tool ends, if `fault` is that of the first file which cannot be written. -/
def Report.ending (r : Report) (fault : Option FileFault) : Ending :=
  match fault with
  | some fault => ⟨some fault.failure⟩
  | none => ⟨r.failure⟩

/-- Why a tool has nothing to show but a failure, or has no report at all. -/
inductive Stop where
  | failure (f : Failure)
  | overrun (o : Overrun)
deriving DecidableEq, Repr

/-- The report of a tool that may have been stopped. -/
def report : Except Stop Report → Except Overrun Report
  | .ok r => .ok r
  | .error (.failure f) => .ok { failure := some f }
  | .error (.overrun o) => .error o

end WordMachine.Tool
