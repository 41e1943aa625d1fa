/-!
# Command lines

The arguments of a tool, sorted (`Arguments.read`) into options, places and a
command with arguments of its own. An option is written by its long name,
`--name`, and one that has a value perhaps by a letter. The value follows as the next
argument, which then must not look like an option, or in the same one: after
`=`, or right after the letter. The argument `--` ends the options. No option may
be given twice, and no text that looks like an option may be unknown.
-/

namespace WordMachine.Tool

/-- An option that a tool has. -/
inductive OptionRule where
  /-- An option without a value. -/
  | flag (name : String)
  /-- An option with a value, and the letter that it may be written by. -/
  | valued (name : String) (letter : Option Char)
deriving DecidableEq, Repr

namespace OptionRule

/-- The long name of an option. -/
def name : OptionRule → String
  | flag name => name
  | valued name _ => name

/-- Whether the option may be written by a letter. -/
def hasLetter (c : Char) : OptionRule → Bool
  | flag _ => false
  | valued _ letter => letter == some c

end OptionRule

/-- What an argument is by itself. -/
inductive Argument where
  | place (text : String)
  | option (rule : OptionRule) (attached : Option String)
  /-- Something that looks like an option, and is not one. -/
  | unknown
deriving DecidableEq, Repr

/-- Whether an argument looks like an option. A lone hyphen does not. -/
def looksLikeOption (arg : String) : Bool :=
  match arg.toList with
  | ['-'] => false
  | '-' :: _ => true
  | _ => false

/-- The text after a letter: an attached value, with or without `=` before it. -/
def attachedToLetter : List Char → Option String
  | [] => none
  | '=' :: value => some (String.ofList value)
  | value => some (String.ofList value)

/-- The text after the first `=`, if there is one. -/
def attachedToName (cs : List Char) : Option String :=
  match cs.dropWhile (· != '=') with
  | [] => none
  | _ :: value => some (String.ofList value)

/-- Sorts one argument. -/
def Argument.ofText (rules : List OptionRule) (arg : String) : Argument :=
  match arg.toList with
  | '-' :: '-' :: cs =>
    let name := String.ofList (cs.takeWhile (· != '='))
    match rules.find? (·.name == name) with
    | some rule => .option rule (attachedToName cs)
    | none => .unknown
  | '-' :: letter :: cs =>
    match rules.find? (·.hasLetter letter) with
    | some rule => .option rule (attachedToLetter cs)
    | none => .unknown
  | _ => .place arg

/-- The arguments of a tool, sorted. -/
structure Arguments where
  /-- The options given, each with its value; one without a value has the empty text. -/
  options : List (String × String) := []
  /-- The arguments that are neither options nor their values. -/
  places : List String := []
  /-- The command, and the arguments after it. -/
  command : Option (String × List String) := none
deriving DecidableEq, Repr

namespace Arguments

/-- The value that an option is given. -/
def value? (a : Arguments) (name : String) : Option String := a.options.lookup name

/-- Whether an option is given. -/
def has (a : Arguments) (name : String) : Bool := (a.value? name).isSome

/-- The arguments with one option more, unless it is given already. -/
def addOption (a : Arguments) (name value : String) : Option Arguments :=
  if a.has name then none else some { a with options := a.options ++ [(name, value)] }

/-- The arguments with more places. -/
def addPlaces (a : Arguments) (texts : List String) : Arguments :=
  { a with places := a.places ++ texts }

/-- Sorts arguments after others, up to a command. -/
def readFrom (rules : List OptionRule) (commands : List String) (a : Arguments) :
    List String → Option Arguments
  | [] => some a
  | "--" :: rest => some (a.addPlaces rest)
  | arg :: rest =>
    match Argument.ofText rules arg with
    | .unknown => none
    | .place text =>
      if text ∈ commands then some { a with command := some (text, rest) }
      else readFrom rules commands (a.addPlaces [text]) rest
    | .option (.flag name) none => do
      let a ← a.addOption name ""
      readFrom rules commands a rest
    | .option (.flag _) (some _) => none
    | .option (.valued name _) (some value) => do
      let a ← a.addOption name value
      readFrom rules commands a rest
    | .option (.valued name _) none =>
      match rest with
      | [] => none
      | value :: rest =>
        if looksLikeOption value then none
        else do
          let a ← a.addOption name value
          readFrom rules commands a rest

/-- Sorts arguments, up to a command if one of `commands` is among them. -/
def read (rules : List OptionRule) (commands args : List String) : Option Arguments :=
  readFrom rules commands {} args

end Arguments

end WordMachine.Tool
