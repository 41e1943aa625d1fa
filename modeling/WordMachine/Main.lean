import WordMachine.Tool.Command

/-!
# The command line

Reads the files that a command names, performs it, and shows and writes what it
reports. A command line that makes no sense ends with the code 2.
-/

namespace WordMachine

open Tool (Command FileFault Files Report Writing)

/-- Why the system has no use for a file. -/
def faultOf (e : IO.Error) : FileFault :=
  -- some operations give the number of an error with its sign turned
  let number (code : UInt32) : UInt32 := if code < 0x80000000 then code else 0 - code
  match e with
  | .noFileOrDirectory .. => .missing
  | .inappropriateType _ code _ => if number code = 20 then .notDirectory else .directory
  | .invalidArgument _ code _ => if number code = 36 then .nameTooLong else .other e.toString
  | e => .other e.toString

/-- The files with the given paths, as far as they can be read. -/
def readFiles (paths : List String) : IO Files := do
  let found ← paths.mapM fun (path : String) => do
    try
      let bytes ← IO.FS.readBinFile path
      pure (path, Except.ok bytes.toList)
    catch e => pure (path, Except.error (faultOf e))
  return fun path => (found.lookup path).getD (.error .missing)

/-- Writes files, up to the first one that cannot be, of which it returns the fault. -/
def writeFiles : List Writing → IO (Option FileFault)
  | [] => return none
  | w :: rest => do
    let fault ←
      try
        IO.FS.writeBinFile w.path ⟨w.bytes.toArray⟩
        pure none
      catch e => pure (some (faultOf e))
    if fault.isSome then return fault else writeFiles rest

/-- Shows and writes what is reported. -/
def deliver (r : Report) : IO UInt32 := do
  IO.print r.output
  let fault ← writeFiles r.writings
  let ending := r.ending fault
  IO.eprint ending.errors
  return UInt32.ofNat ending.code

/-- Says how a command line looks. -/
def showUsage : IO UInt32 := do
  IO.eprintln "usage: (run | asm | dis) ARGUMENTS"
  return 2

end WordMachine

open WordMachine in
/-- Performs the tool that the first argument names, with the other arguments. -/
def main (args : List String) : IO UInt32 := do
  match args with
  | [] => showUsage
  | tool :: rest =>
    match Tool.Command.ofArguments tool rest with
    | none => showUsage
    | some command =>
      let files ← readFiles command.reads
      match command.perform files with
      | .ok r => deliver r
      | .error overrun =>
        let line := Numeral.natural overrun.line
        IO.eprintln s!"line {line} stands past the end of memory"
        return 101
