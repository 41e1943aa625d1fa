import WordMachine.Tool.Report

/-!
# Folders

A folder with files in it, as a tool sees it that is started there. A path is followed
name by name (`Folder.follow`), and everything on the way has to be a directory. A
directory is there if a file is in it; there are no empty ones. Around the folder are
other directories, of which nothing is known but the files that are written to them.
-/

namespace WordMachine.Tool

/-- The names that lead to a place from the folder, the last one first. It may start
    with names for what is around: `..` for the next directory and `/` for the outermost. -/
abbrev Location := List String

/-- A folder, by the places of its files and the bytes in them. -/
structure Folder where
  files : List (Location × List UInt8)
deriving DecidableEq, Repr

/-- The names in a path. -/
def namesOf (path : String) : List String :=
  (path.toList.splitOnP (· == '/')).map String.ofList

/-- The directory that the place is in. -/
def Location.around : Location → Location
  | [] => [".."]
  | name :: rest =>
    if name = ".." then name :: name :: rest
    else if name = "/" then name :: rest
    else rest

namespace Folder

/-- The folder with files of the given paths. -/
def ofFiles (files : List (String × List UInt8)) : Folder :=
  ⟨files.map fun file => ((namesOf file.1).reverse, file.2)⟩

variable (folder : Folder)

/-- The bytes of the file at a place. -/
def file? (place : Location) : Option (List UInt8) := folder.files.lookup place

/-- Whether there is a directory at a place. -/
def isDirectory (place : Location) : Bool :=
  place.all (fun name => name = ".." || name = "/")
    || folder.files.any fun file => place.isSuffixOf file.1 && place != file.1

/-- Fails unless there is a directory at a place. -/
def needDirectory (place : Location) : Except FileFault Unit :=
  if folder.isDirectory place then .ok ()
  else if (folder.file? place).isSome then .error .notDirectory
  else .error .missing

/-- Fails if a name is too long for any file. -/
def needName (name : String) : Except FileFault Unit :=
  if name.utf8ByteSize ≤ 255 then .ok () else .error .nameTooLong

/-- The place that a name leads to from the directory at `place`. An empty name, as
    between two slashes, and a name of one point lead to the directory itself. -/
def enter (place : Location) (name : String) : Except FileFault Location := do
  folder.needDirectory place
  if name = "" || name = "." then .ok place
  else if name = ".." then .ok place.around
  else
    needName name
    .ok (name :: place)

/-- The place that names lead to from the start of a path. -/
def follow (path : String) (names : List String) : Except FileFault Location :=
  let start := if path.toList.head? = some '/' then ["/"] else []
  names.foldlM folder.enter start

/-- Fails if no file can have a path. -/
def needPath (path : String) : Except FileFault Unit :=
  if path.isEmpty then .error .missing
  else if path.utf8ByteSize < 4096 then .ok ()
  else .error .nameTooLong

/-- The bytes of the file with a path. -/
def read : Files := fun path => do
  needPath path
  let place ← folder.follow path (namesOf path)
  match folder.file? place with
  | some bytes => .ok bytes
  | none => if folder.isDirectory place then .error .directory else .error .missing

/-- The folder after a file is written, whether or not it was there before. The directory
    that it is in has to be there. -/
def write (w : Writing) : Except FileFault Folder := do
  needPath w.path
  let names := namesOf w.path
  match names.reverse.dropWhile (· = "") with
  | [] => .error .directory
  | name :: before =>
    let place ← folder.follow w.path before.reverse
    folder.needDirectory place
    if names.getLast? = some "" || name = "." || name = ".." then .error .directory
    else
      needName name
      let place := name :: place
      if folder.isDirectory place then .error .directory
      else .ok ⟨(place, w.bytes) :: folder.files.filter (·.1 != place)⟩

/-- The folder after files are written, up to the first one that cannot be, and the fault
    of that one. -/
def writeAll (folder : Folder) : List Writing → Folder × Option FileFault
  | [] => (folder, none)
  | w :: rest =>
    match folder.write w with
    | .ok next => next.writeAll rest
    | .error fault => (folder, some fault)

end Folder

end WordMachine.Tool
