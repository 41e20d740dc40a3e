import ZephirPhp.Files.Basic
import ZephirPhp.Files.Tree
import ZephirPhp.Path

/-! # Disks

A tree of directories without links, with a working directory and with programs that can
be started.
-/

namespace ZephirPhp

inductive DiskFault where
  | missing
  | denied
  | alreadyThere
  | notDirectory
  | isDirectory
  | nameTooLong
  | nullCharacter
  | nullArgument
  | notText
deriving DecidableEq, Repr

def DiskFault.reason : DiskFault → String
  | .missing => "No such file or directory (os error 2)"
  | .denied => "Permission denied (os error 13)"
  | .alreadyThere => "File exists (os error 17)"
  | .notDirectory => "Not a directory (os error 20)"
  | .isDirectory => "Is a directory (os error 21)"
  | .nameTooLong => "File name too long (os error 36)"
  | .nullCharacter => "file name contained an unexpected NUL byte"
  | .nullArgument => "nul byte found in provided data"
  | .notText => "stream did not contain valid UTF-8"

def DiskFault.diagnostic (fault : DiskFault) : Diagnostic :=
  .io fault.reason

/-- What a program does with its arguments: it may read files, prints bytes and ends. -/
abbrev Tool := (String → Option ByteArray) → List String → ByteArray × ExitStatus

structure Disk where
  roots : Roots
  top : DiskEntry := .directory 0 []
  workingDirectory : List String := []
  now : Nat := 0
  tools : String → Option Tool := fun _ => none

namespace Disk

/-! ## Places -/

def pathOf (place : List String) : String :=
  "/" ++ "/".intercalate place

def start (disk : Disk) (path : String) : List String :=
  if Path.isAbsolute path then [] else disk.workingDirectory

def nameLimit : Nat := 255

/-- Follows the stretches of a path. Every step, also one that stays, needs a directory
to start from, and a name is looked up there only if it is not too long. -/
def walk (top : DiskEntry) : List String → List String → Except DiskFault (List String)
  | [], place => if (top.find? place).isSome then .ok place else .error .missing
  | piece :: rest, place =>
    match top.find? place with
    | none => .error .missing
    | some (.file _ _ _) => .error .notDirectory
    | some (.directory _ _) =>
      if piece = "" ∨ piece = "." then walk top rest place
      else if piece = ".." then walk top rest place.dropLast
      else if nameLimit < piece.utf8ByteSize then .error .nameTooLong
      else walk top rest (place ++ [piece])

def hasNull (text : String) : Bool :=
  text.toList.contains '\x00'

def pathLimit : Nat := 4096

def spellingFault? (path : String) : Option DiskFault :=
  if hasNull path then some .nullCharacter
  else if pathLimit ≤ path.utf8ByteSize then some .nameTooLong
  else none

def locate (disk : Disk) (path : String) : Except DiskFault (List String) :=
  if path.isEmpty then .error .missing
  else
    match spellingFault? path with
    | some fault => .error fault
    | none => walk disk.top (Path.pieces path) (disk.start path)

def entry? (disk : Disk) (path : String) : Option DiskEntry :=
  match disk.locate path with
  | .ok place => disk.top.find? place
  | .error _ => none

def isDirectory (disk : Disk) (path : String) : Bool :=
  (disk.entry? path).any (·.isDirectory)

/-- The full form of a path, from its spelling alone. Two slashes at the start have a
meaning of their own, and so has one at the end. -/
def absolute (disk : Disk) (path : String) : String :=
  let names := Path.names path
  let lead := match path.toList with
    | '/' :: '/' :: '/' :: _ => "/"
    | '/' :: '/' :: _ => "//"
    | _ => "/"
  let names := if Path.isAbsolute path then names else disk.workingDirectory ++ names
  let trail := if Path.endsInSlash path ∧ names ≠ [] then "/" else ""
  if path.isEmpty then "" else lead ++ "/".intercalate names ++ trail

/-- The path of what is found at a path, or else its full form. Names are looked up one
by one, so a path may have any length. -/
def resolve (disk : Disk) (path : String) : String :=
  if path.isEmpty || hasNull path then disk.absolute path
  else
    match walk disk.top (Path.pieces path) (disk.start path) with
    | .ok place => pathOf place
    | .error _ => disk.absolute path

/-! ## Reading -/

def readBytes (disk : Disk) (path : String) : Except DiskFault ByteArray := do
  match disk.top.find? (← disk.locate path) with
  | some (.file bytes _ _) => return bytes
  | some (.directory _ _) => throw .isDirectory
  | none => throw .missing

def read (disk : Disk) (path : String) : Except DiskFault String := do
  match String.fromUTF8? (← disk.readBytes path) with
  | some text => return text
  | none => throw .notText

def filesBelow (disk : Disk) (path : String) : Except DiskFault (List String) := do
  match disk.top.find? (← disk.locate path) with
  | some entry => return entry.filePlaces.map fun place => place.foldl Path.join path
  | none => throw .missing

/-! ## Changing -/

def fail {α : Type} (fault : DiskFault) : FileAction Disk α :=
  throw fault.diagnostic

def put (place : List String) (entry : DiskEntry) : FileAction Disk Unit :=
  modify fun disk => { disk with top := disk.top.put place entry }

def makeDirectories : List String → List String → FileAction Disk Unit
  | [], _ => pure ()
  | name :: rest, place => do
    if name = ".." then
      makeDirectories rest place.dropLast
    else
      let disk ← get
      match disk.top.find? (place ++ [name]) with
      | some (.directory _ _) => makeDirectories rest (place ++ [name])
      | some (.file _ _ _) => fail (if rest.isEmpty then .alreadyThere else .notDirectory)
      | none =>
        if nameLimit < name.utf8ByteSize then fail .nameTooLong
        put (place ++ [name]) (.directory disk.now [])
        makeDirectories rest (place ++ [name])

/-- Makes the directory at a path, and those above it. No directory is made if the path
as a whole is at fault. -/
def makeDirectory (path : String) : FileAction Disk Unit := do
  match spellingFault? path with
  | some fault => fail fault
  | none => makeDirectories (Path.names path) ((← get).start path)

def makeParents (path : String) : FileAction Disk Unit :=
  makeDirectory (Path.parent path)

def writePlace (disk : Disk) (path : String) : Except DiskFault (List String) := do
  if path.isEmpty then throw .missing
  if let some fault := spellingFault? path then throw fault
  let pieces := Path.pieces path
  let name := pieces.getLast?.getD ""
  let parent ← walk disk.top pieces.dropLast (disk.start path)
  if !(disk.top.find? parent).any (·.isDirectory) then throw .notDirectory
  if name = "" ∨ name = "." ∨ name = ".." ∨
      (disk.top.find? (parent ++ [name])).any (·.isDirectory) then
    throw .isDirectory
  if nameLimit < name.utf8ByteSize then throw .nameTooLong
  return parent ++ [name]

def writeFile (path : String) (bytes : ByteArray) (tool : Option String) :
    FileAction Disk Unit := do
  let disk ← get
  match disk.writePlace path with
  | .ok place => put place (.file bytes disk.now tool)
  | .error fault => fail fault

def write (path text : String) : FileAction Disk Unit := do
  makeParents path
  writeFile path text.toUTF8 none

def remove (path : String) : FileAction Disk Unit := do
  let disk ← get
  match disk.locate path with
  | .error .missing => pure ()
  | .error fault => fail fault
  | .ok place =>
    if (disk.top.find? place).any (·.isDirectory) then fail .isDirectory
    else set { disk with top := disk.top.delete place }

def removeAll (path : String) (disk : Disk) : Disk :=
  match disk.locate path with
  | .error _ => disk
  | .ok place => { disk with top := disk.top.delete place }

def touch (path : String) (time : Nat) (disk : Disk) : Disk :=
  match disk.locate path with
  | .error _ => disk
  | .ok place =>
    match disk.top.find? place with
    | some entry => { disk with top := disk.top.put place (entry.touch time) }
    | none => disk

/-! ## Programs -/

/-- The program that a command starts. A command with a slash is the path of an
executable file, any other one is the name of a program. -/
def tool (disk : Disk) (command : String) : Except DiskFault Tool := do
  if command.toList.contains '/' then
    match disk.top.find? (← disk.locate command) with
    | some (.file _ _ (some name)) =>
      match disk.tools name with
      | some tool => return tool
      | none => throw .denied
    | _ => throw .denied
  else
    match disk.tools command with
    | some tool => return tool
    | none => throw .missing

/-- Runs a program. The target is emptied first, also if there is no such program or it
cannot be given its arguments. -/
def run (command : String) (arguments : List String) (target : String) :
    FileAction Disk ExitStatus := do
  makeParents target
  writeFile target .empty none
  if (command :: arguments).any hasNull then fail .nullArgument
  let disk ← get
  match disk.tool command with
  | .error fault => fail fault
  | .ok tool =>
    let (bytes, status) := tool (fun path => (disk.readBytes path).toOption) arguments
    writeFile target bytes none
    return status

def report {α : Type} : Except DiskFault α → Except Diagnostic α
  | .ok value => .ok value
  | .error fault => .error fault.diagnostic

instance : FileSystem Disk where
  present disk path := (disk.entry? path).isSome
  modificationTime? disk path := (disk.entry? path).map (·.time)
  resolve disk root path := disk.resolve (Path.join (disk.roots.get root) path)
  list disk := report (disk.filesBelow disk.roots.input)
  read path := fun disk =>
    match disk.read path with
    | .ok text => .ok text disk
    | .error fault => .error fault.diagnostic disk
  write := write
  remove := remove
  run := run

end Disk

end ZephirPhp
