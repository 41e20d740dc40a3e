import ZephirPhp.Command.Run

/-! # Command line

The command runs on a disk that holds the source and a parser. What the parser prints
for the source is taken from standard input, and the files that the command leaves are
written out.
-/

namespace ZephirPhp

def readSource (path : String) : IO (Option String) :=
  try
    return some (← IO.FS.readFile path)
  catch _ =>
    return none

def startDisk (command : Command) (workingDirectory : String) (source : Option String)
    (tree : String) : Disk :=
  let options := command.options "."
  let empty : Disk := {
    roots := ⟨options.inputRoot, options.outputRoot, options.systemRoot⟩
    workingDirectory := Path.names workingDirectory
    tools := fun _ => some fun _ _ => (tree.toUTF8, .code 0) }
  let parser := FileSystem.resolve empty .system options.parserPath
  let setUp : FileAction Disk Unit := do
    Disk.makeDirectory workingDirectory
    Disk.makeParents parser
    Disk.writeFile parser .empty (some "parser")
    match source with
    | some text => Disk.write command.source text
    | none => pure ()
  match setUp empty with
  | .ok () disk => disk
  | .error _ disk => disk

def newFiles (before after : Disk) : List (String × ByteArray) :=
  after.top.filePlaces.filterMap fun place =>
    match before.top.find? place, after.top.find? place with
    | none, some (.file bytes _ _) => some (Disk.pathOf place, bytes)
    | _, _ => none

def execute (command : Command) : IO Outcome := do
  let workingDirectory := (← IO.currentDir).toString
  let source ← readSource command.source
  let tree ← (← IO.getStdin).readToEnd
  let before := startDisk command workingDirectory source tree
  let (outcome, after) := command.run before
  for (path, bytes) in newFiles before after do
    IO.FS.createDirAll (Disk.pathOf (Path.names path).dropLast)
    IO.FS.writeBinFile path bytes
  return outcome

end ZephirPhp

def main (arguments : List String) : IO UInt32 := do
  let outcome ← match ZephirPhp.Command.ofArguments arguments with
    | .ok command => ZephirPhp.execute command
    | .error stop => pure stop.outcome
  IO.print outcome.output
  IO.eprint outcome.errors
  return outcome.exit.toUInt32
