import ZephirPhp.Files.Basic
import ZephirPhp.Files.Table

/-! # Files in memory

Files by the places of their paths, with a clock that ticks at every change. The memory
keeps a log of what was done and can be made to fail, so it shows what a build does to
its files.
-/

namespace ZephirPhp

structure StoredFile where
  text : String
  time : Nat
deriving DecidableEq, Repr

/-- What a program prints for a source, and how it ends. -/
structure Printed where
  text : String
  status : ExitStatus
deriving DecidableEq, Repr

inductive FileEvent where
  | read (path : String)
  | write (path : String)
  | remove (path : String)
  | run (command : String) (arguments : List String) (target : String)
deriving DecidableEq, Repr

def FileEvent.describe : FileEvent → String
  | .read path => "read " ++ path
  | .write path => "write " ++ path
  | .remove path => "remove " ++ path
  | .run command arguments target =>
    " ".intercalate ("system" :: command :: arguments) ++ " > " ++ target

inductive FileOperation where
  | read
  | write
  | remove
  | run
  | list
deriving DecidableEq, Repr

namespace FileOperation

def all : List FileOperation := [.read, .write, .remove, .run, .list]

def name : FileOperation → String
  | .read => "read"
  | .write => "write"
  | .remove => "remove"
  | .run => "system"
  | .list => "enumerate"

def ofName? (name : String) : Option FileOperation :=
  all.find? fun operation => operation.name == name

end FileOperation

structure Memory where
  roots : Roots
  files : FileTable StoredFile := []
  clock : Nat := 0
  -- By the source that the program is given.
  printed : FileTable Printed := []
  -- By the number of events before the operation.
  fails : Nat → FileOperation → Bool := fun _ _ => false
  events : List FileEvent := []

namespace Memory

def put (path text : String) (memory : Memory) : Memory :=
  { memory with
    clock := memory.clock + 1
    files := memory.files.insert path ⟨text, memory.clock + 1⟩ }

def delete (path : String) (memory : Memory) : Memory :=
  { memory with files := memory.files.erase path }

def below (directory : String) (memory : Memory) : List String :=
  memory.files.paths.filter fun path =>
    (Path.place directory).isPrefixOf (Path.place path)

-- A source of which nothing is known has no tree.
def noTree : Printed := ⟨"null", .code 0⟩

def printedFor (arguments : List String) (memory : Memory) : Printed :=
  match arguments with
  | source :: _ => (memory.printed.get? source).getD noTree
  | [] => noTree

def broken (operation : FileOperation) : Diagnostic :=
  .io ("broken " ++ operation.name)

/-- Logs an event, then does the action unless the operation fails. -/
def perform {α : Type} (operation : FileOperation) (event : FileEvent)
    (action : FileAction Memory α) : FileAction Memory α := fun memory =>
  let logged := { memory with events := memory.events ++ [event] }
  if memory.fails memory.events.length operation then .error (broken operation) logged
  else action logged

instance : FileSystem Memory where
  present memory path := memory.files.contains path
  modificationTime? memory path := (memory.files.get? path).map (·.time)
  resolve memory root path := Path.join (memory.roots.get root) path
  list memory :=
    if memory.fails memory.events.length .list then .error (broken .list)
    else .ok (memory.below memory.roots.input)
  read path := perform .read (.read path) fun memory =>
    match memory.files.get? path with
    | some file => .ok file.text memory
    | none => .error (.io "no such file") memory
  write path text := perform .write (.write path) (modify (·.put path text))
  remove path := perform .remove (.remove path) (modify (·.delete path))
  run command arguments target :=
    perform .run (.run command arguments target) fun memory =>
    let printed := memory.printedFor arguments
    .ok printed.status (memory.put target printed.text)

end Memory

end ZephirPhp
