import ZephirPhp.Diagnostic

/-! # File systems

What the compiler needs of a store of files. Times are numbers that grow; a program is
started with its output going to a file.
-/

namespace ZephirPhp

inductive Root where
  | input
  | output
  | system
deriving DecidableEq, Repr

structure Roots where
  input : String
  output : String
  system : String
deriving DecidableEq, Repr

def Roots.get (roots : Roots) : Root → String
  | .input => roots.input
  | .output => roots.output
  | .system => roots.system

/-- An action on files. What it did before a fault stays done. -/
abbrev FileAction (σ : Type) := EStateM Diagnostic σ

class FileSystem (σ : Type) where
  present : σ → String → Bool
  modificationTime? : σ → String → Option Nat
  resolve : σ → Root → String → String
  /-- The files below the input root, in a fixed order. -/
  list : σ → Except Diagnostic (List String)
  read (path : String) : FileAction σ String
  /-- Writes a file, and the directories above it. -/
  write (path text : String) : FileAction σ Unit
  /-- Removes a file, if it is there. -/
  remove (path : String) : FileAction σ Unit
  /-- Runs a program. What it prints becomes the text of the file `target`, also if the
  program fails. -/
  run (command : String) (arguments : List String) (target : String) :
      FileAction σ ExitStatus

end ZephirPhp
