import ZephirPhp.Files.Basic
import ZephirPhp.Path

/-! # Freshness of artifacts

A source has two artifacts: the syntax tree that the parser printed and the PHP file.
What has to be made again is judged by which files are there and when they were changed.
-/

namespace ZephirPhp

structure Freshness where
  source : String
  treePath : String
  outputPath : String
  sourceTime : Option Nat
  treeTime : Option Nat
  outputTime : Option Nat
  parserTime : Option Nat
deriving DecidableEq, Repr

namespace Freshness

def baseName (source : String) : String :=
  Path.flatten source

def load {σ : Type} [FileSystem σ] (files : σ) (source parser : String) : Freshness :=
  let artifact (extension : String) :=
    FileSystem.resolve files .output (baseName source ++ extension)
  let time := FileSystem.modificationTime? files
  { source
    treePath := artifact ".js"
    outputPath := artifact ".php"
    sourceTime := time source
    treeTime := time (artifact ".js")
    outputTime := time (artifact ".php")
    parserTime := time parser }

/-- Whether the first time is before the second. A file that is missing is no reason. -/
def isBefore (time : Nat) : Option Nat → Bool
  | some other => time < other
  | none => false

def needsParse (freshness : Freshness) : Bool :=
  match freshness.treeTime with
  | none => true
  | some time => isBefore time freshness.sourceTime || isBefore time freshness.parserTime

def needsCompile (freshness : Freshness) (parsed : Bool) : Bool :=
  parsed || freshness.outputTime.isNone

end Freshness

end ZephirPhp
