import ZephirPhp.Freshness
import ZephirPhp.Options
import ZephirPhp.Pipeline.Basic

/-! # Compiling files

The compiler holds a store of files and a pipeline. It parses and compiles what is not
fresh.
-/

namespace ZephirPhp

structure Compiler (σ : Type) where
  files : σ
  options : Options
  pipeline : Pipeline := Pipeline.standard options.setting
  prepared : Bool := false
  journal : Journal := {}

/-- An action of the compiler. What it did before a fault stays done. -/
abbrev Build (σ : Type) := EStateM Diagnostic (Compiler σ)

structure CompiledFile where
  source : String
  output : String
  parsed : Bool
  /-- The text that was written, unless the file was fresh. -/
  php : Option String
deriving DecidableEq, Repr

structure BuildReport where
  compiled : List CompiledFile := []
  failures : List (String × Diagnostic) := []
deriving DecidableEq, Repr

def BuildReport.isSuccess (report : BuildReport) : Bool :=
  report.failures.isEmpty

namespace Compiler

variable {σ α : Type}

def standard (files : σ) (options : Options) : Compiler σ :=
  { files, options }

def onFiles (action : FileAction σ α) : Build σ α := fun compiler =>
  match action compiler.files with
  | .ok value files => .ok value { compiler with files }
  | .error diagnostic files => .error diagnostic { compiler with files }

def onJournal (action : Recording α) : Build σ α := fun compiler =>
  match action compiler.journal with
  | .ok value journal => .ok value { compiler with journal }
  | .error diagnostic journal => .error diagnostic { compiler with journal }

def ofExcept : Except Diagnostic α → Build σ α
  | .ok value => pure value
  | .error diagnostic => throw diagnostic

def prepare : Build σ Unit := do
  let compiler ← get
  if !compiler.prepared then
    onJournal compiler.pipeline.prepare
    modify fun compiler => { compiler with prepared := true }

def sourceText : CompilationUnit → Build σ String
  | .source text => pure text
  | unit => throw (.unexpectedUnit "output" unit.form)

variable [FileSystem σ]

def findParser : Build σ String := do
  let compiler ← get
  let parser := FileSystem.resolve compiler.files .system compiler.options.parserPath
  if FileSystem.present compiler.files parser then return parser
  else throw (.missingParser parser)

/-- Parses a source into its tree. After a failure no tree is left. -/
def parseSource (freshness : Freshness) (parser : String) : Build σ Unit := do
  let status ← onFiles (FileSystem.run parser [freshness.source] freshness.treePath)
  if !status.success then
    onFiles (FileSystem.remove freshness.treePath)
    throw (.failedParser freshness.source status)

def compileTree (freshness : Freshness) : Build σ String := do
  let text ← onFiles (FileSystem.read freshness.treePath)
  let nodes ← ofExcept (Node.ofText freshness.treePath text)
  prepare
  let unit ← onJournal ((← get).pipeline.compileAndReset (.ir nodes))
  let php ← sourceText unit
  onFiles (FileSystem.write freshness.outputPath php)
  return php

def compileSource (path parser : String) : Build σ CompiledFile := do
  let files := (← get).files
  let source := FileSystem.resolve files .input path
  if !FileSystem.present files source then
    throw (.missingSource source)
  let freshness := Freshness.load files source parser
  let parsed := freshness.needsParse
  if parsed then
    parseSource freshness parser
  if freshness.needsCompile parsed then
    let php ← compileTree freshness
    return ⟨source, freshness.outputPath, parsed, some php⟩
  else
    return ⟨source, freshness.outputPath, false, none⟩

def compileFile (path : String) : Build σ CompiledFile := do
  compileSource path (← findParser)

def sourceExtension : String := "zep"

def sources : Build σ (List String) := do
  let paths ← ofExcept (FileSystem.list (← get).files)
  return paths.filter fun path => Path.extension? path == some sourceExtension

/-- Compiles sources one after the other and adds to a report. With `keepGoing` a fault
that is confined to one source is noted, and the next source follows. -/
def compileSources (keepGoing : Bool) (parser : String) :
    List String → BuildReport → Build σ BuildReport
  | [], report => pure report
  | path :: rest, report => fun compiler =>
    match compileSource path parser compiler with
    | .ok compiled compiler =>
      compileSources keepGoing parser rest
        { report with compiled := report.compiled ++ [compiled] } compiler
    | .error diagnostic compiler =>
      if keepGoing && diagnostic.isConfinedToUnit then
        compileSources keepGoing parser rest
          { report with failures := report.failures ++ [(path, diagnostic)] }
          compiler
      else
        .error diagnostic compiler

def compileAll (keepGoing : Bool) : Build σ BuildReport := do
  let parser ← findParser
  compileSources keepGoing parser (← sources) {}

end Compiler

end ZephirPhp
