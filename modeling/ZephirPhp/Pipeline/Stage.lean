import ZephirPhp.Emission.Definition
import ZephirPhp.Program.Decoding
import ZephirPhp.Program.Phase

/-! # Stages

A compilation unit goes from the nodes of a file through the program to the PHP text.
Each stage takes a unit of one form to a unit of another and keeps a journal of what it
has to report.
-/

namespace ZephirPhp

inductive CompilationUnit where
  | ir (nodes : List Node)
  | ast (program : Program)
  | source (text : String)

namespace CompilationUnit

def form : CompilationUnit → Form
  | .ir _ => .ir
  | .ast _ => .ast
  | .source _ => .source

end CompilationUnit

structure Journal where
  log : List String := []
  warnings : List Warning := []

/-- The work of a stage. What it reported before a fault stays in the journal. -/
abbrev Recording := EStateM Diagnostic Journal

structure Stage where
  name : String
  /-- Done once, before the first unit. -/
  prepare : Recording Unit := pure ()
  compile : CompilationUnit → Recording CompilationUnit
  /-- Done after every unit. -/
  reset : Journal → Journal := id

namespace Stage

def refuse (stage : String) (unit : CompilationUnit) : Recording CompilationUnit :=
  throw (.unexpectedUnit stage unit.form)

def compact : Stage where
  name := "compact"
  compile
    | .ir nodes =>
      match Program.ofNodes nodes with
      | .ok program => pure (.ast program)
      | .error diagnostic => throw diagnostic
    | unit => refuse "compact" unit

def process : Stage where
  name := "process"
  compile
    | .ast program =>
      match program.process Phase.standard with
      | .ok program => pure (.ast program)
      | .error diagnostic => throw diagnostic
    | unit => refuse "process" unit

def emitCode (setting : Setting) : Stage where
  name := "emit-code"
  compile
    | .ast program => do
      let (result, warnings) := program.toPhp setting
      modify fun journal => { journal with warnings := journal.warnings ++ warnings }
      match result with
      | .ok text => pure (.source text)
      | .error diagnostic => throw diagnostic
    | unit => refuse "emit-code" unit

end Stage

end ZephirPhp
