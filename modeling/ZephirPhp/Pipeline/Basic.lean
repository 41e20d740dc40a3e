import ZephirPhp.Pipeline.Stage

/-! # Pipelines

The stages that every unit passes, in their order.
-/

namespace ZephirPhp

abbrev Pipeline := List Stage

namespace Pipeline

def standard (setting : Setting) : Pipeline :=
  [.compact, .process, .emitCode setting]

def names (pipeline : Pipeline) : List String :=
  pipeline.map (·.name)

def add (stage : Stage) (pipeline : Pipeline) : Pipeline :=
  pipeline ++ [stage]

def remove (index : Nat) (pipeline : Pipeline) : Except Diagnostic (Stage × Pipeline) :=
  match pipeline[index]? with
  | some stage => .ok (stage, pipeline.eraseIdx index)
  | none => .error (.stageNotFound index)

def prepare : Pipeline → Recording Unit
  | [] => pure ()
  | stage :: rest => do
    stage.prepare
    prepare rest

def compile : Pipeline → CompilationUnit → Recording CompilationUnit
  | [], unit => pure unit
  | stage :: rest, unit => do compile rest (← stage.compile unit)

def reset (pipeline : Pipeline) (journal : Journal) : Journal :=
  pipeline.foldl (fun journal stage => stage.reset journal) journal

/-- The unit after all stages, which are reset also after a fault. -/
def compileAndReset (pipeline : Pipeline) (unit : CompilationUnit) :
    Recording CompilationUnit := fun journal =>
  match pipeline.compile unit journal with
  | .ok result journal => .ok result (pipeline.reset journal)
  | .error diagnostic journal => .error diagnostic (pipeline.reset journal)

end Pipeline

end ZephirPhp
