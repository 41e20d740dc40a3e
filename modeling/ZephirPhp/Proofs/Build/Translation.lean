import ZephirPhp.Pipeline.Basic
import ZephirPhp.Proofs.Sequencing

/-! # Translation

What the standard pipeline makes of the text of a syntax tree, as a function. The
stages only add to the journal, so what a journal holds has no influence on the
result.
-/

namespace ZephirPhp

/-- The PHP text of a list of nodes. -/
def translateNodes (setting : Setting) (nodes : List Node) :
    Except Diagnostic String := do
  let program ← Program.ofNodes nodes
  let processed ← program.process Phase.standard
  (processed.toPhp setting).1

/-- The PHP text of the syntax tree in a file. -/
def translate (setting : Setting) (path text : String) : Except Diagnostic String := do
  translateNodes setting (← Node.ofText path text)

namespace Pipeline

theorem prepare_standard (setting : Setting) (journal : Journal) :
    (standard setting).prepare journal = .ok () journal := rfl

/-- The standard pipeline gives the translation, whatever the journal holds. -/
theorem compile_standard (setting : Setting) (nodes : List Node) (journal : Journal) :
    ∃ after, (standard setting).compile (.ir nodes) journal =
      match translateNodes setting nodes with
      | .ok text => .ok (.source text) after
      | .error diagnostic => .error diagnostic after := by
  simp only [standard, compile, Stage.compact, Stage.process, Stage.emitCode,
    translateNodes]
  cases Program.ofNodes nodes with
  | error diagnostic => exact ⟨journal, rfl⟩
  | ok program =>
      cases processing : program.process Phase.standard with
      | error diagnostic => exact ⟨journal, by simp [processing, EStateM.bind_apply]⟩
      | ok processed =>
          rcases emission : processed.toPhp setting with ⟨result, warnings⟩
          refine ⟨{ journal with warnings := journal.warnings ++ warnings }, ?_⟩
          cases result <;> simp [processing, emission, EStateM.bind_apply]

end Pipeline

end ZephirPhp
