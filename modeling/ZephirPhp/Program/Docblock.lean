import ZephirPhp.Program.Basic

/-! # Comments as docblocks

A comment right before a class or an interface becomes its docblock, unless it has one
already. All other comments stay where they are.
-/

namespace ZephirPhp

structure PendingComment where
  location : Location
  text : String

def PendingComment.release (pending : Option PendingComment) : List Entry :=
  match pending with
  | some comment => [.comment comment.location comment.text]
  | none => []

/-- The entries with the comments attached, where `pending` stands right before them. -/
def attachComments (pending : Option PendingComment) : List Entry → List Entry
  | [] => PendingComment.release pending
  | .comment location text :: rest =>
    PendingComment.release pending ++ attachComments (some ⟨location, text⟩) rest
  | .classDefinition definition :: rest =>
    match pending, definition.docblock with
    | some comment, none =>
      .classDefinition { definition with docblock := some comment.text } ::
        attachComments none rest
    | pending, _ =>
      PendingComment.release pending ++
        .classDefinition definition :: attachComments none rest
  | .interfaceDefinition definition :: rest =>
    match pending, definition.docblock with
    | some comment, none =>
      .interfaceDefinition { definition with docblock := some comment.text } ::
        attachComments none rest
    | pending, _ =>
      PendingComment.release pending ++
        .interfaceDefinition definition :: attachComments none rest
  | entry :: rest => PendingComment.release pending ++ entry :: attachComments none rest

def Program.inlineComments (program : Program) : Program :=
  ⟨attachComments none program.entries⟩

end ZephirPhp
