/-! # Layout of generated text -/

namespace ZephirPhp

inductive Indent where
  | spaces (count : Nat)
  | tabs
deriving DecidableEq, Repr

structure Layout where
  indent : Indent := .spaces 2
  /-- The deepest level that is shown; deeper nesting looks like this one. -/
  maxDepth : Nat := 10
  /-- Whether the bodies of classes and functions open on a line of their own. Control
  structures never do. -/
  braceOnNewLine : Bool := true
deriving DecidableEq, Repr

namespace Layout

def greatestIndent : Nat := 10

def unit (layout : Layout) : String :=
  match layout.indent with
  | .spaces count => String.ofList (List.replicate (min count greatestIndent) ' ')
  | .tabs => "\t"

def margin (layout : Layout) (level : Nat) : String :=
  String.join (List.replicate (min level layout.maxDepth) layout.unit)

example : margin {} 3 = "      " ∧
    margin { indent := .spaces 40, maxDepth := 1 } 3 = "          " ∧
    margin { indent := .tabs } 2 = "\t\t" := by decide

end Layout

end ZephirPhp
