import ZephirPhp.Proofs.Program.Gauge

/-! # Returned strings

The contents of the strings that are returned in a program, at any depth: in functions and
methods, in control structures, and in closures wherever an expression is shown.
-/

namespace ZephirPhp

/-- The content of an expression that is a string. -/
def Expr.stringContent : Expr → List String
  | .atom _ (.string content) => [content]
  | _ => []

/-- Where a line stands makes no difference to what it returns. -/
def Gauge.returned : Gauge Unit (List String) where
  top := ()
  deeper place := place
  nothing := []
  both contents others := contents ++ others
  joined := List.flatten
  line _ contents := contents
  condition _ _ contents := contents
  statement _ contents := contents
  result value contents := value.stringContent ++ contents

/-- The strings that a program returns somewhere. -/
def Program.returned (program : Program) : List String :=
  Gauge.returned.ofProgram program

end ZephirPhp
