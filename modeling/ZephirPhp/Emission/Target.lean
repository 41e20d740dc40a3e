import ZephirPhp.Diagnostic
import ZephirPhp.Program.AssignmentForm

/-! # Targets of assignments -/

namespace ZephirPhp.AssignmentForm

def storage (form : AssignmentForm) (target property : String) : String :=
  match form with
  | .variable | .variableAppend | .arrayIndex | .arrayIndexAppend | .incr | .decr =>
    "$" ++ target
  | .objectProperty | .objectPropertyAppend | .objectPropertyArrayIndex
  | .objectPropertyArrayIndexAppend
  | .objectPropertyIncr | .objectPropertyDecr => "$" ++ target ++ "->" ++ property
  | .variableDynamicObjectProperty => "$" ++ target ++ "->\x7b$" ++ property ++ "\x7d"
  | .stringDynamicObjectProperty => "$" ++ target ++ "->\x7b\"" ++ property ++ "\"\x7d"
  | .staticProperty | .staticPropertyAppend | .staticPropertyArrayIndex
  | .staticPropertyArrayIndexAppend =>
    target ++ "::$" ++ property
  | .dynamicVariable => "$$" ++ target
  | .dynamicVariableString => "$\x7b\"" ++ target ++ "\"\x7d"

def ending : AssignmentForm → String
  | .variableAppend | .arrayIndexAppend | .objectPropertyAppend
  | .objectPropertyArrayIndexAppend
  | .staticPropertyAppend | .staticPropertyArrayIndexAppend => "[]"
  | .incr | .objectPropertyIncr => "++"
  | .decr | .objectPropertyDecr => "--"
  | _ => ""

/-- The left-hand side of an assignment, where `path` holds the steps into an array. -/
def targetCode (form : AssignmentForm) (target : String) (property : Option String)
    (path : String)
    (location : Location) : Except Diagnostic String :=
  match form.takesProperty, property with
  | true, none => .error (.malformedNode form.name "property" location)
  | _, property => .ok (form.storage target (property.getD "") ++ path ++ form.ending)

example : targetCode .objectPropertyArrayIndexAppend "v" (some "p") "[1]" .unknown =
    .ok "$v->p[1][]" := rfl

end ZephirPhp.AssignmentForm
