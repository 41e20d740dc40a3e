/-! # Forms of assignment

A `let` can write to a variable, an element, a property and so on. The form of an
assignment decides which parts it has and how the variable in it is looked up.
-/

namespace ZephirPhp

inductive AssignmentForm where
  | variable
  | variableAppend
  | arrayIndex
  | arrayIndexAppend
  | objectProperty
  | objectPropertyAppend
  | objectPropertyArrayIndex
  | objectPropertyArrayIndexAppend
  | variableDynamicObjectProperty
  | stringDynamicObjectProperty
  | staticProperty
  | staticPropertyAppend
  | staticPropertyArrayIndex
  | staticPropertyArrayIndexAppend
  | incr
  | decr
  | objectPropertyIncr
  | objectPropertyDecr
  | dynamicVariable
  | dynamicVariableString
deriving DecidableEq, Repr

inductive AssignmentFamily where
  | simple
  | container
  /-- A number that is counted up or down, so there is no right-hand side. -/
  | mutationOnly
  /-- Storage of a class, so no local variable is involved. -/
  | static
deriving DecidableEq, Repr

inductive Binding where
  | write
  | update
  | none
deriving DecidableEq, Repr

def AssignmentFamily.name : AssignmentFamily → String
  | .simple => "simple"
  | .container => "container"
  | .mutationOnly => "mutation-only"
  | .static => "static"

def Binding.name : Binding → String
  | .write => "write"
  | .update => "update"
  | .none => "none"

namespace AssignmentForm

def all : List AssignmentForm :=
  [.variable, .variableAppend, .arrayIndex, .arrayIndexAppend, .objectProperty,
    .objectPropertyAppend, .objectPropertyArrayIndex, .objectPropertyArrayIndexAppend,
    .variableDynamicObjectProperty, .stringDynamicObjectProperty, .staticProperty,
    .staticPropertyAppend, .staticPropertyArrayIndex, .staticPropertyArrayIndexAppend,
    .incr, .decr, .objectPropertyIncr, .objectPropertyDecr, .dynamicVariable,
    .dynamicVariableString]

def name : AssignmentForm → String
  | .variable => "variable"
  | .variableAppend => "variable-append"
  | .arrayIndex => "array-index"
  | .arrayIndexAppend => "array-index-append"
  | .objectProperty => "object-property"
  | .objectPropertyAppend => "object-property-append"
  | .objectPropertyArrayIndex => "object-property-array-index"
  | .objectPropertyArrayIndexAppend => "object-property-array-index-append"
  | .variableDynamicObjectProperty => "variable-dynamic-object-property"
  | .stringDynamicObjectProperty => "string-dynamic-object-property"
  | .staticProperty => "static-property"
  | .staticPropertyAppend => "static-property-append"
  | .staticPropertyArrayIndex => "static-property-array-index"
  | .staticPropertyArrayIndexAppend => "static-property-array-index-append"
  | .incr => "incr"
  | .decr => "decr"
  | .objectPropertyIncr => "object-property-incr"
  | .objectPropertyDecr => "object-property-decr"
  | .dynamicVariable => "dynamic-variable"
  | .dynamicVariableString => "dynamic-variable-string"

def ofName? (name : String) : Option AssignmentForm :=
  all.find? fun form => form.name == name

def family : AssignmentForm → AssignmentFamily
  | .variable | .dynamicVariable | .dynamicVariableString => .simple
  | .variableAppend | .arrayIndex | .arrayIndexAppend | .objectProperty
  | .objectPropertyAppend
  | .objectPropertyArrayIndex | .objectPropertyArrayIndexAppend
  | .variableDynamicObjectProperty
  | .stringDynamicObjectProperty => .container
  | .incr | .decr | .objectPropertyIncr | .objectPropertyDecr => .mutationOnly
  | .staticProperty | .staticPropertyAppend | .staticPropertyArrayIndex
  | .staticPropertyArrayIndexAppend =>
    .static

/-- A variable named by a text is looked up when the program runs, so it is not bound. -/
def binding (form : AssignmentForm) : Binding :=
  if form = .dynamicVariableString then .none
  else
    match form.family with
    | .simple => .write
    | .mutationOnly => .write
    | .container => .update
    | .static => .none

def takesExpression (form : AssignmentForm) : Bool :=
  form.family ≠ .mutationOnly

def takesIndex : AssignmentForm → Bool
  | .arrayIndex | .arrayIndexAppend | .objectPropertyArrayIndex
  | .objectPropertyArrayIndexAppend
  | .staticPropertyArrayIndex | .staticPropertyArrayIndexAppend => true
  | _ => false

def takesProperty : AssignmentForm → Bool
  | .objectProperty | .objectPropertyAppend | .objectPropertyArrayIndex
  | .objectPropertyArrayIndexAppend
  | .variableDynamicObjectProperty | .stringDynamicObjectProperty | .staticProperty
  | .staticPropertyAppend
  | .staticPropertyArrayIndex | .staticPropertyArrayIndexAppend | .objectPropertyIncr
  | .objectPropertyDecr =>
    true
  | _ => false

end AssignmentForm

end ZephirPhp
