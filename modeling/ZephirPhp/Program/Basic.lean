import ZephirPhp.Location
import ZephirPhp.Program.AssignmentForm
import ZephirPhp.Program.Operator

/-! # Programs

The typed syntax tree of a Zephir source file. Expressions and statements contain each
other, since a closure is an expression with a body of statements.
-/

namespace ZephirPhp

inductive EmptyValue where
  | array
  | string
deriving DecidableEq, Repr

inductive Atom where
  | int (text : String)
  | double (text : String)
  | bool (value : Bool)
  | null
  | string (content : String)
  /-- A string in which variables are replaced by their values. -/
  | interpolated (content : String)
  | char (content : String)
  | emptyArray
  | constant (name : String)
  | variable (name : String)
  | staticProperty (className property : String)
  | staticConstant (className constant : String)
  | newType (value : EmptyValue)
deriving DecidableEq, Repr

mutual

inductive Expr where
  | atom (location : Location) (leaf : Atom)
  | array (location : Location) (items : List ArrayItem)
  | unary (location : Location) (operator : UnaryOperator) (operand : Expr)
  | binary (location : Location) (operator : BinaryOperator) (left right : Expr)
  | range (location : Location) (inclusive : Bool) (first last : Expr)
  | property (location : Location) (object : Expr) (name : String)
  | dynamicProperty (location : Location) (object name : Expr)
  | stringProperty (location : Location) (object : Expr) (name : String)
  | index (location : Location) (array index : Expr)
  | methodCall (location : Location) (receiver : Expr) (method : String)
      (arguments : List Expr)
  | functionCall (location : Location) (function : String) (arguments : List Expr)
  | staticCall (location : Location) (className method : String) (arguments : List Expr)
  /-- With `dynamic`, the name is that of a variable which holds the name of the class. -/
  | new (location : Location) (className : String) (dynamic : Bool)
      (arguments : List Expr)
  | cast (location : Location) (type : String) (operand : Expr)
  | typeHint (location : Location) (type : String) (operand : Expr)
  | ternary (location : Location) (condition consequence alternative : Expr)
  | closure (location : Location) (parameters : List Parameter) (body : List Stmt)
  | arrow (location : Location) (parameter : String) (body : Expr)
  | fetch (location : Location) (target : String) (source : Expr)

structure ArrayItem where
  key : Option Expr
  value : Expr

structure Parameter where
  name : String
  default : Option Expr
  byReference : Bool

inductive Stmt where
  | assign (location : Location) (assignments : List Assignment)
  | declare (location : Location) (declarations : List Declaration)
  | expression (location : Location) (expression : Expr)
  | cond (location : Location) (condition : Expr) (body : List Stmt)
      (alternatives : List Branch)
      (otherwise : Option (List Stmt))
  | loop (location : Location) (body : List Stmt)
  | whileLoop (location : Location) (condition : Expr) (body : List Stmt)
  | doWhile (location : Location) (body : List Stmt) (condition : Expr)
  | forEach (location : Location) (key value : Option String) (reverse : Bool)
      (source : Expr)
      (body : List Stmt)
  | switch (location : Location) (subject : Expr) (clauses : List Clause)
  | continueLoop (location : Location)
  | breakLoop (location : Location)
  | returnValue (location : Location) (value : Option Expr)
  | throwValue (location : Location) (value : Expr)
  | unset (location : Location) (target : Expr)
  | echo (location : Location) (values : List Expr)
  | require (location : Location) (file : Expr)
  | tryCatch (location : Location) (body : List Stmt) (handlers : List Handler)
  | comment (location : Location) (text : String)
  | empty (location : Location)

/-- One target of a `let`: the variable `target`, or a part of it. The form says which
of the optional parts belong to the assignment. -/
structure Assignment where
  form : AssignmentForm
  operator : Option AssignmentOperator
  target : String
  property : Option String
  index : List Expr
  value : Option Expr
  location : Location

structure Declaration where
  name : String
  value : Option Expr

structure Branch where
  condition : Expr
  body : List Stmt

inductive Clause where
  | case (test : Expr) (body : List Stmt)
  | default (body : List Stmt)

structure Handler where
  classes : List String
  caught : Option String
  body : List Stmt

end

namespace Expr

def location : Expr → Location
  | .atom location _ | .array location _ | .unary location _ _ | .binary location _ _ _
  | .range location _ _ _ | .property location _ _ | .dynamicProperty location _ _
  | .stringProperty location _ _ | .index location _ _ | .methodCall location _ _ _
  | .functionCall location _ _ | .staticCall location _ _ _ | .new location _ _ _
  | .cast location _ _
  | .typeHint location _ _ | .ternary location _ _ _ | .closure location _ _
  | .arrow location _ _
  | .fetch location _ _ => location

end Expr

def Atom.kind : Atom → String
  | .int _ => "int"
  | .double _ => "double"
  | .bool _ => "bool"
  | .null => "null"
  | .string _ => "string"
  | .interpolated _ => "istring"
  | .char _ => "char"
  | .emptyArray => "empty-array"
  | .constant _ => "constant"
  | .variable _ => "variable"
  | .staticProperty _ _ => "static-property-access"
  | .staticConstant _ _ => "static-constant-access"
  | .newType _ => "new-type"

def Expr.kind : Expr → String
  | .atom _ leaf => leaf.kind
  | .array _ _ => "array"
  | .unary _ operator _ => operator.kind
  | .binary _ operator _ _ => operator.kind
  | .range _ inclusive _ _ => if inclusive then "irange" else "erange"
  | .property _ _ _ => "property-access"
  | .dynamicProperty _ _ _ => "property-dynamic-access"
  | .stringProperty _ _ _ => "property-string-access"
  | .index _ _ _ => "array-access"
  | .methodCall _ _ _ _ => "mcall"
  | .functionCall _ _ _ => "fcall"
  | .staticCall _ _ _ _ => "scall"
  | .new _ _ _ _ => "new"
  | .cast _ _ _ => "cast"
  | .typeHint _ _ _ => "type-hint"
  | .ternary _ _ _ _ => "ternary"
  | .closure _ _ _ => "closure"
  | .arrow _ _ _ => "closure-arrow"
  | .fetch _ _ _ => "fetch"

/-! ## Definitions -/

structure Constant where
  name : String
  value : Expr
  docblock : Option String

structure Shortcut where
  name : String
  location : Location
deriving DecidableEq, Repr

structure Property where
  visibility : List String
  name : String
  default : Option Expr
  shortcuts : List Shortcut
  docblock : Option String
  location : Location

/-- A method without statements is abstract or belongs to an interface. -/
structure Method where
  visibility : List String
  name : String
  parameters : List Parameter
  statements : Option (List Stmt)
  docblock : Option String
  location : Location

def Property.isStatic (property : Property) : Bool :=
  property.visibility.contains "static"

def Method.isStatic (method : Method) : Bool :=
  method.visibility.contains "static"

structure ClassDefinition where
  name : String
  isAbstract : Bool
  isFinal : Bool
  parent : Option String
  interfaces : List String
  docblock : Option String
  constants : List Constant
  properties : List Property
  methods : List Method
  location : Location

structure InterfaceDefinition where
  name : String
  parents : List String
  docblock : Option String
  constants : List Constant
  methods : List Method
  location : Location

structure FunctionDefinition where
  name : String
  parameters : List Parameter
  statements : List Stmt
  docblock : Option String
  location : Location

structure Import where
  name : String
  shortName : Option String
deriving DecidableEq, Repr

inductive Entry where
  | comment (location : Location) (text : String)
  | namespaceName (location : Location) (name : String)
  | imports (location : Location) (imports : List Import)
  | classDefinition (definition : ClassDefinition)
  | interfaceDefinition (definition : InterfaceDefinition)
  | functionDefinition (definition : FunctionDefinition)
  | statement (statement : Stmt)

structure Program where
  entries : List Entry

end ZephirPhp
