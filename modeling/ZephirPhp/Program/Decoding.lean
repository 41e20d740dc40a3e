import ZephirPhp.Node
import ZephirPhp.Program.Basic

/-! # From nodes to programs

The kind of a node is looked up by its key; a key that no node of the family has is
refused. The parts of a node are read in a fixed order, so that of several faults the
first one in that order is reported.

Expressions and statements contain each other. Each of the functions below takes the
decoder for the nodes inside, and `decoder` ties them together: a decoder of depth `n`
reads nodes that are nested at most `n` deep.
-/

namespace ZephirPhp

def Node.noHandler (node : Node) (family : Family) : Diagnostic :=
  .noHandler family node.key node.location

structure Decoder where
  expression : Node → Reading Expr
  statement : Node → Reading Stmt

namespace Decoder

variable (decoder : Decoder)

def child (node : Node) (name : String) : Reading Expr := do
  decoder.expression (← node.child name)

def optionalChild (node : Node) (name : String) : Reading (Option Expr) := do
  match ← node.optionalChild name with
  | none => return none
  | some child => return some (← decoder.expression child)

def children (node : Node) (name : String) : Reading (List Expr) := do
  (← node.children name).mapM decoder.expression

def block (node : Node) (name : String) : Reading (List Stmt) := do
  (← node.children name).mapM decoder.statement

def optionalBlock (node : Node) (name : String) : Reading (Option (List Stmt)) := do
  if node.has name then return some (← decoder.block node name) else return none

/-! ## Expressions -/

def arguments (node : Node) : Reading (List Expr) := do
  (← node.records "parameters" "argument").mapM fun argument =>
    decoder.child argument "parameter"

def parameter (node : Node) : Reading Parameter := do
  return {
    name := ← node.string "name"
    default := ← decoder.optionalChild node "default"
    byReference := ← node.flag "reference" }

def parameters (node : Node) (name : String) : Reading (List Parameter) := do
  (← node.records name "parameter").mapM decoder.parameter

def arrayItem (node : Node) : Reading ArrayItem := do
  return {
    key := ← decoder.optionalChild node "key"
    value := ← decoder.child node "value" }

def emptyValue (node : Node) : Reading EmptyValue := do
  match ← node.string "internal-type" with
  | "array" => return .array
  | "string" => return .string
  | _ => throw (node.malformed "internal-type")

/-- A closure names its parts by role or, if it has neither of the roles, by position. -/
def closure (node : Node) : Reading Expr := do
  let byRole := node.has "parameters" || node.has "statements"
  return .closure node.location
    (← decoder.parameters node (if byRole then "parameters" else "left"))
    (← decoder.block node (if byRole then "statements" else "right"))

def operation (node : Node) : Reading Expr := do
  match UnaryOperator.ofKey? node.key with
  | some operator => return .unary node.location operator (← decoder.child node "left")
  | none =>
    match BinaryOperator.ofKey? node.key with
    | some operator =>
      return .binary node.location operator (← decoder.child node "left")
        (← decoder.child node "right")
    | none => throw (node.noHandler .expression)

def expressionWith (node : Node) : Reading Expr := do
  let location := node.location
  match node.key with
  | "Int" | "Uint" | "Long" | "Ulong" =>
    return .atom location (.int (← node.scalar "value"))
  | "Double" => return .atom location (.double (← node.scalar "value"))
  | "Bool" => return .atom location (.bool (← node.flag "value"))
  | "Null" => return .atom location .null
  | "String" => return .atom location (.string (← node.scalar "value"))
  | "Istring" => return .atom location (.interpolated (← node.scalar "value"))
  | "Char" => return .atom location (.char (← node.scalar "value"))
  | "Array" =>
    return .array location (← (← node.records "left" "array-item").mapM decoder.arrayItem)
  | "EmptyArray" => return .atom location .emptyArray
  | "Constant" => return .atom location (.constant (← node.scalar "value"))
  | "Variable" => return .atom location (.variable (← node.scalar "value"))
  | "Irange" =>
    return .range location true (← decoder.child node "left")
      (← decoder.child node "right")
  | "Erange" =>
    return .range location false (← decoder.child node "left")
      (← decoder.child node "right")
  | "PropertyAccess" =>
    return .property location (← decoder.child node "left") (← node.name "right")
  | "PropertyDynamicAccess" =>
    return .dynamicProperty location (← decoder.child node "left")
      (← decoder.child node "right")
  | "PropertyStringAccess" =>
    return .stringProperty location (← decoder.child node "left") (← node.name "right")
  | "StaticPropertyAccess" =>
    return .atom location (.staticProperty (← node.name "left") (← node.name "right"))
  | "StaticConstantAccess" =>
    return .atom location (.staticConstant (← node.name "left") (← node.name "right"))
  | "ArrayAccess" =>
    return .index location (← decoder.child node "left") (← decoder.child node "right")
  | "Mcall" =>
    return .methodCall location (← decoder.child node "variable") (← node.string "name")
      (← decoder.arguments node)
  | "Fcall" =>
    return .functionCall location (← node.string "name") (← decoder.arguments node)
  | "Scall" =>
    return .staticCall location (← node.name "class") (← node.string "name")
      (← decoder.arguments node)
  | "New" =>
    return .new location (← node.name "class") (← node.flag "dynamic")
      (← decoder.arguments node)
  | "NewType" => return .atom location (.newType (← emptyValue node))
  | "Cast" => return .cast location (← node.name "left") (← decoder.child node "right")
  | "TypeHint" =>
    return .typeHint location (← node.name "left") (← decoder.child node "right")
  | "Ternary" =>
    return .ternary location (← decoder.child node "left") (← decoder.child node "right")
      (← decoder.child node "extra")
  | "Closure" => decoder.closure node
  | "ClosureArrow" =>
    return .arrow location (← node.name "left") (← decoder.child node "right")
  | "Fetch" => return .fetch location (← node.name "left") (← decoder.child node "right")
  | _ => decoder.operation node

/-! ## Statements -/

/-- A counting assignment has no right-hand side, any other needs one. -/
def assignment (node : Node) : Reading Assignment := do
  let variant ← node.string "assign-type"
  let some form := AssignmentForm.ofName? variant
    | throw (.unknownAssignment variant node.location)
  let operator ← match ← node.optionalString "operator" with
    | none => pure none
    | some name =>
      match AssignmentOperator.ofName? name with
      | some operator => pure (some operator)
      | none => throw (.unknownOperator name node.location)
  if node.has "expr" != form.takesExpression then
    throw (.malformedNode form.name "expr" node.location)
  let value ← decoder.optionalChild node "expr"
  let property ← if form.takesProperty then some <$> node.name "property" else pure none
  let index ← if form.takesIndex then decoder.children node "index-expr" else pure []
  return {
    form, operator, target := ← node.name "variable", property, index, value
    location := node.location }

def declaration (node : Node) : Reading Declaration := do
  return {
    name := ← node.name "variable"
    value := ← decoder.optionalChild node "expr" }

def branch (node : Node) : Reading Branch := do
  return {
    condition := ← decoder.child node "expr"
    body := ← decoder.block node "statements" }

def clause (node : Node) : Reading Clause := do
  match node.key with
  | "Case" =>
    return .case (← decoder.child node "expr") (← decoder.block node "statements")
  | "Default" => return .default (← decoder.block node "statements")
  | _ => throw (node.noHandler .clause)

def handler (node : Node) : Reading Handler := do
  return {
    classes := ← node.names "classes"
    caught := ← node.optionalName "variable"
    body := ← decoder.block node "statements" }

def statementWith (node : Node) : Reading Stmt := do
  let location := node.location
  match node.key with
  | "Let" =>
    return .assign location
      (← (← node.records "assignments" "assignment").mapM decoder.assignment)
  | "Declare" =>
    return .declare location
      (← (← node.records "variables" "declaration").mapM decoder.declaration)
  | "Mcall" | "Fcall" | "Scall" =>
    return .expression location (← decoder.child node "expr")
  | "If" =>
    return .cond location (← decoder.child node "expr")
      (← decoder.block node "statements")
      (← (← node.records "elseif_statements" "elseif").mapM decoder.branch)
      (← decoder.optionalBlock node "else_statements")
  | "Fetch" => return .cond location (← decoder.child node "expr") [] [] none
  | "Loop" => return .loop location (← decoder.block node "statements")
  | "While" =>
    return .whileLoop location (← decoder.child node "expr")
      (← decoder.block node "statements")
  | "DoWhile" =>
    return .doWhile location (← decoder.block node "statements")
      (← decoder.child node "expr")
  | "For" =>
    return .forEach location (← node.optionalString "key") (← node.optionalString "value")
      (← node.flag "reverse") (← decoder.child node "expr")
      (← decoder.block node "statements")
  | "Switch" =>
    return .switch location (← decoder.child node "expr")
      (← (← node.children "clauses").mapM decoder.clause)
  | "Continue" => return .continueLoop location
  | "Break" => return .breakLoop location
  | "Return" => return .returnValue location (← decoder.optionalChild node "expr")
  | "Throw" => return .throwValue location (← decoder.child node "expr")
  | "Unset" => return .unset location (← decoder.child node "expr")
  | "Echo" => return .echo location (← decoder.children node "expressions")
  | "Require" => return .require location (← decoder.child node "expr")
  | "TryCatch" =>
    return .tryCatch location (← decoder.block node "statements")
      (← (← node.records "catches" "catch").mapM decoder.handler)
  | "Comment" => return .comment location (← node.scalar "value")
  | "Empty" => return .empty location
  | _ => throw (node.noHandler .statement)

end Decoder

/-- The decoder of nodes that are nested at most `depth` deep. A node counts itself, so
depth zero is never asked. -/
def decoder : Nat → Decoder
  | 0 =>
    ⟨fun node => .error (node.noHandler .expression),
      fun node => .error (node.noHandler .statement)⟩
  | depth + 1 => ⟨(decoder depth).expressionWith, (decoder depth).statementWith⟩

/-! ## Definitions -/

namespace Decoder

variable (decoder : Decoder)

def constant (node : Node) : Reading Constant := do
  return {
    name := ← node.string "name"
    value := ← decoder.child node "default"
    docblock := ← node.optionalString "docblock" }

def shortcut (node : Node) : Reading Shortcut := do
  return { name := ← node.string "name", location := node.location }

def property (node : Node) : Reading Property := do
  let default ← decoder.optionalChild node "default"
  let shortcuts ← (← node.children "shortcuts").mapM shortcut
  return {
    visibility := ← node.strings "visibility"
    name := ← node.string "name"
    default
    shortcuts
    docblock := ← node.optionalString "docblock"
    location := node.location }

def method (node : Node) : Reading Method := do
  let statements ← decoder.optionalBlock node "statements"
  return {
    visibility := ← node.strings "visibility"
    name := ← node.string "name"
    parameters := ← decoder.parameters node "parameters"
    statements
    docblock := ← node.optionalString "docblock"
    location := node.location }

def member {α : Type} (key : String) (decode : Node → Reading α) (node : Node) :
    Reading α :=
  if node.key = key then decode node else .error (node.noHandler .classMember)

structure Members where
  constants : List Constant := []
  properties : List Property := []
  methods : List Method := []

def members (node : Node) : Reading Members := do
  match ← node.record "definition" "definition" with
  | none => return {}
  | some body =>
    return {
      constants := ← (← body.children "constants").mapM (member "Const" decoder.constant)
      properties := ←
        (← body.children "properties").mapM (member "Property" decoder.property)
      methods := ← (← body.children "methods").mapM (member "Method" decoder.method) }

def classDefinition (node : Node) : Reading ClassDefinition := do
  let members ← decoder.members node
  return {
    name := ← node.string "name"
    isAbstract := ← node.flag "abstract"
    isFinal := ← node.flag "final"
    parent := ← node.optionalName "extends"
    interfaces := ← node.names "implements"
    docblock := ← node.optionalString "docblock"
    constants := members.constants
    properties := members.properties
    methods := members.methods
    location := node.location }

def interfaceDefinition (node : Node) : Reading InterfaceDefinition := do
  let members ← decoder.members node
  if let property :: _ := members.properties then
    throw (.noHandler .classMember "Property" property.location)
  return {
    name := ← node.string "name"
    parents := ← node.names "extends"
    docblock := ← node.optionalString "docblock"
    constants := members.constants
    methods := members.methods
    location := node.location }

def functionDefinition (node : Node) : Reading FunctionDefinition := do
  return {
    name := ← node.string "name"
    parameters := ← decoder.parameters node "parameters"
    statements := ← decoder.block node "statements"
    docblock := ← node.optionalString "docblock"
    location := node.location }

def importedName (node : Node) : Reading Import := do
  return { name := ← node.string "name", shortName := ← node.optionalString "alias" }

def entry (node : Node) : Reading Entry := do
  match node.key with
  | "Comment" => return .comment node.location (← node.scalar "value")
  | "Namespace" => return .namespaceName node.location (← node.string "name")
  | "Use" =>
    return .imports node.location
      (← (← node.records "aliases" "use-alias").mapM importedName)
  | "Class" => return .classDefinition (← decoder.classDefinition node)
  | "Interface" => return .interfaceDefinition (← decoder.interfaceDefinition node)
  | "Function" => return .functionDefinition (← decoder.functionDefinition node)
  | "Require" => return .statement (← decoder.statement node)
  | _ => throw (node.noHandler .topLevel)

end Decoder

def Program.ofNodes (nodes : List Node) : Reading Program := do
  return ⟨← nodes.mapM fun node => (decoder node.nesting).entry node⟩

end ZephirPhp
