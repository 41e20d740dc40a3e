import ZephirPhp.Emission.Basic
import ZephirPhp.Emission.Literal
import ZephirPhp.Emission.Target

/-! # Code of expressions and statements

Expressions become text, statements become lines on the page. The two depend on each
other through closures, whose bodies are written on a page of their own and then stand
in the expression as a text of several lines.
-/

namespace ZephirPhp

/-! ## Calls -/

def Expr.literalReceiver? : Expr → Option Receiver
  | .atom _ (.string _) => some .string
  | .atom _ .emptyArray => some .array
  | .array _ _ => some .array
  | _ => none

def argumentCode (arguments : List String) : String :=
  "(" ++ ", ".intercalate arguments ++ ")"

def methodCallCode (receiver : Option Receiver) (location : Location)
    (method object : String)
    (arguments : List String) : Emission String := do
  match receiver with
  | none => return object ++ "->" ++ method ++ argumentCode arguments
  | some receiver =>
    let pseudoMethod ← Emission.ofExcept (PseudoMethod.resolve receiver method location)
    if pseudoMethod.inPlace then
      Emission.warn ⟨method, pseudoMethod.function, location⟩
    return pseudoMethod.function ++ argumentCode (pseudoMethod.arrange object arguments)

def accessesGlobals (function : String) : Bool :=
  function == "globals_get" || function == "globals_set"

def checkGlobals (globals : Globals) (location : Location) (function : String)
    (arguments : List Expr) :
    Except Diagnostic Unit :=
  match globals, arguments with
  | .initialized values, .atom _ (.string name) :: _ =>
    if accessesGlobals function && !values.contains name then
      .error (.unknownGlobal name location)
    else .ok ()
  | _, _ => .ok ()

/-! ## Pieces of code -/

def arrayItemCode (key : Option String) (value : String) : String :=
  match key with
  | some key => key ++ " => " ++ value
  | none => value

def parameterCode (byReference : Bool) (name : String) (default : Option String) :
    String :=
  (if byReference then "&" else "") ++ "$" ++ name ++
    match default with
    | some value => " = " ++ value
    | none => ""

def rangeCode (inclusive : Bool) (first last : String) : String :=
  if inclusive then "range(" ++ first ++ ", " ++ last ++ ")"
  else "array_slice(range(" ++ first ++ ", " ++ last ++ "), 1, -1)"

/-- The head of a loop over the elements of `source`. A key named `_` is not bound. -/
def forEachCode (key : Option String) (value source : String) : String :=
  match key with
  | some key => "foreach (" ++ source ++ " as $" ++ key ++ " => $" ++ value ++ ")"
  | none => "foreach (" ++ source ++ " as $" ++ value ++ ")"

def catchCode (classes : List String) (caught : Option String) : String :=
  let types := if classes.isEmpty then "\\Exception" else " | ".intercalate classes
  match caught with
  | some name => "catch (" ++ types ++ " $" ++ name ++ ")"
  | none => "catch (" ++ types ++ ")"

structure Condition where
  test : String
  assignment : Option String

def Condition.ofFetch (target source : String) : Condition :=
  ⟨"isset(" ++ source ++ ")", some ("$" ++ target ++ " = " ++ source ++ ";")⟩

/-- The scope at the start of a closure. The object is known inside if it is known
outside. -/
def closureScope (outer : Scope) (location : Location) (parameters : List String) :
    Scope :=
  Scope.ofNames location
    (if outer.contains "this" then "this" :: parameters else parameters)

structure CompiledAssignment where
  code : String
  /-- The right-hand side; counting up or down has none. -/
  value : Option CompiledExpression
deriving DecidableEq, Repr

def assignmentContext (form : AssignmentForm) (operator : AssignmentOperator)
    (target : String) :
    ExpressionContext where
  expectReturn := true
  target := if form = .variable ∧ operator = .assign then some target else none

/-! ## Expressions and statements -/

section

variable (setting : Setting)

mutual

def renderExpr : Expr → Emission String
  | .atom _ leaf => return leaf.code
  | .array _ items => return "[" ++ ", ".intercalate (← renderItems items) ++ "]"
  | .unary _ .isset (.index _ container key) => do
    let container ← renderExpr container
    return "zephir_isset_array(" ++ container ++ ", " ++ (← renderExpr key) ++ ")"
  | .unary _ .isset (.property _ object name) =>
    return "zephir_isset_property(" ++ (← renderExpr object) ++ ", '" ++ name ++ "')"
  | .unary _ .isset (.stringProperty _ object name) =>
    return "zephir_isset_property(" ++ (← renderExpr object) ++ ", '" ++ name ++ "')"
  | .unary _ .isset (.dynamicProperty _ object name) => do
    let object ← renderExpr object
    return "zephir_isset_property(" ++ object ++ ", " ++ (← renderExpr name) ++ ")"
  | .unary _ operator operand => return operator.code (← renderExpr operand)
  | .binary _ operator left right => do
    let left ← renderExpr left
    return left ++ " " ++ operator.symbol ++ " " ++ (← renderExpr right)
  | .range _ inclusive first last => do
    let first ← renderExpr first
    return rangeCode inclusive first (← renderExpr last)
  | .property _ object name => return (← renderExpr object) ++ "->" ++ name
  | .dynamicProperty _ object name => do
    let object ← renderExpr object
    return object ++ "->\x7b" ++ (← renderExpr name) ++ "\x7d"
  | .stringProperty _ object name =>
    return "zephir_read_property(" ++ (← renderExpr object) ++ ", '" ++ name ++ "')"
  | .index _ container key => do
    let container ← renderExpr container
    return container ++ "[" ++ (← renderExpr key) ++ "]"
  | .methodCall location receiver method arguments => do
    let object ← renderExpr receiver
    let arguments ← renderExprs arguments
    methodCallCode receiver.literalReceiver? location method object arguments
  | .functionCall location function arguments => do
    Emission.ofExcept (checkGlobals setting.globals location function arguments)
    return function ++ argumentCode (← renderExprs arguments)
  | .staticCall _ className method arguments =>
    return className ++ "::" ++ method ++ argumentCode (← renderExprs arguments)
  | .new _ className dynamic arguments =>
    return (if dynamic then "new $" else "new ") ++ className ++
      argumentCode (← renderExprs arguments)
  | .cast _ _ operand => renderExpr operand
  | .typeHint _ _ operand => renderExpr operand
  | .ternary _ condition consequence alternative => do
    let condition ← renderExpr condition
    let consequence ← renderExpr consequence
    return condition ++ " ? " ++ consequence ++ " : " ++ (← renderExpr alternative)
  | .closure location parameters body => do
    let parameterList ← renderParameters parameters
    let scope := closureScope (← get).scope location (parameters.map (·.name))
    let page ← Emission.withScope scope <| Emission.onOwnPage do
      Emission.onPage
        (·.openBlock ("function (" ++ ", ".intercalate parameterList ++ ")") false)
      emitBlock body
      Emission.onPage (·.closeBlock "")
    return page.content setting.layout
  | .arrow location parameter body => do
    let code ← Emission.withScope (Scope.ofNames location [parameter]) (renderExpr body)
    return "function ($" ++ parameter ++ ") \x7b return " ++ code ++ "; \x7d"
  | .fetch _ _ source => return "isset(" ++ (← renderExpr source) ++ ")"
termination_by structural expression => expression

def renderExprs : List Expr → Emission (List String)
  | [] => return []
  | expression :: rest => do
    let code ← renderExpr expression
    return code :: (← renderExprs rest)
termination_by structural expressions => expressions

/-- The codes of the items of an array. The value of an item is rendered before its
key. -/
def renderItems : List ArrayItem → Emission (List String)
  | [] => return []
  | ⟨key, value⟩ :: rest => do
    let value ← renderExpr value
    let key ← match key with
      | some key => some <$> renderExpr key
      | none => pure none
    return arrayItemCode key value :: (← renderItems rest)
termination_by structural items => items

def renderParameters : List Parameter → Emission (List String)
  | [] => return []
  | ⟨name, default, byReference⟩ :: rest => do
    let default ← match default with
      | some default => some <$> renderExpr default
      | none => pure none
    return parameterCode byReference name default :: (← renderParameters rest)
termination_by structural parameters => parameters

/-- The code of one assignment. The variable is looked up first, then the steps into an
array are rendered, then the right-hand side. -/
def compileAssignment : Assignment → Emission CompiledAssignment
  | ⟨form, operator, target, property, index, value, location⟩ => do
    Emission.bind form.binding target location
    let steps ← if form.takesIndex then renderExprs index else pure []
    let path := String.join (steps.map fun step => "[" ++ step ++ "]")
    let left ← Emission.ofExcept (form.targetCode target property path location)
    if form.takesExpression then
      match value with
      | none => throw (.malformedNode form.name "expr" location)
      | some value => do
        let operator := operator.getD .assign
        let code ← renderExpr value
        let compiled ←
          Emission.ofExcept (value.compiled (assignmentContext form operator target) code)
        return ⟨left ++ " " ++ operator.symbol ++ " " ++ code ++ ";", some compiled⟩
    else
      return ⟨left ++ ";", none⟩
termination_by structural assignment => assignment

def compileAssignments : List Assignment → Emission (List CompiledAssignment)
  | [] => return []
  | assignment :: rest => do
    let compiled ← compileAssignment assignment
    return compiled :: (← compileAssignments rest)
termination_by structural assignments => assignments

/-- Writes a statement. The assignments of a `let` are written once all of them are
compiled. -/
def emitStmt : Stmt → Emission Unit
  | .assign _ assignments => do
    Emission.lines ((← compileAssignments assignments).map (·.code))
  | .declare location declarations => emitDeclarations location declarations
  | .expression _ expression => do
    Emission.line ((← renderExpr expression) ++ ";")
  | .cond _ condition body alternatives otherwise => do
    let condition : Condition ← match condition with
      | .fetch location target source => do
        let source ← renderExpr source
        Emission.bind .write target location
        pure (Condition.ofFetch target source)
      | condition => do pure ⟨← renderExpr condition, none⟩
    Emission.onPage (·.openBlock ("if (" ++ condition.test ++ ")") false)
    Emission.lines condition.assignment.toList
    emitBlock body
    emitBranches alternatives
    match otherwise with
    | none => pure ()
    | some block => do
      Emission.onPage (·.continueBlock "else")
      emitBlock block
    Emission.onPage (·.closeBlock "")
  | .loop _ body => do
    Emission.onPage (·.openBlock "while (true)" false)
    emitBlock body
    Emission.onPage (·.closeBlock "")
  | .whileLoop _ condition body => do
    let condition ← renderExpr condition
    Emission.onPage (·.openBlock ("while (" ++ condition ++ ")") false)
    emitBlock body
    Emission.onPage (·.closeBlock "")
  | .doWhile _ body condition => do
    Emission.onPage (·.openBlock "do" false)
    emitBlock body
    let condition ← renderExpr condition
    Emission.onPage (·.closeBlock (" while (" ++ condition ++ ");"))
  | .forEach location key value reverse source body => do
    let source ← renderExpr source
    let source := if reverse then "array_reverse(" ++ source ++ ")" else source
    let value := value.getD "_"
    let key := key.filter (· != "_")
    Emission.onScope (·.declare value location)
    match key with
    | some key => Emission.onScope (·.declare key location)
    | none => pure ()
    Emission.onPage (·.openBlock (forEachCode key value source) false)
    emitBlock body
    Emission.onPage (·.closeBlock "")
  | .switch _ subject clauses => do
    let subject ← renderExpr subject
    Emission.onPage (·.openBlock ("switch (" ++ subject ++ ")") false)
    emitClauses clauses
    Emission.onPage (·.closeBlock "")
  | .continueLoop _ => Emission.line "continue;"
  | .breakLoop _ => Emission.line "break;"
  | .returnValue _ none => Emission.line "return;"
  | .returnValue _ (some value) => do
    Emission.line ("return " ++ (← renderExpr value) ++ ";")
  | .throwValue _ value => do
    Emission.line ("throw " ++ (← renderExpr value) ++ ";")
  | .unset _ target => do
    Emission.line ("unset(" ++ (← renderExpr target) ++ ");")
  | .echo _ values => do
    Emission.line ("echo " ++ " . ".intercalate (← renderExprs values) ++ ";")
  | .require _ file => do
    Emission.line ("require " ++ (← renderExpr file) ++ ";")
  | .tryCatch _ body handlers => do
    Emission.onPage (·.openBlock "try" false)
    emitBlock body
    emitHandlers handlers
    Emission.onPage (·.closeBlock "")
  | .comment _ text => Emission.comment text
  | .empty _ => pure ()
termination_by structural statement => statement

def emitBlock : List Stmt → Emission Unit
  | [] => pure ()
  | statement :: rest => do
    emitStmt statement
    emitBlock rest
termination_by structural statements => statements

def emitDeclarations (location : Location) : List Declaration → Emission Unit
  | [] => pure ()
  | ⟨name, value⟩ :: rest => do
    Emission.onScope (·.declare name location)
    match value with
    | some value => do
      Emission.line ("$" ++ name ++ " = " ++ (← renderExpr value) ++ ";")
    | none => pure ()
    emitDeclarations location rest
termination_by structural declarations => declarations

def emitBranches : List Branch → Emission Unit
  | [] => pure ()
  | ⟨condition, body⟩ :: rest => do
    let condition : Condition ← match condition with
      | .fetch location target source => do
        let source ← renderExpr source
        Emission.bind .write target location
        pure (Condition.ofFetch target source)
      | condition => do pure ⟨← renderExpr condition, none⟩
    Emission.onPage (·.continueBlock ("elseif (" ++ condition.test ++ ")"))
    Emission.lines condition.assignment.toList
    emitBlock body
    emitBranches rest
termination_by structural branches => branches

def emitClauses : List Clause → Emission Unit
  | [] => pure ()
  | .case test body :: rest => do
    Emission.line ("case " ++ (← renderExpr test) ++ ":")
    Emission.onPage (·.indent)
    emitBlock body
    Emission.onPage (·.flush.unindent)
    emitClauses rest
  | .default body :: rest => do
    Emission.line "default:"
    Emission.onPage (·.indent)
    emitBlock body
    Emission.onPage (·.flush.unindent)
    emitClauses rest
termination_by structural clauses => clauses

def emitHandlers : List Handler → Emission Unit
  | [] => pure ()
  | ⟨classes, caught, body⟩ :: rest => do
    match caught with
    | some name => Emission.onScope (·.declare name .unknown)
    | none => pure ()
    Emission.onPage (·.continueBlock (catchCode classes caught))
    emitBlock body
    emitHandlers rest
termination_by structural handlers => handlers

end

def compileExpr (context : ExpressionContext) (expression : Expr) :
    Emission CompiledExpression := do
  let code ← renderExpr setting expression
  Emission.ofExcept (expression.compiled context code)

end

end ZephirPhp
