import ZephirPhp.Emission.Body

/-! # Gauges of what is shown

A gauge says what a code amounts to, put together from the codes inside it. Parts that no
code is made of are passed over, such as the arguments that a pseudo-method drops and the
right-hand side of an assignment that takes none. Lines have a place, which gets deeper in
the bodies of statements and begins anew in the body of a closure.
-/

namespace ZephirPhp

/-- What is shown of the object and the arguments of a call, in its order. -/
def shownInCall {α : Type} (receiver : Option Receiver) (method : String) (object : α)
    (arguments : List α) : List α :=
  match receiver with
  | none => object :: arguments
  | some kind =>
    match PseudoMethod.find? kind method with
    | none => []
    | some pseudoMethod => pseudoMethod.arrange object arguments

structure Gauge (γ ε : Type) where
  top : γ
  deeper : γ → γ
  nothing : ε
  both : ε → ε → ε
  /-- Several codes beside each other. -/
  joined : List ε → ε
  line : γ → ε → ε
  /-- The condition of a branch. If it fetches, its code is shown again inside the
  branch. -/
  condition : γ → Expr → ε → ε
  /-- An expression that is a statement. -/
  statement : Expr → ε → ε
  /-- An expression that is returned. -/
  result : Expr → ε → ε

namespace Gauge

variable {γ ε : Type} (gauge : Gauge γ ε)

/-! ## Expressions and statements -/

mutual

def ofExpr : Expr → ε
  | .atom _ _ => gauge.nothing
  | .array _ items => gauge.joined (ofItems items)
  | .unary _ _ operand => ofExpr operand
  | .binary _ _ left right => gauge.both (ofExpr left) (ofExpr right)
  | .range _ _ first last => gauge.both (ofExpr first) (ofExpr last)
  | .property _ object _ => ofExpr object
  | .dynamicProperty _ object name => gauge.both (ofExpr object) (ofExpr name)
  | .stringProperty _ object _ => ofExpr object
  | .index _ array index => gauge.both (ofExpr array) (ofExpr index)
  | .methodCall _ receiver method arguments =>
    gauge.joined (shownInCall receiver.literalReceiver? method (ofExpr receiver)
      (ofExprs arguments))
  | .functionCall _ _ arguments => gauge.joined (ofExprs arguments)
  | .staticCall _ _ _ arguments => gauge.joined (ofExprs arguments)
  | .new _ _ _ arguments => gauge.joined (ofExprs arguments)
  | .cast _ _ operand => ofExpr operand
  | .typeHint _ _ operand => ofExpr operand
  | .ternary _ condition consequence alternative =>
    gauge.both (ofExpr condition) (gauge.both (ofExpr consequence) (ofExpr alternative))
  | .closure _ parameters body =>
    gauge.both (gauge.joined (ofParameters parameters))
      (ofBlock (gauge.deeper gauge.top) body)
  | .arrow _ _ body => ofExpr body
  | .fetch _ _ source => ofExpr source
termination_by structural expression => expression

def ofExprs : List Expr → List ε
  | [] => []
  | expression :: rest => ofExpr expression :: ofExprs rest
termination_by structural expressions => expressions

def ofItem : ArrayItem → ε
  | ⟨some key, value⟩ => gauge.both (ofExpr key) (ofExpr value)
  | ⟨none, value⟩ => ofExpr value
termination_by structural item => item

def ofItems : List ArrayItem → List ε
  | [] => []
  | item :: rest => ofItem item :: ofItems rest
termination_by structural items => items

def ofParameter : Parameter → ε
  | ⟨_, some default, _⟩ => ofExpr default
  | ⟨_, none, _⟩ => gauge.nothing
termination_by structural parameter => parameter

def ofParameters : List Parameter → List ε
  | [] => []
  | parameter :: rest => ofParameter parameter :: ofParameters rest
termination_by structural parameters => parameters

def ofAssignment : Assignment → ε
  | ⟨form, _, _, _, index, some value, _⟩ =>
    gauge.both (gauge.joined (if form.takesIndex then ofExprs index else []))
      (if form.takesExpression then ofExpr value else gauge.nothing)
  | ⟨form, _, _, _, index, none, _⟩ =>
    gauge.joined (if form.takesIndex then ofExprs index else [])
termination_by structural assignment => assignment

def ofAssignments : List Assignment → List ε
  | [] => []
  | assignment :: rest => ofAssignment assignment :: ofAssignments rest
termination_by structural assignments => assignments

def ofStmt (place : γ) : Stmt → ε
  | .assign _ assignments =>
    gauge.joined ((ofAssignments assignments).map (gauge.line place))
  | .declare _ declarations => ofDeclarations place declarations
  | .expression _ expression =>
    gauge.line place (gauge.statement expression (ofExpr expression))
  | .cond _ condition body alternatives (some otherwise) =>
    gauge.both (gauge.condition place condition (ofExpr condition))
      (gauge.both (ofBlock (gauge.deeper place) body)
        (gauge.both (ofBranches place alternatives)
          (ofBlock (gauge.deeper place) otherwise)))
  | .cond _ condition body alternatives none =>
    gauge.both (gauge.condition place condition (ofExpr condition))
      (gauge.both (ofBlock (gauge.deeper place) body) (ofBranches place alternatives))
  | .loop _ body =>
    gauge.both (gauge.line place gauge.nothing) (ofBlock (gauge.deeper place) body)
  | .whileLoop _ condition body =>
    gauge.both (gauge.line place (ofExpr condition)) (ofBlock (gauge.deeper place) body)
  | .doWhile _ body condition =>
    gauge.both (ofBlock (gauge.deeper place) body) (gauge.line place (ofExpr condition))
  | .forEach _ _ _ _ source body =>
    gauge.both (gauge.line place (ofExpr source)) (ofBlock (gauge.deeper place) body)
  | .switch _ subject clauses =>
    gauge.both (gauge.line place (ofExpr subject))
      (ofClauses (gauge.deeper place) clauses)
  | .continueLoop _ => gauge.line place gauge.nothing
  | .breakLoop _ => gauge.line place gauge.nothing
  | .returnValue _ (some value) => gauge.line place (gauge.result value (ofExpr value))
  | .returnValue _ none => gauge.line place gauge.nothing
  | .throwValue _ value => gauge.line place (ofExpr value)
  | .unset _ target => gauge.line place (ofExpr target)
  | .echo _ values => gauge.line place (gauge.joined (ofExprs values))
  | .require _ file => gauge.line place (ofExpr file)
  | .tryCatch _ body handlers =>
    gauge.both (gauge.line place gauge.nothing)
      (gauge.both (ofBlock (gauge.deeper place) body) (ofHandlers place handlers))
  | .comment _ _ => gauge.line place gauge.nothing
  | .empty _ => gauge.nothing
termination_by structural statement => statement

def ofBlock (place : γ) : List Stmt → ε
  | [] => gauge.nothing
  | statement :: rest => gauge.both (ofStmt place statement) (ofBlock place rest)
termination_by structural statements => statements

def ofDeclarations (place : γ) : List Declaration → ε
  | [] => gauge.nothing
  | ⟨_, some value⟩ :: rest =>
    gauge.both (gauge.line place (ofExpr value)) (ofDeclarations place rest)
  | ⟨_, none⟩ :: rest => ofDeclarations place rest
termination_by structural declarations => declarations

/-- The heads of branches and handlers have the place of the statement, their bodies are
deeper. -/
def ofBranches (place : γ) : List Branch → ε
  | [] => gauge.nothing
  | ⟨condition, body⟩ :: rest =>
    gauge.both (gauge.condition place condition (ofExpr condition))
      (gauge.both (ofBlock (gauge.deeper place) body) (ofBranches place rest))
termination_by structural branches => branches

def ofClauses (place : γ) : List Clause → ε
  | [] => gauge.nothing
  | .case test body :: rest =>
    gauge.both (gauge.line place (ofExpr test))
      (gauge.both (ofBlock (gauge.deeper place) body) (ofClauses place rest))
  | .default body :: rest =>
    gauge.both (gauge.line place gauge.nothing)
      (gauge.both (ofBlock (gauge.deeper place) body) (ofClauses place rest))
termination_by structural clauses => clauses

def ofHandlers (place : γ) : List Handler → ε
  | [] => gauge.nothing
  | ⟨_, _, body⟩ :: rest =>
    gauge.both (gauge.line place gauge.nothing)
      (gauge.both (ofBlock (gauge.deeper place) body) (ofHandlers place rest))
termination_by structural handlers => handlers

end

theorem ofExprs_eq_map (expressions : List Expr) :
    gauge.ofExprs expressions = expressions.map gauge.ofExpr := by
  induction expressions with
  | nil => rfl
  | cons expression rest induction => exact congrArg (_ :: ·) induction

theorem ofItems_eq_map (items : List ArrayItem) :
    gauge.ofItems items = items.map gauge.ofItem := by
  induction items with
  | nil => rfl
  | cons item rest induction => exact congrArg (_ :: ·) induction

theorem ofParameters_eq_map (parameters : List Parameter) :
    gauge.ofParameters parameters = parameters.map gauge.ofParameter := by
  induction parameters with
  | nil => rfl
  | cons parameter rest induction => exact congrArg (_ :: ·) induction

theorem ofAssignments_eq_map (assignments : List Assignment) :
    gauge.ofAssignments assignments = assignments.map gauge.ofAssignment := by
  induction assignments with
  | nil => rfl
  | cons assignment rest induction => exact congrArg (_ :: ·) induction

/-! ## Definitions and programs -/

def ofConstant (place : γ) (constant : Constant) : ε :=
  gauge.line place (gauge.ofExpr constant.value)

def ofProperty (place : γ) (property : Property) : ε :=
  gauge.line place (gauge.joined (gauge.ofExprs property.default.toList))

/-- The head of a method or a function with its body. -/
def ofBody (place : γ) (parameters : List Parameter) (statements : List Stmt) : ε :=
  gauge.both (gauge.line place (gauge.joined (gauge.ofParameters parameters)))
    (gauge.ofBlock (gauge.deeper place) statements)

def ofMethod (place : γ) (method : Method) : ε :=
  gauge.ofBody place method.parameters (method.statements.getD [])

def ofMembers (place : γ) (constants : List Constant) (properties : List Property)
    (methods : List Method) : ε :=
  gauge.both (gauge.joined (constants.map (gauge.ofConstant place)))
    (gauge.both (gauge.joined (properties.map (gauge.ofProperty place)))
      (gauge.joined (methods.map (gauge.ofMethod place))))

def ofEntry : Entry → ε
  | .classDefinition definition =>
    gauge.ofMembers (gauge.deeper gauge.top) definition.constants definition.properties
      definition.methods
  | .interfaceDefinition definition =>
    gauge.ofMembers (gauge.deeper gauge.top) definition.constants [] definition.methods
  | .functionDefinition definition =>
    gauge.ofBody gauge.top definition.parameters definition.statements
  | .statement included => gauge.ofStmt gauge.top included
  | _ => gauge.nothing

def ofProgram (program : Program) : ε :=
  gauge.joined (program.entries.map gauge.ofEntry)

end Gauge

end ZephirPhp
