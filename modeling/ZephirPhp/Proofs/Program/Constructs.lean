import Mathlib.Order.WellFounded
import ZephirPhp.Program.Basic

/-! # Expressions and statements inside each other

The expressions and statements directly inside another one are its parts. A part is
smaller than the whole, so what holds of a construct as soon as it holds of the parts
holds of every construct.
-/

namespace ZephirPhp

/-- An expression or a statement. -/
inductive Construct where
  | expr (expression : Expr)
  | stmt (statement : Stmt)

def ArrayItem.parts (item : ArrayItem) : List Construct :=
  item.key.toList.map .expr ++ [.expr item.value]

def Parameter.parts (parameter : Parameter) : List Construct :=
  parameter.default.toList.map .expr

def Assignment.parts (assignment : Assignment) : List Construct :=
  assignment.index.map .expr ++ assignment.value.toList.map .expr

def Declaration.parts (declaration : Declaration) : List Construct :=
  declaration.value.toList.map .expr

def Branch.parts (branch : Branch) : List Construct :=
  .expr branch.condition :: branch.body.map .stmt

def Clause.parts : Clause → List Construct
  | .case test body => .expr test :: body.map .stmt
  | .default body => body.map .stmt

def Handler.parts (handler : Handler) : List Construct :=
  handler.body.map .stmt

/-- The expressions and statements directly inside an expression. -/
def Expr.parts : Expr → List Construct
  | .atom _ _ => []
  | .array _ items => items.flatMap ArrayItem.parts
  | .unary _ _ operand => [.expr operand]
  | .binary _ _ left right => [.expr left, .expr right]
  | .range _ _ first last => [.expr first, .expr last]
  | .property _ object _ => [.expr object]
  | .dynamicProperty _ object name => [.expr object, .expr name]
  | .stringProperty _ object _ => [.expr object]
  | .index _ object position => [.expr object, .expr position]
  | .methodCall _ receiver _ arguments => .expr receiver :: arguments.map .expr
  | .functionCall _ _ arguments => arguments.map .expr
  | .staticCall _ _ _ arguments => arguments.map .expr
  | .new _ _ _ arguments => arguments.map .expr
  | .cast _ _ operand => [.expr operand]
  | .typeHint _ _ operand => [.expr operand]
  | .ternary _ condition consequence alternative =>
    [.expr condition, .expr consequence, .expr alternative]
  | .closure _ parameters body => parameters.flatMap Parameter.parts ++ body.map .stmt
  | .arrow _ _ body => [.expr body]
  | .fetch _ _ source => [.expr source]

/-- The expressions and statements directly inside a statement. -/
def Stmt.parts : Stmt → List Construct
  | .assign _ assignments => assignments.flatMap Assignment.parts
  | .declare _ declarations => declarations.flatMap Declaration.parts
  | .expression _ value => [.expr value]
  | .cond _ condition body alternatives otherwise =>
    .expr condition :: (body.map .stmt ++ alternatives.flatMap Branch.parts ++
      (otherwise.getD []).map .stmt)
  | .loop _ body => body.map .stmt
  | .whileLoop _ condition body => .expr condition :: body.map .stmt
  | .doWhile _ body condition => .expr condition :: body.map .stmt
  | .forEach _ _ _ _ source body => .expr source :: body.map .stmt
  | .switch _ subject clauses => .expr subject :: clauses.flatMap Clause.parts
  | .continueLoop _ => []
  | .breakLoop _ => []
  | .returnValue _ value => value.toList.map .expr
  | .throwValue _ value => [.expr value]
  | .unset _ target => [.expr target]
  | .echo _ values => values.map .expr
  | .require _ file => [.expr file]
  | .tryCatch _ body handlers => body.map .stmt ++ handlers.flatMap Handler.parts
  | .comment _ _ => []
  | .empty _ => []

namespace Construct

def parts : Construct → List Construct
  | .expr expression => expression.parts
  | .stmt statement => statement.parts

def Holds (outer inner : Construct) : Prop :=
  inner ∈ outer.parts

end Construct

/-! ## Sizes -/

/-- None of the constructs is larger than `size`. -/
def AllSmall (size : Nat) (constructs : List Construct) : Prop :=
  ∀ construct ∈ constructs, sizeOf construct ≤ size

namespace AllSmall

variable {size : Nat} {constructs others : List Construct}

theorem nil : AllSmall size [] :=
  List.forall_mem_nil _

theorem cons {construct : Construct} (first : sizeOf construct ≤ size)
    (later : AllSmall size constructs) : AllSmall size (construct :: constructs) :=
  List.forall_mem_cons.mpr ⟨first, later⟩

theorem append (each : AllSmall size constructs) (later : AllSmall size others) :
    AllSmall size (constructs ++ others) :=
  List.forall_mem_append.mpr ⟨each, later⟩

theorem mono {large : Nat} (each : AllSmall size constructs) (le : size ≤ large) :
    AllSmall large constructs :=
  fun construct member => Nat.le_trans (each construct member) le

theorem flatMap {α : Type} [SizeOf α] {parts : α → List Construct}
    (each : ∀ value, AllSmall (sizeOf value) (parts value)) (values : List α) :
    AllSmall (sizeOf values) (values.flatMap parts) := by
  intro construct member
  rcases List.mem_flatMap.mp member with ⟨value, among, inside⟩
  exact Nat.le_trans (each value construct inside)
    (Nat.le_of_lt (List.sizeOf_lt_of_mem among))

/-! ### Lists and options -/

theorem exprs (expressions : List Expr) :
    AllSmall (sizeOf expressions) (expressions.map .expr) := by
  intro construct member
  rcases List.mem_map.mp member with ⟨expression, among, rfl⟩
  rw [Construct.expr.sizeOf_spec, Nat.add_comm]
  exact List.sizeOf_lt_of_mem among

theorem block (statements : List Stmt) :
    AllSmall (sizeOf statements) (statements.map .stmt) := by
  intro construct member
  rcases List.mem_map.mp member with ⟨statement, among, rfl⟩
  rw [Construct.stmt.sizeOf_spec, Nat.add_comm]
  exact List.sizeOf_lt_of_mem among

theorem option (value : Option Expr) :
    AllSmall (sizeOf value) (value.toList.map .expr) := by
  cases value with
  | none => exact .nil
  | some expression => exact .cons (Nat.le_refl _) .nil

theorem optionalBlock (option : Option (List Stmt)) :
    AllSmall (sizeOf option) ((option.getD []).map .stmt) := by
  cases option with
  | none => exact .nil
  | some statements =>
      rw [Option.some.sizeOf_spec]
      exact (block statements).mono (by omega)

/-! ### Pieces of expressions and statements -/

theorem item (item : ArrayItem) : AllSmall (sizeOf item) item.parts := by
  rcases item with ⟨key, value⟩
  rw [ArrayItem.mk.sizeOf_spec]
  refine ((option key).mono (by omega)).append (.cons ?_ .nil)
  change sizeOf (Construct.expr value) ≤ _
  rw [Construct.expr.sizeOf_spec]
  omega

theorem parameter (parameter : Parameter) :
    AllSmall (sizeOf parameter) parameter.parts := by
  rcases parameter with ⟨name, default, byReference⟩
  rw [Parameter.mk.sizeOf_spec]
  exact (option default).mono (by omega)

theorem assignment (assignment : Assignment) :
    AllSmall (sizeOf assignment) assignment.parts := by
  rcases assignment with ⟨form, operator, target, property, index, value, location⟩
  rw [Assignment.mk.sizeOf_spec]
  exact ((exprs index).mono (by omega)).append ((option value).mono (by omega))

theorem declaration (declaration : Declaration) :
    AllSmall (sizeOf declaration) declaration.parts := by
  rcases declaration with ⟨name, value⟩
  rw [Declaration.mk.sizeOf_spec]
  exact (option value).mono (by omega)

/-- A test or another expression before a body. -/
theorem headed {expression : Expr} {statements : List Stmt}
    (fits : sizeOf expression + sizeOf statements < size) :
    AllSmall size (.expr expression :: statements.map .stmt) := by
  refine .cons ?_ ((block statements).mono (by omega))
  rw [Construct.expr.sizeOf_spec]
  omega

theorem branch (branch : Branch) : AllSmall (sizeOf branch) branch.parts := by
  rcases branch with ⟨condition, body⟩
  rw [Branch.mk.sizeOf_spec]
  have tested : AllSmall _ (.expr condition :: body.map .stmt) :=
    headed (Nat.lt_succ_self _)
  exact tested.mono (by omega)

theorem clause (clause : Clause) : AllSmall (sizeOf clause) clause.parts := by
  cases clause with
  | case test body =>
      rw [Clause.case.sizeOf_spec]
      exact headed (by omega)
  | default body =>
      rw [Clause.default.sizeOf_spec]
      exact (block body).mono (by omega)

theorem handler (handler : Handler) : AllSmall (sizeOf handler) handler.parts := by
  rcases handler with ⟨classes, caught, body⟩
  rw [Handler.mk.sizeOf_spec]
  exact (block body).mono (by omega)

/-! ### Expressions and statements -/

theorem ofExpr (expression : Expr) : AllSmall (sizeOf expression) expression.parts := by
  cases expression with
  | array location items =>
      rw [Expr.array.sizeOf_spec]
      exact (flatMap item items).mono (by omega)
  | methodCall location receiver method arguments =>
      rw [Expr.methodCall.sizeOf_spec]
      refine .cons ?_ ((exprs arguments).mono (by omega))
      rw [Construct.expr.sizeOf_spec]
      omega
  | functionCall location function arguments =>
      rw [Expr.functionCall.sizeOf_spec]
      exact (exprs arguments).mono (by omega)
  | staticCall location className method arguments =>
      rw [Expr.staticCall.sizeOf_spec]
      exact (exprs arguments).mono (by omega)
  | new location className dynamic arguments =>
      rw [Expr.new.sizeOf_spec]
      exact (exprs arguments).mono (by omega)
  | closure location parameters body =>
      rw [Expr.closure.sizeOf_spec]
      exact ((flatMap parameter parameters).mono (by omega)).append
        ((block body).mono (by omega))
  | _ =>
      simp only [AllSmall, Expr.parts, List.forall_mem_cons, Construct.expr.sizeOf_spec]
      simp +arith

theorem ofStmt (statement : Stmt) : AllSmall (sizeOf statement) statement.parts := by
  cases statement with
  | assign location assignments =>
      rw [Stmt.assign.sizeOf_spec]
      exact (flatMap assignment assignments).mono (by omega)
  | declare location declarations =>
      rw [Stmt.declare.sizeOf_spec]
      exact (flatMap declaration declarations).mono (by omega)
  | cond location condition body alternatives otherwise =>
      rw [Stmt.cond.sizeOf_spec]
      have tested : AllSmall _ (.expr condition :: body.map .stmt) :=
        headed (Nat.lt_succ_self _)
      exact ((tested.mono (by omega)).append
        ((flatMap branch alternatives).mono (by omega))).append
        ((optionalBlock otherwise).mono (by omega))
  | loop location body =>
      rw [Stmt.loop.sizeOf_spec]
      exact (block body).mono (by omega)
  | whileLoop location condition body =>
      rw [Stmt.whileLoop.sizeOf_spec]
      exact headed (by omega)
  | doWhile location body condition =>
      rw [Stmt.doWhile.sizeOf_spec]
      exact headed (by omega)
  | forEach location key value reverse source body =>
      rw [Stmt.forEach.sizeOf_spec]
      exact headed (by omega)
  | switch location subject clauses =>
      rw [Stmt.switch.sizeOf_spec]
      refine .cons ?_ ((flatMap clause clauses).mono (by omega))
      rw [Construct.expr.sizeOf_spec]
      omega
  | returnValue location value =>
      rw [Stmt.returnValue.sizeOf_spec]
      exact (option value).mono (by omega)
  | echo location values =>
      rw [Stmt.echo.sizeOf_spec]
      exact (exprs values).mono (by omega)
  | tryCatch location body handlers =>
      rw [Stmt.tryCatch.sizeOf_spec]
      exact ((block body).mono (by omega)).append
        ((flatMap handler handlers).mono (by omega))
  | _ =>
      simp only [AllSmall, Stmt.parts, List.forall_mem_cons, Construct.expr.sizeOf_spec]
      simp +arith

end AllSmall

namespace Construct

theorem sizeOf_lt_of_holds {outer inner : Construct} (holds : outer.Holds inner) :
    sizeOf inner < sizeOf outer := by
  cases outer with
  | expr expression =>
      rw [expr.sizeOf_spec, Nat.add_comm]
      exact Nat.lt_succ_of_le (AllSmall.ofExpr expression inner holds)
  | stmt statement =>
      rw [stmt.sizeOf_spec, Nat.add_comm]
      exact Nat.lt_succ_of_le (AllSmall.ofStmt statement inner holds)

/-- What holds of a construct if it holds of its parts holds of every construct. -/
theorem induction {motive : Construct → Prop}
    (step : ∀ construct, (∀ part ∈ construct.parts, motive part) → motive construct)
    (construct : Construct) : motive construct :=
  (measure sizeOf).wf.induction construct fun outer inside =>
    step outer fun part holds => inside part (sizeOf_lt_of_holds holds)

end Construct

end ZephirPhp
