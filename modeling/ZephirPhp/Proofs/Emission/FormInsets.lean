import ZephirPhp.Proofs.Emission.TidyCode

/-! # How far the forms of a program are set in

Each form of expression and statement is set in as its gauge says, if its parts are. The
names and the literals of the form itself have to be tidy.
-/

namespace ZephirPhp

open Gauge (insets)
open Text (OneLine Tidy greatest)

/-! ## Conditions and assignments -/

section

variable {layout : Layout} {count : Nat}

/-- The code of a condition and the assignment of one that fetches. -/
structure Condition.SetIn (layout : Layout) (condition : Expr) (count : Nat)
    (shown : Condition) :
    Prop where
  test : layout.Continues count shown.test
  assignment : List.Forall₂ layout.Stands (if condition.isFetch then [count] else [])
    shown.assignment.toList

/-- The assignment of a condition as the first line of its branch. -/
theorem Emission.Insets.fetched {gaps : Bool} {level : Nat} {condition : Expr}
    {shown : Condition} (setIn : shown.SetIn layout condition count) :
    Emission.Insets layout gaps level level (fetchedInset layout level condition count)
      (Emission.lines shown.assignment.toList) := by
  apply (Emission.Insets.lines setIn.assignment).cast
  rw [fetchedInset]
  split <;> simp

theorem compileAssignment_stands_of {setting : Setting} {form : AssignmentForm}
    {operator : Option AssignmentOperator} {target : String} {property : Option String}
    {index : List Expr} {value : Option Expr} {location : Location} {counts : List Nat}
    (ofTarget : Tidy target) (ofProperty : ∀ name ∈ property.toList, Tidy name)
    (ofIndex : Emission.Yields (List.Forall₂ layout.Continues counts)
      (renderExprs setting index))
    (ofValue : ∀ expression ∈ value,
      Emission.Yields (layout.Continues count) (renderExpr setting expression)) :
    Emission.Yields (fun compiled => layout.Stands
        (max (greatest (if form.takesIndex then counts else []))
          (if form.takesExpression then count else 0)) compiled.code)
      (compileAssignment setting
        ⟨form, operator, target, property, index, value, location⟩) := by
  have ofSteps : Emission.Yields
      (List.Forall₂ layout.Continues (if form.takesIndex then counts else []))
      (renderExprs setting (if form.takesIndex then index else [])) := by
    split
    · exact ofIndex
    · exact .pure .nil
  rw [compileAssignment_sides]
  refine .after fun _ => ofSteps.bind fun steps each => ?_
  have ofLeft : Emission.Yields
      (fun code =>
        layout.Continues (greatest (if form.takesIndex then counts else [])) code ∧
          Onset.visible.Begins code)
      (Emission.ofExcept (form.targetCode target property _ location)) :=
    .ofExcept fun code done =>
      AssignmentForm.continues_targetCode ofTarget ofProperty (continues_path each) done
  refine ofLeft.bind fun left inLeft => ?_
  cases form.takesExpression with
  | false =>
      have stands : layout.Stands
          (max (greatest (if form.takesIndex then counts else [])) 0)
          (left ++ ";") := by
        rw [Nat.max_zero]
        exact (inLeft.1.left (by decide)).standsVisibly inLeft.2.left
      exact .pure stands
  | true =>
      cases value with
      | none =>
          intro emitter compiled final ended
          cases ended
      | some value =>
          refine (ofValue value rfl).bind fun code continues => ?_
          have spaced := ((inLeft.1.left (by decide : OneLine " ")).left
            (operator.getD .assign).symbol_oneLine).left (by decide : OneLine " ")
          exact .after fun _ =>
            .pure (((spaced.append continues).left (by decide)).standsVisibly
              inLeft.2.left.left.left.left.left)

end

/-! ## Forms that are set in -/

/-- The code of an expression. -/
structure Expr.Rendered (layout : Layout) (expression : Expr) (code : String) : Prop where
  continues : layout.Continues ((insets layout).ofExpr expression) code
  begins : expression.onset.Begins code

section

variable (setting : Setting)

def Expr.SetIn (expression : Expr) : Prop :=
  Emission.Yields (expression.Rendered setting.layout) (renderExpr setting expression)

/-- The expression as the condition of a branch. -/
def Expr.TestSetIn (condition : Expr) : Prop :=
  Emission.Yields
    (Condition.SetIn setting.layout condition ((insets setting.layout).ofExpr condition))
    (renderCondition setting condition)

def Expr.AllSetIn (expressions : List Expr) : Prop :=
  Emission.Yields
    (List.Forall₂ setting.layout.Continues ((insets setting.layout).ofExprs expressions))
    (renderExprs setting expressions)

def ArrayItem.AllSetIn (items : List ArrayItem) : Prop :=
  Emission.Yields
    (List.Forall₂ setting.layout.Continues ((insets setting.layout).ofItems items))
    (renderItems setting items)

def Parameter.AllSetIn (parameters : List Parameter) : Prop :=
  Emission.Yields
    (List.Forall₂ setting.layout.Continues
      ((insets setting.layout).ofParameters parameters))
    (renderParameters setting parameters)

def Assignment.SetIn (assignment : Assignment) : Prop :=
  Emission.Yields
    (fun compiled => setting.layout.Stands
      ((insets setting.layout).ofAssignment assignment) compiled.code)
    (compileAssignment setting assignment)

def Assignment.AllSetIn (assignments : List Assignment) : Prop :=
  Emission.Yields
    (fun compiled => List.Forall₂ setting.layout.Stands
      ((insets setting.layout).ofAssignments assignments) (compiled.map (·.code)))
    (compileAssignments setting assignments)

def Stmt.SetIn (statement : Stmt) : Prop :=
  ∀ gaps level, Emission.Insets setting.layout gaps level level
    ((insets setting.layout).ofStmt level statement) (emitStmt setting statement)

def Stmt.AllSetIn (statements : List Stmt) : Prop :=
  ∀ gaps level, Emission.Insets setting.layout gaps level level
    ((insets setting.layout).ofBlock level statements) (emitBlock setting statements)

def Declaration.AllSetIn (declarations : List Declaration) : Prop :=
  ∀ gaps level location, Emission.Insets setting.layout gaps level level
    ((insets setting.layout).ofDeclarations level declarations)
    (emitDeclarations setting location declarations)

/-- The block of the branch before is open, and so is the one of the last branch. -/
def Branch.AllSetIn (branches : List Branch) : Prop :=
  ∀ gaps level, Emission.Insets setting.layout gaps (level + 1) (level + 1)
    ((insets setting.layout).ofBranches level branches) (emitBranches setting branches)

def Clause.AllSetIn (clauses : List Clause) : Prop :=
  ∀ gaps level, Emission.Insets setting.layout gaps level level
    ((insets setting.layout).ofClauses level clauses) (emitClauses setting clauses)

def Handler.AllSetIn (handlers : List Handler) : Prop :=
  ∀ gaps level, Emission.Insets setting.layout gaps (level + 1) (level + 1)
    ((insets setting.layout).ofHandlers level handlers) (emitHandlers setting handlers)

end

section

variable {setting : Setting}

/-! ## Expressions -/

namespace Expr.SetIn

variable {left right operand object : Expr} {arguments : List Expr} {name : String}

theorem continues {expression : Expr} (setIn : expression.SetIn setting) :
    Emission.Yields (setting.layout.Continues ((insets setting.layout).ofExpr expression))
      (renderExpr setting expression) :=
  Emission.Yields.imp setIn fun _ shown => shown.continues

/-- An expression that need not be there. -/
theorem given {expression : Expr} (setIn : expression.SetIn setting) :
    Emission.Yields
      (fun shown => ∃ code, shown = some code ∧
        setting.layout.Continues ((insets setting.layout).ofExpr expression) code)
      (some <$> renderExpr setting expression) :=
  setIn.map fun code shown => ⟨code, rfl, shown.continues⟩

theorem atom (location : Location) {leaf : Atom} (tidy : ∀ text ∈ leaf.texts, Tidy text) :
    (Expr.atom location leaf).SetIn setting :=
  .pure ⟨.ofLine (leaf.code_oneLine tidy), leaf.code_begins tidy⟩

theorem array (location : Location) {items : List ArrayItem}
    (ofItems : ArrayItem.AllSetIn setting items) :
    (Expr.array location items).SetIn setting :=
  ofItems.bind_pure fun _ each =>
    ⟨((Layout.Continues.intercalate (by decide) each).right (by decide)).left (by decide),
      .left (.left ⟨_, _, rfl, rfl⟩)⟩

/-! ### Operators -/

theorem unary {location : Location} {operator : UnaryOperator}
    (applied : renderExpr setting (.unary location operator operand) =
      (do return operator.code (← renderExpr setting operand)))
    (ofOperand : operand.SetIn setting) :
    (Expr.unary location operator operand).SetIn setting := by
  rw [SetIn, applied]
  exact ofOperand.bind_pure fun code shown =>
    ⟨operator.continues_code shown.continues, operator.begins_code location shown.begins⟩

theorem binary (location : Location) (operator : BinaryOperator)
    (ofLeft : left.SetIn setting) (ofRight : right.SetIn setting) :
    (Expr.binary location operator left right).SetIn setting := by
  refine ofLeft.bind fun leftCode shownLeft => ?_
  refine ofRight.bind_pure fun rightCode shownRight => ⟨?_, ?_⟩
  · exact (((shownLeft.continues.left (by decide)).left operator.symbol_oneLine).left
      (by decide)).append shownRight.continues
  · have begun : (left.onset.followed .blank).Begins
        (leftCode ++ " " ++ operator.symbol) :=
      Onset.Begins.spaced shownLeft.begins operator.symbol_begins
    exact (begun.extendFollowed (by decide)).extendFollowed (by decide)

theorem range (location : Location) (inclusive : Bool) (ofFirst : left.SetIn setting)
    (ofLast : right.SetIn setting) :
    (Expr.range location inclusive left right).SetIn setting := by
  refine ofFirst.bind fun firstCode shownFirst => ?_
  exact ofLast.bind_pure fun lastCode shownLast =>
    ⟨continues_rangeCode inclusive shownFirst.continues shownLast.continues,
      begins_rangeCode inclusive _ _⟩

theorem ternary (location : Location) {condition consequence alternative : Expr}
    (ofCondition : condition.SetIn setting) (ofConsequence : consequence.SetIn setting)
    (ofAlternative : alternative.SetIn setting) :
    (Expr.ternary location condition consequence alternative).SetIn setting := by
  refine ofCondition.bind fun conditionCode shownCondition => ?_
  refine ofConsequence.bind fun consequenceCode shownConsequence => ?_
  refine ofAlternative.bind_pure fun alternativeCode shownAlternative => ⟨?_, ?_⟩
  · have shown := (((shownCondition.continues.left (by decide : OneLine " ? ")).append
      shownConsequence.continues).left (by decide : OneLine " : ")).append
      shownAlternative.continues
    rw [Nat.max_assoc] at shown
    exact shown
  · have begun : (condition.onset.followed .blank).Begins (conditionCode ++ " ? ") :=
      Onset.Begins.append shownCondition.begins ⟨_, _, rfl, rfl⟩
    exact ((begun.extendFollowed (by decide)).extendFollowed (by decide)).extendFollowed
      (by decide)

/-- Casts and hints of types are not shown. -/
theorem cast (location : Location) (type : String) (ofOperand : operand.SetIn setting) :
    (Expr.cast location type operand).SetIn setting :=
  Emission.Yields.imp ofOperand fun _ shown => ⟨shown.continues, shown.begins⟩

theorem typeHint (location : Location) (type : String)
    (ofOperand : operand.SetIn setting) :
    (Expr.typeHint location type operand).SetIn setting :=
  Emission.Yields.imp ofOperand fun _ shown => ⟨shown.continues, shown.begins⟩

/-! ### Properties and elements -/

theorem property (location : Location) (tidy : Tidy name)
    (ofObject : object.SetIn setting) :
    (Expr.property location object name).SetIn setting := by
  refine ofObject.bind_pure fun code shown => ⟨?_, ?_⟩
  · exact (shown.continues.left (by decide)).left tidy.line
  · have begun : (object.onset.followed .visible).Begins (code ++ "->") :=
      Onset.Begins.append shown.begins ⟨_, _, rfl, rfl⟩
    exact begun.extendFollowed (by decide)

theorem dynamicProperty (location : Location) (ofObject : left.SetIn setting)
    (ofName : right.SetIn setting) :
    (Expr.dynamicProperty location left right).SetIn setting := by
  refine ofObject.bind fun objectCode shownObject => ?_
  refine ofName.bind_pure fun nameCode shownName => ⟨?_, ?_⟩
  · exact ((shownObject.continues.left (by decide)).append shownName.continues).left
      (by decide)
  · have begun : (left.onset.followed .visible).Begins (objectCode ++ "->\x7b") :=
      Onset.Begins.append shownObject.begins ⟨_, _, rfl, rfl⟩
    exact (begun.extendFollowed (by decide)).extendFollowed (by decide)

theorem stringProperty (location : Location) (tidy : Tidy name)
    (ofObject : object.SetIn setting) :
    (Expr.stringProperty location object name).SetIn setting :=
  ofObject.bind_pure fun _ shown =>
    ⟨(((shown.continues.right (by decide)).left (by decide)).left tidy.line).left
      (by decide),
      .left (.left (.left (.left ⟨_, _, rfl, rfl⟩)))⟩

theorem index (location : Location) (ofContainer : left.SetIn setting)
    (ofKey : right.SetIn setting) : (Expr.index location left right).SetIn setting := by
  refine ofContainer.bind fun containerCode shownContainer => ?_
  refine ofKey.bind_pure fun keyCode shownKey => ⟨?_, ?_⟩
  · exact ((shownContainer.continues.left (by decide)).append shownKey.continues).left
      (by decide)
  · have begun : (left.onset.followed .visible).Begins (containerCode ++ "[") :=
      Onset.Begins.append shownContainer.begins ⟨_, _, rfl, rfl⟩
    exact (begun.extendFollowed (by decide)).extendFollowed (by decide)

/-! ### Tests for presence, where the parts of the operand are shown one by one -/

theorem issetIndex (location place : Location) (ofContainer : left.SetIn setting)
    (ofKey : right.SetIn setting) :
    (Expr.unary location .isset (.index place left right)).SetIn setting := by
  refine ofContainer.bind fun containerCode shownContainer => ?_
  exact ofKey.bind_pure fun keyCode shownKey =>
    ⟨(((shownContainer.continues.right (by decide)).left (by decide)).append
        shownKey.continues).left (by decide),
      .left (.left (.left (.left ⟨_, _, rfl, rfl⟩)))⟩

theorem issetProperty (location place : Location) (tidy : Tidy name)
    (ofObject : object.SetIn setting) :
    (Expr.unary location .isset (.property place object name)).SetIn setting :=
  ofObject.bind_pure fun _ shown =>
    ⟨(((shown.continues.right (by decide)).left (by decide)).left tidy.line).left
      (by decide),
      .left (.left (.left (.left ⟨_, _, rfl, rfl⟩)))⟩

theorem issetStringProperty (location place : Location) (tidy : Tidy name)
    (ofObject : object.SetIn setting) :
    (Expr.unary location .isset (.stringProperty place object name)).SetIn setting :=
  ofObject.bind_pure fun _ shown =>
    ⟨(((shown.continues.right (by decide)).left (by decide)).left tidy.line).left
      (by decide),
      .left (.left (.left (.left ⟨_, _, rfl, rfl⟩)))⟩

theorem issetDynamicProperty (location place : Location) (ofObject : left.SetIn setting)
    (ofName : right.SetIn setting) :
    (Expr.unary location .isset (.dynamicProperty place left right)).SetIn setting := by
  refine ofObject.bind fun objectCode shownObject => ?_
  exact ofName.bind_pure fun nameCode shownName =>
    ⟨(((shownObject.continues.right (by decide)).left (by decide)).append
        shownName.continues).left (by decide),
      .left (.left (.left (.left ⟨_, _, rfl, rfl⟩)))⟩

/-! ### Calls -/

theorem methodCall (location : Location) (tidy : Tidy name)
    (ofReceiver : object.SetIn setting) (ofArguments : AllSetIn setting arguments) :
    (Expr.methodCall location object name arguments).SetIn setting := by
  refine ofReceiver.bind fun code shown => ?_
  refine ofArguments.bind fun codes each => ?_
  have called := (continues_methodCallCode object.literalReceiver? location tidy.line
    shown.continues each).and (begins_methodCallCode codes shown.begins)
  exact Emission.Yields.imp called fun _ both => ⟨both.1, both.2⟩

theorem functionCall (location : Location) (tidy : Tidy name)
    (ofArguments : AllSetIn setting arguments) :
    (Expr.functionCall location name arguments).SetIn setting :=
  .after fun _ => ofArguments.bind_pure fun codes each =>
    ⟨(continues_argumentCode each).right tidy.line,
      tidy.begins_append (begins_argumentCode codes)⟩

theorem staticCall (location : Location) {className : String} (ofClass : Tidy className)
    (tidy : Tidy name) (ofArguments : AllSetIn setting arguments) :
    (Expr.staticCall location className name arguments).SetIn setting := by
  have named : OneLine (className ++ "::" ++ name) :=
    (ofClass.line.append (by decide)).append tidy.line
  have begins : Onset.visible.Begins (className ++ "::") :=
    ofClass.begins_append ⟨_, _, rfl, rfl⟩
  exact ofArguments.bind_pure fun codes each =>
    ⟨(continues_argumentCode each).right named, begins.left.left⟩

theorem new (location : Location) (dynamic : Bool) (tidy : Tidy name)
    (ofArguments : AllSetIn setting arguments) :
    (Expr.new location name dynamic arguments).SetIn setting := by
  have word : OneLine (if dynamic then "new $" else "new ") := by cases dynamic <;> decide
  have begins : Onset.visible.Begins (if dynamic then "new $" else "new ") := by
    cases dynamic <;> exact ⟨_, _, rfl, rfl⟩
  exact ofArguments.bind_pure fun codes each =>
    ⟨(continues_argumentCode each).right (word.append tidy.line), begins.left.left⟩

/-! ### Functions without a name -/

theorem closure (location : Location) {parameters : List Parameter} {body : List Stmt}
    (ofParameters : Parameter.AllSetIn setting parameters)
    (ofBody : Stmt.AllSetIn setting body) :
    (Expr.closure location parameters body).SetIn setting := by
  refine ofParameters.bind fun parameterList each => ?_
  have head : setting.layout.Continues
      (greatest ((insets setting.layout).ofParameters parameters))
      ("function (" ++ ", ".intercalate parameterList ++ ")") :=
    ((Layout.Continues.intercalate (by decide) each).right (by decide)).left (by decide)
  -- The body is laid out from level one on a page of its own, whatever the level around
  -- it.
  have written :=
    Emission.Insets.onOwnPage head (.left (.left ⟨_, _, rfl, rfl⟩)) (ofBody false 1)
  exact .after fun _ => written.withScope.bind_pure fun page shown => ⟨shown.1, shown.2⟩

theorem arrow (location : Location) (tidy : Tidy name) (ofBody : operand.SetIn setting) :
    (Expr.arrow location name operand).SetIn setting := by
  have head : OneLine ("function ($" ++ name ++ ") \x7b return ") :=
    (OneLine.append (by decide) tidy.line).append (by decide)
  exact (Emission.Yields.withScope ofBody).bind_pure fun code shown =>
    ⟨(shown.continues.right head).left (by decide),
      .left (.left (.left (.left ⟨_, _, rfl, rfl⟩)))⟩

theorem fetch (location : Location) (target : String) (ofSource : operand.SetIn setting) :
    (Expr.fetch location target operand).SetIn setting :=
  ofSource.bind_pure fun _ shown =>
    ⟨(shown.continues.right (by decide)).left (by decide), .left (.left ⟨_, _, rfl, rfl⟩)⟩

end Expr.SetIn

theorem Expr.TestSetIn.fetch (location : Location) {target : String} {source : Expr}
    (tidy : Tidy target) (ofSource : source.SetIn setting) :
    (Expr.fetch location target source).TestSetIn setting := by
  have named : OneLine ("$" ++ target ++ " = ") :=
    (OneLine.append (by decide) tidy.line).append (by decide)
  refine ofSource.continues.bind fun code continues => .after fun _ =>
    .pure ⟨?_, .cons ?_ .nil⟩
  · exact (continues.right (by decide)).left (by decide)
  · exact ((continues.right named).left (by decide)).standsVisibly
      (.left (.left (.left (.left ⟨_, _, rfl, rfl⟩))))

theorem Expr.TestSetIn.other {condition : Expr} (other : condition.isFetch = false)
    (shown : renderCondition setting condition =
      (do pure (⟨← renderExpr setting condition, none⟩ : Condition)))
    (setIn : condition.SetIn setting) : condition.TestSetIn setting := by
  rw [TestSetIn, shown]
  refine setIn.continues.bind_pure fun code continues => ⟨continues, ?_⟩
  rw [other]
  exact .nil

/-! ## Lists in expressions -/

theorem Expr.AllSetIn.cons {expression : Expr} {rest : List Expr}
    (first : expression.SetIn setting) (later : AllSetIn setting rest) :
    AllSetIn setting (expression :: rest) := by
  refine first.bind fun code shown => ?_
  exact later.bind_pure fun codes each => .cons shown.continues each

theorem ArrayItem.AllSetIn.cons {value : Expr} {rest : List ArrayItem}
    (ofValue : value.SetIn setting) (later : AllSetIn setting rest) :
    AllSetIn setting (⟨none, value⟩ :: rest) := by
  refine ofValue.bind fun code shown => ?_
  exact later.bind_pure fun codes each => .cons shown.continues each

theorem ArrayItem.AllSetIn.consKeyed {key value : Expr} {rest : List ArrayItem}
    (ofKey : key.SetIn setting) (ofValue : value.SetIn setting)
    (later : AllSetIn setting rest) :
    AllSetIn setting (⟨some key, value⟩ :: rest) := by
  refine ofValue.bind fun valueCode shown => ?_
  refine ofKey.given.bind ?_
  rintro _ ⟨keyCode, rfl, shownKey⟩
  exact later.bind_pure fun codes each =>
    .cons ((shownKey.left (by decide)).append shown.continues) each

namespace Parameter.AllSetIn

variable {name : String} {rest : List Parameter}

theorem sign_oneLine (byReference : Bool) :
    OneLine (if byReference then "&" else "") := by
  cases byReference <;> decide

theorem cons (byReference : Bool) (tidy : Tidy name) (later : AllSetIn setting rest) :
    AllSetIn setting (⟨name, none, byReference⟩ :: rest) := by
  have named : OneLine ((if byReference then "&" else "") ++ "$" ++ name ++ "") :=
    (((sign_oneLine byReference).append (by decide)).append tidy.line).append (by decide)
  exact later.bind_pure fun codes each => .cons (.ofLine named) each

theorem consDefault (byReference : Bool) {default : Expr} (tidy : Tidy name)
    (ofDefault : default.SetIn setting) (later : AllSetIn setting rest) :
    AllSetIn setting (⟨name, some default, byReference⟩ :: rest) := by
  have named : OneLine ((if byReference then "&" else "") ++ "$" ++ name) :=
    ((sign_oneLine byReference).append (by decide)).append tidy.line
  refine ofDefault.given.bind ?_
  rintro _ ⟨code, rfl, continues⟩
  exact later.bind_pure fun codes each =>
    .cons ((continues.right (by decide)).right named) each

end Parameter.AllSetIn

/-! ## Assignments -/

namespace Assignment.SetIn

variable {form : AssignmentForm} {operator : Option AssignmentOperator} {target : String}
  {property : Option String} {index : List Expr} {location : Location}

theorem withoutValue (ofTarget : Tidy target)
    (ofProperty : ∀ name ∈ property.toList, Tidy name)
    (ofIndex : Expr.AllSetIn setting index) :
    (Assignment.mk form operator target property index none location).SetIn setting := by
  have noValue : ∀ expression ∈ (none : Option Expr),
      Emission.Yields (setting.layout.Continues 0) (renderExpr setting expression) := by
    simp
  refine Emission.Yields.imp
    (compileAssignment_stands_of ofTarget ofProperty ofIndex noValue)
    fun compiled stands => ?_
  rw [ite_self, Nat.max_zero] at stands
  exact stands

theorem withValue {value : Expr} (ofTarget : Tidy target)
    (ofProperty : ∀ name ∈ property.toList, Tidy name)
    (ofIndex : Expr.AllSetIn setting index) (ofValue : value.SetIn setting) :
    (Assignment.mk form operator target property index (some value) location).SetIn
      setting := by
  apply compileAssignment_stands_of ofTarget ofProperty ofIndex
  intro expression member
  cases member
  exact ofValue.continues

end Assignment.SetIn

theorem Assignment.AllSetIn.cons {assignment : Assignment} {rest : List Assignment}
    (first : assignment.SetIn setting) (later : AllSetIn setting rest) :
    AllSetIn setting (assignment :: rest) := by
  refine first.bind fun compiled ofFirst => ?_
  exact later.bind_pure fun others ofOthers => .cons ofFirst ofOthers

/-! ## Statements -/

namespace Stmt.SetIn

variable {value : Expr} {body : List Stmt}

/-- A line with an expression in it. -/
theorem line {gaps : Bool} {level : Nat} {before after : String}
    (ofBefore : OneLine before) (begins : Onset.visible.Begins before)
    (ofAfter : OneLine after) (ofValue : value.SetIn setting) :
    Emission.Insets setting.layout gaps level level
      (setting.layout.columns level + (insets setting.layout).ofExpr value)
      (do Emission.line (before ++ (← renderExpr setting value) ++ after)) :=
  .bind_rendered (renderExpr_detached setting value) ofValue fun _ shown =>
    .line (((shown.continues.right ofBefore).left ofAfter).standsVisibly begins.left.left)

/-- A block that an expression stands before. -/
theorem block {gaps : Bool} {level inner : Nat} {before after : String}
    {inside : Emission Unit} (ofBefore : OneLine before)
    (begins : Onset.visible.Begins before) (ofAfter : OneLine after)
    (ofValue : value.SetIn setting)
    (ofInside : Emission.Insets setting.layout gaps (level + 1) (level + 1)
      inner inside) :
    Emission.Insets setting.layout gaps level level
      (max (setting.layout.columns level + (insets setting.layout).ofExpr value) inner)
      (do
        let code ← renderExpr setting value
        Emission.onPage (·.openBlock (before ++ code ++ after) false)
        inside
        Emission.onPage (·.closeBlock "")) :=
  .bind_rendered (renderExpr_detached setting value) ofValue fun _ shown =>
    .block false (((shown.continues.right ofBefore).left ofAfter).standsVisibly
      begins.left.left)
      ofInside

theorem assign (location : Location) {assignments : List Assignment}
    (each : Assignment.AllSetIn setting assignments) :
    (Stmt.assign location assignments).SetIn setting :=
  fun _ _ => .bind_yields (compileAssignments_quiet setting assignments) each
    fun _ stand => .lines stand

theorem declare (location : Location) {declarations : List Declaration}
    (each : Declaration.AllSetIn setting declarations) :
    (Stmt.declare location declarations).SetIn setting :=
  fun gaps level => each gaps level location

theorem expression (location : Location) (ofValue : value.SetIn setting) :
    (Stmt.expression location value).SetIn setting := by
  intro gaps level
  refine .bind_rendered (renderExpr_detached setting value) ofValue
    fun code shown => .line ?_
  have ended : (value.onset.followed .visible).Begins (code ++ ";") :=
    Onset.Begins.append shown.begins ⟨_, _, rfl, rfl⟩
  have stands := (shown.continues.left (by decide)).stands ended
    (Onset.followed_ne_nothing _ (by decide))
  rw [Onset.columns_followed_visible] at stands
  exact stands

theorem cond (location : Location) {condition : Expr} {alternatives : List Branch}
    {otherwise : Option (List Stmt)} (head : condition.TestSetIn setting)
    (ofBody : AllSetIn setting body)
    (ofAlternatives : Branch.AllSetIn setting alternatives)
    (ofOtherwise : ∀ block ∈ otherwise, AllSetIn setting block) :
    (Stmt.cond location condition body alternatives otherwise).SetIn setting := by
  intro gaps level
  rw [emitStmt_cond]
  refine .bind_yields (renderCondition_quiet setting condition) head fun test shown => ?_
  have tested : setting.layout.Stands ((insets setting.layout).ofExpr condition)
      ("if (" ++ test.test ++ ")") :=
    ((shown.test.right (by decide)).left (by decide)).standsVisibly
      (.left (.left ⟨_, _, rfl, rfl⟩))
  -- The closing brace is set in no further than the head.
  have brace := Nat.max_eq_left (Nat.le_add_right (setting.layout.columns level)
    ((insets setting.layout).ofExpr condition))
  cases otherwise with
  | none =>
      refine .cast (.bind (.openBlock false tested) fun _ =>
        .bind (.fetched shown) fun _ =>
        (ofBody gaps (level + 1)).bind fun _ => (ofAlternatives gaps level).bind fun _ =>
          .closeBrace) ?_
      change _ = max (max _ _) (max _ _)
      rw [← brace]
      ac_rfl
  | some block =>
      have ofBlock := ofOtherwise block rfl
      refine .cast (.bind (.openBlock false tested) fun _ =>
        .bind (.fetched shown) fun _ =>
        (ofBody gaps (level + 1)).bind fun _ => (ofAlternatives gaps level).bind fun _ =>
          .bind (.continueBlock (.ofLine (by decide))) fun _ =>
            (ofBlock gaps (level + 1)).bind fun _ => .closeBrace) ?_
      change _ = max (max _ _) (max _ (max _ _))
      rw [← brace]
      ac_rfl

/-! ### Loops -/

theorem loop (location : Location) (ofBody : AllSetIn setting body) :
    (Stmt.loop location body).SetIn setting := by
  intro gaps level
  have head : setting.layout.Stands 0 "while (true)" :=
    (Layout.Continues.ofLine (by decide)).standsVisibly ⟨_, _, rfl, rfl⟩
  exact .block false head (ofBody gaps (level + 1))

theorem whileLoop (location : Location) (ofCondition : value.SetIn setting)
    (ofBody : AllSetIn setting body) :
    (Stmt.whileLoop location value body).SetIn setting :=
  fun gaps level => block (by decide) ⟨_, _, rfl, rfl⟩ (by decide) ofCondition
    (ofBody gaps (level + 1))

theorem doWhile (location : Location) (ofBody : AllSetIn setting body)
    (ofCondition : value.SetIn setting) :
    (Stmt.doWhile location body value).SetIn setting := by
  intro gaps level
  have head : setting.layout.Stands 0 "do" :=
    (Layout.Continues.ofLine (by decide)).standsVisibly ⟨_, _, rfl, rfl⟩
  refine .cast (.bind (.openBlock false head) fun _ =>
    (ofBody gaps (level + 1)).bind fun _ =>
    .bind_rendered (renderExpr_detached setting value) ofCondition fun code shown =>
      .closeBlock ((shown.continues.right (by decide)).left (by decide))) ?_
  change _ = max ((insets setting.layout).ofBlock (level + 1) body) (_ + _)
  omega

theorem forEach (location : Location) {key name : Option String} (reverse : Bool)
    (ofKey : ∀ text ∈ key.toList, Tidy text) (ofName : ∀ text ∈ name.toList, Tidy text)
    (ofSource : value.SetIn setting) (ofBody : AllSetIn setting body) :
    (Stmt.forEach location key name reverse value body).SetIn setting := by
  intro gaps level
  have shownKey : ∀ text ∈ (key.filter (· != "_")).toList, OneLine text := by
    intro text member
    rw [Option.mem_toList, Option.filter_eq_some_iff] at member
    exact (ofKey text (Option.mem_toList.mpr member.1)).line
  have shownName : OneLine (name.getD "_") := by
    cases name with
    | none => decide
    | some text => exact (ofName text (List.mem_singleton_self text)).line
  rw [emitStmt_forEach]
  refine .bind_rendered (renderExpr_detached setting value) ofSource fun code shown => ?_
  have shownSource : setting.layout.Continues ((insets setting.layout).ofExpr value)
      (if reverse then "array_reverse(" ++ code ++ ")" else code) := by
    split
    · exact (shown.continues.right (by decide)).left (by decide)
    · exact shown.continues
  refine .bind_quiet (.onScope _) fun _ => ?_
  refine .bind_quiet (declareOptional_quiet _ location) fun _ => ?_
  exact .block false (stands_forEachCode shownKey shownName shownSource)
    (ofBody gaps (level + 1))

/-! ### Other statements -/

theorem switch (location : Location) {clauses : List Clause}
    (ofSubject : value.SetIn setting) (ofClauses : Clause.AllSetIn setting clauses) :
    (Stmt.switch location value clauses).SetIn setting :=
  fun gaps level => block (by decide) ⟨_, _, rfl, rfl⟩ (by decide) ofSubject
    (ofClauses gaps (level + 1))

theorem continueLoop (location : Location) : (Stmt.continueLoop location).SetIn setting :=
  fun _ _ => .plainLine (by decide) ⟨_, _, rfl, rfl⟩

theorem breakLoop (location : Location) : (Stmt.breakLoop location).SetIn setting :=
  fun _ _ => .plainLine (by decide) ⟨_, _, rfl, rfl⟩

theorem returnNothing (location : Location) :
    (Stmt.returnValue location none).SetIn setting :=
  fun _ _ => .plainLine (by decide) ⟨_, _, rfl, rfl⟩

theorem returnValue (location : Location) (ofValue : value.SetIn setting) :
    (Stmt.returnValue location (some value)).SetIn setting :=
  fun _ _ => line (by decide) ⟨_, _, rfl, rfl⟩ (by decide) ofValue

theorem throwValue (location : Location) (ofValue : value.SetIn setting) :
    (Stmt.throwValue location value).SetIn setting :=
  fun _ _ => line (by decide) ⟨_, _, rfl, rfl⟩ (by decide) ofValue

theorem unset (location : Location) (ofTarget : value.SetIn setting) :
    (Stmt.unset location value).SetIn setting :=
  fun _ _ => line (by decide) ⟨_, _, rfl, rfl⟩ (by decide) ofTarget

theorem require (location : Location) (ofFile : value.SetIn setting) :
    (Stmt.require location value).SetIn setting :=
  fun _ _ => line (by decide) ⟨_, _, rfl, rfl⟩ (by decide) ofFile

theorem echo (location : Location) {values : List Expr}
    (ofValues : Expr.AllSetIn setting values) :
    (Stmt.echo location values).SetIn setting :=
  fun _ _ => .bind_rendered (renderExprs_detached setting values) ofValues fun _ each =>
    .line ((((Layout.Continues.intercalate (by decide) each).right (by decide)).left
      (by decide)).standsVisibly (.left (.left ⟨_, _, rfl, rfl⟩)))

theorem tryCatch (location : Location) {handlers : List Handler}
    (ofBody : AllSetIn setting body) (ofHandlers : Handler.AllSetIn setting handlers) :
    (Stmt.tryCatch location body handlers).SetIn setting := by
  intro gaps level
  have head : setting.layout.Stands 0 "try" :=
    (Layout.Continues.ofLine (by decide)).standsVisibly ⟨_, _, rfl, rfl⟩
  refine .cast (.bind (.openBlock false head) fun _ =>
    (ofBody gaps (level + 1)).bind fun _ =>
    (ofHandlers gaps level).bind fun _ => .closeBrace) ?_
  change _ = max (_ + 0) (max ((insets setting.layout).ofBlock (level + 1) body) _)
  omega

theorem comment (location : Location) {text : String} (tidy : Tidy text) :
    (Stmt.comment location text).SetIn setting :=
  fun _ _ => .comment tidy.line

theorem empty (location : Location) : (Stmt.empty location).SetIn setting :=
  fun _ _ => .pure ()

end Stmt.SetIn

/-! ## Lists in statements -/

theorem Stmt.AllSetIn.nil : AllSetIn setting [] :=
  fun _ _ => .pure ()

theorem Stmt.AllSetIn.cons {statement : Stmt} {rest : List Stmt}
    (first : statement.SetIn setting) (later : AllSetIn setting rest) :
    AllSetIn setting (statement :: rest) :=
  fun gaps level => (first gaps level).bind fun _ => later gaps level

theorem Declaration.AllSetIn.cons (name : String) {rest : List Declaration}
    (later : AllSetIn setting rest) : AllSetIn setting (⟨name, none⟩ :: rest) :=
  fun gaps level location => .bind_quiet (.onScope _) fun _ => later gaps level location

theorem Declaration.AllSetIn.consValue {name : String} {value : Expr}
    {rest : List Declaration} (tidy : Tidy name) (ofValue : value.SetIn setting)
    (later : AllSetIn setting rest) :
    AllSetIn setting (⟨name, some value⟩ :: rest) := by
  intro gaps level location
  have named : OneLine ("$" ++ name ++ " = ") :=
    (OneLine.append (by decide) tidy.line).append (by decide)
  refine .bind_quiet (.onScope _) fun _ => ?_
  refine .bind_rendered (renderExpr_detached setting value) ofValue fun code shown => ?_
  apply Emission.Insets.bind (.line (((shown.continues.right named).left
    (by decide)).standsVisibly (.left (.left (.left (.left ⟨_, _, rfl, rfl⟩))))))
  intro _
  exact later gaps level location

theorem Branch.AllSetIn.cons {condition : Expr} {body : List Stmt} {rest : List Branch}
    (head : condition.TestSetIn setting)
    (ofBody : Stmt.AllSetIn setting body) (later : AllSetIn setting rest) :
    AllSetIn setting (⟨condition, body⟩ :: rest) := by
  intro gaps level
  rw [emitBranches_cons]
  refine .bind_yields (renderCondition_quiet setting condition) head fun test shown => ?_
  refine .cast (.bind
    (.continueBlock ((shown.test.right (by decide)).left (by decide))) fun _ =>
    (Emission.Insets.fetched shown).bind fun _ => (ofBody gaps (level + 1)).bind fun _ =>
      later gaps level) ?_
  exact (Nat.max_assoc _ _ _).symm

theorem Clause.AllSetIn.consCase {test : Expr} {body : List Stmt} {rest : List Clause}
    (ofTest : test.SetIn setting) (ofBody : Stmt.AllSetIn setting body)
    (later : AllSetIn setting rest) : AllSetIn setting (.case test body :: rest) :=
  fun gaps level =>
    .bind_rendered (renderExpr_detached setting test) ofTest fun _ shown =>
      .clause (((shown.continues.right (by decide)).left (by decide)).standsVisibly
        (.left (.left ⟨_, _, rfl, rfl⟩))) (ofBody gaps (level + 1)) (later gaps level)

theorem Clause.AllSetIn.consDefault {body : List Stmt} {rest : List Clause}
    (ofBody : Stmt.AllSetIn setting body) (later : AllSetIn setting rest) :
    AllSetIn setting (.default body :: rest) := by
  intro gaps level
  have label : setting.layout.Stands 0 "default:" :=
    (Layout.Continues.ofLine (by decide)).standsVisibly ⟨_, _, rfl, rfl⟩
  exact .clause label (ofBody gaps (level + 1)) (later gaps level)

theorem Handler.AllSetIn.cons {classes : List String} {caught : Option String}
    {body : List Stmt} {rest : List Handler} (ofClasses : ∀ name ∈ classes, Tidy name)
    (ofCaught : ∀ name ∈ caught.toList, Tidy name) (ofBody : Stmt.AllSetIn setting body)
    (later : AllSetIn setting rest) :
    AllSetIn setting (⟨classes, caught, body⟩ :: rest) := by
  intro gaps level
  have line : OneLine (catchCode classes caught) :=
    catchCode_oneLine (fun name member => (ofClasses name member).line)
      fun name member => (ofCaught name member).line
  have head : setting.layout.Continues 0 (catchCode classes caught) := .ofLine line
  rw [emitHandlers_cons]
  refine .bind_quiet (declareOptional_quiet caught .unknown) fun _ => ?_
  exact .bind (.continueBlock head) fun _ => (ofBody gaps (level + 1)).bind fun _ =>
    later gaps level

end

end ZephirPhp
