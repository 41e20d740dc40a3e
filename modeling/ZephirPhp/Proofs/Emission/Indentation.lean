import ZephirPhp.Proofs.Emission.FormInsets
import ZephirPhp.Proofs.Program.Closures

/-! # Indentation of files

How far the lines of a file are set in can be read off the program, if its names and
literals are tidy: `Program.inset` is the greatest number of indenting characters in
front of a line. The deepest level that is shown bounds it only where no closure is,
since the levels of a closure are counted from the statement in which it stands.
-/

namespace ZephirPhp

open Gauge (insets)
open Survey (texts)
open Text (OneLine Tidy greatest lead)

/-! ## Expressions and statements -/

section

variable (setting : Setting)

mutual

theorem Expr.setIn (expression : Expr)
    (tidy : ∀ text ∈ texts.ofExpr () expression, Tidy text) :
    expression.SetIn setting := by
  cases expression with
  | atom location leaf => exact .atom location tidy
  | array location items => exact .array location (ArrayItem.allSetIn items tidy)
  | unary location operator operand =>
      have ofOperand := operand.setIn tidy
      cases operator with
      | isset =>
          cases operand with
          | index place container key =>
              have parts := List.forall_mem_append.mp tidy
              exact .issetIndex location place (container.setIn parts.1)
                (key.setIn parts.2)
          | property place object name =>
              have parts := List.forall_mem_cons.mp tidy
              exact .issetProperty location place parts.1 (object.setIn parts.2)
          | stringProperty place object name =>
              have parts := List.forall_mem_cons.mp tidy
              exact .issetStringProperty location place parts.1 (object.setIn parts.2)
          | dynamicProperty place object name =>
              have parts := List.forall_mem_append.mp tidy
              exact .issetDynamicProperty location place (object.setIn parts.1)
                (name.setIn parts.2)
          | _ => exact .unary rfl ofOperand
      | _ => exact .unary rfl ofOperand
  | binary location operator left right =>
      have parts := List.forall_mem_append.mp tidy
      exact .binary location operator (left.setIn parts.1) (right.setIn parts.2)
  | range location inclusive first last =>
      have parts := List.forall_mem_append.mp tidy
      exact .range location inclusive (first.setIn parts.1) (last.setIn parts.2)
  | property location object name =>
      have parts := List.forall_mem_cons.mp tidy
      exact .property location parts.1 (object.setIn parts.2)
  | dynamicProperty location object name =>
      have parts := List.forall_mem_append.mp tidy
      exact .dynamicProperty location (object.setIn parts.1) (name.setIn parts.2)
  | stringProperty location object name =>
      have parts := List.forall_mem_cons.mp tidy
      exact .stringProperty location parts.1 (object.setIn parts.2)
  | index location container key =>
      have parts := List.forall_mem_append.mp tidy
      exact .index location (container.setIn parts.1) (key.setIn parts.2)
  | methodCall location receiver method arguments =>
      have parts := List.forall_mem_cons.mp tidy
      have inside := List.forall_mem_append.mp parts.2
      exact .methodCall location parts.1 (receiver.setIn inside.1)
        (Expr.allSetIn arguments inside.2)
  | functionCall location function arguments =>
      have parts := List.forall_mem_cons.mp tidy
      exact .functionCall location parts.1 (Expr.allSetIn arguments parts.2)
  | staticCall location className method arguments =>
      have parts := List.forall_mem_cons.mp tidy
      have inside := List.forall_mem_cons.mp parts.2
      exact .staticCall location parts.1 inside.1 (Expr.allSetIn arguments inside.2)
  | new location className dynamic arguments =>
      have parts := List.forall_mem_cons.mp tidy
      exact .new location dynamic parts.1 (Expr.allSetIn arguments parts.2)
  | cast location type operand => exact .cast location type (operand.setIn tidy)
  | typeHint location type operand => exact .typeHint location type (operand.setIn tidy)
  | ternary location condition consequence alternative =>
      have parts := List.forall_mem_append.mp tidy
      have branches := List.forall_mem_append.mp parts.2
      exact .ternary location (condition.setIn parts.1) (consequence.setIn branches.1)
        (alternative.setIn branches.2)
  | closure location parameters body =>
      have parts := List.forall_mem_append.mp tidy
      exact .closure location (Parameter.allSetIn parameters parts.1)
        (Stmt.allSetIn body parts.2)
  | arrow location parameter body =>
      have parts := List.forall_mem_cons.mp tidy
      exact .arrow location parts.1 (body.setIn parts.2)
  | fetch location target source =>
      have parts := List.forall_mem_cons.mp tidy
      exact .fetch location target (source.setIn parts.2)
termination_by structural expression

theorem Expr.allSetIn (expressions : List Expr)
    (tidy : ∀ text ∈ texts.ofExprs () expressions, Tidy text) :
    Expr.AllSetIn setting expressions := by
  cases expressions with
  | nil => exact .pure .nil
  | cons expression rest =>
      have parts := List.forall_mem_append.mp tidy
      exact .cons (expression.setIn parts.1) (Expr.allSetIn rest parts.2)
termination_by structural expressions

theorem ArrayItem.allSetIn (items : List ArrayItem)
    (tidy : ∀ text ∈ texts.ofItems () items, Tidy text) :
    ArrayItem.AllSetIn setting items := by
  cases items with
  | nil => exact .pure .nil
  | cons item rest =>
      have parts := List.forall_mem_append.mp tidy
      have later := ArrayItem.allSetIn rest parts.2
      rcases item with ⟨key, value⟩
      cases key with
      | none => exact .cons (value.setIn parts.1) later
      | some key =>
          have both := List.forall_mem_append.mp parts.1
          exact .consKeyed (key.setIn both.2) (value.setIn both.1) later
termination_by structural items

theorem Parameter.allSetIn (parameters : List Parameter)
    (tidy : ∀ text ∈ texts.ofParameters () parameters, Tidy text) :
    Parameter.AllSetIn setting parameters := by
  cases parameters with
  | nil => exact .pure .nil
  | cons parameter rest =>
      have parts := List.forall_mem_append.mp tidy
      have later := Parameter.allSetIn rest parts.2
      rcases parameter with ⟨name, default, byReference⟩
      cases default with
      | none => exact .cons byReference (List.forall_mem_singleton.mp parts.1) later
      | some default =>
          have own := List.forall_mem_cons.mp parts.1
          exact .consDefault byReference own.1 (default.setIn own.2) later
termination_by structural parameters

theorem Assignment.setIn (assignment : Assignment)
    (tidy : ∀ text ∈ texts.ofAssignment () assignment, Tidy text) :
    assignment.SetIn setting := by
  rcases assignment with ⟨form, operator, target, property, index, value, location⟩
  cases value with
  | none =>
      have own := List.forall_mem_cons.mp tidy
      have inside := List.forall_mem_append.mp own.2
      exact .withoutValue own.1 inside.1 (Expr.allSetIn index inside.2)
  | some value =>
      have own := List.forall_mem_cons.mp tidy
      have inside := List.forall_mem_append.mp own.2
      have parts := List.forall_mem_append.mp inside.2
      exact .withValue own.1 inside.1 (Expr.allSetIn index parts.1) (value.setIn parts.2)
termination_by structural assignment

theorem Assignment.allSetIn (assignments : List Assignment)
    (tidy : ∀ text ∈ texts.ofAssignments () assignments, Tidy text) :
    Assignment.AllSetIn setting assignments := by
  cases assignments with
  | nil => exact .pure .nil
  | cons assignment rest =>
      have parts := List.forall_mem_append.mp tidy
      exact .cons (assignment.setIn parts.1) (Assignment.allSetIn rest parts.2)
termination_by structural assignments

theorem Stmt.setIn (statement : Stmt)
    (tidy : ∀ text ∈ texts.ofStmt () statement, Tidy text) :
    statement.SetIn setting := by
  cases statement with
  | assign location assignments =>
      exact .assign location (Assignment.allSetIn assignments tidy)
  | declare location declarations =>
      exact .declare location (Declaration.allSetIn declarations tidy)
  | expression location value => exact .expression location (value.setIn tidy)
  | cond location condition body alternatives otherwise =>
      have ofCondition : ∀ text ∈ texts.ofExpr () condition, Tidy text := by
        cases otherwise <;> exact (List.forall_mem_append.mp tidy).1
      have head : condition.TestSetIn setting := by
        cases condition with
        | fetch place target source =>
            have own := List.forall_mem_cons.mp ofCondition
            exact .fetch place own.1 (source.setIn own.2)
        | _ => exact .other rfl rfl (Expr.setIn _ ofCondition)
      cases otherwise with
      | none =>
          have parts := List.forall_mem_append.mp (List.forall_mem_append.mp tidy).2
          exact .cond location head (Stmt.allSetIn body parts.1)
            (Branch.allSetIn alternatives parts.2) (by simp)
      | some block =>
          have parts := List.forall_mem_append.mp (List.forall_mem_append.mp tidy).2
          have others := List.forall_mem_append.mp parts.2
          have ofBlock := Stmt.allSetIn block others.2
          exact .cond location head (Stmt.allSetIn body parts.1)
            (Branch.allSetIn alternatives others.1) (by simpa using ofBlock)
  | loop location body => exact .loop location (Stmt.allSetIn body tidy)
  | whileLoop location condition body =>
      have parts := List.forall_mem_append.mp tidy
      exact .whileLoop location (condition.setIn parts.1) (Stmt.allSetIn body parts.2)
  | doWhile location body condition =>
      have parts := List.forall_mem_append.mp tidy
      exact .doWhile location (Stmt.allSetIn body parts.1) (condition.setIn parts.2)
  | forEach location key value reverse source body =>
      have keyed := List.forall_mem_append.mp tidy
      have named := List.forall_mem_append.mp keyed.2
      have parts := List.forall_mem_append.mp named.2
      exact .forEach location reverse keyed.1 named.1 (source.setIn parts.1)
        (Stmt.allSetIn body parts.2)
  | switch location subject clauses =>
      have parts := List.forall_mem_append.mp tidy
      exact .switch location (subject.setIn parts.1) (Clause.allSetIn clauses parts.2)
  | continueLoop location => exact .continueLoop location
  | breakLoop location => exact .breakLoop location
  | returnValue location value =>
      cases value with
      | none => exact .returnNothing location
      | some value => exact .returnValue location (value.setIn tidy)
  | throwValue location value => exact .throwValue location (value.setIn tidy)
  | unset location target => exact .unset location (target.setIn tidy)
  | echo location values => exact .echo location (Expr.allSetIn values tidy)
  | require location file => exact .require location (file.setIn tidy)
  | tryCatch location body handlers =>
      have parts := List.forall_mem_append.mp tidy
      exact .tryCatch location (Stmt.allSetIn body parts.1)
        (Handler.allSetIn handlers parts.2)
  | comment location text => exact .comment location (List.forall_mem_singleton.mp tidy)
  | empty location => exact .empty location
termination_by structural statement

theorem Stmt.allSetIn (statements : List Stmt)
    (tidy : ∀ text ∈ texts.ofBlock () statements, Tidy text) :
    Stmt.AllSetIn setting statements := by
  cases statements with
  | nil => exact .nil
  | cons statement rest =>
      have parts := List.forall_mem_append.mp tidy
      exact .cons (statement.setIn parts.1) (Stmt.allSetIn rest parts.2)
termination_by structural statements

theorem Declaration.allSetIn (declarations : List Declaration)
    (tidy : ∀ text ∈ texts.ofDeclarations () declarations, Tidy text) :
    Declaration.AllSetIn setting declarations := by
  cases declarations with
  | nil => exact fun _ _ _ => .pure ()
  | cons declaration rest =>
      have parts := List.forall_mem_append.mp tidy
      have later := Declaration.allSetIn rest parts.2
      rcases declaration with ⟨name, value⟩
      cases value with
      | none => exact .cons name later
      | some value =>
          have own := List.forall_mem_cons.mp parts.1
          exact .consValue own.1 (value.setIn own.2) later
termination_by structural declarations

theorem Branch.allSetIn (branches : List Branch)
    (tidy : ∀ text ∈ texts.ofBranches () branches, Tidy text) :
    Branch.AllSetIn setting branches := by
  cases branches with
  | nil => exact fun _ _ => .pure ()
  | cons branch rest =>
      rcases branch with ⟨condition, body⟩
      have parts := List.forall_mem_append.mp tidy
      have own := List.forall_mem_append.mp parts.1
      have head : condition.TestSetIn setting := by
        cases condition with
        | fetch place target source =>
            have fetched := List.forall_mem_cons.mp own.1
            exact .fetch place fetched.1 (source.setIn fetched.2)
        | _ => exact .other rfl rfl (Expr.setIn _ own.1)
      exact .cons head (Stmt.allSetIn body own.2) (Branch.allSetIn rest parts.2)
termination_by structural branches

theorem Clause.allSetIn (clauses : List Clause)
    (tidy : ∀ text ∈ texts.ofClauses () clauses, Tidy text) :
    Clause.AllSetIn setting clauses := by
  cases clauses with
  | nil => exact fun _ _ => .pure ()
  | cons clause rest =>
      have parts := List.forall_mem_append.mp tidy
      have later := Clause.allSetIn rest parts.2
      cases clause with
      | case test body =>
          have own := List.forall_mem_append.mp parts.1
          exact .consCase (test.setIn own.1) (Stmt.allSetIn body own.2) later
      | default body => exact .consDefault (Stmt.allSetIn body parts.1) later
termination_by structural clauses

theorem Handler.allSetIn (handlers : List Handler)
    (tidy : ∀ text ∈ texts.ofHandlers () handlers, Tidy text) :
    Handler.AllSetIn setting handlers := by
  cases handlers with
  | nil => exact fun _ _ => .pure ()
  | cons handler rest =>
      rcases handler with ⟨classes, caught, body⟩
      have parts := List.forall_mem_append.mp tidy
      have named := List.forall_mem_append.mp parts.1
      have own := List.forall_mem_append.mp named.2
      exact .cons named.1 own.1 (Stmt.allSetIn body own.2) (Handler.allSetIn rest parts.2)
termination_by structural handlers

end

/-! ## Definitions -/

theorem emitConstant_insets {gaps : Bool} {level : Nat} (constant : Constant)
    (tidy : ∀ text ∈ texts.ofConstant () constant, Tidy text) :
    Emission.Insets setting.layout gaps level level
      ((insets setting.layout).ofConstant level constant)
        (emitConstant setting constant) := by
  rcases List.forall_mem_append.mp tidy with ⟨ofDocblock, named⟩
  rcases List.forall_mem_cons.mp named with ⟨ofName, ofValue⟩
  have named : OneLine ("const " ++ constant.name ++ " = ") :=
    (OneLine.append (by decide) ofName.line).append (by decide)
  refine .documented (fun text member => (ofDocblock text member).line)
    (Nat.le_add_right _ _)
    fun _ => ?_
  exact .bind_rendered (renderExpr_detached setting constant.value)
    (constant.value.setIn setting ofValue) fun code shown =>
      .line (((shown.continues.right named).left (by decide)).standsVisibly
        (.left (.left (.left (.left ⟨_, _, rfl, rfl⟩)))))

theorem emitProperty_insets {gaps : Bool} {level : Nat} (property : Property)
    (tidy : ∀ text ∈ texts.ofProperty () property, Tidy text) :
    Emission.Insets setting.layout gaps level level
      ((insets setting.layout).ofProperty level property)
        (emitProperty setting property) := by
  rcases List.forall_mem_append.mp tidy with ⟨ofDocblock, inside⟩
  rcases List.forall_mem_cons.mp inside with ⟨ofName, ofDefault⟩
  have shown : ∀ text, Tidy text → OneLine (if text.isEmpty then "public" else text) ∧
      Onset.visible.Begins (if text.isEmpty then "public" else text) := by
    intro text tidy
    split
    · exact ⟨by decide, _, _, rfl, rfl⟩
    · next some => exact ⟨tidy.line, tidy.begins_of_ne (by simpa using some)⟩
  have modifiers := shown _ (modifierCode_tidy property.visibility false)
  have named := (modifiers.1.append (by decide : OneLine " $")).append ofName.line
  refine .documented (fun text member => (ofDocblock text member).line)
    (Nat.le_add_right _ _)
    fun _ => ?_
  cases present : property.default with
  | none =>
      rw [Gauge.ofProperty, present]
      exact .plainLine (named.append (by decide)) modifiers.2.left.left.left
  | some default =>
      rw [present] at ofDefault
      have inset : (insets setting.layout).ofProperty level property =
          setting.layout.columns level + (insets setting.layout).ofExpr default := by
        rw [Gauge.ofProperty, present]
        exact congrArg (_ + ·) (Nat.max_zero _)
      rw [inset]
      exact .bind_rendered (renderExpr_detached setting default)
        (default.setIn setting (List.forall_mem_append.mp ofDefault).1) fun code shown =>
          .line (((shown.continues.right (named.append (by decide))).left
            (by decide)).standsVisibly modifiers.2.left.left.left.left.left)

theorem emitMethod_insets {gaps : Bool} {level : Nat} (inInterface : Bool)
    (method : Method) (tidy : ∀ text ∈ texts.ofMethod () method, Tidy text) :
    Emission.Insets setting.layout gaps level level
      ((insets setting.layout).ofMethod level method)
      (emitMethod setting inInterface method) := by
  rcases List.forall_mem_append.mp tidy with ⟨ofDocblock, inside⟩
  rcases List.forall_mem_cons.mp inside with ⟨ofName, ofBody⟩
  rcases List.forall_mem_append.mp ofBody with ⟨ofParameters, ofStatements⟩
  have atLeast : setting.layout.columns level ≤
      (insets setting.layout).ofMethod level method :=
    Nat.le_trans (Nat.le_add_right _ _) (Nat.le_max_left _ _)
  refine .documented (fun text member => (ofDocblock text member).line)
    atLeast fun _ => ?_
  apply Emission.Insets.withScope
  refine .bind_rendered (renderParameters_detached setting method.parameters)
    (Parameter.allSetIn setting method.parameters ofParameters) fun parameters each => ?_
  have head := stands_head method inInterface ofName.line each
  split
  · next signature =>
      rw [Method.isSignature, Bool.and_eq_true, Option.isNone_iff_eq_none] at signature
      have inset : (insets setting.layout).ofMethod level method =
          setting.layout.columns level +
            greatest ((insets setting.layout).ofParameters method.parameters) := by
        rw [Gauge.ofMethod, signature.1]
        exact Nat.max_zero _
      rw [inset]
      exact .line (head.left (by decide))
  · exact .block _ head (Stmt.allSetIn setting _ ofStatements gaps (level + 1))

theorem emitFunction_insets {gaps : Bool} {level : Nat} (definition : FunctionDefinition)
    (tidy : ∀ text ∈ definition.docblock.toList ++
      definition.name :: texts.ofBody () definition.parameters definition.statements,
      Tidy text) :
    Emission.Insets setting.layout gaps level level
      ((insets setting.layout).ofBody level definition.parameters definition.statements)
      (emitFunction setting definition) := by
  rcases List.forall_mem_append.mp tidy with ⟨ofDocblock, inside⟩
  rcases List.forall_mem_cons.mp inside with ⟨ofName, ofBody⟩
  rcases List.forall_mem_append.mp ofBody with ⟨ofParameters, ofStatements⟩
  have atLeast : setting.layout.columns level ≤
      (insets setting.layout).ofBody level definition.parameters definition.statements :=
    Nat.le_trans (Nat.le_add_right _ _) (Nat.le_max_left _ _)
  have named : OneLine ("function " ++ definition.name) :=
    OneLine.append (by decide) ofName.line
  refine .documented (fun text member => (ofDocblock text member).line)
    atLeast fun _ => ?_
  apply Emission.Insets.withScope
  refine .bind_rendered (renderParameters_detached setting definition.parameters)
    (Parameter.allSetIn setting definition.parameters ofParameters)
    fun parameters each => ?_
  exact .block _ (((continues_argumentCode each).right named).standsVisibly
    (.left (.left ⟨_, _, rfl, rfl⟩)))
      (Stmt.allSetIn setting _ ofStatements gaps (level + 1))

theorem emitMethods_insets {level : Nat} (inInterface : Bool) (methods : List Method)
    (tidy : ∀ method ∈ methods, ∀ text ∈ texts.ofMethod () method, Tidy text) :
    Emission.Insets setting.layout true level level
      (greatest (methods.map ((insets setting.layout).ofMethod level)))
      (emitMethods setting inInterface methods) := by
  induction methods with
  | nil => exact .pure ()
  | cons method rest induction =>
      rw [List.forall_mem_cons] at tidy
      have first : Emission.Insets setting.layout true level level
          ((insets setting.layout).ofMethod level method)
          (emitMethod setting inInterface method) :=
        emitMethod_insets setting inInterface method tidy.1
      cases rest with
      | nil => exact first.cast (Nat.max_zero _).symm
      | cons next others =>
          refine .cast (first.bind fun _ => .bind .blankLine fun _ => induction tidy.2) ?_
          rw [Nat.zero_max]
          rfl

theorem emitMembers_insets (inInterface : Bool) (constants : List Constant)
    (properties : List Property) (methods : List Method)
    (tidy : ∀ text ∈ texts.ofMembers (fun _ => ()) constants properties methods,
      Tidy text) :
    Emission.Insets setting.layout true 1 1
      ((insets setting.layout).ofMembers 1 constants properties methods)
      (emitMembers setting inInterface constants properties methods) := by
  simp only [Survey.ofMembers, List.forall_mem_append, List.forall_mem_flatMap] at tidy
  rcases tidy with ⟨ofConstants, ofProperties, ofMethods⟩
  apply (Emission.Insets.forM fun constant member =>
    emitConstant_insets setting constant (ofConstants constant member)).bind
  intro _
  apply Emission.Insets.optional .blankLine
  apply (Emission.Insets.forM fun property member =>
    emitProperty_insets setting property (ofProperties property member)).bind
  intro _
  apply Emission.Insets.optional .blankLine
  exact emitMethods_insets setting inInterface methods ofMethods

/-- The braces around the members are not indented. -/
theorem block_insets {head : String} {inner : Nat} {members : Emission Unit}
    (line : OneLine head) (begins : Onset.visible.Begins head)
    (inside : Emission.Insets setting.layout true 1 1 inner members) :
    Emission.Insets setting.layout true 0 0 inner (do
      Emission.onPage (·.openBlock head setting.layout.braceOnNewLine)
      members
      Emission.onPage (·.closeBlock "")) := by
  have stands : setting.layout.Stands 0 head :=
    (Layout.Continues.ofLine line).standsVisibly begins
  apply (Emission.Insets.block setting.layout.braceOnNewLine stands inside).cast
  rw [Layout.columns_zero, Nat.zero_add, Nat.zero_max]

theorem emitEntry_insets (entry : Entry)
    (tidy : ∀ text ∈ texts.ofEntry (fun _ => ()) entry, Tidy text) :
    Emission.Insets setting.layout true 0 0 ((insets setting.layout).ofEntry entry)
      (emitEntry setting entry) := by
  have flush : setting.layout.columns 0 = 0 := setting.layout.columns_zero
  cases entry with
  | comment location text =>
      exact (Emission.Insets.comment (tidy text (List.mem_singleton_self text)).line).cast
        flush
  | namespaceName location name =>
      have line : OneLine ("namespace " ++ name ++ ";") :=
        (OneLine.append (by decide)
          (tidy name (List.mem_singleton_self name)).line).append
          (by decide)
      refine .cast (.bind (.plainLine line (.left (.left ⟨_, _, rfl, rfl⟩))) fun _ =>
        .blankLine) ?_
      rw [flush]
      rfl
  | imports location imported =>
      have each := List.forall_mem_flatMap.mp tidy
      apply Emission.Insets.flushLines
      intro text member
      rcases List.mem_map.mp member with ⟨used, among, rfl⟩
      exact used.code_shown (each used among)
  | classDefinition definition =>
      rcases List.forall_mem_append.mp tidy with ⟨ofDocblock, inside⟩
      rcases List.forall_mem_cons.mp inside with ⟨ofName, others⟩
      rcases List.forall_mem_append.mp others with ⟨ofHead, ofMembers⟩
      rcases List.forall_mem_append.mp ofHead with ⟨ofParent, ofInterfaces⟩
      have head := definition.head_shown ofName ofParent ofInterfaces
      have members := block_insets setting head.1 head.2
        (emitMembers_insets setting false _ _ _ ofMembers)
      have documented := Emission.Insets.documented
        (fun text member => (ofDocblock text member).line)
        (Nat.le_trans (Nat.le_of_eq flush) (Nat.zero_le _)) fun _ => members
      exact (documented.bind fun _ => .blankLine).cast (Nat.max_zero _)
  | interfaceDefinition definition =>
      rcases List.forall_mem_append.mp tidy with ⟨ofDocblock, inside⟩
      rcases List.forall_mem_cons.mp inside with ⟨ofName, others⟩
      rcases List.forall_mem_append.mp others with ⟨ofParents, ofMembers⟩
      have head := definition.head_shown ofName ofParents
      have members := block_insets setting head.1 head.2
        (emitMembers_insets setting true _ [] _ ofMembers)
      have documented := Emission.Insets.documented
        (fun text member => (ofDocblock text member).line)
        (Nat.le_trans (Nat.le_of_eq flush) (Nat.zero_le _)) fun _ => members
      exact (documented.bind fun _ => .blankLine).cast (Nat.max_zero _)
  | functionDefinition definition =>
      exact ((emitFunction_insets setting definition tidy).bind fun _ => .blankLine).cast
        (Nat.max_zero _)
  | statement included => exact included.setIn setting tidy true 0

theorem emitProgram_insets (program : Program)
    (tidy : ∀ text ∈ program.texts, Tidy text) :
    Emission.Insets setting.layout true 0 0 (program.inset setting.layout)
      (emitProgram setting program) := by
  rw [Program.texts, Survey.ofProgram, List.forall_mem_flatMap] at tidy
  refine .cast (.bind (.plainLine (by decide) ⟨_, _, rfl, rfl⟩) fun _ =>
    .bind .blankLine fun _ =>
    .forM fun entry member => emitEntry_insets setting entry (tidy entry member)) ?_
  rw [Layout.columns_zero, Nat.zero_max, Nat.zero_max]
  rfl

end

/-! ## Copies of the unit -/

namespace Layout

/-- The line begins with so many copies of the unit. -/
def Indents (layout : Layout) (count : Nat) (line : String) : Prop :=
  (String.join (List.replicate count layout.unit)).toList <+: line.toList

/-- No line of the text begins with more copies of the unit. -/
def IndentsWithin (layout : Layout) (bound : Nat) (text : String) : Prop :=
  ∀ line ∈ Text.lines text, ∀ count, layout.Indents count line → count ≤ bound

variable {layout : Layout}

theorem indents_iff {count : Nat} {line : String} :
    layout.Indents count line ↔
      count * layout.unit.length ≤ lead layout.mark line.toList := by
  rw [Indents, toList_join_unit, Text.replicate_prefix_iff]

theorem unit_length_pos (some : layout.unit ≠ "") : 0 < layout.unit.length := by
  rw [Nat.pos_iff_ne_zero, ← String.length_toList, ne_eq, List.length_eq_zero_iff,
    String.toList_eq_nil_iff]
  exact some

theorem indentsWithin_iff (some : layout.unit ≠ "") {bound : Nat} {text : String} :
    layout.IndentsWithin bound text ↔ ∀ line ∈ Text.lines text,
      lead layout.mark line.toList ≤ (bound + 1) * layout.unit.length - 1 := by
  have positive : 0 < (bound + 1) * layout.unit.length :=
    Nat.mul_pos (Nat.succ_pos bound) (unit_length_pos some)
  refine forall₂_congr fun line _ => ?_
  simp only [indents_iff]
  constructor
  · intro bounded
    by_contra deeper
    have further := bounded (bound + 1) (by omega)
    omega
  · intro shallow count indents
    by_contra more
    have least : (bound + 1) * layout.unit.length ≤ count * layout.unit.length :=
      Nat.mul_le_mul_right _ (by omega)
    omega

/-- A blank in front of a line is not one more copy of the unit, unless the unit is
that. -/
theorem blank_columns_lt (some : layout.unit ≠ "") :
    Onset.blank.columns layout <
      ((if layout.unit = " " then 1 else 0) + 1) * layout.unit.length := by
  have positive := unit_length_pos some
  rw [Onset.columns]
  split
  · next spaces =>
      split
      · next single =>
          rw [single]
          decide
      · next other =>
          have longer : layout.unit.length ≠ 1 := by
            intro one
            apply other
            apply String.toList_injective
            rw [layout.toList_unit, one, spaces]
            rfl
          omega
  · exact Nat.mul_pos (Nat.succ_pos _) positive

theorem reach_lt (some : layout.unit ≠ "") (closures : Nat) :
    layout.reach closures <
      (closures * layout.maxDepth + (if layout.unit = " " then 1 else 0) + 1) *
        layout.unit.length := by
  rw [reach, columns_eq, Nat.min_self, ← Nat.mul_assoc, Nat.add_assoc, Nat.add_mul]
  exact Nat.add_lt_add_left (blank_columns_lt some) _

end Layout

/-- Of a tidy program it is known how many copies of the unit the lines of its file begin
with at most. Without closures these are no more than the deepest level that is shown;
each closure around a line can add as many again. -/
theorem toPhp_indentsWithin_iff (setting : Setting) {program : Program} {php : String}
    (some : setting.layout.unit ≠ "") (tidy : ∀ text ∈ program.texts, Tidy text)
    (written : (program.toPhp setting).1 = .ok php) :
    (∀ bound, setting.layout.IndentsWithin bound php ↔
      program.inset setting.layout < (bound + 1) * setting.layout.unit.length) ∧
    ∀ limit, program.ClosesWithin limit →
      setting.layout.IndentsWithin
        ((limit + 1) * setting.layout.maxDepth + if setting.layout.unit =
          " " then 1 else 0)
        php := by
  have start : Page.empty.SetIn setting.layout true [] 0 0 := ⟨.empty, [], rfl, .nil⟩
  rcases Emission.Leads.toPhp (emitProgram_insets setting program tidy [] 0) start
    written with
    ⟨page, setIn, rfl⟩
  rw [Nat.zero_max] at setIn
  have sharp : ∀ bound, setting.layout.IndentsWithin bound (page.finish setting.layout) ↔
      program.inset setting.layout < (bound + 1) * setting.layout.unit.length := by
    intro bound
    have positive : 0 < (bound + 1) * setting.layout.unit.length :=
      Nat.mul_pos (Nat.succ_pos bound) (Layout.unit_length_pos some)
    rw [Layout.indentsWithin_iff some, setIn.forall_lead_le_iff]
    omega
  refine ⟨sharp, fun limit within => (sharp _).mpr ?_⟩
  exact Nat.lt_of_le_of_lt (program.inset_le_reach setting.layout within)
    (Layout.reach_lt some (limit + 1))

/-- A closure in a closure, each of them returned from a loop. -/
def nestedClosures : Program where
  entries := [.functionDefinition {
    name := "f"
    parameters := []
    statements := [.loop .unknown [.returnValue .unknown (some (.closure .unknown []
      [.loop .unknown [.returnValue .unknown (some (.closure .unknown []
        [.returnValue .unknown (some (.atom .unknown (.int "1")))]))]]))]]
    docblock := none
    location := .unknown }]

/-- One level is shown. -/
def oneLevel : Setting where
  layout := { maxDepth := 1 }

def nestedClosuresPhp : String :=
  "<?php\n\nfunction f()\n\x7b\n  while (true) \x7b\n  return function () \x7b\n" ++
    "    while (true) \x7b\n    return function () \x7b\n      return 1;\n" ++
    "    \x7d;\n    \x7d\n  \x7d;\n  \x7d\n\x7d\n"

theorem toPhp_indentsWithin_iff_of_nested :
    oneLevel.layout.unit ≠ "" ∧ (∀ text ∈ nestedClosures.texts, Tidy text) ∧
      (nestedClosures.toPhp oneLevel).1 = .ok nestedClosuresPhp ∧
      nestedClosures.ClosesWithin 2 ∧ oneLevel.layout.IndentsWithin 3 nestedClosuresPhp ∧
      ¬ oneLevel.layout.IndentsWithin 2 nestedClosuresPhp := by
  have some : oneLevel.layout.unit ≠ "" := by decide
  have tidy : ∀ text ∈ nestedClosures.texts, Tidy text := by decide +kernel
  have written : (nestedClosures.toPhp oneLevel).1 = .ok nestedClosuresPhp := by
    decide +kernel
  have closes : nestedClosures.ClosesWithin 2 := by
    apply Program.closesWithin_of_constructs
    rw [nestedClosures, List.forall_mem_singleton]
    refine List.forall_mem_singleton.mpr ?_
    iterate 7 refine .ofParts (List.forall_mem_singleton.mpr ?_)
    exact .ofParts (List.forall_mem_nil _)
  have indents := toPhp_indentsWithin_iff oneLevel some tidy written
  have inset : nestedClosures.inset oneLevel.layout = 6 := by decide +kernel
  have unit : oneLevel.layout.unit.length = 2 := by decide +kernel
  refine ⟨some, tidy, written, closes, indents.2 2 closes, ?_⟩
  rw [indents.1, inset, unit]
  decide

/-- A function that returns a closure. -/
def returningClosure : Program where
  entries := [.functionDefinition {
    name := "f"
    parameters := []
    statements := [.returnValue .unknown (some (.closure .unknown []
      [.returnValue .unknown (some (.atom .unknown (.int "1")))]))]
    docblock := none
    location := .unknown }]

def returningClosurePhp : String :=
  "<?php\n\nfunction f()\n\x7b\n  return function () \x7b\n    return 1;\n  \x7d;\n\x7d\n"

theorem indents_beyond_deepest_level :
    oneLevel.layout.unit ≠ "" ∧ (∀ text ∈ returningClosure.texts, Tidy text) ∧
      (returningClosure.toPhp oneLevel).1 = .ok returningClosurePhp ∧
      ¬ oneLevel.layout.IndentsWithin oneLevel.layout.maxDepth returningClosurePhp := by
  refine ⟨by decide, by decide +kernel, by decide +kernel, fun within => ?_⟩
  have twice : oneLevel.layout.Indents 2 "    return 1;" := by
    rw [Layout.Indents]
    decide +kernel
  have bounded := within "    return 1;" (by decide +kernel) 2 twice
  exact absurd bounded (by decide)

end ZephirPhp
