import ZephirPhp.Proofs.Program.Assignments
import ZephirPhp.Proofs.Program.Fields

/-! # Forms that are read back

For each form of expressions and statements, the decoder reads the form back from its node
if it does so for the parts. A form has its own key and its own fields, so a change of a
form concerns the one lemma about it.
-/

namespace ZephirPhp

open Node (Reads ReadsRecord Fits ofFields)

/-! ## Names of forms and operators -/

theorem AssignmentForm.ofName?_name (form : AssignmentForm) :
    ofName? form.name = some form := by
  cases form <;> rfl

theorem AssignmentOperator.ofName?_name (operator : AssignmentOperator) :
    ofName? operator.name = some operator := by
  cases operator <;> rfl

/-- The key of the nodes with an operator. -/
def UnaryOperator.key : UnaryOperator → String
  | .not => "Not"
  | .bitwiseNot => "BitwiseNot"
  | .minus => "Minus"
  | .plus => "Plus"
  | .isset => "Isset"
  | .empty => "Empty"
  | .typeof => "Typeof"
  | .require => "Require"
  | .clone => "Clone"
  | .list => "List"
  | .likely => "Likely"
  | .unlikely => "Unlikely"

/-- The key of the nodes with an operator. -/
def BinaryOperator.key : BinaryOperator → String
  | .add => "Add"
  | .sub => "Sub"
  | .mul => "Mul"
  | .div => "Div"
  | .mod => "Mod"
  | .concat => "Concat"
  | .and => "And"
  | .or => "Or"
  | .bitwiseOr => "BitwiseOr"
  | .bitwiseAnd => "BitwiseAnd"
  | .bitwiseXor => "BitwiseXor"
  | .shiftLeft => "BitwiseShiftleft"
  | .shiftRight => "BitwiseShiftright"
  | .equals => "Equals"
  | .notEquals => "NotEquals"
  | .identical => "Identical"
  | .notIdentical => "NotIdentical"
  | .less => "Less"
  | .greater => "Greater"
  | .lessEqual => "LessEqual"
  | .greaterEqual => "GreaterEqual"
  | .instanceof => "Instanceof"

theorem UnaryOperator.kindKey_kind (operator : UnaryOperator) :
    kindKey operator.kind = operator.key := by
  cases operator <;> rfl

theorem BinaryOperator.kindKey_kind (operator : BinaryOperator) :
    kindKey operator.kind = operator.key := by
  cases operator <;> rfl

theorem UnaryOperator.ofKey?_key (operator : UnaryOperator) :
    ofKey? operator.key = some operator := by
  simp only [ofKey?, kindKey_kind]
  cases operator <;> rfl

theorem UnaryOperator.ofKey?_binary (operator : BinaryOperator) :
    ofKey? operator.key = none := by
  simp only [ofKey?, kindKey_kind]
  cases operator <;> rfl

theorem BinaryOperator.ofKey?_key (operator : BinaryOperator) :
    ofKey? operator.key = some operator := by
  simp only [ofKey?, kindKey_kind]
  cases operator <;> rfl

namespace Decoder

variable {decoder : Decoder} {node : Node}

theorem expressionWith_unary (operator : UnaryOperator) (key : node.key = operator.key) :
    decoder.expressionWith node = decoder.operation node := by
  rw [expressionWith, key]
  cases operator <;> rfl

theorem expressionWith_binary (operator : BinaryOperator)
    (key : node.key = operator.key) :
    decoder.expressionWith node = decoder.operation node := by
  rw [expressionWith, key]
  cases operator <;> rfl

end Decoder

/-! ## Leaves -/

theorem Atom.ofFields_reads (location : Location) (leaf : Atom) :
    (ofFields leaf.kind location leaf.fields).Reads Decoder.expression
      (.atom location leaf) := by
  apply Reads.ofExpression
  intro depth fits
  rw [Decoder.expressionWith, Node.location_ofFields]
  cases leaf with
  | int text =>
      have spelled : kindKey "int" = "Int" := rfl
      rw [Atom.kind, Node.key_ofFields spelled]
      exact Except.bind_ok (Node.scalar_ofFields "value" rfl) rfl
  | double text =>
      have spelled : kindKey "double" = "Double" := rfl
      rw [Atom.kind, Node.key_ofFields spelled]
      exact Except.bind_ok (Node.scalar_ofFields "value" rfl) rfl
  | bool value =>
      have spelled : kindKey "bool" = "Bool" := rfl
      rw [Atom.kind, Node.key_ofFields spelled]
      exact Except.bind_ok (Node.flag_ofFields "value" rfl) rfl
  | null =>
      have spelled : kindKey "null" = "Null" := rfl
      rw [Atom.kind, Node.key_ofFields spelled]
      rfl
  | string content =>
      have spelled : kindKey "string" = "String" := rfl
      rw [Atom.kind, Node.key_ofFields spelled]
      exact Except.bind_ok (Node.scalar_ofFields "value" rfl) rfl
  | interpolated content =>
      have spelled : kindKey "istring" = "Istring" := rfl
      rw [Atom.kind, Node.key_ofFields spelled]
      exact Except.bind_ok (Node.scalar_ofFields "value" rfl) rfl
  | char content =>
      have spelled : kindKey "char" = "Char" := rfl
      rw [Atom.kind, Node.key_ofFields spelled]
      exact Except.bind_ok (Node.scalar_ofFields "value" rfl) rfl
  | emptyArray =>
      have spelled : kindKey "empty-array" = "EmptyArray" := rfl
      rw [Atom.kind, Node.key_ofFields spelled]
      rfl
  | constant name =>
      have spelled : kindKey "constant" = "Constant" := rfl
      rw [Atom.kind, Node.key_ofFields spelled]
      exact Except.bind_ok (Node.scalar_ofFields "value" rfl) rfl
  | «variable» name =>
      have spelled : kindKey "variable" = "Variable" := rfl
      rw [Atom.kind, Node.key_ofFields spelled]
      exact Except.bind_ok (Node.scalar_ofFields "value" rfl) rfl
  | staticProperty className name =>
      have spelled : kindKey "static-property-access" = "StaticPropertyAccess" := rfl
      rw [Atom.kind, Node.key_ofFields spelled]
      apply Except.bind_ok (Node.name_ofFields "left" rfl)
      exact Except.bind_ok (Node.name_ofFields "right" rfl) rfl
  | staticConstant className name =>
      have spelled : kindKey "static-constant-access" = "StaticConstantAccess" := rfl
      rw [Atom.kind, Node.key_ofFields spelled]
      apply Except.bind_ok (Node.name_ofFields "left" rfl)
      exact Except.bind_ok (Node.name_ofFields "right" rfl) rfl
  | newType value =>
      have spelled : kindKey "new-type" = "NewType" := rfl
      rw [Atom.kind, Node.key_ofFields spelled]
      have read : Decoder.emptyValue (ofFields "new-type" location
          [("internal-type", .string value.name)]) = .ok value := by
        apply Except.bind_ok (Node.string_ofFields "internal-type" rfl)
        cases value <;> rfl
      exact Except.bind_ok read rfl

/-! ## Assignments -/

/-- A complete assignment is read from a node that gives each of its parts. -/
theorem Decoder.assignment_ok {decoder : Decoder} {node : Node}
    {assignment : Assignment} (complete : assignment.IsComplete)
    (readForm : node.string "assign-type" = .ok assignment.form.name)
    (readOperator : node.optionalString "operator" =
      .ok (assignment.operator.map (·.name)))
    (present : node.has "expr" = assignment.value.isSome)
    (readValue : decoder.optionalChild node "expr" = .ok assignment.value)
    (readProperty : ∀ name ∈ assignment.property, node.name "property" = .ok name)
    (readIndex : decoder.children node "index-expr" = .ok assignment.index)
    (readTarget : node.name "variable" = .ok assignment.target)
    (readLocation : node.location = assignment.location) :
    decoder.assignment node = .ok assignment := by
  rcases assignment with ⟨form, operator, target, property, index, value, location⟩
  rcases complete with ⟨hasProperty, hasValue, hasIndex⟩
  dsimp only at *
  have agrees : (node.has "expr" != form.takesExpression) = false := by
    rw [present, hasValue, bne_self_eq_false]
  -- The form decides which parts are read; completeness says that these are the ones
  -- there.
  rw [Decoder.assignment, readForm]
  simp only [Except.ok_bind, AssignmentForm.ofName?_name, readOperator, agrees, readValue]
  cases operator <;> cases property <;> cases takes : form.takesIndex <;>
    simp_all [AssignmentOperator.ofName?_name, hasProperty.symm]

theorem Assignment.ofFields_reads {form : AssignmentForm}
    {operator : Option AssignmentOperator} {target : String} {property : Option String}
    {index : List Expr} {value : Option Expr} {location : Location}
    (complete : IsComplete ⟨form, operator, target, property, index, value, location⟩)
    (indexReads : List.Forall₂ (Reads Decoder.expression) (nodesOfExprs index) index)
    (valueReads : ∀ expression ∈ value,
      expression.toNode.Reads Decoder.expression expression) :
    (ofFields "assignment" location [("assign-type", .string form.name),
      ("operator", .ofText (operator.map (·.name))), ("variable", .string target),
      ("property", .ofText property), ("index-expr", .ofNodes (nodesOfExprs index)),
      ("expr", jsonOfOptional value)]).ReadsRecord "assignment" Decoder.assignment
      ⟨form, operator, target, property, index, value, location⟩ := by
  refine ⟨rfl, .ofFields fun depth fits => ?_⟩
  apply Decoder.assignment_ok complete
  · exact Node.string_ofFields "assign-type" rfl
  · exact Node.optionalString_ofFields "operator" rfl
  · cases value with
    | none => exact Node.not_has_ofFields "expr" rfl
    | some value =>
        exact Node.has_ofFields "expr" rfl fun impossible => nomatch impossible
  · exact fits.optionalChild "expr" rfl valueReads
  · rintro name present
    cases present
    exact Node.name_ofFields "property" rfl
  · exact fits.expressions "index-expr" rfl indexReads
  · exact Node.name_ofFields "variable" rfl
  · exact Node.location_ofFields

/-! ## What is read back -/

def Expr.IsRead (expression : Expr) : Prop :=
  expression.toNode.Reads Decoder.expression expression

def Stmt.IsRead (statement : Stmt) : Prop :=
  statement.toNode.Reads Decoder.statement statement

def Expr.AllRead (expressions : List Expr) : Prop :=
  List.Forall₂ (Reads Decoder.expression) (nodesOfExprs expressions) expressions

def Stmt.AllRead (statements : List Stmt) : Prop :=
  List.Forall₂ (Reads Decoder.statement) (nodesOfBlock statements) statements

/-! ## Expressions -/

namespace Expr.IsRead

variable (location : Location)

theorem array {items : List ArrayItem}
    (read : List.Forall₂ (ReadsRecord "array-item" Decoder.arrayItem) (nodesOfItems items)
      items) :
    Expr.IsRead (.array location items) := by
  have spelled : kindKey "array" = "Array" := rfl
  apply Reads.ofExpression
  intro depth fits
  rw [Decoder.expressionWith, Node.key_ofFields spelled, Node.location_ofFields]
  apply Except.bind_ok (Node.records_ofFields "left" rfl (Node.plain_of_readsRecord read))
  exact Except.bind_ok (fits.eachRecord "left" rfl read) rfl

/-! ### Operators -/

theorem unary (operator : UnaryOperator) {operand : Expr}
    (ofOperand : operand.IsRead) : Expr.IsRead (.unary location operator operand) := by
  apply Reads.ofExpression
  intro depth fits
  rw [Decoder.expressionWith_unary operator (Node.key_ofFields operator.kindKey_kind),
    Decoder.operation, Node.key_ofFields operator.kindKey_kind, operator.ofKey?_key,
    Node.location_ofFields]
  exact Except.bind_ok (fits.child "left" rfl ofOperand) rfl

theorem binary (operator : BinaryOperator) {left right : Expr}
    (ofLeft : left.IsRead) (ofRight : right.IsRead) :
    Expr.IsRead (.binary location operator left right) := by
  apply Reads.ofExpression
  intro depth fits
  rw [Decoder.expressionWith_binary operator (Node.key_ofFields operator.kindKey_kind),
    Decoder.operation, Node.key_ofFields operator.kindKey_kind,
    UnaryOperator.ofKey?_binary, operator.ofKey?_key, Node.location_ofFields]
  apply Except.bind_ok (fits.child "left" rfl ofLeft)
  exact Except.bind_ok (fits.child "right" rfl ofRight) rfl

theorem range (inclusive : Bool) {first last : Expr} (ofFirst : first.IsRead)
    (ofLast : last.IsRead) : Expr.IsRead (.range location inclusive first last) := by
  apply Reads.ofExpression
  intro depth fits
  cases inclusive with
  | true =>
      have spelled : kindKey "irange" = "Irange" := rfl
      rw [if_pos rfl, Decoder.expressionWith, Node.key_ofFields spelled,
        Node.location_ofFields]
      apply Except.bind_ok (fits.child "left" rfl ofFirst)
      exact Except.bind_ok (fits.child "right" rfl ofLast) rfl
  | false =>
      have spelled : kindKey "erange" = "Erange" := rfl
      rw [if_neg Bool.false_ne_true, Decoder.expressionWith, Node.key_ofFields spelled,
        Node.location_ofFields]
      apply Except.bind_ok (fits.child "left" rfl ofFirst)
      exact Except.bind_ok (fits.child "right" rfl ofLast) rfl

theorem ternary {condition consequence alternative : Expr}
    (ofCondition : condition.IsRead) (ofConsequence : consequence.IsRead)
    (ofAlternative : alternative.IsRead) :
    Expr.IsRead (.ternary location condition consequence alternative) := by
  have spelled : kindKey "ternary" = "Ternary" := rfl
  apply Reads.ofExpression
  intro depth fits
  rw [Decoder.expressionWith, Node.key_ofFields spelled, Node.location_ofFields]
  apply Except.bind_ok (fits.child "left" rfl ofCondition)
  apply Except.bind_ok (fits.child "right" rfl ofConsequence)
  exact Except.bind_ok (fits.child "extra" rfl ofAlternative) rfl

/-! ### Parts of objects and arrays -/

theorem property {object : Expr} (name : String) (ofObject : object.IsRead) :
    Expr.IsRead (.property location object name) := by
  have spelled : kindKey "property-access" = "PropertyAccess" := rfl
  apply Reads.ofExpression
  intro depth fits
  rw [Decoder.expressionWith, Node.key_ofFields spelled, Node.location_ofFields]
  apply Except.bind_ok (fits.child "left" rfl ofObject)
  exact Except.bind_ok (Node.name_ofFields "right" rfl) rfl

theorem dynamicProperty {object name : Expr} (ofObject : object.IsRead)
    (ofName : name.IsRead) :
    Expr.IsRead (.dynamicProperty location object name) := by
  have spelled : kindKey "property-dynamic-access" = "PropertyDynamicAccess" := rfl
  apply Reads.ofExpression
  intro depth fits
  rw [Decoder.expressionWith, Node.key_ofFields spelled, Node.location_ofFields]
  apply Except.bind_ok (fits.child "left" rfl ofObject)
  exact Except.bind_ok (fits.child "right" rfl ofName) rfl

theorem stringProperty {object : Expr} (name : String) (ofObject : object.IsRead) :
    Expr.IsRead (.stringProperty location object name) := by
  have spelled : kindKey "property-string-access" = "PropertyStringAccess" := rfl
  apply Reads.ofExpression
  intro depth fits
  rw [Decoder.expressionWith, Node.key_ofFields spelled, Node.location_ofFields]
  apply Except.bind_ok (fits.child "left" rfl ofObject)
  exact Except.bind_ok (Node.name_ofFields "right" rfl) rfl

theorem index {array key : Expr} (ofArray : array.IsRead) (ofKey : key.IsRead) :
    Expr.IsRead (.index location array key) := by
  have spelled : kindKey "array-access" = "ArrayAccess" := rfl
  apply Reads.ofExpression
  intro depth fits
  rw [Decoder.expressionWith, Node.key_ofFields spelled, Node.location_ofFields]
  apply Except.bind_ok (fits.child "left" rfl ofArray)
  exact Except.bind_ok (fits.child "right" rfl ofKey) rfl

/-! ### Calls -/

theorem methodCall {receiver : Expr} (method : String) {arguments : List Expr}
    (ofReceiver : receiver.IsRead) (ofArguments : Expr.AllRead arguments) :
    Expr.IsRead (.methodCall location receiver method arguments) := by
  have spelled : kindKey "mcall" = "Mcall" := rfl
  apply Reads.ofExpression
  intro depth fits
  rw [Decoder.expressionWith, Node.key_ofFields spelled, Node.location_ofFields]
  apply Except.bind_ok (fits.child "variable" rfl ofReceiver)
  apply Except.bind_ok (Node.string_ofFields "name" rfl)
  exact Except.bind_ok (fits.arguments rfl ofArguments) rfl

theorem functionCall (function : String) {arguments : List Expr}
    (ofArguments : Expr.AllRead arguments) :
    Expr.IsRead (.functionCall location function arguments) := by
  have spelled : kindKey "fcall" = "Fcall" := rfl
  apply Reads.ofExpression
  intro depth fits
  rw [Decoder.expressionWith, Node.key_ofFields spelled, Node.location_ofFields]
  apply Except.bind_ok (Node.string_ofFields "name" rfl)
  exact Except.bind_ok (fits.arguments rfl ofArguments) rfl

theorem staticCall (className method : String) {arguments : List Expr}
    (ofArguments : Expr.AllRead arguments) :
    Expr.IsRead (.staticCall location className method arguments) := by
  have spelled : kindKey "scall" = "Scall" := rfl
  apply Reads.ofExpression
  intro depth fits
  rw [Decoder.expressionWith, Node.key_ofFields spelled, Node.location_ofFields]
  apply Except.bind_ok (Node.name_ofFields "class" rfl)
  apply Except.bind_ok (Node.string_ofFields "name" rfl)
  exact Except.bind_ok (fits.arguments rfl ofArguments) rfl

theorem new (className : String) (dynamic : Bool) {arguments : List Expr}
    (ofArguments : Expr.AllRead arguments) :
    Expr.IsRead (.new location className dynamic arguments) := by
  have spelled : kindKey "new" = "New" := rfl
  apply Reads.ofExpression
  intro depth fits
  rw [Decoder.expressionWith, Node.key_ofFields spelled, Node.location_ofFields]
  apply Except.bind_ok (Node.name_ofFields "class" rfl)
  apply Except.bind_ok (Node.flag_ofFields "dynamic" rfl)
  exact Except.bind_ok (fits.arguments rfl ofArguments) rfl

/-! ### Types -/

theorem cast (type : String) {operand : Expr} (ofOperand : operand.IsRead) :
    Expr.IsRead (.cast location type operand) := by
  have spelled : kindKey "cast" = "Cast" := rfl
  apply Reads.ofExpression
  intro depth fits
  rw [Decoder.expressionWith, Node.key_ofFields spelled, Node.location_ofFields]
  apply Except.bind_ok (Node.name_ofFields "left" rfl)
  exact Except.bind_ok (fits.child "right" rfl ofOperand) rfl

theorem typeHint (type : String) {operand : Expr} (ofOperand : operand.IsRead) :
    Expr.IsRead (.typeHint location type operand) := by
  have spelled : kindKey "type-hint" = "TypeHint" := rfl
  apply Reads.ofExpression
  intro depth fits
  rw [Decoder.expressionWith, Node.key_ofFields spelled, Node.location_ofFields]
  apply Except.bind_ok (Node.name_ofFields "left" rfl)
  exact Except.bind_ok (fits.child "right" rfl ofOperand) rfl

/-! ### Closures and fetches -/

theorem closure {parameters : List Parameter} {body : List Stmt}
    (ofParameters : List.Forall₂ (ReadsRecord "parameter" Decoder.parameter)
      (nodesOfParameters parameters) parameters)
    (ofBody : Stmt.AllRead body) : Expr.IsRead (.closure location parameters body) := by
  have spelled : kindKey "closure" = "Closure" := rfl
  apply Reads.ofExpression
  intro depth fits
  rw [Decoder.expressionWith, Node.key_ofFields spelled]
  have byRole : (ofFields "closure" location
      [("parameters", .ofRecords (nodesOfParameters parameters)),
        ("statements", .ofNodes (nodesOfBlock body))]).has "parameters" = true :=
    Node.has_ofFields "parameters" rfl fun impossible => nomatch impossible
  rw [Decoder.closure, byRole, Node.location_ofFields]
  apply Except.bind_ok (fits.parameters "parameters" rfl ofParameters)
  exact Except.bind_ok (fits.block "statements" rfl ofBody) rfl

theorem arrow (parameter : String) {body : Expr} (ofBody : body.IsRead) :
    Expr.IsRead (.arrow location parameter body) := by
  have spelled : kindKey "closure-arrow" = "ClosureArrow" := rfl
  apply Reads.ofExpression
  intro depth fits
  rw [Decoder.expressionWith, Node.key_ofFields spelled, Node.location_ofFields]
  apply Except.bind_ok (Node.name_ofFields "left" rfl)
  exact Except.bind_ok (fits.child "right" rfl ofBody) rfl

theorem fetch (target : String) {source : Expr} (ofSource : source.IsRead) :
    Expr.IsRead (.fetch location target source) := by
  have spelled : kindKey "fetch" = "Fetch" := rfl
  apply Reads.ofExpression
  intro depth fits
  rw [Decoder.expressionWith, Node.key_ofFields spelled, Node.location_ofFields]
  apply Except.bind_ok (Node.name_ofFields "left" rfl)
  exact Except.bind_ok (fits.child "right" rfl ofSource) rfl

end Expr.IsRead

/-! ## Statements -/

namespace Stmt.IsRead

variable (location : Location)

theorem assign {assignments : List Assignment}
    (read : List.Forall₂ (ReadsRecord "assignment" Decoder.assignment)
      (nodesOfAssignments assignments) assignments) :
    Stmt.IsRead (.assign location assignments) := by
  have spelled : kindKey "let" = "Let" := rfl
  apply Reads.ofStatement
  intro depth fits
  rw [Decoder.statementWith, Node.key_ofFields spelled, Node.location_ofFields]
  apply Except.bind_ok
    (Node.records_ofFields "assignments" rfl (Node.plain_of_readsRecord read))
  exact Except.bind_ok (fits.eachRecord "assignments" rfl read) rfl

theorem declare {declarations : List Declaration}
    (read : List.Forall₂ (ReadsRecord "declaration" Decoder.declaration)
      (nodesOfDeclarations declarations) declarations) :
    Stmt.IsRead (.declare location declarations) := by
  have spelled : kindKey "declare" = "Declare" := rfl
  apply Reads.ofStatement
  intro depth fits
  rw [Decoder.statementWith, Node.key_ofFields spelled, Node.location_ofFields]
  apply Except.bind_ok
    (Node.records_ofFields "variables" rfl (Node.plain_of_readsRecord read))
  exact Except.bind_ok (fits.eachRecord "variables" rfl read) rfl

theorem expression {expression : Expr} (ofExpression : expression.IsRead) :
    Stmt.IsRead (.expression location expression) := by
  have spelled : kindKey "mcall" = "Mcall" := rfl
  apply Reads.ofStatement
  intro depth fits
  rw [Decoder.statementWith, Node.key_ofFields spelled, Node.location_ofFields]
  exact Except.bind_ok (fits.child "expr" rfl ofExpression) rfl

/-! ### Branches -/

theorem cond {condition : Expr} {body : List Stmt} {alternatives : List Branch}
    {otherwise : Option (List Stmt)} (ofCondition : condition.IsRead)
    (ofBody : Stmt.AllRead body)
    (read : List.Forall₂ (ReadsRecord "elseif" Decoder.branch)
      (nodesOfBranches alternatives) alternatives)
    (ofOtherwise : ∀ block ∈ otherwise, Stmt.AllRead block) :
    Stmt.IsRead (.cond location condition body alternatives otherwise) := by
  have spelled : kindKey "if" = "If" := rfl
  apply Reads.ofStatement
  intro depth fits
  rw [Decoder.statementWith, Node.key_ofFields spelled, Node.location_ofFields]
  apply Except.bind_ok (fits.child "expr" rfl ofCondition)
  apply Except.bind_ok (fits.block "statements" rfl ofBody)
  apply Except.bind_ok
    (Node.records_ofFields "elseif_statements" rfl (Node.plain_of_readsRecord read))
  apply Except.bind_ok (fits.eachRecord "elseif_statements" rfl read)
  exact Except.bind_ok (fits.optionalBlock "else_statements" rfl ofOtherwise) rfl

theorem switch {subject : Expr} {clauses : List Clause}
    (ofSubject : subject.IsRead)
    (read : List.Forall₂ (Reads Decoder.clause) (nodesOfClauses clauses) clauses) :
    Stmt.IsRead (.switch location subject clauses) := by
  have spelled : kindKey "switch" = "Switch" := rfl
  apply Reads.ofStatement
  intro depth fits
  rw [Decoder.statementWith, Node.key_ofFields spelled, Node.location_ofFields]
  apply Except.bind_ok (fits.child "expr" rfl ofSubject)
  apply Except.bind_ok (Node.children_ofFields "clauses" rfl (Node.plain_of_reads read))
  exact Except.bind_ok (fits.eachNode "clauses" rfl read) rfl

theorem tryCatch {body : List Stmt} {handlers : List Handler}
    (ofBody : Stmt.AllRead body)
    (read : List.Forall₂ (ReadsRecord "catch" Decoder.handler) (nodesOfHandlers handlers)
      handlers) :
    Stmt.IsRead (.tryCatch location body handlers) := by
  have spelled : kindKey "try-catch" = "TryCatch" := rfl
  apply Reads.ofStatement
  intro depth fits
  rw [Decoder.statementWith, Node.key_ofFields spelled, Node.location_ofFields]
  apply Except.bind_ok (fits.block "statements" rfl ofBody)
  apply Except.bind_ok
    (Node.records_ofFields "catches" rfl (Node.plain_of_readsRecord read))
  exact Except.bind_ok (fits.eachRecord "catches" rfl read) rfl

/-! ### Loops -/

theorem loop {body : List Stmt} (ofBody : Stmt.AllRead body) :
    Stmt.IsRead (.loop location body) := by
  have spelled : kindKey "loop" = "Loop" := rfl
  apply Reads.ofStatement
  intro depth fits
  rw [Decoder.statementWith, Node.key_ofFields spelled, Node.location_ofFields]
  exact Except.bind_ok (fits.block "statements" rfl ofBody) rfl

theorem whileLoop {condition : Expr} {body : List Stmt}
    (ofCondition : condition.IsRead) (ofBody : Stmt.AllRead body) :
    Stmt.IsRead (.whileLoop location condition body) := by
  have spelled : kindKey "while" = "While" := rfl
  apply Reads.ofStatement
  intro depth fits
  rw [Decoder.statementWith, Node.key_ofFields spelled, Node.location_ofFields]
  apply Except.bind_ok (fits.child "expr" rfl ofCondition)
  exact Except.bind_ok (fits.block "statements" rfl ofBody) rfl

theorem doWhile {body : List Stmt} {condition : Expr} (ofBody : Stmt.AllRead body)
    (ofCondition : condition.IsRead) :
    Stmt.IsRead (.doWhile location body condition) := by
  have spelled : kindKey "do-while" = "DoWhile" := rfl
  apply Reads.ofStatement
  intro depth fits
  rw [Decoder.statementWith, Node.key_ofFields spelled, Node.location_ofFields]
  apply Except.bind_ok (fits.block "statements" rfl ofBody)
  exact Except.bind_ok (fits.child "expr" rfl ofCondition) rfl

theorem forEach (key value : Option String) (reverse : Bool) {source : Expr}
    {body : List Stmt} (ofSource : source.IsRead) (ofBody : Stmt.AllRead body) :
    Stmt.IsRead (.forEach location key value reverse source body) := by
  have spelled : kindKey "for" = "For" := rfl
  apply Reads.ofStatement
  intro depth fits
  rw [Decoder.statementWith, Node.key_ofFields spelled, Node.location_ofFields]
  apply Except.bind_ok (Node.optionalString_ofFields "key" rfl)
  apply Except.bind_ok (Node.optionalString_ofFields "value" rfl)
  apply Except.bind_ok (Node.flag_ofFields "reverse" rfl)
  apply Except.bind_ok (fits.child "expr" rfl ofSource)
  exact Except.bind_ok (fits.block "statements" rfl ofBody) rfl

theorem continueLoop : Stmt.IsRead (.continueLoop location) := by
  have spelled : kindKey "continue" = "Continue" := rfl
  apply Reads.ofStatement
  intro depth fits
  rw [Decoder.statementWith, Node.key_ofFields spelled, Node.location_ofFields]
  rfl

theorem breakLoop : Stmt.IsRead (.breakLoop location) := by
  have spelled : kindKey "break" = "Break" := rfl
  apply Reads.ofStatement
  intro depth fits
  rw [Decoder.statementWith, Node.key_ofFields spelled, Node.location_ofFields]
  rfl

/-! ### Values -/

theorem returnValue {value : Option Expr}
    (ofValue : ∀ expression ∈ value, expression.IsRead) :
    Stmt.IsRead (.returnValue location value) := by
  have spelled : kindKey "return" = "Return" := rfl
  apply Reads.ofStatement
  intro depth fits
  rw [Decoder.statementWith, Node.key_ofFields spelled, Node.location_ofFields]
  exact Except.bind_ok (fits.optionalChild "expr" rfl ofValue) rfl

theorem throwValue {value : Expr} (ofValue : value.IsRead) :
    Stmt.IsRead (.throwValue location value) := by
  have spelled : kindKey "throw" = "Throw" := rfl
  apply Reads.ofStatement
  intro depth fits
  rw [Decoder.statementWith, Node.key_ofFields spelled, Node.location_ofFields]
  exact Except.bind_ok (fits.child "expr" rfl ofValue) rfl

theorem unset {target : Expr} (ofTarget : target.IsRead) :
    Stmt.IsRead (.unset location target) := by
  have spelled : kindKey "unset" = "Unset" := rfl
  apply Reads.ofStatement
  intro depth fits
  rw [Decoder.statementWith, Node.key_ofFields spelled, Node.location_ofFields]
  exact Except.bind_ok (fits.child "expr" rfl ofTarget) rfl

theorem echo {values : List Expr} (ofValues : Expr.AllRead values) :
    Stmt.IsRead (.echo location values) := by
  have spelled : kindKey "echo" = "Echo" := rfl
  apply Reads.ofStatement
  intro depth fits
  rw [Decoder.statementWith, Node.key_ofFields spelled, Node.location_ofFields]
  exact Except.bind_ok (fits.expressions "expressions" rfl ofValues) rfl

theorem require {file : Expr} (ofFile : file.IsRead) :
    Stmt.IsRead (.require location file) := by
  have spelled : kindKey "require" = "Require" := rfl
  apply Reads.ofStatement
  intro depth fits
  rw [Decoder.statementWith, Node.key_ofFields spelled, Node.location_ofFields]
  exact Except.bind_ok (fits.child "expr" rfl ofFile) rfl

/-! ### Leaves -/

theorem comment (text : String) : Stmt.IsRead (.comment location text) := by
  have spelled : kindKey "comment" = "Comment" := rfl
  apply Reads.ofStatement
  intro depth fits
  rw [Decoder.statementWith, Node.key_ofFields spelled, Node.location_ofFields]
  exact Except.bind_ok (Node.scalar_ofFields "value" rfl) rfl

theorem empty : Stmt.IsRead (.empty location) := by
  have spelled : kindKey "empty" = "Empty" := rfl
  apply Reads.ofStatement
  intro depth fits
  rw [Decoder.statementWith, Node.key_ofFields spelled, Node.location_ofFields]
  rfl

end Stmt.IsRead

end ZephirPhp
