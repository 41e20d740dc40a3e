import Mathlib.Data.List.Permutation
import Mathlib.Data.Option.Basic
import Mathlib.Logic.Relation
import ZephirPhp.Proofs.Program.Constructs
import ZephirPhp.Proofs.Program.Decoded
import ZephirPhp.Proofs.Program.NodeDepth
import ZephirPhp.Proofs.Program.Processing
import ZephirPhp.Proofs.Program.Settled

/-! # How deep programs are

A chain is a sequence of expressions and statements, each directly inside the one before.
Whenever a decoder goes one construct down it goes at least one node down, however deep it
could read, so no chain of a program is longer than its nodes are nested. Phases keep to
this bound: an accessor is less deep than the class that asks for it. The reader of texts
bounds the nesting of nodes in turn.
-/

namespace ZephirPhp

/-! ## Chains -/

namespace Construct

/-- No chain that begins with the construct is longer than `depth`. -/
def Within : Nat → Construct → Prop
  | 0, _ => False
  | depth + 1, construct => ∀ part ∈ construct.parts, part.Within depth

theorem Within.mono {small large : Nat} {construct : Construct}
    (within : construct.Within small) (le : small ≤ large) : construct.Within large := by
  induction large generalizing small construct with
  | zero =>
      rw [Nat.le_zero.mp le] at within
      exact within
  | succ large induction =>
      cases small with
      | zero => exact within.elim
      | succ small =>
          intro part member
          exact induction (within part member) (Nat.le_of_succ_le_succ le)

theorem Within.inside {depth : Nat} {outer inner : Construct}
    (within : outer.Within depth) (holds : Relation.ReflTransGen Holds outer inner) :
    inner.Within depth := by
  induction holds with
  | refl => exact within
  | tail _ last induction =>
      cases depth with
      | zero => exact induction.elim
      | succ depth => exact (induction _ last).mono (Nat.le_succ depth)

theorem Within.length_le {depth : Nat} {construct : Construct} {chain : List Construct}
    (within : construct.Within depth) (nested : (construct :: chain).IsChain Holds) :
    (construct :: chain).length ≤ depth := by
  induction chain generalizing construct depth with
  | nil =>
      cases depth with
      | zero => exact within.elim
      | succ depth => exact Nat.le_add_left 1 depth
  | cons next rest induction =>
      cases depth with
      | zero => exact within.elim
      | succ depth =>
          rw [List.isChain_cons_cons] at nested
          exact Nat.succ_le_succ (induction (within next nested.1) nested.2)

end Construct

/-- No chain in any of the constructs is longer than `depth`. -/
def AllWithin (depth : Nat) (constructs : List Construct) : Prop :=
  ∀ construct ∈ constructs, construct.Within depth

namespace AllWithin

variable {depth : Nat} {constructs others : List Construct}

@[simp] theorem nil : AllWithin depth [] :=
  List.forall_mem_nil _

@[simp] theorem cons_iff {construct : Construct} :
    AllWithin depth (construct :: constructs) ↔
      construct.Within depth ∧ AllWithin depth constructs :=
  List.forall_mem_cons

@[simp] theorem append_iff :
    AllWithin depth (constructs ++ others) ↔
      AllWithin depth constructs ∧ AllWithin depth others :=
  List.forall_mem_append

@[simp] theorem map_iff {α : Type} {build : α → Construct} {values : List α} :
    AllWithin depth (values.map build) ↔ ∀ value ∈ values, (build value).Within depth :=
  List.forall_mem_map

@[simp] theorem flatMap_iff {α : Type} {parts : α → List Construct} {values : List α} :
    AllWithin depth (values.flatMap parts) ↔
    ∀ value ∈ values, AllWithin depth (parts value) := by
  simp only [AllWithin, List.mem_flatMap]
  constructor
  · intro within value member construct inside
    exact within construct ⟨value, member, inside⟩
  · rintro within construct ⟨value, member, inside⟩
    exact within value member construct inside

theorem mono {large : Nat} (within : AllWithin depth constructs) (le : depth ≤ large) :
    AllWithin large constructs :=
  fun construct member => (within construct member).mono le

end AllWithin

/-! ## Chains of programs -/

def Property.parts (property : Property) : List Construct :=
  property.default.toList.map .expr

def Method.parts (method : Method) : List Construct :=
  method.parameters.flatMap Parameter.parts ++ (method.statements.getD []).map .stmt

/-- The outermost expressions and statements. -/
def Entry.constructs : Entry → List Construct
  | .comment _ _ => []
  | .namespaceName _ _ => []
  | .imports _ _ => []
  | .classDefinition definition =>
    definition.constants.map (fun constant => .expr constant.value) ++
      definition.properties.flatMap Property.parts ++
        definition.methods.flatMap Method.parts
  | .interfaceDefinition definition =>
    definition.constants.map (fun constant => .expr constant.value) ++
      definition.methods.flatMap Method.parts
  | .functionDefinition definition =>
    definition.parameters.flatMap Parameter.parts ++ definition.statements.map .stmt
  | .statement outer => [.stmt outer]

namespace Program

/-- The construct stands in the program, at the outside or inside another one. -/
def Contains (program : Program) (construct : Construct) : Prop :=
  ∃ outer ∈ program.entries.flatMap Entry.constructs,
    Relation.ReflTransGen Construct.Holds outer construct

/-- No chain of the program is longer than `depth`. -/
def NestsWithin (depth : Nat) (program : Program) : Prop :=
  ∀ chain : List Construct, chain.IsChain Construct.Holds →
    (∀ construct ∈ chain, program.Contains construct) → chain.length ≤ depth

theorem nestsWithin_of_allWithin {depth : Nat} {program : Program}
    (within : ∀ entry ∈ program.entries, AllWithin depth entry.constructs) :
    program.NestsWithin depth := by
  intro chain nested contained
  cases chain with
  | nil => exact Nat.zero_le depth
  | cons construct rest =>
      rcases contained construct List.mem_cons_self with ⟨outer, member, holds⟩
      rw [← AllWithin.flatMap_iff] at within
      exact ((within outer member).inside holds).length_le nested

end Program

/-! ## Decoding -/

/-- A decoder whose constructs are no deeper than the nodes they are read from. -/
structure Decoder.Shallow (decoder : Decoder) : Prop where
  expression : ∀ {node : Node} {depth : Nat}, node.nesting ≤ depth →
    Except.Ensures (fun expression => (Construct.expr expression).Within depth)
      (decoder.expression node)
  statement : ∀ {node : Node} {depth : Nat}, node.nesting ≤ depth →
    Except.Ensures (fun statement => (Construct.stmt statement).Within depth)
      (decoder.statement node)

namespace Decoder.Shallow

variable {decoder : Decoder} (shallow : decoder.Shallow) {node : Node} {depth : Nat}
  (fits : node.nesting ≤ depth + 1)
include shallow fits

/-! ### Parts of a node -/

theorem child (name : String) :
    Except.Ensures (fun expression => (Construct.expr expression).Within depth)
      (decoder.child node name) := by
  refine .bind (node.child_encloses name) fun part below => ?_
  exact shallow.expression (by omega)

theorem optionalChild (name : String) :
    Except.Ensures (fun found => AllWithin depth (found.toList.map .expr))
      (decoder.optionalChild node name) := by
  refine .bind (node.optionalChild_encloses name) fun found below => ?_
  cases found with
  | none => exact .ok .nil
  | some part =>
      have deep : part.nesting ≤ depth := by
        have below : part.nesting < node.nesting := below part (by simp)
        omega
      refine .bind (shallow.expression deep) fun expression within => .ok ?_
      simpa using within

theorem children (name : String) :
    Except.Ensures (fun expressions => AllWithin depth (expressions.map .expr))
      (decoder.children node name) := by
  simp only [AllWithin.map_iff]
  refine .bind (node.children_encloses name) fun parts below => ?_
  refine .mapM fun part member => shallow.expression ?_
  have below := below part member
  omega

theorem block (name : String) :
    Except.Ensures (fun statements => AllWithin depth (statements.map .stmt))
      (decoder.block node name) := by
  simp only [AllWithin.map_iff]
  refine .bind (node.children_encloses name) fun parts below => ?_
  refine .mapM fun part member => shallow.statement ?_
  have below := below part member
  omega

theorem optionalBlock (name : String) :
    Except.Ensures (fun found => AllWithin depth ((found.getD []).map .stmt))
      (decoder.optionalBlock node name) := by
  rw [Decoder.optionalBlock]
  split
  · exact .bind (shallow.block fits name) fun statements within => .ok within
  · exact .ok .nil

omit shallow in
/-- Something read from each record of a node. The records are less deep than the node. -/
theorem records {α : Type} {parts : α → List Construct} {read : Node → Reading α}
    (each : ∀ {record : Node}, record.nesting ≤ depth + 1 →
      Except.Ensures (fun value => AllWithin depth (parts value)) (read record))
    (name kind : String) :
    Except.Ensures (fun values => AllWithin depth (values.flatMap parts))
      (node.records name kind >>= fun records => records.mapM read) := by
  simp only [AllWithin.flatMap_iff]
  refine .bind (node.records_encloses name kind) fun records below => ?_
  refine .mapM fun record member => each ?_
  have below := below record member
  omega

theorem arguments :
    Except.Ensures (fun expressions => AllWithin depth (expressions.map .expr))
      (decoder.arguments node) := by
  simp only [AllWithin.map_iff]
  refine .bind (node.records_encloses "parameters" "argument") fun records below => ?_
  refine .mapM fun record member => shallow.child ?_ "parameter"
  have below := below record member
  omega

theorem parameter :
    Except.Ensures (fun parameter => AllWithin depth parameter.parts)
      (decoder.parameter node) := by
  refine .after fun name => ?_
  refine .bind (shallow.optionalChild fits "default") fun default within => ?_
  exact .after fun byReference => .ok within

theorem parameters (name : String) :
    Except.Ensures
      (fun parameters => AllWithin depth (parameters.flatMap Parameter.parts))
      (decoder.parameters node name) :=
  records fits shallow.parameter name "parameter"

theorem arrayItem :
    Except.Ensures (fun item => AllWithin depth item.parts) (decoder.arrayItem node) := by
  refine .bind (shallow.optionalChild fits "key") fun key keyWithin => ?_
  refine .bind (shallow.child fits "value") fun value valueWithin => .ok ?_
  rw [ArrayItem.parts, AllWithin.append_iff, AllWithin.cons_iff]
  exact ⟨keyWithin, valueWithin, .nil⟩

/-! ### Expressions -/

/-- An expression with one part. -/
theorem single (name : String) {build : Expr → Expr}
    (parts : ∀ part, (build part).parts = [.expr part]) :
    Except.Ensures (fun expression => AllWithin depth expression.parts)
      (do return build (← decoder.child node name)) := by
  refine .bind (shallow.child fits name) fun part within => .ok ?_
  rw [parts, AllWithin.cons_iff]
  exact ⟨within, .nil⟩

/-- An expression with two parts. -/
theorem pair (first second : String) {build : Expr → Expr → Expr}
    (parts : ∀ left right, (build left right).parts = [.expr left, .expr right]) :
    Except.Ensures (fun expression => AllWithin depth expression.parts)
      (do return build (← decoder.child node first) (← decoder.child node second)) := by
  refine .bind (shallow.child fits first) fun left leftWithin => ?_
  refine .bind (shallow.child fits second) fun right rightWithin => .ok ?_
  rw [parts, AllWithin.cons_iff, AllWithin.cons_iff]
  exact ⟨leftWithin, rightWithin, .nil⟩

theorem closure :
    Except.Ensures (fun expression => AllWithin depth expression.parts)
      (decoder.closure node) := by
  refine .bind (shallow.parameters fits _) fun parameters parametersWithin => ?_
  refine .bind (shallow.block fits _) fun body bodyWithin => .ok ?_
  rw [Expr.parts, AllWithin.append_iff]
  exact ⟨parametersWithin, bodyWithin⟩

theorem operation :
    Except.Ensures (fun expression => AllWithin depth expression.parts)
      (decoder.operation node) := by
  rw [Decoder.operation]
  split
  · exact shallow.single fits "left" fun operand => rfl
  · split
    · exact shallow.pair fits "left" "right" fun left right => rfl
    · exact .error _

theorem ternary (location : Location) :
    Except.Ensures (fun expression => AllWithin depth expression.parts)
      (do
        let condition ← decoder.child node "left"
        let consequence ← decoder.child node "right"
        let alternative ← decoder.child node "extra"
        return .ternary location condition consequence alternative : Reading Expr) := by
  refine .bind (shallow.child fits "left") fun condition conditionWithin => ?_
  refine .bind (shallow.child fits "right") fun consequence consequenceWithin => ?_
  refine .bind (shallow.child fits "extra") fun alternative alternativeWithin => .ok ?_
  rw [Expr.parts, AllWithin.cons_iff, AllWithin.cons_iff, AllWithin.cons_iff]
  exact ⟨conditionWithin, consequenceWithin, alternativeWithin, .nil⟩

theorem methodCall (location : Location) :
    Except.Ensures (fun expression => AllWithin depth expression.parts)
      (do
        let receiver ← decoder.child node "variable"
        let method ← node.string "name"
        return .methodCall location receiver method (← decoder.arguments node) :
        Reading Expr) := by
  refine .bind (shallow.child fits "variable") fun receiver receiverWithin => ?_
  refine .after fun method => ?_
  refine .bind (shallow.arguments fits) fun arguments argumentsWithin => .ok ?_
  rw [Expr.parts, AllWithin.cons_iff]
  exact ⟨receiverWithin, argumentsWithin⟩

theorem expressionWith :
    Except.Ensures (fun expression => (Construct.expr expression).Within (depth + 1))
      (decoder.expressionWith node) := by
  change Except.Ensures (fun expression : Expr => AllWithin depth expression.parts) _
  rw [Decoder.expressionWith]
  split
  iterate 6 exact .after fun part => .ok .nil
  · exact .ok .nil
  iterate 3 exact .after fun part => .ok .nil
  · rw [← bind_assoc]
    exact .bind (records fits shallow.arrayItem "left" "array-item")
      fun items within => .ok within
  · exact .ok .nil
  iterate 2 exact .after fun part => .ok .nil
  iterate 2 exact shallow.pair fits "left" "right" fun left right => rfl
  · refine .bind (shallow.child fits "left") fun object within =>
      .after fun name => .ok ?_
    exact AllWithin.cons_iff.mpr ⟨within, .nil⟩
  · exact shallow.pair fits "left" "right" fun object name => rfl
  · refine .bind (shallow.child fits "left") fun object within =>
      .after fun name => .ok ?_
    exact AllWithin.cons_iff.mpr ⟨within, .nil⟩
  iterate 2 exact .after fun className => .after fun name => .ok .nil
  · exact shallow.pair fits "left" "right" fun array index => rfl
  · exact shallow.methodCall fits node.location
  · refine .after fun function => ?_
    exact .bind (shallow.arguments fits) fun arguments within => .ok within
  iterate 2
    refine .after fun className => .after fun detail => ?_
    exact .bind (shallow.arguments fits) fun arguments within => .ok within
  · exact .after fun value => .ok .nil
  iterate 2 exact .after fun type => shallow.single fits "right" fun operand => rfl
  · exact shallow.ternary fits node.location
  · exact shallow.closure fits
  iterate 2 exact .after fun name => shallow.single fits "right" fun body => rfl
  · exact shallow.operation fits

/-! ### Statements -/

/-- The end of an assignment, once its value is read. -/
theorem assignmentEnd (form : AssignmentForm) (operator : Option AssignmentOperator)
    (value : Option Expr) (property : Option String)
    (valueWithin : AllWithin depth (value.toList.map .expr)) :
    Except.Ensures (fun assignment => AllWithin depth assignment.parts)
      (do
        let index ← if form.takesIndex then decoder.children node "index-expr"
          else pure []
        return { form, operator, target := ← node.name "variable", property, index, value,
                 location := node.location } : Reading Assignment) := by
  have parts (index : List Expr) (target : String)
      (within : AllWithin depth (index.map .expr)) :
      AllWithin depth (Assignment.parts
        ⟨form, operator, target, property, index, value, node.location⟩) := by
    rw [Assignment.parts, AllWithin.append_iff]
    exact ⟨within, valueWithin⟩
  dsimp only
  split
  · refine .bind (shallow.children fits "index-expr") fun index within => ?_
    exact .after fun target => .ok (parts index target within)
  · rw [pure_bind]
    exact .after fun target => .ok (parts [] target .nil)

/-- The parts of an assignment whose form and operator are read. -/
theorem assignmentParts (form : AssignmentForm) (operator : Option AssignmentOperator) :
    Except.Ensures (fun assignment => AllWithin depth assignment.parts)
      (do
        if node.has "expr" != form.takesExpression then
          throw (.malformedNode form.name "expr" node.location)
        let value ← decoder.optionalChild node "expr"
        let property ← if form.takesProperty then some <$> node.name "property"
          else pure none
        let index ← if form.takesIndex then decoder.children node "index-expr"
          else pure []
        return { form, operator, target := ← node.name "variable", property, index, value,
                 location := node.location } : Reading Assignment) := by
  dsimp only
  split
  · exact .error _
  · refine .bind (shallow.optionalChild fits "expr") fun value within => ?_
    split
    · exact .after fun property =>
        shallow.assignmentEnd fits form operator value property within
    · rw [pure_bind]
      exact shallow.assignmentEnd fits form operator value none within

theorem assignment :
    Except.Ensures (fun assignment => AllWithin depth assignment.parts)
      (decoder.assignment node) := by
  refine .after fun variant => ?_
  split
  · rename_i form _
    refine .after fun name => ?_
    dsimp only
    split
    · rw [pure_bind]
      exact shallow.assignmentParts fits form none
    · split
      · rename_i operator _
        rw [pure_bind]
        exact shallow.assignmentParts fits form (some operator)
      · exact .error _
  · exact .error _

theorem declaration :
    Except.Ensures (fun declaration => AllWithin depth declaration.parts)
      (decoder.declaration node) := by
  refine .after fun name => ?_
  exact .bind (shallow.optionalChild fits "expr") fun value within => .ok within

theorem branch :
    Except.Ensures (fun branch => AllWithin depth branch.parts)
      (decoder.branch node) := by
  refine .bind (shallow.child fits "expr") fun condition conditionWithin => ?_
  refine .bind (shallow.block fits "statements") fun body bodyWithin => .ok ?_
  rw [Branch.parts, AllWithin.cons_iff]
  exact ⟨conditionWithin, bodyWithin⟩

theorem clause :
    Except.Ensures (fun clause => AllWithin depth clause.parts)
      (decoder.clause node) := by
  rw [Decoder.clause]
  split
  · refine .bind (shallow.child fits "expr") fun test testWithin => ?_
    refine .bind (shallow.block fits "statements") fun body bodyWithin => .ok ?_
    rw [Clause.parts, AllWithin.cons_iff]
    exact ⟨testWithin, bodyWithin⟩
  · exact .bind (shallow.block fits "statements") fun body within => .ok within
  · exact .error _

theorem handler :
    Except.Ensures (fun handler => AllWithin depth handler.parts)
      (decoder.handler node) := by
  refine .after fun classes => .after fun caught => ?_
  exact .bind (shallow.block fits "statements") fun body within => .ok within

/-- A statement with one expression. -/
theorem plain {build : Expr → Stmt} (parts : ∀ part, (build part).parts = [.expr part]) :
    Except.Ensures (fun statement => AllWithin depth statement.parts)
      (do return build (← decoder.child node "expr")) := by
  refine .bind (shallow.child fits "expr") fun part within => .ok ?_
  rw [parts, AllWithin.cons_iff]
  exact ⟨within, .nil⟩

/-- A statement with an expression and a block. -/
theorem headed {build : Expr → List Stmt → Stmt}
    (parts : ∀ head body, (build head body).parts = .expr head :: body.map .stmt) :
    Except.Ensures (fun statement => AllWithin depth statement.parts)
      (do
        return build (← decoder.child node "expr")
          (← decoder.block node "statements")) := by
  refine .bind (shallow.child fits "expr") fun head headWithin => ?_
  refine .bind (shallow.block fits "statements") fun body bodyWithin => .ok ?_
  rw [parts, AllWithin.cons_iff]
  exact ⟨headWithin, bodyWithin⟩

theorem condition (location : Location) :
    Except.Ensures (fun statement => AllWithin depth statement.parts)
      (do
        let condition ← decoder.child node "expr"
        let body ← decoder.block node "statements"
        let alternatives ← (← node.records "elseif_statements" "elseif").mapM
          decoder.branch
        let otherwise ← decoder.optionalBlock node "else_statements"
        return .cond location condition body alternatives otherwise : Reading Stmt) := by
  refine .bind (shallow.child fits "expr") fun condition conditionWithin => ?_
  refine .bind (shallow.block fits "statements") fun body bodyWithin => ?_
  rw [← bind_assoc]
  refine .bind (records fits shallow.branch "elseif_statements" "elseif")
    fun branches branchesWithin => ?_
  refine .bind (shallow.optionalBlock fits "else_statements")
    fun otherwise within => .ok ?_
  rw [Stmt.parts, AllWithin.cons_iff, AllWithin.append_iff, AllWithin.append_iff]
  exact ⟨conditionWithin, ⟨bodyWithin, branchesWithin⟩, within⟩

theorem switch (location : Location) :
    Except.Ensures (fun statement => AllWithin depth statement.parts)
      (do
        let subject ← decoder.child node "expr"
        let clauses ← (← node.children "clauses").mapM decoder.clause
        return .switch location subject clauses : Reading Stmt) := by
  refine .bind (shallow.child fits "expr") fun subject subjectWithin => ?_
  refine .bind (node.children_encloses "clauses") fun parts below => ?_
  refine .bind (.mapM fun part member => shallow.clause
    (Nat.le_trans (Nat.le_of_lt (below part member)) fits))
      fun clauses clausesWithin => .ok ?_
  rw [Stmt.parts, AllWithin.cons_iff, AllWithin.flatMap_iff]
  exact ⟨subjectWithin, clausesWithin⟩

theorem statementWith :
    Except.Ensures (fun statement => (Construct.stmt statement).Within (depth + 1))
      (decoder.statementWith node) := by
  change Except.Ensures (fun statement : Stmt => AllWithin depth statement.parts) _
  rw [Decoder.statementWith]
  split
  · rw [← bind_assoc]
    exact .bind (records fits shallow.assignment "assignments" "assignment")
      fun assignments within => .ok within
  · rw [← bind_assoc]
    exact .bind (records fits shallow.declaration "variables" "declaration")
      fun declarations within => .ok within
  iterate 3 exact shallow.plain fits fun expression => rfl
  · exact shallow.condition fits node.location
  · exact shallow.plain fits fun condition => rfl
  · exact .bind (shallow.block fits "statements") fun body within => .ok within
  · exact shallow.headed fits fun condition body => rfl
  · refine .bind (shallow.block fits "statements") fun body bodyWithin => ?_
    refine .bind (shallow.child fits "expr") fun condition conditionWithin => .ok ?_
    exact AllWithin.cons_iff.mpr ⟨conditionWithin, bodyWithin⟩
  · refine .after fun key => .after fun value => .after fun reverse => ?_
    exact shallow.headed fits fun source body => rfl
  · exact shallow.switch fits node.location
  iterate 2 exact .ok .nil
  · exact .bind (shallow.optionalChild fits "expr") fun value within => .ok within
  iterate 2 exact shallow.plain fits fun expression => rfl
  · exact .bind (shallow.children fits "expressions") fun values within => .ok within
  · exact shallow.plain fits fun file => rfl
  · refine .bind (shallow.block fits "statements") fun body bodyWithin => ?_
    rw [← bind_assoc]
    refine .bind (records fits shallow.handler "catches" "catch")
      fun handlers within => .ok ?_
    exact AllWithin.append_iff.mpr ⟨bodyWithin, within⟩
  · exact .after fun text => .ok .nil
  · exact .ok .nil
  · exact .error _

end Decoder.Shallow

/-- By induction on how deep a decoder reads; the bound does not depend on it. -/
theorem decoder_shallow (reach : Nat) : (decoder reach).Shallow := by
  induction reach with
  | zero => exact ⟨fun _ => .error _, fun _ => .error _⟩
  | succ reach shallow =>
      rw [decoder]
      -- A node counts itself, so a bound on its nesting is never zero.
      constructor
      · intro node depth deep
        dsimp only
        cases depth with
        | zero => exact absurd deep (Nat.not_succ_le_zero _)
        | succ depth => exact shallow.expressionWith deep
      · intro node depth deep
        dsimp only
        cases depth with
        | zero => exact absurd deep (Nat.not_succ_le_zero _)
        | succ depth => exact shallow.statementWith deep

/-! ### Definitions

A property that asks for an accessor stands in the members of a class, with the shortcut
inside it, so the class is deep enough for what the accessor holds.
-/

/-- No chain of the entry, nor of the accessors that it asks for, is longer than
`depth`. -/
structure Entry.Fits (depth : Nat) (entry : Entry) : Prop where
  constructs : AllWithin depth entry.constructs
  accessors : entry.Expanded ∨ 3 ≤ depth

structure Decoder.Members.Fits (depth : Nat) (members : Decoder.Members) : Prop where
  constants : AllWithin depth (members.constants.map fun constant => .expr constant.value)
  properties : AllWithin depth (members.properties.flatMap Property.parts)
  methods : AllWithin depth (members.methods.flatMap Method.parts)
  accessors : (∀ property ∈ members.properties, property.shortcuts = []) ∨ 3 ≤ depth

namespace Decoder.Shallow

variable {decoder : Decoder} (shallow : decoder.Shallow) {node : Node} {depth : Nat}
include shallow

theorem property (deep : node.nesting < depth) :
    Except.Ensures (fun property => AllWithin depth property.parts ∧
        (property.shortcuts = [] ∨ 3 ≤ depth))
      (decoder.property node) := by
  have fits : node.nesting ≤ depth + 1 := by omega
  refine .bind (shallow.optionalChild fits "default") fun default within => ?_
  have asked : Except.Ensures (fun shortcuts => shortcuts = [] ∨ 3 ≤ depth)
      (node.children "shortcuts" >>= fun parts => parts.mapM Decoder.shortcut) := by
    refine .bind (node.children_encloses "shortcuts") fun parts below => ?_
    cases parts with
    | nil => exact .ok (.inl rfl)
    | cons part rest =>
        have inside : 0 < part.nesting := Nat.succ_pos _
        have below := below part List.mem_cons_self
        exact fun shortcuts read => .inr (by omega)
  rw [← bind_assoc]
  refine .bind asked fun shortcuts few => ?_
  exact .after fun visibility => .after fun name => .after fun docblock =>
    .ok ⟨within, few⟩

theorem method (fits : node.nesting ≤ depth + 1) :
    Except.Ensures (fun method => AllWithin depth method.parts)
      (decoder.method node) := by
  refine .bind (shallow.optionalBlock fits "statements") fun body bodyWithin => ?_
  refine .after fun visibility => .after fun name => ?_
  refine .bind (shallow.parameters fits "parameters")
    fun parameters parametersWithin => ?_
  refine .after fun docblock => .ok ?_
  rw [Method.parts, AllWithin.append_iff]
  exact ⟨parametersWithin, bodyWithin⟩

theorem constant (fits : node.nesting ≤ depth + 1) :
    Except.Ensures (fun constant => (Construct.expr constant.value).Within depth)
      (decoder.constant node) := by
  refine .after fun name => ?_
  refine .bind (shallow.child fits "default") fun value within => ?_
  exact .after fun docblock => .ok within

/-- The members that are read from the record of a definition. -/
theorem membersOf {body : Node} (deep : body.nesting ≤ depth) :
    Except.Ensures (Members.Fits depth)
      (do return {
        constants :=
  ← (← body.children "constants").mapM (member "Const" decoder.constant)
        properties :=
          ← (← body.children "properties").mapM (member "Property" decoder.property)
        methods := ← (← body.children "methods").mapM (member "Method" decoder.method) } :
        Reading Members) := by
  have fits {node : Node} (below : node.nesting < body.nesting) : node.nesting ≤
      depth + 1 := by
    omega
  refine .bind (body.children_encloses "constants") fun nodes below => ?_
  refine .bind (.mapM fun node member => member_ensures
    (shallow.constant (fits (below node member))) "Const")
      fun constants constantsWithin => ?_
  refine .bind (body.children_encloses "properties") fun nodes below => ?_
  refine .bind (.mapM fun node member => member_ensures
    (shallow.property (Nat.lt_of_lt_of_le (below node member) deep)) "Property")
    fun properties propertiesWithin => ?_
  refine .bind (body.children_encloses "methods") fun nodes below => ?_
  refine .bind (.mapM fun node member => member_ensures
    (shallow.method (fits (below node member))) "Method")
      fun methods methodsWithin => .ok ?_
  constructor
  · exact AllWithin.map_iff.mpr constantsWithin
  · exact AllWithin.flatMap_iff.mpr fun property member =>
      (propertiesWithin property member).1
  · exact AllWithin.flatMap_iff.mpr methodsWithin
  · by_cases enough : 3 ≤ depth
    · exact .inr enough
    · exact .inl fun property member =>
        (propertiesWithin property member).2.resolve_right enough

theorem members (fits : node.nesting ≤ depth + 1) :
    Except.Ensures (Members.Fits depth) (decoder.members node) := by
  refine .bind (node.record_encloses "definition" "definition") fun found below => ?_
  cases found with
  | none => exact .ok ⟨.nil, .nil, .nil, .inl (List.forall_mem_nil _)⟩
  | some body =>
      have below : body.nesting < node.nesting := below body (by simp)
      exact shallow.membersOf (by omega)

theorem classDefinition (fits : node.nesting ≤ depth + 1) :
    Except.Ensures (fun definition => Entry.Fits depth (.classDefinition definition))
      (decoder.classDefinition node) := by
  refine .bind (shallow.members fits) fun members within => ?_
  refine .after fun name => .after fun isAbstract => .after fun isFinal => ?_
  refine .after fun parent => .after fun interfaces => .after fun docblock => .ok ?_
  refine ⟨?_, within.accessors⟩
  rw [Entry.constructs, AllWithin.append_iff, AllWithin.append_iff]
  exact ⟨⟨within.constants, within.properties⟩, within.methods⟩

theorem interfaceDefinition (fits : node.nesting ≤ depth + 1) :
    Except.Ensures (fun definition => Entry.Fits depth (.interfaceDefinition definition))
      (decoder.interfaceDefinition node) := by
  refine .bind (shallow.members fits) fun members within => ?_
  dsimp only
  split
  · exact .error _
  · refine .after fun name => .after fun parents => .after fun docblock => .ok ?_
    refine ⟨?_, .inl trivial⟩
    rw [Entry.constructs, AllWithin.append_iff]
    exact ⟨within.constants, within.methods⟩

theorem functionDefinition (fits : node.nesting ≤ depth + 1) :
    Except.Ensures (fun definition => Entry.Fits depth (.functionDefinition definition))
      (decoder.functionDefinition node) := by
  refine .after fun name => ?_
  refine .bind (shallow.parameters fits "parameters")
    fun parameters parametersWithin => ?_
  refine .bind (shallow.block fits "statements") fun body bodyWithin => ?_
  refine .after fun docblock => .ok ⟨?_, .inl trivial⟩
  rw [Entry.constructs, AllWithin.append_iff]
  exact ⟨parametersWithin, bodyWithin⟩

end Decoder.Shallow

namespace Entry

theorem Fits.mono {small large : Nat} {entry : Entry} (fits : entry.Fits small)
    (le : small ≤ large) : entry.Fits large where
  constructs := fits.constructs.mono le
  accessors := fits.accessors.imp_right fun enough => Nat.le_trans enough le

end Entry

theorem decoder_entry_fits (depth : Nat) (node : Node) :
    Except.Ensures (Entry.Fits node.nesting) ((decoder depth).entry node) := by
  have shallow := decoder_shallow depth
  have fits : node.nesting ≤ Json.nestingFields node.attributes + 1 := Nat.le_refl _
  have outside : Json.nestingFields node.attributes ≤ node.nesting := Nat.le_succ _
  rw [Decoder.entry]
  split
  · exact .after fun text => .ok ⟨.nil, .inl trivial⟩
  · exact .after fun name => .ok ⟨.nil, .inl trivial⟩
  · exact .after fun records => .after fun imports => .ok ⟨.nil, .inl trivial⟩
  · exact .bind (shallow.classDefinition fits) fun definition within =>
      .ok (within.mono outside)
  · exact .bind (shallow.interfaceDefinition fits)
      fun definition within => .ok (within.mono outside)
  · exact .bind (shallow.functionDefinition fits)
      fun definition within => .ok (within.mono outside)
  · refine .bind (shallow.statement (Nat.le_refl node.nesting)) fun statement within =>
      .ok ⟨?_, .inl trivial⟩
    exact AllWithin.cons_iff.mpr ⟨within, .nil⟩
  · exact .error _

/-! ## Phases -/

namespace Entry.Fits

variable {depth : Nat} {entry changed : Entry}

theorem documented {text : String} (fits : entry.Fits depth)
    (taken : entry.documented? text = some changed) : changed.Fits depth := by
  rcases documented?_cases taken with
    ⟨definition, _, rfl, rfl⟩ | ⟨definition, _, rfl, rfl⟩
  · exact ⟨fits.constructs, fits.accessors⟩
  · exact ⟨fits.constructs, fits.accessors⟩

theorem attached {entries result : List Entry} (attached : Attached entries result)
    (fits : ∀ entry ∈ entries, entry.Fits depth) :
    ∀ entry ∈ result, entry.Fits depth := by
  induction attached with
  | nil => exact fits
  | docblock lacking later induction =>
      rw [List.forall_mem_cons, List.forall_mem_cons] at fits
      exact List.forall_mem_cons.mpr ⟨fits.2.1.documented lacking, induction fits.2.2⟩
  | kept alone later induction =>
      rw [List.forall_mem_cons] at fits
      exact List.forall_mem_cons.mpr ⟨fits.1, induction fits.2⟩

end Entry.Fits

theorem Method.IsAccessor.within {method : Method} (isAccessor : method.IsAccessor) :
    AllWithin 3 method.parts := by
  rcases isAccessor with ⟨property, shortcut, found⟩
  rw [Property.accessor?] at found
  split at found
  iterate 3
    cases found
    simp [Method.parts, Parameter.parts, accessor, Property.read, Property.write,
      Construct.Within, Construct.parts, Stmt.parts, Expr.parts, Assignment.parts]
  · cases found

theorem ClassDefinition.expandShortcuts_fits {depth : Nat}
    {definition : ClassDefinition}
    (within : AllWithin depth (Entry.classDefinition definition).constructs)
    (enough : 3 ≤ depth) :
    Except.Ensures (fun expanded => Entry.Fits depth (.classDefinition expanded))
      definition.expandShortcuts := by
  simp only [Entry.constructs, AllWithin.append_iff] at within
  rcases within with ⟨⟨constants, properties⟩, methods⟩
  refine .bind (addAccessors_appends definition.methods definition.properties) ?_
  rintro _ ⟨added, rfl, accessors⟩
  refine .ok ⟨?_, .inr enough⟩
  simp only [Entry.constructs, AllWithin.append_iff, List.flatMap_append,
    List.flatMap_map]
  refine ⟨⟨constants, properties⟩, methods, AllWithin.flatMap_iff.mpr ?_⟩
  exact fun method member => (accessors method member).within.mono enough

theorem Entry.Fits.expandShortcuts {depth : Nat} {entry : Entry}
    (fits : entry.Fits depth) :
    Except.Ensures (Entry.Fits depth) entry.expandShortcuts := by
  rcases fits.accessors with expanded | enough
  · rw [Entry.expandShortcuts_of_expanded expanded]
    exact .ok fits
  · cases entry with
    | classDefinition definition =>
        exact .bind (ClassDefinition.expandShortcuts_fits fits.constructs enough)
          fun expanded within => .ok within
    | _ => exact .ok fits

theorem Phase.run_fits {depth : Nat} {program : Program}
    (fits : ∀ entry ∈ program.entries, entry.Fits depth) (phase : Phase) :
    Except.Ensures (fun changed => ∀ entry ∈ changed.entries, entry.Fits depth)
      (phase.run program) := by
  cases phase with
  | inlineComments => exact .ok (Entry.Fits.attached program.inlineComments_attached fits)
  | inlineShortcuts =>
      exact .bind (.mapM fun entry member => (fits entry member).expandShortcuts)
        fun entries within => .ok within

theorem Program.process_fits {depth : Nat} {program : Program}
    (fits : ∀ entry ∈ program.entries, entry.Fits depth) (phases : List Phase) :
    Except.Ensures (fun changed => ∀ entry ∈ changed.entries, entry.Fits depth)
      (program.process phases) := by
  induction phases generalizing program with
  | nil => exact .ok fits
  | cons phase rest induction =>
      rw [Program.process, List.foldlM_cons]
      exact .bind (phase.run_fits fits) fun next within => induction within

/-! ## Whole programs -/

/-- No chain of a decoded program is longer than the deepest of its nodes is nested. This
would be so for decoders that could read any deeper, it stays so through the phases, and
the reader of texts accepts no nodes beyond its own limit. -/
theorem Program.nestsWithin_deepest (nodes : List Node) :
    (∀ program, Program.ofNodes nodes = .ok program →
      program.NestsWithin (Node.deepest nodes)) ∧
    (∀ (depth : Node → Nat) (entries : List Entry),
      nodes.mapM (fun node => (decoder (depth node)).entry node) = .ok entries →
      ∀ (phases : List Phase) (processed : Program),
        Program.process phases ⟨entries⟩ = .ok processed →
        processed.NestsWithin (Node.deepest nodes)) ∧
    (∀ path text, Node.ofText path text = .ok nodes →
      Node.deepest nodes < Json.depthLimit) := by
  have decoded (depth : Node → Nat) :
      Except.Ensures (fun entries => ∀ entry ∈ entries, entry.Fits (Node.deepest nodes))
        (nodes.mapM fun node => (decoder (depth node)).entry node) := by
    refine .mapM fun node member entry read => ?_
    exact (decoder_entry_fits (depth node) node entry read).mono
      (Node.nesting_le_deepest node member)
  refine ⟨?_, ?_, fun path text read => Node.deepest_lt_of_ofText read⟩
  · have whole : Except.Ensures (Program.NestsWithin (Node.deepest nodes))
        (Program.ofNodes nodes) :=
      .bind (decoded Node.nesting) fun entries fits =>
        .ok (Program.nestsWithin_of_allWithin fun entry member =>
          (fits entry member).constructs)
    exact whole
  · intro depth entries read phases processed done
    have fits := Program.process_fits (decoded depth entries read) phases processed done
    exact Program.nestsWithin_of_allWithin fun entry member =>
      (fits entry member).constructs

/-- A file that requires the negation of a number. -/
def requiringText : String :=
  "[\x7b\"type\":\"require\",\"expr\":\x7b\"type\":\"not\",\"left\":" ++
    "\x7b\"type\":\"int\",\"value\":\"1\"\x7d\x7d\x7d]"

def requiringNodes : List Node :=
  [⟨"require", [("expr", .object [
    ("left", .object [("type", .string "int"), ("value", .string "1")]),
    ("type", .string "not")])]⟩]

def requiringNumber : Expr := .atom .unknown (.int "1")

def requiringNegation : Expr := .unary .unknown .not requiringNumber

def requiringStatement : Stmt := .require .unknown requiringNegation

/-- Three nodes around each other make a chain of three constructs. -/
theorem Program.nestsWithin_deepest_of_requiring :
    Node.ofText "required" requiringText = .ok requiringNodes ∧
      Program.ofNodes requiringNodes = .ok ⟨[.statement requiringStatement]⟩ ∧
      Node.deepest requiringNodes = 3 ∧ 3 < Json.depthLimit ∧
      Program.NestsWithin 3 ⟨[.statement requiringStatement]⟩ ∧
      ¬Program.NestsWithin 2 ⟨[.statement requiringStatement]⟩ := by
  have read : Node.ofText "required" requiringText = .ok requiringNodes := by cbv
  have decoded : Program.ofNodes requiringNodes = .ok ⟨[.statement requiringStatement]⟩ :=
    rfl
  have deepest : Node.deepest requiringNodes = 3 := rfl
  rcases Program.nestsWithin_deepest requiringNodes with ⟨bounded, _, limited⟩
  have within := bounded _ decoded
  have limit := limited "required" requiringText read
  rw [deepest] at within limit
  refine ⟨read, decoded, deepest, limit, within, fun shorter => ?_⟩
  have first : Construct.Holds (.stmt requiringStatement) (.expr requiringNegation) :=
    List.mem_singleton.mpr rfl
  have second : Construct.Holds (.expr requiringNegation) (.expr requiringNumber) :=
    List.mem_singleton.mpr rfl
  have impossible : 3 ≤ 2 := by
    refine shorter [.stmt requiringStatement, .expr requiringNegation,
      .expr requiringNumber]
      (.cons_cons first (.cons_cons second (.singleton _))) ?_
    simp only [List.forall_mem_cons, Program.Contains]
    refine ⟨⟨_, List.mem_singleton.mpr rfl, .refl⟩,
      ⟨_, List.mem_singleton.mpr rfl, .single first⟩,
      ⟨_, List.mem_singleton.mpr rfl, .tail (.single first) second⟩,
        List.forall_mem_nil _⟩
  omega

end ZephirPhp
