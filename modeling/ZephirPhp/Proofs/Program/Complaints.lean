import ZephirPhp.Proofs.Emission.Refusal

/-! # What is wrong with a tree

Reading nodes, processing a program and emitting its code fail for reasons that lie in the
syntax tree. None of them blames a file, a parser or a stage.
-/

namespace ZephirPhp

/-- The causes that lie in a syntax tree. -/
def Diagnostic.isOfTree : Diagnostic → Bool
  | .invalidTree _ _ => true
  | .noHandler _ _ _ => true
  | .malformedNode _ _ _ => true
  | .unknownAssignment _ _ => true
  | .unknownOperator _ _ => true
  | .unknownMethod _ _ _ => true
  | .invalidExpression _ => true
  | .undeclaredVariable _ _ => true
  | .shortcut _ => true
  | .unknownGlobal _ _ => true
  | _ => false

/-- A result that fails only because of the tree. -/
abbrev BlamesTree {α : Type} (result : Except Diagnostic α) : Prop :=
  Except.Raises (fun diagnostic => diagnostic.isOfTree = true) result

/-! ## Attributes -/

namespace Node

variable (node : Node) (name : String)

theorem require_blames {α : Type} (value : Option α) :
    BlamesTree (node.require name value) := by
  cases value with
  | none => exact .error rfl
  | some value => exact .ok value

theorem optionalString_blames : BlamesTree (node.optionalString name) := by
  rw [optionalString]
  split
  iterate 3 exact .ok _
  · exact .error rfl

theorem string_blames : BlamesTree (node.string name) :=
  .bind (node.optionalString_blames name) fun found => node.require_blames name found

theorem scalar_blames : BlamesTree (node.scalar name) := by
  rw [scalar]
  split
  iterate 3 exact .ok _
  · exact .error rfl

theorem flag_blames : BlamesTree (node.flag name) := by
  rw [flag]
  split
  iterate 4 exact .ok _
  · split
    · exact .ok true
    · split
      · exact .ok false
      · exact .error rfl
  · exact .error rfl

theorem optionalChild_blames : BlamesTree (node.optionalChild name) := by
  rw [optionalChild]
  split
  iterate 2 exact .ok none
  · exact .bind (node.require_blames name _) fun part => .ok (some part)

theorem child_blames : BlamesTree (node.child name) :=
  .bind (node.optionalChild_blames name) fun found => node.require_blames name found

theorem children_blames : BlamesTree (node.children name) := by
  rw [children]
  split
  iterate 2 exact .ok []
  · exact node.require_blames name _
  · exact .error rfl

theorem records_blames (kind : String) : BlamesTree (node.records name kind) := by
  rw [records]
  split
  iterate 2 exact .ok []
  · exact node.require_blames name _
  · exact .error rfl

/-- Something that is built from records which are all read in the same way. -/
theorem recordsOf_blames {α β : Type} {read : Node → Reading α}
    (each : ∀ node, BlamesTree (read node)) (build : List α → β) (kind : String) :
    BlamesTree (do return build (← (← node.records name kind).mapM read)) :=
  .bind (node.records_blames name kind) fun records =>
    .bind (.mapM each records) fun parts => .ok (build parts)

theorem record_blames (kind : String) : BlamesTree (node.record name kind) := by
  rw [record]
  split
  iterate 3 exact .ok _
  · exact .error rfl

theorem strings_blames : BlamesTree (node.strings name) := by
  rw [strings]
  split
  iterate 2 exact .ok []
  · exact node.require_blames name _
  · exact .error rfl

theorem optionalName_blames : BlamesTree (node.optionalName name) := by
  rw [optionalName]
  split
  iterate 3 exact .ok _
  · refine .bind (node.child_blames name) fun part => ?_
    exact .bind (part.scalar_blames "value") fun text => .ok (some text)
  · exact .error rfl

theorem name_blames : BlamesTree (node.name name) :=
  .bind (node.optionalName_blames name) fun found => node.require_blames name found

theorem names_blames : BlamesTree (node.names name) := by
  rw [names]
  split
  iterate 3 exact .ok _
  · exact node.require_blames name _
  · exact .error rfl

theorem ofText_blames (path text : String) : BlamesTree (ofText path text) := by
  rw [ofText]
  split
  · exact .error rfl
  · split
    · exact .ok _
    · exact .error rfl
  iterate 2 exact .error rfl

end Node

/-! ## Decoding -/

/-- A decoder that fails only because of the tree. -/
structure Decoder.Blaming (decoder : Decoder) : Prop where
  expression : ∀ node, BlamesTree (decoder.expression node)
  statement : ∀ node, BlamesTree (decoder.statement node)

theorem Decoder.emptyValue_blames (node : Node) :
    BlamesTree (Decoder.emptyValue node) := by
  refine .bind (node.string_blames "internal-type") fun type => ?_
  split
  iterate 2 exact .ok _
  · exact .error rfl

namespace Decoder.Blaming

variable {decoder : Decoder} (blaming : decoder.Blaming) (node : Node)
include blaming

/-! ### Parts of a node -/

theorem child (name : String) : BlamesTree (decoder.child node name) :=
  .bind (node.child_blames name) blaming.expression

theorem optionalChild (name : String) : BlamesTree (decoder.optionalChild node name) := by
  refine .bind (node.optionalChild_blames name) fun part => ?_
  cases part with
  | none => exact .ok none
  | some part =>
      exact .bind (blaming.expression part) fun expression => .ok (some expression)

theorem children (name : String) : BlamesTree (decoder.children node name) :=
  .bind (node.children_blames name) (.mapM blaming.expression)

theorem block (name : String) : BlamesTree (decoder.block node name) :=
  .bind (node.children_blames name) (.mapM blaming.statement)

theorem optionalBlock (name : String) : BlamesTree (decoder.optionalBlock node name) := by
  rw [Decoder.optionalBlock]
  split
  · exact .bind (blaming.block node name) fun statements => .ok (some statements)
  · exact .ok none

theorem arguments : BlamesTree (decoder.arguments node) :=
  .bind (node.records_blames "parameters" "argument")
    (.mapM fun argument => blaming.child argument "parameter")

theorem parameter : BlamesTree (decoder.parameter node) := by
  refine .bind (node.string_blames "name") fun name => ?_
  refine .bind (blaming.optionalChild node "default") fun default => ?_
  exact .bind (node.flag_blames "reference") fun byReference => .ok _

theorem parameters (name : String) : BlamesTree (decoder.parameters node name) :=
  .bind (node.records_blames name "parameter") (.mapM blaming.parameter)

theorem arrayItem : BlamesTree (decoder.arrayItem node) := by
  refine .bind (blaming.optionalChild node "key") fun key => ?_
  exact .bind (blaming.child node "value") fun value => .ok _

/-! ### Expressions -/

theorem closure : BlamesTree (decoder.closure node) := by
  refine .bind (blaming.parameters node _) fun parameters => ?_
  exact .bind (blaming.block node _) fun body => .ok _

/-- A node that is read from one of its parts. -/
theorem single {α : Type} (build : Expr → α) (name : String) :
    BlamesTree (do return build (← decoder.child node name)) :=
  .bind (blaming.child node name) fun part => .ok (build part)

/-- A node that is read from two of its parts. -/
theorem pair {α : Type} (build : Expr → Expr → α) (first second : String) :
    BlamesTree (do
      return build (← decoder.child node first) (← decoder.child node second)) :=
  .bind (blaming.child node first) fun left => blaming.single node (build left) second

/-- A call whose arguments are read last. -/
theorem call (build : List Expr → Expr) :
    BlamesTree (do return build (← decoder.arguments node)) :=
  .bind (blaming.arguments node) fun arguments => .ok (build arguments)

theorem operation : BlamesTree (decoder.operation node) := by
  rw [Decoder.operation]
  split
  · exact blaming.single node _ "left"
  · split
    · exact blaming.pair node _ "left" "right"
    · exact .error rfl

theorem expressionWith : BlamesTree (decoder.expressionWith node) := by
  have scalar (build : String → Expr) :
      BlamesTree (do return build (← node.scalar "value")) :=
    .bind (node.scalar_blames "value") fun text => .ok (build text)
  have named (build : String → String → Expr) :
      BlamesTree (do return build (← node.name "left") (← node.name "right")) :=
    .bind (node.name_blames "left") fun left =>
      .bind (node.name_blames "right") fun right => .ok (build left right)
  rw [Decoder.expressionWith]
  split
  iterate 5 exact scalar _
  · exact .bind (node.flag_blames "value") fun value => .ok _
  · exact .ok _
  iterate 3 exact scalar _
  · exact node.recordsOf_blames "left" blaming.arrayItem _ "array-item"
  · exact .ok _
  iterate 2 exact scalar _
  iterate 2 exact blaming.pair node _ "left" "right"
  · refine .bind (blaming.child node "left") fun object => ?_
    exact .bind (node.name_blames "right") fun name => .ok _
  · exact blaming.pair node _ "left" "right"
  · refine .bind (blaming.child node "left") fun object => ?_
    exact .bind (node.name_blames "right") fun name => .ok _
  iterate 2 exact named _
  · exact blaming.pair node _ "left" "right"
  · refine .bind (blaming.child node "variable") fun receiver => ?_
    exact .bind (node.string_blames "name") fun method => blaming.call node _
  · exact .bind (node.string_blames "name") fun function => blaming.call node _
  · refine .bind (node.name_blames "class") fun className => ?_
    exact .bind (node.string_blames "name") fun method => blaming.call node _
  · refine .bind (node.name_blames "class") fun className => ?_
    exact .bind (node.flag_blames "dynamic") fun isDynamic => blaming.call node _
  · exact .bind (emptyValue_blames node) fun value => .ok _
  iterate 2 exact .bind (node.name_blames "left") fun type =>
    blaming.single node _ "right"
  · exact .bind (blaming.child node "left") fun condition =>
      blaming.pair node _ "right" "extra"
  · exact blaming.closure node
  iterate 2 exact .bind (node.name_blames "left") fun name =>
    blaming.single node _ "right"
  · exact blaming.operation node

/-! ### Statements -/

/-- The parts of an assignment whose form and operator are read. -/
theorem assignmentParts (form : AssignmentForm) (operator : Option AssignmentOperator) :
    BlamesTree (do
      if node.has "expr" != form.takesExpression then
        throw (.malformedNode form.name "expr" node.location)
      let value ← decoder.optionalChild node "expr"
      let property ← if form.takesProperty then some <$> node.name "property"
        else pure none
      let index ← if form.takesIndex then decoder.children node "index-expr" else pure []
      return { form, operator, target := ← node.name "variable", property, index, value,
               location := node.location } : Reading Assignment) := by
  have ending (value : Option Expr) (property : Option String) :
      BlamesTree (do
        let index ← if form.takesIndex then decoder.children node "index-expr"
            else pure []
        return { form, operator, target := ← node.name "variable", property, index, value,
                 location := node.location } : Reading Assignment) := by
    dsimp only
    split
    · refine .bind (blaming.children node "index-expr") fun index => ?_
      exact .bind (node.name_blames "variable") fun target => .ok _
    · rw [pure_bind]
      exact .bind (node.name_blames "variable") fun target => .ok _
  dsimp only
  split
  · exact .error rfl
  · refine .bind (blaming.optionalChild node "expr") fun value => ?_
    split
    · exact .bind (.map (node.name_blames "property") some) fun property =>
        ending value property
    · exact ending value none

theorem assignment : BlamesTree (decoder.assignment node) := by
  refine .bind (node.string_blames "assign-type") fun variant => ?_
  split
  · rename_i form _
    refine .bind (node.optionalString_blames "operator") fun name => ?_
    dsimp only
    split
    · exact blaming.assignmentParts node form none
    · split
      · rename_i operator _
        exact blaming.assignmentParts node form (some operator)
      · exact .error rfl
  · exact .error rfl

theorem declaration : BlamesTree (decoder.declaration node) := by
  refine .bind (node.name_blames "variable") fun name => ?_
  exact .bind (blaming.optionalChild node "expr") fun value => .ok _

/-- Something that is built from a block. -/
theorem headless {α : Type} (build : List Stmt → α) :
    BlamesTree (do return build (← decoder.block node "statements")) :=
  .bind (blaming.block node "statements") fun body => .ok (build body)

/-- Something that is built from an expression and a block. -/
theorem headed {α : Type} (build : Expr → List Stmt → α) :
    BlamesTree (do
      return build (← decoder.child node "expr") (← decoder.block node "statements")) :=
  .bind (blaming.child node "expr") fun head => blaming.headless node (build head)

theorem branch : BlamesTree (decoder.branch node) :=
  blaming.headed node Branch.mk

theorem clause : BlamesTree (decoder.clause node) := by
  rw [Decoder.clause]
  split
  · exact blaming.headed node _
  · exact blaming.headless node _
  · exact .error rfl

theorem handler : BlamesTree (decoder.handler node) := by
  refine .bind (node.names_blames "classes") fun classes => ?_
  exact .bind (node.optionalName_blames "variable") fun caught => blaming.headless node _

theorem statementWith : BlamesTree (decoder.statementWith node) := by
  rw [Decoder.statementWith]
  split
  · exact node.recordsOf_blames "assignments" blaming.assignment _ "assignment"
  · exact node.recordsOf_blames "variables" blaming.declaration _ "declaration"
  iterate 3 exact blaming.single node _ "expr"
  · refine .bind (blaming.child node "expr") fun condition => ?_
    refine .bind (blaming.block node "statements") fun body => ?_
    refine .bind (node.records_blames "elseif_statements" "elseif") fun records => ?_
    refine .bind (.mapM blaming.branch records) fun branches => ?_
    exact .bind (blaming.optionalBlock node "else_statements") fun otherwise => .ok _
  · exact blaming.single node _ "expr"
  · exact blaming.headless node _
  · exact blaming.headed node _
  · exact .bind (blaming.block node "statements") fun body => blaming.single node _ "expr"
  · refine .bind (node.optionalString_blames "key") fun key => ?_
    refine .bind (node.optionalString_blames "value") fun value => ?_
    exact .bind (node.flag_blames "reverse") fun reverse => blaming.headed node _
  · refine .bind (blaming.child node "expr") fun subject => ?_
    refine .bind (node.children_blames "clauses") fun parts => ?_
    exact .bind (.mapM blaming.clause parts) fun clauses => .ok _
  iterate 2 exact .ok _
  · exact .bind (blaming.optionalChild node "expr") fun value => .ok _
  iterate 2 exact blaming.single node _ "expr"
  · exact .bind (blaming.children node "expressions") fun values => .ok _
  · exact blaming.single node _ "expr"
  · refine .bind (blaming.block node "statements") fun body => ?_
    exact node.recordsOf_blames "catches" blaming.handler _ "catch"
  · exact .bind (node.scalar_blames "value") fun text => .ok _
  · exact .ok _
  · exact .error rfl

end Decoder.Blaming

/-- By induction on how deep a decoder reads. -/
theorem decoder_blaming (depth : Nat) : (decoder depth).Blaming := by
  induction depth with
  | zero => exact ⟨fun _ => .error rfl, fun _ => .error rfl⟩
  | succ depth blaming =>
      rw [decoder]
      constructor
      · dsimp only
        exact blaming.expressionWith
      · dsimp only
        exact blaming.statementWith

/-! ## Definitions and programs -/

namespace Decoder.Blaming

variable {decoder : Decoder} (blaming : decoder.Blaming) (node : Node)
include blaming

theorem constant : BlamesTree (decoder.constant node) := by
  refine .bind (node.string_blames "name") fun name => ?_
  refine .bind (blaming.child node "default") fun value => ?_
  exact .bind (node.optionalString_blames "docblock") fun docblock => .ok _

theorem property : BlamesTree (decoder.property node) := by
  refine .bind (blaming.optionalChild node "default") fun default => ?_
  refine .bind (node.children_blames "shortcuts") fun parts => ?_
  have shortcut (part : Node) : BlamesTree (Decoder.shortcut part) :=
    .bind (part.string_blames "name") fun name => .ok _
  refine .bind (.mapM shortcut parts) fun shortcuts => ?_
  refine .bind (node.strings_blames "visibility") fun visibility => ?_
  refine .bind (node.string_blames "name") fun name => ?_
  exact .bind (node.optionalString_blames "docblock") fun docblock => .ok _

theorem method : BlamesTree (decoder.method node) := by
  refine .bind (blaming.optionalBlock node "statements") fun body => ?_
  refine .bind (node.strings_blames "visibility") fun visibility => ?_
  refine .bind (node.string_blames "name") fun name => ?_
  refine .bind (blaming.parameters node "parameters") fun parameters => ?_
  exact .bind (node.optionalString_blames "docblock") fun docblock => .ok _

omit blaming in
theorem member {α : Type} (key : String) {decode : Node → Reading α}
    (decoded : ∀ node, BlamesTree (decode node)) :
    BlamesTree (member key decode node) := by
  rw [Decoder.member]
  split
  · exact decoded node
  · exact .error rfl

theorem members : BlamesTree (decoder.members node) := by
  refine .bind (node.record_blames "definition" "definition") fun body => ?_
  cases body with
  | none => exact .ok _
  | some body =>
      refine .bind (body.children_blames "constants") fun nodes => ?_
      refine .bind (.mapM (fun node => member node "Const" blaming.constant) nodes)
        fun constants => ?_
      refine .bind (body.children_blames "properties") fun nodes => ?_
      refine .bind (.mapM (fun node => member node "Property" blaming.property) nodes)
        fun properties => ?_
      refine .bind (body.children_blames "methods") fun nodes => ?_
      exact .bind (.mapM (fun node => member node "Method" blaming.method) nodes)
        fun methods => .ok _

theorem classDefinition : BlamesTree (decoder.classDefinition node) := by
  refine .bind (blaming.members node) fun members => ?_
  refine .bind (node.string_blames "name") fun name => ?_
  refine .bind (node.flag_blames "abstract") fun isAbstract => ?_
  refine .bind (node.flag_blames "final") fun isFinal => ?_
  refine .bind (node.optionalName_blames "extends") fun parent => ?_
  refine .bind (node.names_blames "implements") fun interfaces => ?_
  exact .bind (node.optionalString_blames "docblock") fun docblock => .ok _

theorem interfaceDefinition : BlamesTree (decoder.interfaceDefinition node) := by
  refine .bind (blaming.members node) fun members => ?_
  dsimp only
  split
  · exact .error rfl
  · refine .bind (node.string_blames "name") fun name => ?_
    refine .bind (node.names_blames "extends") fun parents => ?_
    exact .bind (node.optionalString_blames "docblock") fun docblock => .ok _

theorem functionDefinition : BlamesTree (decoder.functionDefinition node) := by
  refine .bind (node.string_blames "name") fun name => ?_
  refine .bind (blaming.parameters node "parameters") fun parameters => ?_
  refine .bind (blaming.block node "statements") fun body => ?_
  exact .bind (node.optionalString_blames "docblock") fun docblock => .ok _

theorem entry : BlamesTree (decoder.entry node) := by
  rw [Decoder.entry]
  split
  · exact .bind (node.scalar_blames "value") fun text => .ok _
  · exact .bind (node.string_blames "name") fun name => .ok _
  · have imported (record : Node) : BlamesTree (importedName record) :=
      .bind (record.string_blames "name") fun name =>
        .bind (record.optionalString_blames "alias") fun shortName => .ok _
    exact node.recordsOf_blames "aliases" imported _ "use-alias"
  · exact .bind (blaming.classDefinition node) fun definition => .ok _
  · exact .bind (blaming.interfaceDefinition node) fun definition => .ok _
  · exact .bind (blaming.functionDefinition node) fun definition => .ok _
  · exact .bind (blaming.statement node) fun statement => .ok _
  · exact .error rfl

end Decoder.Blaming

theorem ofNodes_blames (nodes : List Node) : BlamesTree (Program.ofNodes nodes) := by
  have entry (node : Node) : BlamesTree ((decoder node.nesting).entry node) :=
    (decoder_blaming node.nesting).entry node
  exact .bind (.mapM entry nodes) fun entries => .ok _

/-! ## Processing -/

theorem Property.accessors_blames (property : Property) (seen : List String)
    (shortcuts : List Shortcut) : BlamesTree (property.accessors seen shortcuts) := by
  induction shortcuts generalizing seen with
  | nil => exact .ok []
  | cons shortcut rest induction =>
      rw [Property.accessors]
      split
      · exact .error rfl
      · split
        · exact .error rfl
        · exact .bind (induction (shortcut.name :: seen)) fun methods => .ok _

theorem addMethods_blames (methods added : List Method) :
    BlamesTree (addMethods methods added) := by
  induction added generalizing methods with
  | nil => exact .ok methods
  | cons method rest induction =>
      rw [addMethods]
      split
      · exact .error rfl
      · exact induction (methods ++ [method])

theorem addAccessors_blames (methods : List Method) (properties : List Property) :
    BlamesTree (addAccessors methods properties) := by
  induction properties generalizing methods with
  | nil => exact .ok methods
  | cons property rest induction =>
      refine .bind (property.accessors_blames [] property.shortcuts) fun added => ?_
      exact .bind (addMethods_blames methods added) induction

theorem Entry.expandShortcuts_blames (entry : Entry) :
    BlamesTree entry.expandShortcuts := by
  rw [Entry.expandShortcuts.eq_def]
  split
  · rename_i definition
    refine .bind ?_ fun expanded => .ok _
    exact .bind (addAccessors_blames definition.methods definition.properties)
      fun methods => .ok _
  · exact .ok _

theorem Program.process_blames (phases : List Phase) (program : Program) :
    BlamesTree (program.process phases) := by
  induction phases generalizing program with
  | nil => exact .ok program
  | cons phase rest induction =>
      rw [Program.process, List.foldlM_cons]
      refine .bind ?_ induction
      cases phase with
      | inlineComments => exact .ok program.inlineComments
      | inlineShortcuts =>
          exact .bind (.mapM Entry.expandShortcuts_blames program.entries)
            fun entries => .ok _

/-! ## Emission -/

theorem Diagnostic.isOfTree_of_isRefusal {diagnostic : Diagnostic}
    (refusal : diagnostic.isRefusal = true) : diagnostic.isOfTree = true := by
  cases diagnostic <;> first | rfl | cases refusal

theorem Program.toPhp_blames (setting : Setting) {program : Program}
    (wellFormed : program.WellFormed) : BlamesTree (program.toPhp setting).1 := by
  intro diagnostic failed
  have outcome := program.toPhp_faults setting wellFormed
  rw [failed] at outcome
  rcases List.mem_filterMap.mp (List.mem_of_head? outcome) with ⟨site, _, fault⟩
  exact Diagnostic.isOfTree_of_isRefusal (Site.isRefusal_of_fault? fault)

end ZephirPhp
