import ZephirPhp.Program.Decoding
import ZephirPhp.Proofs.Program.Assignments
import ZephirPhp.Proofs.Sequencing

/-! # What the decoder gives

A decoder reads the parts of an assignment as its form says, so every assignment of a
decoded program is complete. The proof goes up from the decoder of the inner nodes to
that of the outer ones.
-/

namespace ZephirPhp

open Survey (lets)

/-- A decoder that gives complete assignments only. -/
structure Decoder.Sound (decoder : Decoder) : Prop where
  expression : ∀ node,
    Except.Ensures (fun expression => AllComplete (lets.ofExpr () expression))
      (decoder.expression node)
  statement : ∀ node,
    Except.Ensures (fun statement => AllComplete (lets.ofStmt () statement))
      (decoder.statement node)

/-- An optional part is there exactly if the node has its attribute. -/
theorem Decoder.optionalChild_isSome (decoder : Decoder) (node : Node) (name : String) :
    Except.Ensures (fun found => found.isSome = node.has name)
      (decoder.optionalChild node name) := by
  rw [Decoder.optionalChild, Node.optionalChild, Node.has]
  split
  · exact .ok rfl
  · exact .ok rfl
  · refine .bind (.after fun part => .ok rfl : Except.Ensures (·.isSome = true) _)
      fun part there => ?_
    cases part with
    | none => cases there
    | some part => exact .after fun expression => .ok rfl

namespace Decoder.Sound

variable {decoder : Decoder} (sound : decoder.Sound) (node : Node)
include sound

/-! ## Parts of a node -/

theorem child (name : String) :
    Except.Ensures (fun expression => AllComplete (lets.ofExpr () expression))
      (decoder.child node name) :=
  .after fun part => sound.expression part

theorem optionalChild (name : String) :
    Except.Ensures (fun found => AllComplete (lets.ofExprs () found.toList))
      (decoder.optionalChild node name) := by
  refine .after fun part => ?_
  cases part with
  | none => exact .ok .nil
  | some part =>
      exact .bind (sound.expression part) fun expression complete =>
        .ok ((AllComplete.single_iff expression).mpr complete)

theorem children (name : String) :
    Except.Ensures (fun expressions => AllComplete (lets.ofExprs () expressions))
      (decoder.children node name) := by
  refine .after fun parts => ?_
  intro expressions done
  rw [AllComplete.exprs_iff]
  exact Except.Ensures.mapM (fun part _ => sound.expression part) expressions done

theorem block (name : String) :
    Except.Ensures (fun statements => AllComplete (lets.ofBlock () statements))
      (decoder.block node name) := by
  refine .after fun parts => ?_
  intro statements done
  rw [AllComplete.block_iff]
  exact Except.Ensures.mapM (fun part _ => sound.statement part) statements done

theorem optionalBlock (name : String) :
    Except.Ensures (fun found => AllComplete (lets.ofBlock () (found.getD [])))
      (decoder.optionalBlock node name) := by
  rw [Decoder.optionalBlock]
  split
  · exact .bind (sound.block node name) fun statements complete => .ok complete
  · exact .ok .nil

theorem arguments :
    Except.Ensures (fun expressions => AllComplete (lets.ofExprs () expressions))
      (decoder.arguments node) := by
  refine .after fun records => ?_
  intro expressions done
  rw [AllComplete.exprs_iff]
  exact Except.Ensures.mapM (fun record _ => sound.child record "parameter")
    expressions done

theorem parameter :
    Except.Ensures (fun parameter => AllComplete (lets.ofParameter () parameter))
      (decoder.parameter node) := by
  refine .after fun name => ?_
  refine .bind (sound.optionalChild node "default") fun default complete => ?_
  refine .after fun byReference => .ok ?_
  exact (AllComplete.parameter_iff name default byReference).mpr complete

theorem parameters (name : String) :
    Except.Ensures (fun parameters => AllComplete (lets.ofParameters () parameters))
      (decoder.parameters node name) := by
  refine .after fun records => ?_
  intro parameters done
  rw [AllComplete.parameters_iff]
  exact Except.Ensures.mapM (fun record _ => sound.parameter record) parameters done

theorem arrayItem :
    Except.Ensures (fun item => AllComplete (lets.ofItem () item))
      (decoder.arrayItem node) := by
  refine .bind (sound.optionalChild node "key") fun key keyComplete => ?_
  refine .bind (sound.child node "value") fun value valueComplete => .ok ?_
  exact (AllComplete.item_iff key value).mpr ⟨valueComplete, keyComplete⟩

/-! ## Expressions -/

theorem closure :
    Except.Ensures (fun expression => AllComplete (lets.ofExpr () expression))
      (decoder.closure node) := by
  refine .bind (sound.parameters node _) fun parameters parametersComplete => ?_
  refine .bind (sound.block node _) fun body bodyComplete => .ok ?_
  exact AllComplete.append_iff.mpr ⟨parametersComplete, bodyComplete⟩

theorem operation :
    Except.Ensures (fun expression => AllComplete (lets.ofExpr () expression))
      (decoder.operation node) := by
  rw [Decoder.operation]
  split
  · exact .bind (sound.child node "left") fun operand complete => .ok complete
  · split
    · refine .bind (sound.child node "left") fun left leftComplete => ?_
      refine .bind (sound.child node "right") fun right rightComplete => .ok ?_
      exact AllComplete.append_iff.mpr ⟨leftComplete, rightComplete⟩
    · exact .error _

/-- An expression with one part that is an expression. -/
theorem single (name : String) {build : Expr → Expr}
    (parts : ∀ part, lets.ofExpr () (build part) = lets.ofExpr () part) :
    Except.Ensures (fun expression => AllComplete (lets.ofExpr () expression))
      (do return build (← decoder.child node name)) := by
  refine .bind (sound.child node name) fun part complete => .ok ?_
  rw [parts]
  exact complete

/-- An expression with two parts that are expressions. -/
theorem pair (first second : String) {build : Expr → Expr → Expr}
    (parts : ∀ left right,
      lets.ofExpr () (build left right) = lets.ofExpr () left ++ lets.ofExpr () right) :
    Except.Ensures (fun expression => AllComplete (lets.ofExpr () expression))
      (do return build (← decoder.child node first) (← decoder.child node second)) := by
  refine .bind (sound.child node first) fun left leftComplete => ?_
  refine .bind (sound.child node second) fun right rightComplete => .ok ?_
  rw [parts, AllComplete.append_iff]
  exact ⟨leftComplete, rightComplete⟩

theorem array (location : Location) :
    Except.Ensures (fun expression => AllComplete (lets.ofExpr () expression))
      (do
        let records ← node.records "left" "array-item"
        return .array location (← records.mapM decoder.arrayItem) : Reading Expr) := by
  refine .after fun records => ?_
  refine .bind (.mapM fun record _ => sound.arrayItem record) fun items complete => .ok ?_
  exact (AllComplete.items_iff items).mpr complete

theorem ternary (location : Location) :
    Except.Ensures (fun expression => AllComplete (lets.ofExpr () expression))
      (do
        let condition ← decoder.child node "left"
        let consequence ← decoder.child node "right"
        let alternative ← decoder.child node "extra"
        return .ternary location condition consequence alternative : Reading Expr) := by
  refine .bind (sound.child node "left") fun condition conditionComplete => ?_
  refine .bind (sound.child node "right") fun consequence consequenceComplete => ?_
  refine .bind (sound.child node "extra") fun alternative alternativeComplete => .ok ?_
  exact AllComplete.append_append_iff.mpr
    ⟨conditionComplete, consequenceComplete, alternativeComplete⟩

theorem methodCall (location : Location) :
    Except.Ensures (fun expression => AllComplete (lets.ofExpr () expression))
      (do
        let receiver ← decoder.child node "variable"
        let method ← node.string "name"
        return .methodCall location receiver method (← decoder.arguments node) :
        Reading Expr) := by
  refine .bind (sound.child node "variable") fun receiver receiverComplete => ?_
  refine .after fun method => ?_
  refine .bind (sound.arguments node) fun arguments argumentsComplete => .ok ?_
  exact AllComplete.append_iff.mpr ⟨receiverComplete, argumentsComplete⟩

theorem expressionWith :
    Except.Ensures (fun expression => AllComplete (lets.ofExpr () expression))
      (decoder.expressionWith node) := by
  rw [Decoder.expressionWith]
  split
  iterate 6 exact .after fun part => .ok .nil
  · exact .ok .nil
  iterate 3 exact .after fun part => .ok .nil
  · exact sound.array node node.location
  · exact .ok .nil
  iterate 2 exact .after fun part => .ok .nil
  iterate 2 exact sound.pair node "left" "right" fun left right => rfl
  · refine .bind (sound.child node "left") fun object complete => ?_
    exact .after fun name => .ok complete
  · exact sound.pair node "left" "right" fun object name => rfl
  · refine .bind (sound.child node "left") fun object complete => ?_
    exact .after fun name => .ok complete
  iterate 2 exact .after fun className => .after fun name => .ok .nil
  · exact sound.pair node "left" "right" fun array index => rfl
  · exact sound.methodCall node node.location
  · refine .after fun function => ?_
    exact .bind (sound.arguments node) fun arguments complete => .ok complete
  iterate 2
    refine .after fun className => .after fun detail => ?_
    exact .bind (sound.arguments node) fun arguments complete => .ok complete
  · exact .after fun value => .ok .nil
  iterate 2 exact .after fun type => sound.single node "right" fun operand => rfl
  · exact sound.ternary node node.location
  · exact sound.closure node
  iterate 2 exact .after fun name => sound.single node "right" fun body => rfl
  · exact sound.operation node

/-! ## Statements -/

/-- The end of an assignment, once its value and its property are read. -/
theorem assignmentEnd (form : AssignmentForm) (operator : Option AssignmentOperator)
    (value : Option Expr) (property : Option String)
    (valueComplete : AllComplete (lets.ofExprs () value.toList))
    (valueTaken : value.isSome = form.takesExpression)
    (propertyTaken : property.isSome = form.takesProperty) :
    Except.Ensures (fun assignment => AllComplete (lets.ofAssignment () assignment))
      (do
        let index ← if form.takesIndex then decoder.children node "index-expr"
          else pure []
        return { form, operator, target := ← node.name "variable", property, index, value,
                 location := node.location } : Reading Assignment) := by
  have complete : ∀ (target : String) (index : List Expr),
      AllComplete (lets.ofExprs () index) → (form.takesIndex = false → index = []) →
      AllComplete (lets.ofAssignment ()
        ⟨form, operator, target, property, index, value, node.location⟩) := by
    intro target index indexComplete indexTaken
    exact (AllComplete.assignment_iff _).mpr
      ⟨⟨propertyTaken, valueTaken, indexTaken⟩, indexComplete, valueComplete⟩
  dsimp only
  split
  · rename_i taken
    refine .bind (sound.children node "index-expr") fun index indexComplete => ?_
    refine .after fun target => .ok (complete target index indexComplete ?_)
    rw [taken]
    rintro ⟨⟩
  · rw [pure_bind]
    exact .after fun target => .ok (complete target [] .nil fun _ => rfl)

/-- The parts of an assignment whose form and operator are read. -/
theorem assignmentParts (form : AssignmentForm) (operator : Option AssignmentOperator) :
    Except.Ensures (fun assignment => AllComplete (lets.ofAssignment () assignment))
      (do
        if node.has "expr" != form.takesExpression then
          throw (.malformedNode form.name "expr" node.location)
        let value ← decoder.optionalChild node "expr"
        let property ← if form.takesProperty then some <$> node.name "property"
          else pure none
        let index ← if form.takesIndex then decoder.children node "index-expr"
          else pure []
        return { form, operator, target := ← node.name "variable", property, index, value,
                 location := node.location } : Reading Assignment) := by
  dsimp only
  split
  · exact .error _
  · rename_i agrees
    have agrees : node.has "expr" = form.takesExpression := by simpa using agrees
    refine .bind ((sound.optionalChild node "expr").and
      (decoder.optionalChild_isSome node "expr"))
        fun value ⟨valueComplete, valueThere⟩ => ?_
    have valueTaken := valueThere.trans agrees
    split
    · rename_i taken
      refine .bind (.map fun name => rfl : Except.Ensures (·.isSome = true) _)
        fun property there => ?_
      exact sound.assignmentEnd node form operator value property valueComplete valueTaken
        (there.trans taken.symm)
    · rename_i notTaken
      rw [pure_bind]
      exact sound.assignmentEnd node form operator value none valueComplete valueTaken
        (by simpa using notTaken)

theorem assignment :
    Except.Ensures (fun assignment => AllComplete (lets.ofAssignment () assignment))
      (decoder.assignment node) := by
  refine .after fun variant => ?_
  split
  · rename_i form _
    refine .after fun name => ?_
    dsimp only
    split
    · rw [pure_bind]
      exact sound.assignmentParts node form none
    · split
      · rename_i operator _
        rw [pure_bind]
        exact sound.assignmentParts node form (some operator)
      · exact .error _
  · exact .error _

theorem declaration :
    Except.Ensures (fun declaration => AllComplete (lets.ofDeclaration () declaration))
      (decoder.declaration node) := by
  refine .after fun name => ?_
  refine .bind (sound.optionalChild node "expr") fun value complete => .ok ?_
  exact (AllComplete.declaration_iff name value).mpr complete

theorem branch :
    Except.Ensures (fun branch => AllComplete (lets.ofBranch () branch))
      (decoder.branch node) := by
  refine .bind (sound.child node "expr") fun condition conditionComplete => ?_
  refine .bind (sound.block node "statements") fun body bodyComplete => .ok ?_
  exact AllComplete.append_iff.mpr ⟨conditionComplete, bodyComplete⟩

theorem clause :
    Except.Ensures (fun clause => AllComplete (lets.ofClause () clause))
      (decoder.clause node) := by
  rw [Decoder.clause]
  split
  · refine .bind (sound.child node "expr") fun test testComplete => ?_
    refine .bind (sound.block node "statements") fun body bodyComplete => .ok ?_
    exact AllComplete.append_iff.mpr ⟨testComplete, bodyComplete⟩
  · exact .bind (sound.block node "statements") fun body bodyComplete => .ok bodyComplete
  · exact .error _

theorem handler :
    Except.Ensures (fun handler => AllComplete (lets.ofHandler () handler))
      (decoder.handler node) := by
  refine .after fun classes => .after fun caught => ?_
  exact .bind (sound.block node "statements") fun body complete => .ok complete

theorem condition (location : Location) :
    Except.Ensures (fun statement => AllComplete (lets.ofStmt () statement))
      (do
        let condition ← decoder.child node "expr"
        let body ← decoder.block node "statements"
        let alternatives ← (← node.records "elseif_statements" "elseif").mapM
          decoder.branch
        let otherwise ← decoder.optionalBlock node "else_statements"
        return .cond location condition body alternatives otherwise : Reading Stmt) := by
  refine .bind (sound.child node "expr") fun condition conditionComplete => ?_
  refine .bind (sound.block node "statements") fun body bodyComplete =>
    .after fun records => ?_
  refine .bind (.mapM fun record _ => sound.branch record)
    fun branches branchesComplete => ?_
  refine .bind (sound.optionalBlock node "else_statements")
    fun otherwise complete => .ok ?_
  rw [← AllComplete.branches_iff] at branchesComplete
  exact (AllComplete.cond_iff location condition body branches otherwise).mpr
    ⟨conditionComplete, bodyComplete, branchesComplete, complete⟩

/-- A statement with an expression and a block. -/
theorem headed {build : Expr → List Stmt → Stmt} (parts : ∀ head body,
      lets.ofStmt () (build head body) = lets.ofExpr () head ++ lets.ofBlock () body) :
    Except.Ensures (fun statement => AllComplete (lets.ofStmt () statement))
      (do
        return build (← decoder.child node "expr")
          (← decoder.block node "statements")) := by
  refine .bind (sound.child node "expr") fun head headComplete => ?_
  refine .bind (sound.block node "statements") fun body bodyComplete => .ok ?_
  rw [parts, AllComplete.append_iff]
  exact ⟨headComplete, bodyComplete⟩

theorem statementWith :
    Except.Ensures (fun statement => AllComplete (lets.ofStmt () statement))
      (decoder.statementWith node) := by
  rw [Decoder.statementWith]
  split
  · refine .after fun records => ?_
    refine .bind (.mapM fun record _ => sound.assignment record)
      fun assignments complete => ?_
    rw [← AllComplete.assignments_iff] at complete
    exact .ok complete
  · refine .after fun records => ?_
    refine .bind (.mapM fun record _ => sound.declaration record)
      fun declarations complete => ?_
    rw [← AllComplete.declarations_iff] at complete
    exact .ok complete
  iterate 3 exact .bind (sound.child node "expr") fun expression complete => .ok complete
  · exact sound.condition node node.location
  · refine .bind (sound.child node "expr") fun condition complete => .ok ?_
    exact AllComplete.append_append_iff.mpr ⟨complete, .nil, .nil⟩
  · exact .bind (sound.block node "statements") fun body complete => .ok complete
  · exact sound.headed node fun condition body => rfl
  · refine .bind (sound.block node "statements") fun body bodyComplete => ?_
    refine .bind (sound.child node "expr") fun condition conditionComplete => .ok ?_
    exact AllComplete.append_iff.mpr ⟨bodyComplete, conditionComplete⟩
  · refine .after fun key => .after fun value => .after fun reverse => ?_
    exact sound.headed node fun source body => rfl
  · refine .bind (sound.child node "expr") fun subject subjectComplete =>
      .after fun parts => ?_
    refine .bind (.mapM fun part _ => sound.clause part)
      fun clauses clausesComplete => .ok ?_
    rw [← AllComplete.clauses_iff] at clausesComplete
    exact AllComplete.append_iff.mpr ⟨subjectComplete, clausesComplete⟩
  iterate 2 exact .ok .nil
  · refine .bind (sound.optionalChild node "expr") fun value complete => .ok ?_
    exact (AllComplete.returnValue_iff node.location value).mpr complete
  iterate 2 exact .bind (sound.child node "expr") fun expression complete => .ok complete
  · exact .bind (sound.children node "expressions") fun values complete => .ok complete
  · exact .bind (sound.child node "expr") fun file complete => .ok complete
  · refine .bind (sound.block node "statements") fun body bodyComplete =>
      .after fun records => ?_
    refine .bind (.mapM fun record _ => sound.handler record)
      fun handlers complete => .ok ?_
    rw [← AllComplete.handlers_iff] at complete
    exact AllComplete.append_iff.mpr ⟨bodyComplete, complete⟩
  · exact .after fun text => .ok .nil
  · exact .ok .nil
  · exact .error _

end Decoder.Sound

/-- By induction on how deep a decoder reads. -/
theorem decoder_sound (depth : Nat) : (decoder depth).Sound := by
  induction depth with
  | zero => exact ⟨fun _ => .error _, fun _ => .error _⟩
  | succ depth sound => exact ⟨sound.expressionWith, sound.statementWith⟩

/-! ## Definitions and programs -/

theorem Decoder.member_ensures {α : Type} {property : α → Prop}
    {decode : Node → Reading α} {node : Node}
    (decoded : Except.Ensures property (decode node)) (key : String) :
    Except.Ensures property (Decoder.member key decode node) := by
  rw [Decoder.member]
  split
  · exact decoded
  · exact .error _

namespace Decoder.Sound

variable {decoder : Decoder} (sound : decoder.Sound) (node : Node)
include sound

theorem constant :
    Except.Ensures (fun constant => AllComplete (lets.ofConstant () constant))
      (decoder.constant node) := by
  refine .after fun name => ?_
  refine .bind (sound.child node "default") fun value complete => ?_
  exact .after fun docblock => .ok complete

theorem property :
    Except.Ensures (fun property => AllComplete (lets.ofProperty () property))
      (decoder.property node) := by
  refine .bind (sound.optionalChild node "default") fun default complete => ?_
  refine .after fun parts => .after fun shortcuts => ?_
  exact .after fun visibility => .after fun name => .after fun docblock => .ok complete

theorem method :
    Except.Ensures (fun method => AllComplete (lets.ofMethod () method))
      (decoder.method node) := by
  refine .bind (sound.optionalBlock node "statements") fun body bodyComplete => ?_
  refine .after fun visibility => .after fun name => ?_
  refine .bind (sound.parameters node "parameters")
    fun parameters parametersComplete => ?_
  refine .after fun docblock => .ok ?_
  exact AllComplete.append_iff.mpr ⟨parametersComplete, bodyComplete⟩

theorem members :
    Except.Ensures
      (fun members =>
        (∀ constant ∈ members.constants, AllComplete (lets.ofConstant () constant)) ∧
          (∀ property ∈ members.properties, AllComplete (lets.ofProperty () property)) ∧
            ∀ method ∈ members.methods, AllComplete (lets.ofMethod () method))
      (decoder.members node) := by
  refine .after fun body => ?_
  cases body with
  | none =>
      exact .ok ⟨List.forall_mem_nil _, List.forall_mem_nil _, List.forall_mem_nil _⟩
  | some body =>
      refine .after fun nodes =>
        .bind (.mapM fun node _ => member_ensures (sound.constant node) "Const")
        fun constants constantsComplete => ?_
      refine .after fun nodes =>
        .bind (.mapM fun node _ => member_ensures (sound.property node) "Property")
        fun properties propertiesComplete => ?_
      refine .after fun nodes =>
        .bind (.mapM fun node _ => member_ensures (sound.method node) "Method")
        fun methods methodsComplete => .ok ?_
      exact ⟨constantsComplete, propertiesComplete, methodsComplete⟩

theorem classDefinition :
    Except.Ensures
      (fun definition => AllComplete (Entry.classDefinition definition).assignments)
      (decoder.classDefinition node) := by
  refine .bind (sound.members node) fun members ⟨constants, properties, methods⟩ => ?_
  refine .after fun name => .after fun isAbstract => .after fun isFinal => ?_
  refine .after fun parent => .after fun interfaces => .after fun docblock => .ok ?_
  exact (AllComplete.members_iff _ _ _).mpr ⟨constants, properties, methods⟩

theorem interfaceDefinition :
    Except.Ensures
      (fun definition => AllComplete (Entry.interfaceDefinition definition).assignments)
      (decoder.interfaceDefinition node) := by
  refine .bind (sound.members node) fun members ⟨constants, _, methods⟩ => ?_
  dsimp only
  split
  · exact .error _
  · refine .after fun name => .after fun parents => .after fun docblock => .ok ?_
    exact (AllComplete.members_iff _ _ _).mpr ⟨constants, List.forall_mem_nil _, methods⟩

theorem functionDefinition :
    Except.Ensures
      (fun definition => AllComplete (Entry.functionDefinition definition).assignments)
      (decoder.functionDefinition node) := by
  refine .after fun name => ?_
  refine .bind (sound.parameters node "parameters")
    fun parameters parametersComplete => ?_
  refine .bind (sound.block node "statements") fun body bodyComplete => ?_
  refine .after fun docblock => .ok ?_
  exact AllComplete.append_iff.mpr ⟨parametersComplete, bodyComplete⟩

end Decoder.Sound

theorem decoder_statement_require (depth : Nat) (node : Node)
    (key : node.key = "Require") :
    Except.Ensures (fun statement => ∃ location file, statement = .require location file)
      ((decoder depth).statement node) := by
  cases depth with
  | zero => exact .error _
  | succ depth =>
      simp only [decoder, Decoder.statementWith, key]
      exact .after fun file => .ok ⟨node.location, file, rfl⟩

theorem decoder_entry_wellFormed (depth : Nat) (node : Node) :
    Except.Ensures Entry.WellFormed ((decoder depth).entry node) := by
  have sound := decoder_sound depth
  rw [Decoder.entry]
  split
  · exact .after fun text => .ok ⟨nofun, AllComplete.nil⟩
  · exact .after fun name => .ok ⟨nofun, AllComplete.nil⟩
  · exact .after fun records => .after fun imports => .ok ⟨nofun, AllComplete.nil⟩
  · exact .bind (sound.classDefinition node) fun definition complete =>
      .ok ⟨nofun, complete⟩
  · exact .bind (sound.interfaceDefinition node) fun definition complete =>
      .ok ⟨nofun, complete⟩
  · exact .bind (sound.functionDefinition node) fun definition complete =>
      .ok ⟨nofun, complete⟩
  · rename_i key
    refine .bind ((sound.statement node).and (decoder_statement_require depth node key))
      fun statement ⟨complete, required⟩ => .ok ⟨?_, complete⟩
    intro included equal
    cases equal
    exact required
  · exact .error _

/-- Whatever is decoded is well-formed. -/
theorem ofNodes_wellFormed (nodes : List Node) :
    Except.Ensures Program.WellFormed (Program.ofNodes nodes) := by
  refine .bind (.mapM fun node _ => decoder_entry_wellFormed node.nesting node)
    fun entries wellFormed => .ok ?_
  rw [Program.wellFormed_iff]
  exact wellFormed

end ZephirPhp
