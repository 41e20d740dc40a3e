import ZephirPhp.Proofs.Program.Decoded
import ZephirPhp.Proofs.Program.Forms

/-! # Reachable programs

The decoder reads every well-formed program back from its nodes, so the programs that
come out of the decoder are exactly the well-formed ones.
-/

namespace ZephirPhp

open Node (Reads ReadsRecord Fits ofFields)
open Survey (lets)

/-! ## Expressions and statements -/

mutual

theorem Expr.toNode_reads (expression : Expr)
    (complete : AllComplete (lets.ofExpr () expression)) : expression.IsRead := by
  cases expression with
  | atom location leaf => exact leaf.ofFields_reads location
  | array location items => exact .array location (items_read items complete)
  | unary location operator operand =>
      exact .unary location operator (operand.toNode_reads complete)
  | binary location operator left right =>
      have complete := AllComplete.append_iff.mp complete
      exact .binary location operator (left.toNode_reads complete.1)
        (right.toNode_reads complete.2)
  | range location inclusive first last =>
      have complete := AllComplete.append_iff.mp complete
      exact .range location inclusive (first.toNode_reads complete.1)
        (last.toNode_reads complete.2)
  | property location object name =>
      exact .property location name (object.toNode_reads complete)
  | dynamicProperty location object name =>
      have complete := AllComplete.append_iff.mp complete
      exact .dynamicProperty location (object.toNode_reads complete.1)
        (name.toNode_reads complete.2)
  | stringProperty location object name =>
      exact .stringProperty location name (object.toNode_reads complete)
  | index location array key =>
      have complete := AllComplete.append_iff.mp complete
      exact .index location (array.toNode_reads complete.1)
        (key.toNode_reads complete.2)
  | methodCall location receiver method arguments =>
      have complete := AllComplete.append_iff.mp complete
      exact .methodCall location method (receiver.toNode_reads complete.1)
        (exprs_read arguments complete.2)
  | functionCall location function arguments =>
      exact .functionCall location function (exprs_read arguments complete)
  | staticCall location className method arguments =>
      exact .staticCall location className method (exprs_read arguments complete)
  | new location className dynamic arguments =>
      exact .new location className dynamic (exprs_read arguments complete)
  | cast location type operand =>
      exact .cast location type (operand.toNode_reads complete)
  | typeHint location type operand =>
      exact .typeHint location type (operand.toNode_reads complete)
  | ternary location condition consequence alternative =>
      have complete := AllComplete.append_append_iff.mp complete
      exact .ternary location (condition.toNode_reads complete.1)
        (consequence.toNode_reads complete.2.1) (alternative.toNode_reads complete.2.2)
  | closure location parameters body =>
      have complete := AllComplete.append_iff.mp complete
      exact .closure location (parameters_read parameters complete.1)
        (block_read body complete.2)
  | arrow location parameter body =>
      exact .arrow location parameter (body.toNode_reads complete)
  | fetch location target source =>
      exact .fetch location target (source.toNode_reads complete)
termination_by structural expression

theorem exprs_read (expressions : List Expr)
    (complete : AllComplete (lets.ofExprs () expressions)) :
    Expr.AllRead expressions := by
  cases expressions with
  | nil => exact .nil
  | cons expression rest =>
      have complete := AllComplete.append_iff.mp complete
      exact .cons (expression.toNode_reads complete.1) (exprs_read rest complete.2)
termination_by structural expressions

theorem optional_reads (option : Option Expr)
    (complete : AllComplete (lets.ofExprs () option.toList)) :
    ∀ expression ∈ option, expression.IsRead := by
  cases option with
  | none => simp
  | some expression =>
      rintro found ⟨⟩
      exact expression.toNode_reads ((AllComplete.single_iff expression).mp complete)
termination_by structural option

theorem items_read (items : List ArrayItem)
    (complete : AllComplete (lets.ofItems () items)) :
    List.Forall₂ (ReadsRecord "array-item" Decoder.arrayItem) (nodesOfItems items)
      items := by
  cases items with
  | nil => exact .nil
  | cons item rest =>
      rcases item with ⟨key, value⟩
      rcases AllComplete.append_iff.mp complete with ⟨ofItem, ofRest⟩
      rcases (AllComplete.item_iff key value).mp ofItem with ⟨ofValue, ofKey⟩
      refine .cons ⟨rfl, .ofFields fun depth fits => ?_⟩ (items_read rest ofRest)
      apply Except.bind_ok (fits.optionalChild "key" rfl (optional_reads key ofKey))
      exact Except.bind_ok (fits.child "value" rfl (value.toNode_reads ofValue)) rfl
termination_by structural items

theorem parameters_read (parameters : List Parameter)
    (complete : AllComplete (lets.ofParameters () parameters)) :
    List.Forall₂ (ReadsRecord "parameter" Decoder.parameter)
      (nodesOfParameters parameters)
      parameters := by
  cases parameters with
  | nil => exact .nil
  | cons parameter rest =>
      rcases parameter with ⟨name, default, byReference⟩
      rcases AllComplete.append_iff.mp complete with ⟨ofParameter, ofRest⟩
      have ofDefault :=
        (AllComplete.parameter_iff name default byReference).mp ofParameter
      refine .cons ⟨rfl, .ofFields fun depth fits => ?_⟩ (parameters_read rest ofRest)
      apply Except.bind_ok (Node.string_ofFields "name" rfl)
      apply Except.bind_ok
        (fits.optionalChild "default" rfl (optional_reads default ofDefault))
      exact Except.bind_ok (Node.flag_ofFields "reference" rfl) rfl
termination_by structural parameters

theorem assignments_read (assignments : List Assignment)
    (complete : AllComplete (lets.ofAssignments () assignments)) :
    List.Forall₂ (ReadsRecord "assignment" Decoder.assignment)
      (nodesOfAssignments assignments) assignments := by
  cases assignments with
  | nil => exact .nil
  | cons assignment rest =>
      rcases AllComplete.append_iff.mp complete with ⟨ofAssignment, ofRest⟩
      rcases (AllComplete.assignment_iff assignment).mp ofAssignment with
        ⟨whole, ofIndex, ofValue⟩
      rcases assignment with ⟨form, operator, target, property, index, value, location⟩
      rw [nodesOfAssignments]
      exact .cons (Assignment.ofFields_reads whole (exprs_read index ofIndex)
        (optional_reads value ofValue)) (assignments_read rest ofRest)
termination_by structural assignments

theorem Stmt.toNode_reads (statement : Stmt)
    (complete : AllComplete (lets.ofStmt () statement)) : statement.IsRead := by
  cases statement with
  | assign location assignments =>
      exact .assign location (assignments_read assignments complete)
  | declare location declarations =>
      exact .declare location (declarations_read declarations complete)
  | expression location expression =>
      exact .expression location (expression.toNode_reads complete)
  | cond location condition body alternatives otherwise =>
      rcases (AllComplete.cond_iff _ _ _ _ _).mp complete with
        ⟨ofCondition, ofBody, ofAlternatives, ofOtherwise⟩
      exact .cond location (condition.toNode_reads ofCondition) (block_read body ofBody)
        (branches_read alternatives ofAlternatives)
        (optionalBlock_read otherwise ofOtherwise)
  | loop location body => exact .loop location (block_read body complete)
  | whileLoop location condition body =>
      have complete := AllComplete.append_iff.mp complete
      exact .whileLoop location (condition.toNode_reads complete.1)
        (block_read body complete.2)
  | doWhile location body condition =>
      have complete := AllComplete.append_iff.mp complete
      exact .doWhile location (block_read body complete.1)
        (condition.toNode_reads complete.2)
  | forEach location key value reverse source body =>
      have complete := AllComplete.append_iff.mp complete
      exact .forEach location key value reverse (source.toNode_reads complete.1)
        (block_read body complete.2)
  | switch location subject clauses =>
      have complete := AllComplete.append_iff.mp complete
      exact .switch location (subject.toNode_reads complete.1)
        (clauses_read clauses complete.2)
  | continueLoop location => exact .continueLoop location
  | breakLoop location => exact .breakLoop location
  | returnValue location value =>
      exact .returnValue location
        (optional_reads value ((AllComplete.returnValue_iff location value).mp complete))
  | throwValue location value => exact .throwValue location (value.toNode_reads complete)
  | unset location target => exact .unset location (target.toNode_reads complete)
  | echo location values => exact .echo location (exprs_read values complete)
  | require location file => exact .require location (file.toNode_reads complete)
  | tryCatch location body handlers =>
      have complete := AllComplete.append_iff.mp complete
      exact .tryCatch location (block_read body complete.1)
        (handlers_read handlers complete.2)
  | comment location text => exact .comment location text
  | empty location => exact .empty location
termination_by structural statement

theorem block_read (statements : List Stmt)
    (complete : AllComplete (lets.ofBlock () statements)) : Stmt.AllRead statements := by
  cases statements with
  | nil => exact .nil
  | cons statement rest =>
      have complete := AllComplete.append_iff.mp complete
      exact .cons (statement.toNode_reads complete.1) (block_read rest complete.2)
termination_by structural statements

theorem optionalBlock_read (option : Option (List Stmt))
    (complete : AllComplete (lets.ofBlock () (option.getD []))) :
    ∀ statements ∈ option, Stmt.AllRead statements := by
  cases option with
  | none => simp
  | some statements =>
      rintro found ⟨⟩
      exact block_read statements complete
termination_by structural option

theorem declarations_read (declarations : List Declaration)
    (complete : AllComplete (lets.ofDeclarations () declarations)) :
    List.Forall₂ (ReadsRecord "declaration" Decoder.declaration)
      (nodesOfDeclarations declarations) declarations := by
  cases declarations with
  | nil => exact .nil
  | cons declaration rest =>
      rcases declaration with ⟨name, value⟩
      rcases AllComplete.append_iff.mp complete with ⟨ofDeclaration, ofRest⟩
      have ofValue := (AllComplete.declaration_iff name value).mp ofDeclaration
      refine .cons ⟨rfl, .ofFields fun depth fits => ?_⟩ (declarations_read rest ofRest)
      apply Except.bind_ok (Node.name_ofFields "variable" rfl)
      exact Except.bind_ok
        (fits.optionalChild "expr" rfl (optional_reads value ofValue)) rfl
termination_by structural declarations

theorem branches_read (branches : List Branch)
    (complete : AllComplete (lets.ofBranches () branches)) :
    List.Forall₂ (ReadsRecord "elseif" Decoder.branch) (nodesOfBranches branches)
      branches := by
  cases branches with
  | nil => exact .nil
  | cons branch rest =>
      rcases branch with ⟨condition, body⟩
      rcases AllComplete.append_iff.mp complete with ⟨ofBranch, ofRest⟩
      have parts := AllComplete.append_iff.mp ofBranch
      refine .cons ⟨rfl, .ofFields fun depth fits => ?_⟩ (branches_read rest ofRest)
      apply Except.bind_ok (fits.child "expr" rfl (condition.toNode_reads parts.1))
      exact Except.bind_ok (fits.block "statements" rfl (block_read body parts.2)) rfl
termination_by structural branches

theorem clauses_read (clauses : List Clause)
    (complete : AllComplete (lets.ofClauses () clauses)) :
    List.Forall₂ (Reads Decoder.clause) (nodesOfClauses clauses) clauses := by
  cases clauses with
  | nil => exact .nil
  | cons clause rest =>
      rcases AllComplete.append_iff.mp complete with ⟨ofClause, ofRest⟩
      cases clause with
      | case test body =>
          have spelled : kindKey "case" = "Case" := rfl
          have parts := AllComplete.append_iff.mp ofClause
          refine .cons (.ofFields fun depth fits => ?_) (clauses_read rest ofRest)
          rw [Decoder.clause, Node.key_ofFields spelled]
          apply Except.bind_ok (fits.child "expr" rfl (test.toNode_reads parts.1))
          exact Except.bind_ok (fits.block "statements" rfl (block_read body parts.2)) rfl
      | default body =>
          have spelled : kindKey "default" = "Default" := rfl
          refine .cons (.ofFields fun depth fits => ?_) (clauses_read rest ofRest)
          rw [Decoder.clause, Node.key_ofFields spelled]
          exact Except.bind_ok
            (fits.block "statements" rfl (block_read body ofClause)) rfl
termination_by structural clauses

theorem handlers_read (handlers : List Handler)
    (complete : AllComplete (lets.ofHandlers () handlers)) :
    List.Forall₂ (ReadsRecord "catch" Decoder.handler) (nodesOfHandlers handlers)
      handlers := by
  cases handlers with
  | nil => exact .nil
  | cons handler rest =>
      rcases handler with ⟨classes, caught, body⟩
      have complete := AllComplete.append_iff.mp complete
      refine .cons ⟨rfl, .ofFields fun depth fits => ?_⟩ (handlers_read rest complete.2)
      apply Except.bind_ok (Node.names_ofFields "classes" rfl)
      apply Except.bind_ok (Node.optionalName_ofFields "variable" rfl)
      exact Except.bind_ok (fits.block "statements" rfl (block_read body complete.1)) rfl
termination_by structural handlers

end

/-! ## Definitions -/

theorem Constant.toNode_reads (constant : Constant)
    (complete : AllComplete (lets.ofConstant () constant)) :
    constant.toNode.Reads (fun decoder => Decoder.member "Const" decoder.constant)
      constant := by
  have spelled : kindKey "const" = "Const" := rfl
  apply Reads.ofFields
  intro depth fits
  rw [Decoder.member, if_pos (Node.key_ofFields spelled)]
  apply Except.bind_ok (Node.string_ofFields "name" rfl)
  apply Except.bind_ok (fits.child "default" rfl (constant.value.toNode_reads complete))
  exact Except.bind_ok (Node.optionalString_ofFields "docblock" rfl) rfl

theorem Shortcut.toNode_reads (shortcut : Shortcut) :
    shortcut.toNode.Reads (fun _ => Decoder.shortcut) shortcut := by
  apply Reads.ofFields
  intro depth fits
  rw [Decoder.shortcut, Node.location_ofFields]
  exact Except.bind_ok (Node.string_ofFields "name" rfl) rfl

/-- Elements that can be read one by one can be read as a list. -/
theorem Node.reads_map {α : Type} {read : Decoder → Node → Reading α} {write : α → Node}
    {values : List α} (each : ∀ value ∈ values, (write value).Reads read value) :
    List.Forall₂ (Reads read) (values.map write) values := by
  rw [List.forall₂_map_left_iff, List.forall₂_same]
  exact each

theorem Property.toNode_reads (property : Property)
    (complete : AllComplete (lets.ofProperty () property)) :
    property.toNode.Reads (fun decoder => Decoder.member "Property" decoder.property)
      property := by
  have spelled : kindKey "property" = "Property" := rfl
  have read := Node.reads_map fun shortcut (_ : shortcut ∈ property.shortcuts) =>
    shortcut.toNode_reads
  apply Reads.ofFields
  intro depth fits
  rw [Decoder.member, if_pos (Node.key_ofFields spelled), Decoder.property,
    Node.location_ofFields]
  apply Except.bind_ok (fits.optionalChild "default" rfl
    (optional_reads property.default complete))
  apply Except.bind_ok (Node.children_ofFields "shortcuts" rfl (Node.plain_of_reads read))
  apply Except.bind_ok (fits.eachNode "shortcuts" rfl read)
  apply Except.bind_ok (Node.strings_ofFields "visibility" rfl)
  apply Except.bind_ok (Node.string_ofFields "name" rfl)
  exact Except.bind_ok (Node.optionalString_ofFields "docblock" rfl) rfl

theorem Method.toNode_reads (method : Method)
    (complete : AllComplete (lets.ofMethod () method)) :
    method.toNode.Reads (fun decoder => Decoder.member "Method" decoder.method)
      method := by
  have complete := AllComplete.append_iff.mp complete
  have spelled : kindKey "method" = "Method" := rfl
  apply Reads.ofFields
  intro depth fits
  rw [Decoder.member, if_pos (Node.key_ofFields spelled), Decoder.method,
    Node.location_ofFields]
  apply Except.bind_ok (fits.optionalBlock "statements" rfl
    (optionalBlock_read method.statements complete.2))
  apply Except.bind_ok (Node.strings_ofFields "visibility" rfl)
  apply Except.bind_ok (Node.string_ofFields "name" rfl)
  apply Except.bind_ok (fits.parameters "parameters" rfl
    (parameters_read method.parameters complete.1))
  exact Except.bind_ok (Node.optionalString_ofFields "docblock" rfl) rfl

theorem Node.Fits.members {kind : String} {location : Location}
    {fields : List (String × Json)} {depth : Nat} (fits : Fits depth fields)
    {constants : List Constant} {properties : List Property} {methods : List Method}
    (found : Node.fieldOf? fields "definition" =
      some (Node.ofMembers constants properties methods).toRecord)
    (complete : AllComplete (lets.ofMembers (fun _ => ()) constants properties methods)) :
    (decoder depth).members (ofFields kind location fields) =
      .ok ⟨constants, properties, methods⟩ := by
  rcases (AllComplete.members_iff constants properties methods).mp complete with
    ⟨ofConstants, ofProperties, ofMethods⟩
  have readConstants := Node.reads_map fun constant member =>
    Constant.toNode_reads constant (ofConstants constant member)
  have readProperties := Node.reads_map fun property member =>
    Property.toNode_reads property (ofProperties property member)
  have readMethods := Node.reads_map fun method member =>
    Method.toNode_reads method (ofMethods method member)
  have inside := Node.fits_of_nesting_le (Nat.le_succ_of_le (fits "definition" _ found))
  apply Except.bind_ok (Node.record_ofFields "definition" found Node.get?_type_ofFields)
  apply Except.bind_ok
    (Node.children_ofFields "constants" rfl (Node.plain_of_reads readConstants))
  apply Except.bind_ok (inside.eachNode "constants" rfl readConstants)
  apply Except.bind_ok
    (Node.children_ofFields "properties" rfl (Node.plain_of_reads readProperties))
  apply Except.bind_ok (inside.eachNode "properties" rfl readProperties)
  apply Except.bind_ok
    (Node.children_ofFields "methods" rfl (Node.plain_of_reads readMethods))
  exact Except.bind_ok (inside.eachNode "methods" rfl readMethods) rfl

theorem ClassDefinition.toNode_reads (definition : ClassDefinition)
    (complete : AllComplete (lets.ofMembers (fun _ => ()) definition.constants
      definition.properties definition.methods)) :
    definition.toNode.Reads Decoder.classDefinition definition := by
  apply Reads.ofFields
  intro depth fits
  rw [Decoder.classDefinition, Node.location_ofFields]
  apply Except.bind_ok (fits.members rfl complete)
  apply Except.bind_ok (Node.string_ofFields "name" rfl)
  apply Except.bind_ok (Node.flag_ofFields "abstract" rfl)
  apply Except.bind_ok (Node.flag_ofFields "final" rfl)
  apply Except.bind_ok (Node.optionalName_ofFields "extends" rfl)
  apply Except.bind_ok (Node.names_ofFields "implements" rfl)
  exact Except.bind_ok (Node.optionalString_ofFields "docblock" rfl) rfl

theorem InterfaceDefinition.toNode_reads (definition : InterfaceDefinition)
    (complete : AllComplete (lets.ofMembers (fun _ => ()) definition.constants []
      definition.methods)) :
    definition.toNode.Reads Decoder.interfaceDefinition definition := by
  apply Reads.ofFields
  intro depth fits
  rw [Decoder.interfaceDefinition, Node.location_ofFields]
  apply Except.bind_ok (fits.members rfl complete)
  apply Except.bind_ok (Node.string_ofFields "name" rfl)
  apply Except.bind_ok (Node.names_ofFields "extends" rfl)
  exact Except.bind_ok (Node.optionalString_ofFields "docblock" rfl) rfl

theorem FunctionDefinition.toNode_reads (definition : FunctionDefinition)
    (complete : AllComplete
      (lets.ofBody () definition.parameters definition.statements)) :
    definition.toNode.Reads Decoder.functionDefinition definition := by
  have complete := AllComplete.append_iff.mp complete
  apply Reads.ofFields
  intro depth fits
  rw [Decoder.functionDefinition, Node.location_ofFields]
  apply Except.bind_ok (Node.string_ofFields "name" rfl)
  apply Except.bind_ok (fits.parameters "parameters" rfl
    (parameters_read definition.parameters complete.1))
  apply Except.bind_ok (fits.block "statements" rfl
    (block_read definition.statements complete.2))
  exact Except.bind_ok (Node.optionalString_ofFields "docblock" rfl) rfl

theorem Import.toNode_reads (imported : Import) :
    imported.toNode.ReadsRecord "use-alias" (fun _ => Decoder.importedName) imported := by
  refine ⟨rfl, .ofFields fun depth fits => ?_⟩
  apply Except.bind_ok (Node.string_ofFields "name" rfl)
  exact Except.bind_ok (Node.optionalString_ofFields "alias" rfl) rfl

/-! ## Programs -/

theorem Entry.toNode_reads (entry : Entry) (wellFormed : entry.WellFormed) :
    entry.toNode.Reads Decoder.entry entry := by
  have complete : AllComplete entry.assignments := wellFormed.assignments
  cases entry with
  | comment location text =>
      have spelled : kindKey "comment" = "Comment" := rfl
      apply Reads.ofFields
      intro depth fits
      rw [Decoder.entry, Node.key_ofFields spelled, Node.location_ofFields]
      exact Except.bind_ok (Node.scalar_ofFields "value" rfl) rfl
  | namespaceName location name =>
      have spelled : kindKey "namespace" = "Namespace" := rfl
      apply Reads.ofFields
      intro depth fits
      rw [Decoder.entry, Node.key_ofFields spelled, Node.location_ofFields]
      exact Except.bind_ok (Node.string_ofFields "name" rfl) rfl
  | imports location aliases =>
      have spelled : kindKey "use" = "Use" := rfl
      have read : List.Forall₂ (ReadsRecord "use-alias" fun _ => Decoder.importedName)
          (aliases.map Import.toNode) aliases := by
        rw [List.forall₂_map_left_iff, List.forall₂_same]
        exact fun imported _ => imported.toNode_reads
      apply Reads.ofFields
      intro depth fits
      rw [Decoder.entry, Node.key_ofFields spelled, Node.location_ofFields]
      apply Except.bind_ok
        (Node.records_ofFields "aliases" rfl (Node.plain_of_readsRecord read))
      exact Except.bind_ok (fits.eachRecord "aliases" rfl read) rfl
  | classDefinition definition =>
      have spelled : kindKey "class" = "Class" := rfl
      have key : definition.toNode.key = "Class" := Node.key_ofFields spelled
      have read := definition.toNode_reads complete
      refine ⟨read.plain, fun depth deep => ?_⟩
      rw [Entry.toNode, Decoder.entry, key]
      exact Except.bind_ok (read.read depth deep) rfl
  | interfaceDefinition definition =>
      have spelled : kindKey "interface" = "Interface" := rfl
      have key : definition.toNode.key = "Interface" := Node.key_ofFields spelled
      have read := definition.toNode_reads complete
      refine ⟨read.plain, fun depth deep => ?_⟩
      rw [Entry.toNode, Decoder.entry, key]
      exact Except.bind_ok (read.read depth deep) rfl
  | functionDefinition definition =>
      have spelled : kindKey "function" = "Function" := rfl
      have key : definition.toNode.key = "Function" := Node.key_ofFields spelled
      have read := definition.toNode_reads complete
      refine ⟨read.plain, fun depth deep => ?_⟩
      rw [Entry.toNode, Decoder.entry, key]
      exact Except.bind_ok (read.read depth deep) rfl
  | statement included =>
      rcases wellFormed.included included rfl with ⟨location, file, rfl⟩
      have spelled : kindKey "require" = "Require" := rfl
      have key : (Stmt.require location file).toNode.key = "Require" :=
        Node.key_ofFields spelled
      have read := (Stmt.require location file).toNode_reads complete
      refine ⟨read.plain, fun depth deep => ?_⟩
      rw [Entry.toNode, Decoder.entry, key]
      exact Except.bind_ok (read.read depth deep) rfl

theorem entries_read (entries : List Entry)
    (wellFormed : ∀ entry ∈ entries, entry.WellFormed) :
    (entries.map Entry.toNode).mapM (fun node => (decoder node.nesting).entry node) =
      .ok entries := by
  induction entries with
  | nil => rfl
  | cons entry rest induction =>
      rw [List.forall_mem_cons] at wellFormed
      -- Each node is read by a decoder that goes just as deep as the node.
      have first := (entry.toNode_reads wellFormed.1).read _ (Nat.le_refl _)
      rw [List.map_cons, List.mapM_cons]
      apply Except.bind_ok first
      exact Except.bind_ok (induction wellFormed.2) rfl

theorem ofNodes_toNodes (program : Program) (wellFormed : program.WellFormed) :
    Program.ofNodes program.toNodes = .ok program :=
  Except.bind_ok (entries_read program.entries (program.wellFormed_iff.mp wellFormed)) rfl

/-- The programs that come out of the decoder are exactly the well-formed ones: only
inclusions stand as statements at the top level, and every assignment, at whatever depth,
has the parts of its form and no others. -/
theorem ofNodes_reaches_iff (program : Program) :
    (∃ nodes, Program.ofNodes nodes = .ok program) ↔ program.WellFormed := by
  constructor
  · rintro ⟨nodes, decoded⟩
    exact ofNodes_wellFormed nodes program decoded
  · intro wellFormed
    exact ⟨program.toNodes, ofNodes_toNodes program wellFormed⟩

end ZephirPhp
