import ZephirPhp.Emission.Definition
import ZephirPhp.Proofs.Emission.Arrangement
import ZephirPhp.Proofs.Emission.Showing
import ZephirPhp.Proofs.Program.Returned

/-! # Strings that survive layout

Every string that is returned somewhere in a program becomes a literal in a line of a
page. The line may be part of a closure, whose page is shown as a text and written on
another page, and so on outwards. A literal that layout leaves as it is comes through
all of this; any other is changed already where it is the only thing that a function
returns.
-/

namespace ZephirPhp

open Gauge (returned)
open Text (Occurs)

/-! ## Pieces of code -/

section

variable {layout : Layout} {contents others : List String}

theorem finds_argumentCode {parts : List (List String)} {arguments : List String}
    (finds : List.Forall₂ layout.Finds parts arguments) :
    layout.Finds parts.flatten (argumentCode arguments) :=
  (Layout.Finds.intercalate finds).right.left

theorem UnaryOperator.finds_code (operator : UnaryOperator) {operand : String}
    (finds : layout.Finds contents operand) :
    layout.Finds contents (operator.code operand) := by
  cases operator with
  | isset => exact finds.right.left
  | empty => exact finds.right.left
  | typeof => exact finds.right.left
  | list => exact finds.right.left
  | likely => exact finds
  | unlikely => exact finds
  | _ => exact finds.right

theorem finds_rangeCode (inclusive : Bool) {first last : String}
    (ofFirst : layout.Finds contents first) (ofLast : layout.Finds others last) :
    layout.Finds (contents ++ others) (rangeCode inclusive first last) := by
  cases inclusive <;> exact ofFirst.right.left.left.left.append ofLast.right.left

theorem finds_forEachCode (key : Option String) (value : String) {source : String}
    (finds : layout.Finds contents source) :
    layout.Finds contents (forEachCode key value source) := by
  cases key with
  | none => exact finds.right.left.left.left
  | some key => exact finds.right.left.left.left.left.left

/-- A call finds what its object and its arguments have, as far as it shows them. -/
theorem finds_methodCallCode (receiver : Option Receiver) (location : Location)
    (method : String) {parts : List (List String)} {object : String}
    {arguments : List String} (ofObject : layout.Finds contents object)
    (ofArguments : List.Forall₂ layout.Finds parts arguments) :
    Emission.Yields (layout.Finds (shownInCall receiver method contents parts).flatten)
      (methodCallCode receiver location method object arguments) := by
  cases receiver with
  | none =>
      exact .pure (ofObject.left.left.left.append (finds_argumentCode ofArguments).right)
  | some kind =>
      refine (PseudoMethod.resolve_yields kind method location).bind
        fun pseudoMethod found => ?_
      have called : layout.Finds (shownInCall (some kind) method contents parts).flatten
          (pseudoMethod.function ++
            argumentCode (pseudoMethod.arrange object arguments)) := by
        rw [shownInCall, found]
        exact (finds_argumentCode (Slot.arrange_related _ ofObject ofArguments)).right
      cases pseudoMethod.inPlace with
      | true => exact .after fun _ => .pure called
      | false => exact .pure called

/-- The steps into an array stand in the target of an assignment. -/
theorem finds_targetCode {form : AssignmentForm} {target path code : String}
    {property : Option String} {location : Location} (finds : layout.Finds contents path)
    (done : form.targetCode target property path location = .ok code) :
    layout.Finds contents code := by
  rw [AssignmentForm.targetCode.eq_def] at done
  split at done
  · cases done
  · cases done
    exact finds.right.left

theorem finds_path {parts : List (List String)} {steps : List String}
    (finds : List.Forall₂ layout.Finds parts steps) :
    layout.Finds parts.flatten
      (String.join (steps.map fun step => "[" ++ step ++ "]")) := by
  induction finds with
  | nil => exact .nil
  | cons first _ induction =>
      rw [List.flatten_cons, List.map_cons, String.join_cons]
      exact first.right.left.left.append induction.right

end

/-! ## Expressions and statements -/

theorem renderCondition_finds {setting : Setting} {layout : Layout}
    {contents : List String} {condition : Expr}
    (rendered : Emission.Yields (layout.Finds contents) (renderExpr setting condition)) :
    Emission.Yields (fun shown => layout.Finds contents shown.test)
      (renderCondition setting condition) := by
  cases condition with
  | fetch location target source =>
      rw [renderExpr] at rendered
      refine rendered.of_bind_pure.bind fun code finds => ?_
      exact .after fun _ => .pure finds
  | _ => exact rendered.bind_pure fun _ finds => finds

/-- A string is rendered as its literal. -/
theorem renderExpr_finds_content (setting : Setting) (expression : Expr) :
    Emission.Yields (setting.layout.Finds expression.stringContent)
      (renderExpr setting expression) := by
  rw [Expr.stringContent.eq_def]
  split
  · next location content =>
      apply Emission.Yields.pure
      intro found member _
      rw [List.mem_singleton.mp member]
      exact List.infix_refl _
  · exact fun _ _ _ _ => .nil

theorem renderCondition_local (setting : Setting) (condition : Expr) :
    Emission.Local (renderCondition setting condition) := by
  cases condition with
  | fetch location target source =>
      exact renderCondition_fetch_local location target
        (renderExpr_detached setting source)
  | _ => exact (renderExpr_detached setting _).toLocal.bind_pure

theorem compileAssignment_finds_of {setting : Setting} {layout : Layout}
    {form : AssignmentForm} {operator : Option AssignmentOperator} {target : String}
    {property : Option String} {index : List Expr} {value : Option Expr}
    {location : Location} {parts : List (List String)} {contents : List String}
    (ofIndex : Emission.Yields (List.Forall₂ layout.Finds parts)
      (renderExprs setting index))
    (ofValue : ∀ expression ∈ value,
      Emission.Yields (layout.Finds contents) (renderExpr setting expression)) :
    Emission.Yields (fun compiled => layout.Finds
        ((if form.takesIndex then parts else []).flatten ++
          (if form.takesExpression then contents else [])) compiled.code)
      (compileAssignment setting
        ⟨form, operator, target, property, index, value, location⟩) := by
  have ofSteps : Emission.Yields
      (List.Forall₂ layout.Finds (if form.takesIndex then parts else []))
      (renderExprs setting (if form.takesIndex then index else [])) := by
    split
    · exact ofIndex
    · exact .pure .nil
  rw [compileAssignment_sides]
  refine .after fun _ => ofSteps.bind fun steps each => ?_
  have ofLeft : Emission.Yields
      (layout.Finds (if form.takesIndex then parts else []).flatten)
      (Emission.ofExcept (form.targetCode target property _ location)) :=
    .ofExcept fun code done => finds_targetCode (finds_path each) done
  refine ofLeft.bind fun left inLeft => ?_
  cases form.takesExpression with
  | false => exact .pure (inLeft.left.append .nil)
  | true =>
      cases value with
      | none =>
          intro emitter compiled final ended
          cases ended
      | some value =>
          refine (ofValue value rfl).bind fun code inValue => ?_
          exact .after fun _ =>
            .pure (inLeft.left.left.left.left.left.append inValue.right.left)

section

variable (setting : Setting)

mutual

theorem renderExpr_finds (expression : Expr) :
    Emission.Yields (setting.layout.Finds (returned.ofExpr expression))
      (renderExpr setting expression) := by
  cases expression with
  | atom location leaf => exact .pure .nil
  | array location items =>
      exact (renderItems_finds items).bind_pure fun codes each =>
        (Layout.Finds.intercalate each).right.left
  | unary location operator operand =>
      have rendered := renderExpr_finds operand
      cases operator with
      | isset =>
          cases operand with
          | index place container key =>
              refine (renderExpr_finds container).bind fun containerCode ofContainer => ?_
              exact (renderExpr_finds key).bind_pure fun keyCode ofKey =>
                ofContainer.right.left.left.left.append ofKey.right.left
          | property place object name =>
              exact (renderExpr_finds object).bind_pure fun code finds =>
                finds.right.left.left.left
          | stringProperty place object name =>
              exact (renderExpr_finds object).bind_pure fun code finds =>
                finds.right.left.left.left
          | dynamicProperty place object name =>
              refine (renderExpr_finds object).bind fun objectCode ofObject => ?_
              exact (renderExpr_finds name).bind_pure fun nameCode ofName =>
                ofObject.right.left.left.left.append ofName.right.left
          | _ => exact rendered.bind_pure fun _ finds => UnaryOperator.finds_code _ finds
      | _ => exact rendered.bind_pure fun _ finds => UnaryOperator.finds_code _ finds
  | binary location operator left right =>
      refine (renderExpr_finds left).bind fun leftCode ofLeft => ?_
      exact (renderExpr_finds right).bind_pure fun rightCode ofRight =>
        ofLeft.left.left.left.left.append ofRight.right
  | range location inclusive first last =>
      refine (renderExpr_finds first).bind fun firstCode ofFirst => ?_
      exact (renderExpr_finds last).bind_pure fun lastCode ofLast =>
        finds_rangeCode inclusive ofFirst ofLast
  | property location object name =>
      exact (renderExpr_finds object).bind_pure fun code finds => finds.left.left
  | dynamicProperty location object name =>
      refine (renderExpr_finds object).bind fun objectCode ofObject => ?_
      exact (renderExpr_finds name).bind_pure fun nameCode ofName =>
        ofObject.left.left.left.append ofName.right.left
  | stringProperty location object name =>
      exact (renderExpr_finds object).bind_pure fun code finds =>
        finds.right.left.left.left
  | index location container key =>
      refine (renderExpr_finds container).bind fun containerCode ofContainer => ?_
      exact (renderExpr_finds key).bind_pure fun keyCode ofKey =>
        ofContainer.left.left.left.append ofKey.right.left
  | methodCall location receiver method arguments =>
      refine (renderExpr_finds receiver).bind fun object ofObject => ?_
      exact (renderExprs_finds arguments).bind fun codes each =>
        finds_methodCallCode _ location method ofObject each
  | functionCall location function arguments =>
      exact .after fun _ => (renderExprs_finds arguments).bind_pure fun codes each =>
        (finds_argumentCode each).right
  | staticCall location className method arguments =>
      exact (renderExprs_finds arguments).bind_pure fun codes each =>
        (finds_argumentCode each).right
  | new location className dynamic arguments =>
      exact (renderExprs_finds arguments).bind_pure fun codes each =>
        (finds_argumentCode each).right
  | cast location type operand => exact renderExpr_finds operand
  | typeHint location type operand => exact renderExpr_finds operand
  | ternary location condition consequence alternative =>
      refine (renderExpr_finds condition).bind fun conditionCode ofCondition => ?_
      refine (renderExpr_finds consequence).bind fun consequenceCode ofConsequence => ?_
      exact (renderExpr_finds alternative).bind_pure fun alternativeCode ofAlternative =>
        ofCondition.left.left.left.left.append (ofConsequence.right.left.left.append
          ofAlternative.right)
  | closure location parameters body =>
      refine (renderParameters_finds parameters).bind fun parameterList each => ?_
      have written : Emission.Shows setting.layout
          ((returned.ofParameters parameters).flatten ++ returned.ofBlock () body) (do
            Emission.onPage
              (·.openBlock ("function (" ++ ", ".intercalate parameterList ++ ")") false)
            emitBlock setting body
            Emission.onPage (·.closeBlock "")) :=
        .block false (Layout.Finds.intercalate each).right.left (emitBlock_shows body)
      exact .after fun _ => written.onOwnPage.withScope.bind_pure fun _ finds => finds
  | arrow location parameter body =>
      exact (renderExpr_finds body).withScope.bind_pure fun code finds => finds.right.left
  | fetch location target source =>
      exact (renderExpr_finds source).bind_pure fun code finds => finds.right.left
termination_by structural expression

theorem renderExprs_finds (expressions : List Expr) :
    Emission.Yields (List.Forall₂ setting.layout.Finds (returned.ofExprs expressions))
      (renderExprs setting expressions) := by
  cases expressions with
  | nil => exact .pure .nil
  | cons expression rest =>
      refine (renderExpr_finds expression).bind fun code finds => ?_
      exact (renderExprs_finds rest).bind_pure fun codes each => .cons finds each
termination_by structural expressions

theorem renderItems_finds (items : List ArrayItem) :
    Emission.Yields (List.Forall₂ setting.layout.Finds (returned.ofItems items))
      (renderItems setting items) := by
  cases items with
  | nil => exact .pure .nil
  | cons item rest =>
      rcases item with ⟨key, value⟩
      cases key with
      | none =>
          refine (renderExpr_finds value).bind fun valueCode ofValue => ?_
          exact (renderItems_finds rest).bind_pure fun codes each => .cons ofValue each
      | some key =>
          have keyed : Emission.Yields
              (fun shown => ∃ code, shown = some code ∧
                setting.layout.Finds (returned.ofExpr key) code)
              (some <$> renderExpr setting key) :=
            (renderExpr_finds key).map fun code finds => ⟨code, rfl, finds⟩
          refine (renderExpr_finds value).bind fun valueCode ofValue => ?_
          refine keyed.bind ?_
          rintro _ ⟨keyCode, rfl, ofKey⟩
          exact (renderItems_finds rest).bind_pure fun codes each =>
            .cons (ofKey.left.left.append ofValue.right) each
termination_by structural items

theorem renderParameters_finds (parameters : List Parameter) :
    Emission.Yields (List.Forall₂ setting.layout.Finds (returned.ofParameters parameters))
      (renderParameters setting parameters) := by
  cases parameters with
  | nil => exact .pure .nil
  | cons parameter rest =>
      rcases parameter with ⟨name, default, byReference⟩
      cases default with
      | none =>
          exact (renderParameters_finds rest).bind_pure fun codes each => .cons .nil each
      | some default =>
          have given : Emission.Yields
              (fun shown => ∃ code, shown = some code ∧
                setting.layout.Finds (returned.ofExpr default) code)
              (some <$> renderExpr setting default) :=
            (renderExpr_finds default).map fun code finds => ⟨code, rfl, finds⟩
          refine given.bind ?_
          rintro _ ⟨code, rfl, finds⟩
          exact (renderParameters_finds rest).bind_pure fun codes each =>
            .cons finds.right.right each
termination_by structural parameters

theorem compileAssignment_finds (assignment : Assignment) :
    Emission.Yields
      (fun compiled =>
        setting.layout.Finds (returned.ofAssignment assignment) compiled.code)
      (compileAssignment setting assignment) := by
  rcases assignment with ⟨form, operator, target, property, index, value, location⟩
  cases value with
  | none =>
      have noValue : ∀ expression ∈ (none : Option Expr),
          Emission.Yields (setting.layout.Finds []) (renderExpr setting expression) := by
        simp
      have compiled : Emission.Yields _ (compileAssignment setting
          ⟨form, operator, target, property, index, none, location⟩) :=
        compileAssignment_finds_of (renderExprs_finds index) noValue
      simp only [ite_self, List.append_nil] at compiled
      exact compiled
  | some value =>
      have rendered := renderExpr_finds value
      exact compileAssignment_finds_of (renderExprs_finds index) (by simpa using rendered)
termination_by structural assignment

theorem compileAssignments_finds (assignments : List Assignment) :
    Emission.Yields (fun compiled => List.Forall₂ setting.layout.Finds
      (returned.ofAssignments assignments) (compiled.map (·.code)))
      (compileAssignments setting assignments) := by
  cases assignments with
  | nil => exact .pure .nil
  | cons assignment rest =>
      refine (compileAssignment_finds assignment).bind fun first ofFirst => ?_
      exact (compileAssignments_finds rest).bind_pure fun others ofOthers =>
        .cons ofFirst ofOthers
termination_by structural assignments

theorem emitStmt_shows (statement : Stmt) :
    Emission.Shows setting.layout (returned.ofStmt () statement)
      (emitStmt setting statement) := by
  cases statement with
  | assign location assignments =>
      have lines : returned.ofStmt () (.assign location assignments) =
          (returned.ofAssignments assignments).flatten :=
        congrArg List.flatten (List.map_id _)
      rw [lines]
      exact .bind_yields (compileAssignments_local setting assignments)
        (compileAssignments_finds assignments) fun compiled finds => .lines finds
  | declare location declarations => exact emitDeclarations_shows location declarations
  | expression location expression =>
      exact .bind_rendered (renderExpr_detached setting expression)
        (renderExpr_finds expression) fun code finds => .line finds.left
  | cond location condition body alternatives otherwise =>
      have head := renderCondition_finds (renderExpr_finds condition)
      rw [emitStmt_cond]
      cases otherwise with
      | none =>
          refine .bind_yields (renderCondition_local setting condition) head
            fun test finds => ?_
          apply (Emission.Shows.openBlock false finds.right.left).bind
          intro _
          apply Emission.Shows.bind_silent (.ofLocal (.lines _))
          intro _
          apply (emitBlock_shows body).bind
          intro _
          apply (emitBranches_shows alternatives).bind_last
          intro _
          exact .closeBlock .nil
      | some block =>
          refine .bind_yields (renderCondition_local setting condition) head
            fun test finds => ?_
          apply (Emission.Shows.openBlock false finds.right.left).bind
          intro _
          apply Emission.Shows.bind_silent (.ofLocal (.lines _))
          intro _
          apply (emitBlock_shows body).bind
          intro _
          apply (emitBranches_shows alternatives).bind
          intro _
          apply Emission.Shows.bind_silent (.continueBlock .nil)
          intro _
          apply (emitBlock_shows block).bind_last
          intro _
          exact .closeBlock .nil
  | loop location body => exact .block false .nil (emitBlock_shows body)
  | whileLoop location condition body =>
      exact .bind_rendered (renderExpr_detached setting condition)
        (renderExpr_finds condition) fun code finds =>
          .block false finds.right.left (emitBlock_shows body)
  | doWhile location body condition =>
      apply Emission.Shows.bind_silent (.openBlock false .nil)
      intro _
      apply (emitBlock_shows body).bind
      intro _
      exact .bind_rendered (renderExpr_detached setting condition)
        (renderExpr_finds condition) fun code finds => .closeBlock finds.right.left
  | forEach location key value reverse source body =>
      rw [emitStmt_forEach]
      refine .bind_rendered (renderExpr_detached setting source) (renderExpr_finds source)
        fun code finds => ?_
      have shownSource : setting.layout.Finds (returned.ofExpr source)
          (if reverse then "array_reverse(" ++ code ++ ")" else code) := by
        split
        · exact finds.right.left
        · exact finds
      apply Emission.Shows.bind_silent (.ofLocal (.onScope _))
      intro _
      apply Emission.Shows.bind_silent (.ofLocal (declareOptional_local _ location))
      intro _
      exact .block false (finds_forEachCode _ _ shownSource) (emitBlock_shows body)
  | switch location subject clauses =>
      exact .bind_rendered (renderExpr_detached setting subject)
        (renderExpr_finds subject)
        fun code finds => .block false finds.right.left (emitClauses_shows clauses)
  | continueLoop location => exact .line .nil
  | breakLoop location => exact .line .nil
  | returnValue location value =>
      cases value with
      | none => exact .line .nil
      | some value =>
          have rendered :=
            (renderExpr_finds_content setting value).and (renderExpr_finds value)
          exact .bind_rendered (renderExpr_detached setting value) rendered
            fun code finds => .line (finds.1.append finds.2).right.left
  | throwValue location value =>
      exact .bind_rendered (renderExpr_detached setting value) (renderExpr_finds value)
        fun code finds => .line finds.right.left
  | unset location target =>
      exact .bind_rendered (renderExpr_detached setting target) (renderExpr_finds target)
        fun code finds => .line finds.right.left
  | echo location values =>
      exact .bind_rendered (renderExprs_detached setting values)
        (renderExprs_finds values)
        fun codes each => .line (Layout.Finds.intercalate each).right.left
  | require location file =>
      exact .bind_rendered (renderExpr_detached setting file) (renderExpr_finds file)
        fun code finds => .line finds.right.left
  | tryCatch location body handlers =>
      apply Emission.Shows.bind_silent (.openBlock false .nil)
      intro _
      apply (emitBlock_shows body).bind
      intro _
      apply (emitHandlers_shows handlers).bind_last
      intro _
      exact .closeBlock .nil
  | comment location text => exact .ofLocal (.comment text)
  | empty location => exact .ofLocal (.pure ())
termination_by structural statement

theorem emitBlock_shows (statements : List Stmt) :
    Emission.Shows setting.layout (returned.ofBlock () statements)
      (emitBlock setting statements) := by
  cases statements with
  | nil => exact .ofLocal (.pure ())
  | cons statement rest =>
      apply (emitStmt_shows statement).bind
      intro _
      exact emitBlock_shows rest
termination_by structural statements

theorem emitDeclarations_shows (location : Location) (declarations : List Declaration) :
    Emission.Shows setting.layout (returned.ofDeclarations () declarations)
      (emitDeclarations setting location declarations) := by
  cases declarations with
  | nil => exact .ofLocal (.pure ())
  | cons declaration rest =>
      rcases declaration with ⟨name, value⟩
      cases value with
      | none =>
          exact .bind_silent (.ofLocal (.onScope _)) fun _ =>
            emitDeclarations_shows location rest
      | some value =>
          apply Emission.Shows.bind_silent (.ofLocal (.onScope _))
          intro _
          refine .bind_rendered (renderExpr_detached setting value)
            (renderExpr_finds value)
            fun code finds => ?_
          apply (Emission.Shows.line finds.right.left).bind
          intro _
          exact emitDeclarations_shows location rest
termination_by structural declarations

theorem emitBranches_shows (branches : List Branch) :
    Emission.Shows setting.layout (returned.ofBranches () branches)
      (emitBranches setting branches) := by
  cases branches with
  | nil => exact .ofLocal (.pure ())
  | cons branch rest =>
      rcases branch with ⟨condition, body⟩
      have head := renderCondition_finds (renderExpr_finds condition)
      rw [emitBranches_cons]
      refine .bind_yields (renderCondition_local setting condition) head
        fun test finds => ?_
      apply (Emission.Shows.continueBlock finds.right.left).bind
      intro _
      apply Emission.Shows.bind_silent (.ofLocal (.lines _))
      intro _
      apply (emitBlock_shows body).bind
      intro _
      exact emitBranches_shows rest
termination_by structural branches

theorem emitClauses_shows (clauses : List Clause) :
    Emission.Shows setting.layout (returned.ofClauses () clauses)
      (emitClauses setting clauses) := by
  cases clauses with
  | nil => exact .ofLocal (.pure ())
  | cons clause rest =>
      cases clause with
      | case test body =>
          exact .bind_rendered (renderExpr_detached setting test) (renderExpr_finds test)
            fun code finds =>
              .clause finds.right.left (emitBlock_shows body) (emitClauses_shows rest)
      | default body => exact .clause .nil (emitBlock_shows body) (emitClauses_shows rest)
termination_by structural clauses

theorem emitHandlers_shows (handlers : List Handler) :
    Emission.Shows setting.layout (returned.ofHandlers () handlers)
      (emitHandlers setting handlers) := by
  cases handlers with
  | nil => exact .ofLocal (.pure ())
  | cons handler rest =>
      rcases handler with ⟨classes, caught, body⟩
      rw [emitHandlers_cons]
      apply Emission.Shows.bind_silent (.ofLocal (declareOptional_local caught .unknown))
      intro _
      apply Emission.Shows.bind_silent (.continueBlock .nil)
      intro _
      apply (emitBlock_shows body).bind
      intro _
      exact emitHandlers_shows rest
termination_by structural handlers

end

/-! ## Definitions -/

theorem emitConstant_shows (constant : Constant) :
    Emission.Shows setting.layout (returned.ofConstant () constant)
      (emitConstant setting constant) := by
  apply Emission.Shows.bind_silent (.docblock constant.docblock)
  intro _
  exact .bind_rendered (renderExpr_detached setting constant.value)
    (renderExpr_finds setting constant.value) fun code finds => .line finds.right.left

theorem emitProperty_shows (property : Property) :
    Emission.Shows setting.layout (returned.ofProperty () property)
      (emitProperty setting property) := by
  apply Emission.Shows.bind_silent (.docblock property.docblock)
  intro _
  rcases property with ⟨visibility, name, default, shortcuts, docblock, location⟩
  cases default with
  | none => exact .line .nil
  | some default =>
      exact .bind_rendered (renderExpr_detached setting default)
        (renderExpr_finds setting default) fun code finds =>
          .line (finds.append .nil).right.left

theorem emitBody_shows {contents : List String} {head : String} (statements : List Stmt)
    (finds : setting.layout.Finds contents head) :
    Emission.Shows setting.layout (contents ++ returned.ofBlock () statements)
      (emitBody setting head statements) :=
  .block _ finds (emitBlock_shows setting statements)

theorem emitMethod_shows (inInterface : Bool) (method : Method) :
    Emission.Shows setting.layout (returned.ofMethod () method)
      (emitMethod setting inInterface method) := by
  apply Emission.Shows.bind_silent (.docblock method.docblock)
  intro _
  apply Emission.Shows.withScope
  refine .bind_rendered (renderParameters_detached setting method.parameters)
    (renderParameters_finds setting method.parameters) fun parameters each => ?_
  have head : setting.layout.Finds (returned.ofParameters method.parameters).flatten
      (method.head inInterface parameters) :=
    (finds_argumentCode each).right
  split
  · next signature =>
      rw [Method.isSignature, Bool.and_eq_true, Option.isNone_iff_eq_none] at signature
      rw [Gauge.ofMethod, signature.1]
      exact .line (head.left.append .nil)
  · exact emitBody_shows setting _ head

theorem emitFunction_shows (definition : FunctionDefinition) :
    Emission.Shows setting.layout
      (returned.ofBody () definition.parameters definition.statements)
      (emitFunction setting definition) := by
  apply Emission.Shows.bind_silent (.docblock definition.docblock)
  intro _
  apply Emission.Shows.withScope
  refine .bind_rendered (renderParameters_detached setting definition.parameters)
    (renderParameters_finds setting definition.parameters) fun parameters each => ?_
  exact emitBody_shows setting definition.statements (finds_argumentCode each).right

theorem emitMethods_shows (inInterface : Bool) (methods : List Method) :
    Emission.Shows setting.layout (methods.flatMap (returned.ofMethod ()))
      (emitMethods setting inInterface methods) := by
  induction methods with
  | nil => exact .ofLocal (.pure ())
  | cons method rest induction =>
      have first := emitMethod_shows setting inInterface method
      cases rest with
      | nil =>
          rw [List.flatMap_singleton]
          exact first
      | cons next others =>
          apply first.bind
          intro _
          apply Emission.Shows.bind_silent .blankLine
          intro _
          exact induction

theorem emitMembers_shows (inInterface : Bool) (constants : List Constant)
    (properties : List Property) (methods : List Method) :
    Emission.Shows setting.layout (returned.ofMembers () constants properties methods)
      (emitMembers setting inInterface constants properties methods) := by
  apply (Emission.Shows.forM fun constant _ => emitConstant_shows setting constant).bind
  intro _
  apply Emission.Shows.optional .blankLine
  apply (Emission.Shows.forM fun property _ => emitProperty_shows setting property).bind
  intro _
  apply Emission.Shows.optional .blankLine
  exact emitMethods_shows setting inInterface methods

theorem emitEntry_shows (entry : Entry) :
    Emission.Shows setting.layout (returned.ofEntry entry) (emitEntry setting entry) := by
  cases entry with
  | comment location text => exact .ofLocal (.comment text)
  | namespaceName location name =>
      exact .bind_silent (.ofLocal (.line _)) fun _ => .blankLine
  | imports location imported => exact .ofLocal (.lines _)
  | classDefinition definition =>
      have members := emitMembers_shows setting false definition.constants
        definition.properties definition.methods
      have head : setting.layout.Finds [] definition.head := .nil
      have block := Emission.Shows.block setting.layout.braceOnNewLine head members
      refine .bind_last ?_ fun _ => .blankLine
      exact .bind_silent (.docblock definition.docblock) fun _ => block
  | interfaceDefinition definition =>
      have members :=
        emitMembers_shows setting true definition.constants [] definition.methods
      have head : setting.layout.Finds [] definition.head := .nil
      have block := Emission.Shows.block setting.layout.braceOnNewLine head members
      refine .bind_last ?_ fun _ => .blankLine
      exact .bind_silent (.docblock definition.docblock) fun _ => block
  | functionDefinition definition =>
      exact (emitFunction_shows setting definition).bind_last fun _ => .blankLine
  | statement included => exact emitStmt_shows setting included

theorem emitProgram_shows (program : Program) :
    Emission.Shows setting.layout program.returned (emitProgram setting program) := by
  apply Emission.Shows.bind_silent (.ofLocal (.line _))
  intro _
  apply Emission.Shows.bind_silent .blankLine
  intro _
  exact .forM fun entry _ => emitEntry_shows setting entry

end

/-- The literals that layout leaves as they are stand in the file. -/
theorem toPhp_finds (setting : Setting) {program : Program} {php : String}
    (written : (program.toPhp setting).1 = .ok php) :
    setting.layout.Finds program.returned php := by
  rcases Emission.Leads.toPhp (emitProgram_shows setting program []) .nil written with
    ⟨page, finds, rfl⟩
  exact (Page.finds_content finds).left

end ZephirPhp
