import ZephirPhp.Proofs.Emission.Checked
import ZephirPhp.Proofs.Program.Assignments

/-! # The faults of emission

Emission of a body meets the faults at the sites of the body and no others, if the
assignments in it are complete.
-/

namespace ZephirPhp

open Survey (lets sites)

variable {setting : Setting} {bound : List String}

/-! ## Calls -/

theorem PseudoMethod.resolve_checked (receiver : Expr) (kind : Receiver)
    (literal : receiver.literalReceiver? = some kind) (method : String)
    (location : Location) :
    Checked bound bound ((Site.methodCall location receiver method).fault? setting).toList
      (Emission.ofExcept (PseudoMethod.resolve kind method location)) := by
  apply (Checked.ofExcept _).ofFaults
  rw [Site.fault?, literal, PseudoMethod.resolve]
  cases found : PseudoMethod.find? kind method <;> simp [found]

theorem methodCallCode_checked (receiver : Expr) (location : Location)
    (method object : String) (arguments : List String) :
    Checked bound bound ((Site.methodCall location receiver method).fault? setting).toList
      (methodCallCode receiver.literalReceiver? location method object arguments) := by
  cases literal : receiver.literalReceiver? with
  | none =>
      rw [Site.fault?, literal]
      exact .pure _
  | some kind =>
      rw [methodCallCode]
      apply (PseudoMethod.resolve_checked receiver kind literal method location).bind_last
      intro pseudoMethod
      split
      · exact (Checked.warn _).bind_pure
      · exact .pure _

theorem checkGlobals_checked (location : Location) (function : String)
    (arguments : List Expr) :
    Checked bound bound
      ((Site.functionCall location function arguments).fault? setting).toList
      (Emission.ofExcept (checkGlobals setting.globals location function arguments)) := by
  apply (Checked.ofExcept _).ofFaults
  rw [Site.fault?]
  cases checkGlobals setting.globals location function arguments <;> rfl

/-! ## Assignments -/

/-- A right-hand side that must have a value is refused if it is blank. -/
theorem compiled_checked (expression : Expr) (context : ExpressionContext)
    (expected : context.expectReturn = true) {code : String}
    (shown : Text.isVisible code = !expression.isBlank) :
    Checked bound bound ((Site.value expression).fault? setting).toList
      (Emission.ofExcept (expression.compiled context code)) := by
  apply (Checked.ofExcept _).ofFaults
  rw [Site.fault?, Expr.compiled, expected, Text.isEmpty_trim, shown]
  cases expression.isBlank <;> rfl

theorem targetCode_eq_ok {assignment : Assignment} (complete : assignment.IsComplete)
    (path : String) :
    assignment.form.targetCode assignment.target assignment.property path
      assignment.location =
      .ok (assignment.form.storage assignment.target
        (assignment.property.getD "") ++ path ++
        assignment.form.ending) := by
  have present := complete.property
  rw [AssignmentForm.targetCode]
  intro takes missing
  simp [takes, missing] at present

/-- Only forms with steps into an array have any to render. -/
theorem renderSteps_eq {assignment : Assignment} (complete : assignment.IsComplete) :
    (if assignment.form.takesIndex then renderExprs setting assignment.index
      else pure []) = renderExprs setting assignment.index := by
  split
  · rfl
  · rename_i takes
    rw [complete.index (by simpa using takes), renderExprs]

/-- The target of a complete assignment, after which the right-hand side is looked at. -/
theorem compileAssignment_eq {assignment : Assignment}
    (complete : assignment.IsComplete) :
    compileAssignment setting assignment = (do
      Emission.bind assignment.form.binding assignment.target assignment.location
      let steps ← renderExprs setting assignment.index
      let left :=
  assignment.form.storage assignment.target (assignment.property.getD "") ++
        String.join (steps.map fun step => "[" ++ step ++ "]") ++ assignment.form.ending
      match assignment.value with
      | none => pure ⟨left ++ ";", none⟩
      | some value => do
        let operator := assignment.operator.getD .assign
        let code ← renderExpr setting value
        let compiled ← Emission.ofExcept
          (value.compiled (assignmentContext assignment.form operator assignment.target)
            code)
        pure ⟨left ++ " " ++ operator.symbol ++ " " ++ code ++ ";", some compiled⟩) := by
  have rendered : _ = renderExprs setting assignment.index := renderSteps_eq complete
  have present := complete.value
  have target := targetCode_eq_ok complete
  rcases assignment with ⟨form, operator, target, property, index, value, location⟩
  simp only at rendered present target ⊢
  rw [← rendered, compileAssignment]
  cases value <;> cases form.takesIndex <;>
    simp_all [Emission.ofExcept]

/-! ## Conditions -/

/-- The condition of a branch, which may fetch a value into a variable. -/
def renderCondition (setting : Setting) : Expr → Emission Condition
  | .fetch location target source => do
    let source ← renderExpr setting source
    Emission.bind .write target location
    pure (Condition.ofFetch target source)
  | condition => do pure ⟨← renderExpr setting condition, none⟩

theorem renderCondition_checked {condition : Expr} {faults : List Diagnostic}
    (rendered : Checked bound bound faults (renderExpr setting condition)) :
    Checked bound (condition.fetched ++ bound) faults
      (renderCondition setting condition) := by
  cases condition with
  | fetch location target source =>
      rw [renderExpr] at rendered
      apply rendered.of_bind_pure.bind_last
      intro code
      exact (Checked.write target location).bind_pure
  | _ => exact rendered.bind_pure

theorem emitStmt_cond (location : Location) (condition : Expr) (body : List Stmt)
    (alternatives : List Branch) (otherwise : Option (List Stmt)) :
    emitStmt setting (.cond location condition body alternatives otherwise) = (do
      let condition ← renderCondition setting condition
      Emission.onPage (·.openBlock ("if (" ++ condition.test ++ ")") false)
      Emission.lines condition.assignment.toList
      emitBlock setting body
      emitBranches setting alternatives
      match otherwise with
      | none => Emission.onPage (·.closeBlock "")
      | some block => do
        Emission.onPage (·.continueBlock "else")
        emitBlock setting block
        Emission.onPage (·.closeBlock "")) := by
  cases condition <;> cases otherwise <;> simp [emitStmt, renderCondition]

theorem emitBranches_cons (condition : Expr) (body : List Stmt) (rest : List Branch) :
    emitBranches setting (⟨condition, body⟩ :: rest) = (do
      let condition ← renderCondition setting condition
      Emission.onPage (·.continueBlock ("elseif (" ++ condition.test ++ ")"))
      Emission.lines condition.assignment.toList
      emitBlock setting body
      emitBranches setting rest) := by
  cases condition <;> simp [emitBranches, renderCondition]

/-! ## Optional names -/

/-- Declares the name, if there is one. -/
def declareOptional (name : Option String) (location : Location) : Emission Unit :=
  match name with
  | some name => Emission.onScope (·.declare name location)
  | none => pure ()

theorem declareOptional_checked (name : Option String) (location : Location) :
    Checked bound (name.toList ++ bound) [] (declareOptional name location) := by
  cases name with
  | none => exact .pure ()
  | some name => exact .declare name location

theorem emitStmt_forEach (location : Location) (key value : Option String)
    (reverse : Bool) (source : Expr) (body : List Stmt) :
    emitStmt setting (.forEach location key value reverse source body) = (do
      let source ← renderExpr setting source
      let source := if reverse then "array_reverse(" ++ source ++ ")" else source
      let key := key.filter (· != "_")
      Emission.onScope (·.declare (value.getD "_") location)
      declareOptional key location
      Emission.onPage (·.openBlock (forEachCode key (value.getD "_") source) false)
      emitBlock setting body
      Emission.onPage (·.closeBlock "")) := by
  rw [emitStmt]
  cases key.filter (· != "_") <;> simp [declareOptional]

theorem emitHandlers_cons (classes : List String) (caught : Option String)
    (body : List Stmt) (rest : List Handler) :
    emitHandlers setting (⟨classes, caught, body⟩ :: rest) = (do
      declareOptional caught .unknown
      Emission.onPage (·.continueBlock (catchCode classes caught))
      emitBlock setting body
      emitHandlers setting rest) := by
  cases caught <;> simp [emitHandlers, declareOptional]

/-! ## Expressions and statements -/

theorem closureScope_binds {outer : Scope} (binds : outer.Binds bound)
    (location : Location) (parameters : List String) :
    (closureScope outer location parameters).Binds (boundInClosure bound parameters) := by
  have same := Scope.ofNames_binds location (boundInClosure bound parameters)
  rw [boundInClosure] at same ⊢
  rw [closureScope]
  simp only [binds "this"]
  exact same

variable (setting)

mutual

theorem renderExpr_checked (bound : List String) (expression : Expr)
    (complete : AllComplete (lets.ofExpr () expression)) :
    Checked bound bound (faultsAt setting (sites.ofExpr bound expression))
      (renderExpr setting expression) := by
  cases expression with
  | atom location leaf => exact .pure leaf.code
  | array location items =>
      exact (renderItems_checked bound items complete).bind_pure
  | unary location operator operand =>
      have rendered := renderExpr_checked bound operand complete
      cases operator with
      | isset =>
          cases operand with
          | index place container key =>
              have parts := AllComplete.append_iff.mp complete
              apply (renderExpr_checked bound container parts.1).followed
              intro containerCode
              exact (renderExpr_checked bound key parts.2).bind_pure
          | property place object name =>
              exact (renderExpr_checked bound object complete).bind_pure
          | stringProperty place object name =>
              exact (renderExpr_checked bound object complete).bind_pure
          | dynamicProperty place object name =>
              have parts := AllComplete.append_iff.mp complete
              apply (renderExpr_checked bound object parts.1).followed
              intro objectCode
              exact (renderExpr_checked bound name parts.2).bind_pure
          | _ => exact rendered.bind_pure
      | _ => exact rendered.bind_pure
  | binary location operator left right =>
      have parts := AllComplete.append_iff.mp complete
      apply (renderExpr_checked bound left parts.1).followed
      intro leftCode
      exact (renderExpr_checked bound right parts.2).bind_pure
  | range location inclusive first last =>
      have parts := AllComplete.append_iff.mp complete
      apply (renderExpr_checked bound first parts.1).followed
      intro firstCode
      exact (renderExpr_checked bound last parts.2).bind_pure
  | property location object name =>
      exact (renderExpr_checked bound object complete).bind_pure
  | dynamicProperty location object name =>
      have parts := AllComplete.append_iff.mp complete
      apply (renderExpr_checked bound object parts.1).followed
      intro objectCode
      exact (renderExpr_checked bound name parts.2).bind_pure
  | stringProperty location object name =>
      exact (renderExpr_checked bound object complete).bind_pure
  | index location container key =>
      have parts := AllComplete.append_iff.mp complete
      apply (renderExpr_checked bound container parts.1).followed
      intro containerCode
      exact (renderExpr_checked bound key parts.2).bind_pure
  | methodCall location receiver method arguments =>
      have parts := AllComplete.append_iff.mp complete
      apply Checked.regrouped
      apply (renderExpr_checked bound receiver parts.1).followed
      intro object
      apply (renderExprs_checked bound arguments parts.2).followed
      intro codes
      exact (methodCallCode_checked receiver location method object codes).site
  | functionCall location function arguments =>
      apply (checkGlobals_checked location function arguments).site_followed
      intro _
      exact (renderExprs_checked bound arguments complete).bind_pure
  | staticCall location className method arguments =>
      exact (renderExprs_checked bound arguments complete).bind_pure
  | new location className dynamic arguments =>
      exact (renderExprs_checked bound arguments complete).bind_pure
  | cast location type operand => exact renderExpr_checked bound operand complete
  | typeHint location type operand => exact renderExpr_checked bound operand complete
  | ternary location condition consequence alternative =>
      have parts := AllComplete.append_append_iff.mp complete
      apply (renderExpr_checked bound condition parts.1).followed
      intro conditionCode
      apply (renderExpr_checked bound consequence parts.2.1).followed
      intro consequenceCode
      exact (renderExpr_checked bound alternative parts.2.2).bind_pure
  | closure location parameters body =>
      have parts := AllComplete.append_iff.mp complete
      apply (renderParameters_checked bound parameters parts.1).followed
      intro parameterList
      -- The scope of the body depends on whether `this` is bound around the closure,
      -- which is known only of the emitter that has rendered the parameters.
      apply Checked.get_bind
      intro emitter binds
      have inside := closureScope_binds binds location (parameters.map (·.name))
      have written :=
        emitBlock_checked (boundInClosure bound (parameters.map (·.name))) body parts.2
      have closed := written.bind_last fun _ => Checked.onPage (·.closeBlock "")
      exact (Checked.withScope inside
        (.onOwnPage (.bind_silent (.onPage _) fun _ => closed))).bind_pure
  | arrow location parameter body =>
      have written := renderExpr_checked [parameter] body complete
      exact (Checked.withScope (Scope.ofNames_binds location [parameter])
        written).bind_pure
  | fetch location target source =>
      exact (renderExpr_checked bound source complete).bind_pure
termination_by structural expression

theorem renderExprs_checked (bound : List String) (expressions : List Expr)
    (complete : AllComplete (lets.ofExprs () expressions)) :
    Checked bound bound (faultsAt setting (sites.ofExprs bound expressions))
      (renderExprs setting expressions) := by
  cases expressions with
  | nil => exact .pure _
  | cons expression rest =>
      have parts := AllComplete.append_iff.mp complete
      apply (renderExpr_checked bound expression parts.1).followed
      intro code
      exact (renderExprs_checked bound rest parts.2).bind_pure
termination_by structural expressions

theorem renderItems_checked (bound : List String) (items : List ArrayItem)
    (complete : AllComplete (lets.ofItems () items)) :
    Checked bound bound (faultsAt setting (sites.ofItems bound items))
      (renderItems setting items) := by
  cases items with
  | nil => exact .pure _
  | cons item rest =>
      rcases AllComplete.append_iff.mp complete with ⟨ofItem, ofRest⟩
      rcases item with ⟨key, value⟩
      cases key with
      | none =>
          apply (renderExpr_checked bound value ofItem).followed
          intro valueCode
          exact (renderItems_checked bound rest ofRest).bind_pure
      | some key =>
          have parts := AllComplete.append_iff.mp ofItem
          apply Checked.regrouped
          apply (renderExpr_checked bound value parts.1).followed
          intro valueCode
          apply ((renderExpr_checked bound key parts.2).map).followed
          intro keyCode
          exact (renderItems_checked bound rest ofRest).bind_pure
termination_by structural items

theorem renderParameters_checked (bound : List String) (parameters : List Parameter)
    (complete : AllComplete (lets.ofParameters () parameters)) :
    Checked bound bound (faultsAt setting (sites.ofParameters bound parameters))
      (renderParameters setting parameters) := by
  cases parameters with
  | nil => exact .pure _
  | cons parameter rest =>
      rcases parameter with ⟨name, default, byReference⟩
      cases default with
      | none =>
          exact (renderParameters_checked bound rest complete).bind_pure
      | some default =>
          have parts := AllComplete.append_iff.mp complete
          apply ((renderExpr_checked bound default parts.1).map).followed
          intro code
          exact (renderParameters_checked bound rest parts.2).bind_pure
termination_by structural parameters

theorem compileAssignment_checked (bound : List String) (assignment : Assignment)
    (complete : AllComplete (lets.ofAssignment () assignment)) :
    Checked bound (boundByForm assignment.form assignment.target ++ bound)
      (faultsAt setting (sites.ofAssignment bound assignment))
      (compileAssignment setting assignment) := by
  rcases (AllComplete.assignment_iff assignment).mp complete with
    ⟨whole, ofIndex, ofValue⟩
  rw [compileAssignment_eq whole]
  rcases assignment with ⟨form, operator, target, property, index, value, location⟩
  cases value with
  | none =>
      apply (Checked.bindTarget setting _).site_followed
      intro _
      exact (renderExprs_checked _ index ofIndex).followed fun steps => .pure _
  | some value =>
      have ofValue := (AllComplete.single_iff value).mp ofValue
      apply (Checked.bindTarget setting _).site_followed
      intro _
      apply Checked.regrouped
      apply (renderExprs_checked _ index ofIndex).followed
      intro steps
      rw [faultsAt_append]
      -- The value is refused if its code is blank, so the code has to be known here.
      apply (renderExpr_checked _ value ofValue).bind_of_yields
        (renderExpr_yields setting value)
      intro code shown
      exact (compiled_checked value _ rfl shown).site.bind_pure
termination_by structural assignment

theorem compileAssignments_checked (bound : List String) (assignments : List Assignment)
    (complete : AllComplete (lets.ofAssignments () assignments)) :
    Checked bound
      (assignments.flatMap
        (fun assignment => boundByForm assignment.form assignment.target) ++
        bound)
      (faultsAt setting (sites.ofAssignments bound assignments))
      (compileAssignments setting assignments) := by
  cases assignments with
  | nil => exact .pure _
  | cons assignment rest =>
      have parts := AllComplete.append_iff.mp complete
      have compiled := compileAssignments_checked
        (boundByForm assignment.form assignment.target ++ bound) rest parts.2
      refine Checked.rename ((compileAssignment_checked bound assignment parts.1).followed
        fun _ => compiled.bind_pure) fun name => ?_
      simp only [List.flatMap_cons, List.mem_append]
      rw [or_assoc, or_left_comm]
termination_by structural assignments

theorem emitStmt_checked (bound : List String) (statement : Stmt)
    (complete : AllComplete (lets.ofStmt () statement)) :
    Checked bound (Noting.names.ofStmt statement ++ bound)
      (faultsAt setting (sites.ofStmt bound statement))
      (emitStmt setting statement) := by
  cases statement with
  | assign location assignments =>
      apply (compileAssignments_checked bound assignments complete).bind_last
      intro compiled
      exact .lines _
  | declare location declarations =>
      exact emitDeclarations_checked bound location declarations complete
  | expression location expression =>
      apply (renderExpr_checked bound expression complete).bind_last
      intro code
      exact .line _
  | cond location condition body alternatives otherwise =>
      rcases (AllComplete.cond_iff _ _ _ _ _).mp complete with
        ⟨ofCondition, ofBody, ofAlternatives, ofOtherwise⟩
      rw [emitStmt_cond]
      cases otherwise with
      | none =>
          simp only [Noting.ofStmt, List.append_assoc]
          apply (renderCondition_checked
            (renderExpr_checked bound condition ofCondition)).followed
          intro head
          apply Checked.bind_silent (.onPage _)
          intro _
          apply Checked.bind_silent (.lines _)
          intro _
          apply (emitBlock_checked _ body ofBody).followed
          intro _
          apply (emitBranches_checked _ alternatives ofAlternatives).bind_last
          intro _
          exact .onPage _
      | some block =>
          simp only [Noting.ofStmt, List.append_assoc]
          apply (renderCondition_checked
            (renderExpr_checked bound condition ofCondition)).followed
          intro head
          apply Checked.bind_silent (.onPage _)
          intro _
          apply Checked.bind_silent (.lines _)
          intro _
          apply (emitBlock_checked _ body ofBody).followed
          intro _
          apply (emitBranches_checked _ alternatives ofAlternatives).followed
          intro _
          apply Checked.bind_silent (.onPage _)
          intro _
          apply (emitBlock_checked _ block ofOtherwise).bind_last
          intro _
          exact .onPage _
  | loop location body =>
      apply Checked.bind_silent (.onPage _)
      intro _
      apply (emitBlock_checked bound body complete).bind_last
      intro _
      exact .onPage _
  | whileLoop location condition body =>
      have parts := AllComplete.append_iff.mp complete
      apply (renderExpr_checked bound condition parts.1).followed
      intro code
      apply Checked.bind_silent (.onPage _)
      intro _
      apply (emitBlock_checked bound body parts.2).bind_last
      intro _
      exact .onPage _
  | doWhile location body condition =>
      have parts := AllComplete.append_iff.mp complete
      apply Checked.bind_silent (.onPage _)
      intro _
      apply (emitBlock_checked bound body parts.1).followed
      intro _
      apply (renderExpr_checked _ condition parts.2).bind_last
      intro code
      exact .onPage _
  | forEach location key value reverse source body =>
      have parts := AllComplete.append_iff.mp complete
      have looped : (key.filter (· != "_")).toList ++ value.getD "_" :: bound =
          boundByLoop key value ++ bound := by
        rw [boundByLoop, List.append_assoc, List.singleton_append]
      rw [emitStmt_forEach, Noting.ofStmt, List.append_assoc]
      apply (renderExpr_checked bound source parts.1).followed
      intro code
      apply Checked.bind_silent (.declare (value.getD "_") location)
      intro _
      apply Checked.bind_silent (declareOptional_checked _ location)
      intro _
      rw [looped]
      apply Checked.bind_silent (.onPage _)
      intro _
      apply (emitBlock_checked _ body parts.2).bind_last
      intro _
      exact .onPage _
  | switch location subject clauses =>
      have parts := AllComplete.append_iff.mp complete
      apply (renderExpr_checked bound subject parts.1).followed
      intro code
      apply Checked.bind_silent (.onPage _)
      intro _
      apply (emitClauses_checked bound clauses parts.2).bind_last
      intro _
      exact .onPage _
  | continueLoop location => exact .line _
  | breakLoop location => exact .line _
  | returnValue location value =>
      cases value with
      | none => exact .line _
      | some value =>
          apply (renderExpr_checked bound value complete).bind_last
          intro code
          exact .line _
  | throwValue location value =>
      apply (renderExpr_checked bound value complete).bind_last
      intro code
      exact .line _
  | unset location target =>
      apply (renderExpr_checked bound target complete).bind_last
      intro code
      exact .line _
  | echo location values =>
      apply (renderExprs_checked bound values complete).bind_last
      intro codes
      exact .line _
  | require location file =>
      apply (renderExpr_checked bound file complete).bind_last
      intro code
      exact .line _
  | tryCatch location body handlers =>
      have parts := AllComplete.append_iff.mp complete
      rw [Noting.ofStmt, List.append_assoc]
      apply Checked.bind_silent (.onPage _)
      intro _
      apply (emitBlock_checked bound body parts.1).followed
      intro _
      apply (emitHandlers_checked _ handlers parts.2).bind_last
      intro _
      exact .onPage _
  | comment location text => exact .comment text
  | empty location => exact .pure _
termination_by structural statement

theorem emitBlock_checked (bound : List String) (statements : List Stmt)
    (complete : AllComplete (lets.ofBlock () statements)) :
    Checked bound (Noting.names.ofBlock statements ++ bound)
      (faultsAt setting (sites.ofBlock bound statements))
      (emitBlock setting statements) := by
  cases statements with
  | nil => exact .pure _
  | cons statement rest =>
      have parts := AllComplete.append_iff.mp complete
      rw [Noting.ofBlock, List.append_assoc]
      apply (emitStmt_checked bound statement parts.1).followed
      intro _
      exact emitBlock_checked _ rest parts.2
termination_by structural statements

theorem emitDeclarations_checked (bound : List String) (location : Location)
    (declarations : List Declaration)
    (complete : AllComplete (lets.ofDeclarations () declarations)) :
    Checked bound (declarations.map (·.name) ++ bound)
      (faultsAt setting (sites.ofDeclarations bound declarations))
      (emitDeclarations setting location declarations) := by
  cases declarations with
  | nil => exact .pure _
  | cons declaration rest =>
      rcases declaration with ⟨name, value⟩
      have same (other : String) : other ∈ rest.map (·.name) ++ name :: bound ↔
          other ∈ (⟨name, value⟩ :: rest : List Declaration).map (·.name) ++ bound := by
        simp only [List.map_cons, List.cons_append, List.mem_append, List.mem_cons]
        exact or_left_comm
      cases value with
      | none =>
          refine Checked.rename ?_ same
          apply Checked.bind_silent (.declare name location)
          intro _
          exact emitDeclarations_checked (name :: bound) location rest complete
      | some value =>
          have parts := AllComplete.append_iff.mp complete
          refine Checked.rename ?_ same
          apply Checked.bind_silent (.declare name location)
          intro _
          apply (renderExpr_checked (name :: bound) value parts.1).followed
          intro code
          apply Checked.bind_silent (.line _)
          intro _
          exact emitDeclarations_checked (name :: bound) location rest parts.2
termination_by structural declarations

theorem emitBranches_checked (bound : List String) (branches : List Branch)
    (complete : AllComplete (lets.ofBranches () branches)) :
    Checked bound (Noting.names.ofBranches branches ++ bound)
      (faultsAt setting (sites.ofBranches bound branches))
      (emitBranches setting branches) := by
  cases branches with
  | nil => exact .pure _
  | cons branch rest =>
      rcases branch with ⟨condition, body⟩
      rcases AllComplete.append_iff.mp complete with ⟨ofBranch, ofRest⟩
      have parts := AllComplete.append_iff.mp ofBranch
      rw [emitBranches_cons, Noting.ofBranches, List.append_assoc, List.append_assoc]
      apply Checked.regrouped
      apply (renderCondition_checked
        (renderExpr_checked bound condition parts.1)).followed
      intro head
      apply Checked.bind_silent (.onPage _)
      intro _
      apply Checked.bind_silent (.lines _)
      intro _
      apply (emitBlock_checked _ body parts.2).followed
      intro _
      exact emitBranches_checked _ rest ofRest
termination_by structural branches

theorem emitClauses_checked (bound : List String) (clauses : List Clause)
    (complete : AllComplete (lets.ofClauses () clauses)) :
    Checked bound (Noting.names.ofClauses clauses ++ bound)
      (faultsAt setting (sites.ofClauses bound clauses))
      (emitClauses setting clauses) := by
  cases clauses with
  | nil => exact .pure _
  | cons clause rest =>
      rcases AllComplete.append_iff.mp complete with ⟨ofClause, ofRest⟩
      cases clause with
      | case test body =>
          have parts := AllComplete.append_iff.mp ofClause
          rw [Noting.ofClauses, List.append_assoc]
          apply Checked.regrouped
          apply (renderExpr_checked bound test parts.1).followed
          intro code
          apply Checked.bind_silent (.line _)
          intro _
          apply Checked.bind_silent (.onPage _)
          intro _
          apply (emitBlock_checked bound body parts.2).followed
          intro _
          apply Checked.bind_silent (.onPage _)
          intro _
          exact emitClauses_checked _ rest ofRest
      | default body =>
          rw [Noting.ofClauses, List.append_assoc]
          apply Checked.bind_silent (.line _)
          intro _
          apply Checked.bind_silent (.onPage _)
          intro _
          apply (emitBlock_checked bound body ofClause).followed
          intro _
          apply Checked.bind_silent (.onPage _)
          intro _
          exact emitClauses_checked _ rest ofRest
termination_by structural clauses

theorem emitHandlers_checked (bound : List String) (handlers : List Handler)
    (complete : AllComplete (lets.ofHandlers () handlers)) :
    Checked bound (Noting.names.ofHandlers handlers ++ bound)
      (faultsAt setting (sites.ofHandlers bound handlers))
      (emitHandlers setting handlers) := by
  cases handlers with
  | nil => exact .pure _
  | cons handler rest =>
      rcases handler with ⟨classes, caught, body⟩
      have parts := AllComplete.append_iff.mp complete
      rw [emitHandlers_cons, Noting.ofHandlers, List.append_assoc, List.append_assoc]
      apply Checked.bind_silent (declareOptional_checked caught .unknown)
      intro _
      apply Checked.bind_silent (.onPage _)
      intro _
      apply (emitBlock_checked _ body parts.1).followed
      intro _
      exact emitHandlers_checked _ rest parts.2
termination_by structural handlers

end

end ZephirPhp
