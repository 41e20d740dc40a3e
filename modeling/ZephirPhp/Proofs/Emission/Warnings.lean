import ZephirPhp.Proofs.Emission.Faults
import ZephirPhp.Proofs.Program.Calls
import ZephirPhp.Proofs.Program.Reachable

/-! # The warnings of emission

Emission looks at every expression of a program once. It shows in the warnings: if
emission succeeds, then each call that deserves a warning has got one for each place
where it stands, although conditions are written twice and some arguments not at all. In
which order the warnings come is left open, since the value of an item is rendered
before its key and a call after its receiver and its arguments.
-/

namespace ZephirPhp

variable {α β : Type}

/-- If the emission succeeds, it has given the warnings that the calls deserve. -/
def Reports (calls : List MethodCall) (emission : Emission α) : Prop :=
  ∀ emitter value final, emission emitter = .ok value final →
    final.warnings.Perm (emitter.warnings ++ calls.filterMap MethodCall.warning?)

namespace Reports

variable {calls laterCalls : List MethodCall}

theorem silent {emission : Emission α}
    (keeps : ∀ emitter value final, emission emitter = .ok value final →
      final.warnings = emitter.warnings) : Reports [] emission := by
  intro emitter value final done
  simp [keeps emitter value final done]

theorem pure (value : α) : Reports [] (Pure.pure value : Emission α) := by
  refine silent fun emitter value final done => ?_
  cases done
  rfl

/-- The calls may be listed in another order. -/
theorem perm {emission : Emission α} (reports : Reports calls emission)
    (same : calls.Perm laterCalls) : Reports laterCalls emission := by
  intro emitter value final done
  exact (reports emitter value final done).trans ((same.filterMap _).append_left _)

/-! ### Sequences -/

theorem bind {first : Emission α} {next : α → Emission β} (start : Reports calls first)
    (rest : ∀ value, Reports laterCalls (next value)) :
    Reports (calls ++ laterCalls) (first >>= next) := by
  intro emitter result final done
  rcases (EStateM.bind_eq_ok_iff first next emitter final result).mp done with
    ⟨value, middle, started, continued⟩
  rw [List.filterMap_append, ← List.append_assoc]
  exact (rest value middle result final continued).trans
    ((start emitter value middle started).append_right _)

theorem regrouped {lastCalls : List MethodCall} {emission : Emission α}
    (reports : Reports (calls ++ (laterCalls ++ lastCalls)) emission) :
    Reports (calls ++ laterCalls ++ lastCalls) emission := by
  rwa [List.append_assoc]

/-- A first part without calls. -/
theorem bind_silent {first : Emission α} {next : α → Emission β}
    (start : Reports [] first) (rest : ∀ value, Reports calls (next value)) :
    Reports calls (first >>= next) :=
  bind start rest

/-- A last part without calls. -/
theorem bind_last {first : Emission α} {next : α → Emission β}
    (start : Reports calls first) (rest : ∀ value, Reports [] (next value)) :
    Reports calls (first >>= next) := by
  have whole := bind start rest
  rwa [List.append_nil] at whole

theorem bind_pure {first : Emission α} {change : α → β} (start : Reports calls first) :
    Reports calls (first >>= fun value => Pure.pure (change value)) :=
  bind_last start fun value => pure (change value)

/-- Making something of the result at the end reports nothing. -/
theorem of_bind_pure {first : Emission α} {change : α → β}
    (reports : Reports calls (first >>= fun value => Pure.pure (change value))) :
    Reports calls first := by
  intro emitter value final done
  exact reports emitter (change value) final
    ((EStateM.bind_eq_ok_iff _ _ _ _ _).mpr ⟨value, final, done, rfl⟩)

theorem map {first : Emission α} {change : α → β} (start : Reports calls first) :
    Reports calls (change <$> first) := by
  rw [map_eq_pure_bind]
  exact start.bind_pure

/-- A first part without calls that is left out on some condition. -/
theorem optional {condition : Prop} [Decidable condition] {first : Emission Unit}
    {next : Unit → Emission β} (start : Reports [] first)
    (rest : Reports calls (next ())) :
    Reports calls (if condition then first >>= next else next ()) := by
  split
  · exact bind_silent start fun _ => rest
  · exact rest

theorem forM {values : List α} {act : α → Emission Unit} {callsOf : α → List MethodCall}
    (each : ∀ value ∈ values, Reports (callsOf value) (act value)) :
    Reports (values.flatMap callsOf) (values.forM act) := by
  induction values with
  | nil => exact pure ()
  | cons value rest induction =>
      rw [List.forM, List.flatMap_cons]
      apply (each value List.mem_cons_self).bind
      intro _
      exact induction fun later member => each later (List.mem_cons_of_mem value member)

/-! ### Steps without calls -/

theorem onPage (change : Page → Page) : Reports [] (Emission.onPage change) := by
  refine silent fun emitter value final done => ?_
  cases done
  rfl

theorem onScope (change : Scope → Scope) : Reports [] (Emission.onScope change) := by
  refine silent fun emitter value final done => ?_
  cases done
  rfl

theorem line (text : String) : Reports [] (Emission.line text) :=
  onPage _

theorem lines (texts : List String) : Reports [] (Emission.lines texts) := by
  have each : Reports (texts.flatMap fun _ => []) (Emission.lines texts) :=
    forM fun text _ => line text
  rwa [List.flatMap_eq_nil_iff.mpr fun _ _ => rfl] at each

theorem comment (text : String) : Reports [] (Emission.comment text) :=
  onPage _

theorem docblock (text : Option String) : Reports [] (Emission.docblock text) := by
  cases text with
  | none => exact pure ()
  | some text => exact comment text

theorem ofExcept (result : Except Diagnostic α) :
    Reports [] (Emission.ofExcept result) := by
  refine silent fun emitter value final done => ?_
  cases result with
  | ok found =>
      cases done
      rfl
  | error diagnostic => cases done

theorem get : Reports [] (MonadState.get : Emission Emitter) := by
  refine silent fun emitter value final done => ?_
  cases done
  rfl

theorem bindTarget (binding : Binding) (name : String) (location : Location) :
    Reports [] (Emission.bind binding name location) := by
  cases binding with
  | write => exact onScope _
  | update => exact bind_silent get fun _ => bind_silent (ofExcept _) fun _ => onScope _
  | none => exact pure ()

theorem declareOptional (name : Option String) (location : Location) :
    Reports [] (declareOptional name location) := by
  cases name with
  | none => exact pure ()
  | some name => exact onScope _

/-! ### Other scopes and other pages -/

theorem withScope (scope : Scope) {emission : Emission α}
    (reports : Reports calls emission) :
    Reports calls (Emission.withScope scope emission) := by
  intro emitter value final done
  simp only [Emission.withScope] at done
  cases ended : emission { emitter with scope } with
  | ok found after =>
      rw [ended] at done
      cases done
      have reported := reports _ _ _ ended
      exact reported
  | error diagnostic after =>
      rw [ended] at done
      cases done

theorem onOwnPage {emission : Emission Unit} (reports : Reports calls emission) :
    Reports calls (Emission.onOwnPage emission) := by
  intro emitter value final done
  simp only [Emission.onOwnPage] at done
  cases ended : emission { emitter with page := .empty } with
  | ok found after =>
      rw [ended] at done
      cases done
      have reported := reports _ _ _ ended
      exact reported
  | error diagnostic after =>
      rw [ended] at done
      cases done

end Reports

/-! ## Calls -/

namespace Reports

theorem warn {call : MethodCall} {warning : Warning}
    (deserved : call.warning? = some warning) :
    Reports [call] (Emission.warn warning) := by
  intro emitter value final done
  cases done
  rw [List.filterMap_cons_some deserved, List.filterMap_nil]

/-- A call of which there is nothing to say. -/
theorem unremarkable {call : MethodCall} {emission : Emission α}
    (nothing : call.warning? = none) (reports : Reports [] emission) :
    Reports [call] emission := by
  intro emitter value final done
  rw [List.filterMap_cons_none nothing]
  exact reports emitter value final done

end Reports

theorem methodCallCode_reports (location : Location) (receiver : Expr)
    (method object : String) (arguments : List String) :
    Reports [⟨location, receiver, method⟩]
      (methodCallCode receiver.literalReceiver? location method object arguments) := by
  cases literal : receiver.literalReceiver? with
  | none => exact .unremarkable (by simp [MethodCall.warning?, literal]) (.pure _)
  | some kind =>
      rw [methodCallCode, PseudoMethod.resolve]
      cases found : PseudoMethod.find? kind method with
      | none =>
          intro emitter value final impossible
          cases impossible
      | some pseudoMethod =>
          simp only [Emission.ofExcept, pure_bind]
          split
          · rename_i inPlace
            have deserved : MethodCall.warning? ⟨location, receiver, method⟩ =
                some ⟨method, pseudoMethod.function, location⟩ := by
              simp [MethodCall.warning?, literal, found, inPlace]
            exact (Reports.warn deserved).bind_pure
          · rename_i copies
            exact .unremarkable
              (by simp [MethodCall.warning?, literal, found, copies]) (.pure _)

/-! ## Expressions and statements -/

/-- What a condition fetches is written twice and rendered once. -/
theorem renderCondition_reports {setting : Setting} {condition : Expr}
    {calls : List MethodCall} (rendered : Reports calls (renderExpr setting condition)) :
    Reports calls (renderCondition setting condition) := by
  cases condition with
  | fetch location target source =>
      rw [renderExpr] at rendered
      apply rendered.of_bind_pure.bind_last
      intro code
      exact (Reports.bindTarget .write target location).bind_pure
  | _ => exact rendered.bind_pure

section

open Survey (lets calls)

variable (setting : Setting)

mutual

theorem renderExpr_reports (expression : Expr)
    (complete : AllComplete (lets.ofExpr () expression)) :
    Reports (calls.ofExpr () expression) (renderExpr setting expression) := by
  cases expression with
  | atom location leaf => exact .pure leaf.code
  | array location items => exact (renderItems_reports items complete).bind_pure
  | unary location operator operand =>
      have rendered := renderExpr_reports operand complete
      cases operator with
      | isset =>
          cases operand with
          | index place container key =>
              have complete := AllComplete.append_iff.mp complete
              apply (renderExpr_reports container complete.1).bind
              intro containerCode
              exact (renderExpr_reports key complete.2).bind_pure
          | property place object name =>
              exact (renderExpr_reports object complete).bind_pure
          | stringProperty place object name =>
              exact (renderExpr_reports object complete).bind_pure
          | dynamicProperty place object name =>
              have complete := AllComplete.append_iff.mp complete
              apply (renderExpr_reports object complete.1).bind
              intro objectCode
              exact (renderExpr_reports name complete.2).bind_pure
          | _ => exact rendered.bind_pure
      | _ => exact rendered.bind_pure
  | binary location operator left right =>
      have complete := AllComplete.append_iff.mp complete
      apply (renderExpr_reports left complete.1).bind
      intro leftCode
      exact (renderExpr_reports right complete.2).bind_pure
  | range location inclusive first last =>
      have complete := AllComplete.append_iff.mp complete
      apply (renderExpr_reports first complete.1).bind
      intro firstCode
      exact (renderExpr_reports last complete.2).bind_pure
  | property location object name => exact (renderExpr_reports object complete).bind_pure
  | dynamicProperty location object name =>
      have complete := AllComplete.append_iff.mp complete
      apply (renderExpr_reports object complete.1).bind
      intro objectCode
      exact (renderExpr_reports name complete.2).bind_pure
  | stringProperty location object name =>
      exact (renderExpr_reports object complete).bind_pure
  | index location container key =>
      have complete := AllComplete.append_iff.mp complete
      apply (renderExpr_reports container complete.1).bind
      intro containerCode
      exact (renderExpr_reports key complete.2).bind_pure
  | methodCall location receiver method arguments =>
      have complete := AllComplete.append_iff.mp complete
      -- The call comes last, after what is inside it.
      refine Reports.perm ?_ (List.perm_append_singleton _ _)
      rw [List.append_assoc]
      apply (renderExpr_reports receiver complete.1).bind
      intro object
      apply (renderExprs_reports arguments complete.2).bind
      intro codes
      exact methodCallCode_reports location receiver method object codes
  | functionCall location function arguments =>
      apply Reports.bind_silent (.ofExcept _)
      intro _
      exact (renderExprs_reports arguments complete).bind_pure
  | staticCall location className method arguments =>
      exact (renderExprs_reports arguments complete).bind_pure
  | new location className dynamic arguments =>
      exact (renderExprs_reports arguments complete).bind_pure
  | cast location type operand => exact renderExpr_reports operand complete
  | typeHint location type operand => exact renderExpr_reports operand complete
  | ternary location condition consequence alternative =>
      have complete := AllComplete.append_append_iff.mp complete
      apply (renderExpr_reports condition complete.1).bind
      intro conditionCode
      apply (renderExpr_reports consequence complete.2.1).bind
      intro consequenceCode
      exact (renderExpr_reports alternative complete.2.2).bind_pure
  | closure location parameters body =>
      have complete := AllComplete.append_iff.mp complete
      apply (renderParameters_reports parameters complete.1).bind
      intro parameterList
      apply Reports.bind_silent .get
      intro emitter
      have written := (emitBlock_reports body complete.2).bind_last fun _ =>
        Reports.onPage (·.closeBlock "")
      exact (Reports.withScope _
        (.onOwnPage (.bind_silent (.onPage _) fun _ => written))).bind_pure
  | arrow location parameter body =>
      exact (Reports.withScope _ (renderExpr_reports body complete)).bind_pure
  | fetch location target source => exact (renderExpr_reports source complete).bind_pure
termination_by structural expression

theorem renderExprs_reports (expressions : List Expr)
    (complete : AllComplete (lets.ofExprs () expressions)) :
    Reports (calls.ofExprs () expressions) (renderExprs setting expressions) := by
  cases expressions with
  | nil => exact .pure _
  | cons expression rest =>
      have complete := AllComplete.append_iff.mp complete
      apply (renderExpr_reports expression complete.1).bind
      intro code
      exact (renderExprs_reports rest complete.2).bind_pure
termination_by structural expressions

theorem renderItems_reports (items : List ArrayItem)
    (complete : AllComplete (lets.ofItems () items)) :
    Reports (calls.ofItems () items) (renderItems setting items) := by
  cases items with
  | nil => exact .pure _
  | cons item rest =>
      rcases AllComplete.append_iff.mp complete with ⟨ofItem, ofRest⟩
      rcases item with ⟨key, value⟩
      cases key with
      | none =>
          apply (renderExpr_reports value ofItem).bind
          intro valueCode
          exact (renderItems_reports rest ofRest).bind_pure
      | some key =>
          have parts := AllComplete.append_iff.mp ofItem
          apply Reports.regrouped
          apply (renderExpr_reports value parts.1).bind
          intro valueCode
          apply ((renderExpr_reports key parts.2).map).bind
          intro keyCode
          exact (renderItems_reports rest ofRest).bind_pure
termination_by structural items

theorem renderParameters_reports (parameters : List Parameter)
    (complete : AllComplete (lets.ofParameters () parameters)) :
    Reports (calls.ofParameters () parameters) (renderParameters setting parameters) := by
  cases parameters with
  | nil => exact .pure _
  | cons parameter rest =>
      rcases parameter with ⟨name, default, byReference⟩
      cases default with
      | none => exact (renderParameters_reports rest complete).bind_pure
      | some default =>
          have complete := AllComplete.append_iff.mp complete
          apply ((renderExpr_reports default complete.1).map).bind
          intro code
          exact (renderParameters_reports rest complete.2).bind_pure
termination_by structural parameters

theorem compileAssignment_reports (assignment : Assignment)
    (complete : AllComplete (lets.ofAssignment () assignment)) :
    Reports (calls.ofAssignment () assignment)
      (compileAssignment setting assignment) := by
  rcases (AllComplete.assignment_iff assignment).mp complete with
    ⟨whole, ofIndex, ofValue⟩
  rw [compileAssignment_eq whole]
  rcases assignment with ⟨form, operator, target, property, index, value, location⟩
  cases value with
  | none =>
      apply Reports.bind_silent (.bindTarget _ _ _)
      intro _
      exact (renderExprs_reports index ofIndex).bind_pure
  | some value =>
      have ofValue := (AllComplete.single_iff value).mp ofValue
      apply Reports.bind_silent (.bindTarget _ _ _)
      intro _
      apply (renderExprs_reports index ofIndex).bind
      intro steps
      apply (renderExpr_reports value ofValue).bind_last
      intro code
      exact (Reports.ofExcept _).bind_pure
termination_by structural assignment

theorem compileAssignments_reports (assignments : List Assignment)
    (complete : AllComplete (lets.ofAssignments () assignments)) :
    Reports (calls.ofAssignments () assignments)
      (compileAssignments setting assignments) := by
  cases assignments with
  | nil => exact .pure _
  | cons assignment rest =>
      have complete := AllComplete.append_iff.mp complete
      apply (compileAssignment_reports assignment complete.1).bind
      intro compiled
      exact (compileAssignments_reports rest complete.2).bind_pure
termination_by structural assignments

theorem emitStmt_reports (statement : Stmt)
    (complete : AllComplete (lets.ofStmt () statement)) :
    Reports (calls.ofStmt () statement) (emitStmt setting statement) := by
  cases statement with
  | assign location assignments =>
      apply (compileAssignments_reports assignments complete).bind_last
      intro compiled
      exact .lines _
  | declare location declarations =>
      exact emitDeclarations_reports location declarations complete
  | expression location expression =>
      apply (renderExpr_reports expression complete).bind_last
      intro code
      exact .line _
  | cond location condition body alternatives otherwise =>
      rcases (AllComplete.cond_iff _ _ _ _ _).mp complete with
        ⟨ofCondition, ofBody, ofAlternatives, ofOtherwise⟩
      rw [emitStmt_cond]
      cases otherwise with
      | none =>
          apply (renderCondition_reports (renderExpr_reports condition ofCondition)).bind
          intro head
          apply Reports.bind_silent (.onPage _)
          intro _
          apply Reports.bind_silent (.lines _)
          intro _
          apply (emitBlock_reports body ofBody).bind
          intro _
          apply (emitBranches_reports alternatives ofAlternatives).bind_last
          intro _
          exact .onPage _
      | some block =>
          apply (renderCondition_reports (renderExpr_reports condition ofCondition)).bind
          intro head
          apply Reports.bind_silent (.onPage _)
          intro _
          apply Reports.bind_silent (.lines _)
          intro _
          apply (emitBlock_reports body ofBody).bind
          intro _
          apply (emitBranches_reports alternatives ofAlternatives).bind
          intro _
          apply Reports.bind_silent (.onPage _)
          intro _
          apply (emitBlock_reports block ofOtherwise).bind_last
          intro _
          exact .onPage _
  | loop location body =>
      apply Reports.bind_silent (.onPage _)
      intro _
      apply (emitBlock_reports body complete).bind_last
      intro _
      exact .onPage _
  | whileLoop location condition body =>
      have complete := AllComplete.append_iff.mp complete
      apply (renderExpr_reports condition complete.1).bind
      intro code
      apply Reports.bind_silent (.onPage _)
      intro _
      apply (emitBlock_reports body complete.2).bind_last
      intro _
      exact .onPage _
  | doWhile location body condition =>
      have complete := AllComplete.append_iff.mp complete
      apply Reports.bind_silent (.onPage _)
      intro _
      apply (emitBlock_reports body complete.1).bind
      intro _
      apply (renderExpr_reports condition complete.2).bind_last
      intro code
      exact .onPage _
  | forEach location key value reverse source body =>
      have complete := AllComplete.append_iff.mp complete
      rw [emitStmt_forEach]
      apply (renderExpr_reports source complete.1).bind
      intro code
      apply Reports.bind_silent (.onScope _)
      intro _
      apply Reports.bind_silent (.declareOptional _ location)
      intro _
      apply Reports.bind_silent (.onPage _)
      intro _
      apply (emitBlock_reports body complete.2).bind_last
      intro _
      exact .onPage _
  | switch location subject clauses =>
      have complete := AllComplete.append_iff.mp complete
      apply (renderExpr_reports subject complete.1).bind
      intro code
      apply Reports.bind_silent (.onPage _)
      intro _
      apply (emitClauses_reports clauses complete.2).bind_last
      intro _
      exact .onPage _
  | continueLoop location => exact .line _
  | breakLoop location => exact .line _
  | returnValue location value =>
      cases value with
      | none => exact .line _
      | some value =>
          apply (renderExpr_reports value complete).bind_last
          intro code
          exact .line _
  | throwValue location value =>
      apply (renderExpr_reports value complete).bind_last
      intro code
      exact .line _
  | unset location target =>
      apply (renderExpr_reports target complete).bind_last
      intro code
      exact .line _
  | echo location values =>
      apply (renderExprs_reports values complete).bind_last
      intro codes
      exact .line _
  | require location file =>
      apply (renderExpr_reports file complete).bind_last
      intro code
      exact .line _
  | tryCatch location body handlers =>
      have complete := AllComplete.append_iff.mp complete
      apply Reports.bind_silent (.onPage _)
      intro _
      apply (emitBlock_reports body complete.1).bind
      intro _
      apply (emitHandlers_reports handlers complete.2).bind_last
      intro _
      exact .onPage _
  | comment location text => exact .comment text
  | empty location => exact .pure _
termination_by structural statement

theorem emitBlock_reports (statements : List Stmt)
    (complete : AllComplete (lets.ofBlock () statements)) :
    Reports (calls.ofBlock () statements) (emitBlock setting statements) := by
  cases statements with
  | nil => exact .pure _
  | cons statement rest =>
      have complete := AllComplete.append_iff.mp complete
      apply (emitStmt_reports statement complete.1).bind
      intro _
      exact emitBlock_reports rest complete.2
termination_by structural statements

theorem emitDeclarations_reports (location : Location) (declarations : List Declaration)
    (complete : AllComplete (lets.ofDeclarations () declarations)) :
    Reports (calls.ofDeclarations () declarations)
      (emitDeclarations setting location declarations) := by
  cases declarations with
  | nil => exact .pure _
  | cons declaration rest =>
      rcases declaration with ⟨name, value⟩
      cases value with
      | none =>
          apply Reports.bind_silent (.onScope _)
          intro _
          exact emitDeclarations_reports location rest complete
      | some value =>
          have complete := AllComplete.append_iff.mp complete
          apply Reports.bind_silent (.onScope _)
          intro _
          apply (renderExpr_reports value complete.1).bind
          intro code
          apply Reports.bind_silent (.line _)
          intro _
          exact emitDeclarations_reports location rest complete.2
termination_by structural declarations

theorem emitBranches_reports (branches : List Branch)
    (complete : AllComplete (lets.ofBranches () branches)) :
    Reports (calls.ofBranches () branches) (emitBranches setting branches) := by
  cases branches with
  | nil => exact .pure _
  | cons branch rest =>
      rcases branch with ⟨condition, body⟩
      rcases AllComplete.append_iff.mp complete with ⟨ofBranch, ofRest⟩
      have parts := AllComplete.append_iff.mp ofBranch
      rw [emitBranches_cons]
      apply Reports.regrouped
      apply (renderCondition_reports (renderExpr_reports condition parts.1)).bind
      intro head
      apply Reports.bind_silent (.onPage _)
      intro _
      apply Reports.bind_silent (.lines _)
      intro _
      apply (emitBlock_reports body parts.2).bind
      intro _
      exact emitBranches_reports rest ofRest
termination_by structural branches

theorem emitClauses_reports (clauses : List Clause)
    (complete : AllComplete (lets.ofClauses () clauses)) :
    Reports (calls.ofClauses () clauses) (emitClauses setting clauses) := by
  cases clauses with
  | nil => exact .pure _
  | cons clause rest =>
      rcases AllComplete.append_iff.mp complete with ⟨ofClause, ofRest⟩
      cases clause with
      | case test body =>
          have parts := AllComplete.append_iff.mp ofClause
          apply Reports.regrouped
          apply (renderExpr_reports test parts.1).bind
          intro code
          apply Reports.bind_silent (.line _)
          intro _
          apply Reports.bind_silent (.onPage _)
          intro _
          apply (emitBlock_reports body parts.2).bind
          intro _
          apply Reports.bind_silent (.onPage _)
          intro _
          exact emitClauses_reports rest ofRest
      | default body =>
          apply Reports.bind_silent (.line _)
          intro _
          apply Reports.bind_silent (.onPage _)
          intro _
          apply (emitBlock_reports body ofClause).bind
          intro _
          apply Reports.bind_silent (.onPage _)
          intro _
          exact emitClauses_reports rest ofRest
termination_by structural clauses

theorem emitHandlers_reports (handlers : List Handler)
    (complete : AllComplete (lets.ofHandlers () handlers)) :
    Reports (calls.ofHandlers () handlers) (emitHandlers setting handlers) := by
  cases handlers with
  | nil => exact .pure _
  | cons handler rest =>
      rcases handler with ⟨classes, caught, body⟩
      have complete := AllComplete.append_iff.mp complete
      rw [emitHandlers_cons]
      apply Reports.bind_silent (.declareOptional caught .unknown)
      intro _
      apply Reports.bind_silent (.onPage _)
      intro _
      apply (emitBlock_reports body complete.1).bind
      intro _
      exact emitHandlers_reports rest complete.2
termination_by structural handlers

end

/-! ## Definitions -/

theorem emitConstant_reports (constant : Constant)
    (complete : AllComplete (lets.ofConstant () constant)) :
    Reports (calls.ofConstant () constant) (emitConstant setting constant) := by
  apply Reports.bind_silent (.docblock constant.docblock)
  intro _
  apply (renderExpr_reports setting constant.value complete).bind_last
  intro code
  exact .line _

theorem emitProperty_reports (property : Property)
    (complete : AllComplete (lets.ofProperty () property)) :
    Reports (calls.ofProperty () property) (emitProperty setting property) := by
  apply Reports.bind_silent (.docblock property.docblock)
  intro _
  rcases property with ⟨visibility, name, default, shortcuts, docblock, location⟩
  cases default with
  | none => exact .line _
  | some default =>
      apply (renderExpr_reports setting default
        ((AllComplete.single_iff default).mp complete)).bind
      intro code
      exact .line _

theorem emitBody_reports (head : String) (statements : List Stmt)
    (complete : AllComplete (lets.ofBlock () statements)) :
    Reports (calls.ofBlock () statements) (emitBody setting head statements) := by
  apply Reports.bind_silent (.onPage _)
  intro _
  apply (emitBlock_reports setting statements complete).bind_last
  intro _
  exact .onPage _

theorem emitMethod_reports (inInterface : Bool) (method : Method)
    (complete : AllComplete (lets.ofMethod () method)) :
    Reports (calls.ofMethod () method) (emitMethod setting inInterface method) := by
  have complete := AllComplete.append_iff.mp complete
  apply Reports.bind_silent (.docblock method.docblock)
  intro _
  apply Reports.withScope
  apply (renderParameters_reports setting method.parameters complete.1).bind
  intro parameters
  split
  · -- A signature has no statements that could be left out.
    rename_i signature
    rw [Method.isSignature, Bool.and_eq_true, Option.isNone_iff_eq_none] at signature
    rw [signature.1]
    exact .line _
  · exact emitBody_reports setting _ _ complete.2

theorem emitMethods_reports (inInterface : Bool) (methods : List Method)
    (complete : AllComplete (methods.flatMap (lets.ofMethod ()))) :
    Reports (methods.flatMap (calls.ofMethod ()))
      (emitMethods setting inInterface methods) := by
  induction methods with
  | nil => exact .pure ()
  | cons method rest induction =>
      have complete := AllComplete.append_iff.mp complete
      have first := emitMethod_reports setting inInterface method complete.1
      rw [List.flatMap_cons]
      cases rest with
      | nil => simpa [emitMethods] using first
      | cons next others =>
          apply first.bind
          intro _
          apply Reports.bind_silent (.onPage _)
          intro _
          exact induction complete.2

theorem emitMembers_reports (inInterface : Bool) (constants : List Constant)
    (properties : List Property) (methods : List Method)
    (complete : AllComplete (lets.ofMembers (fun _ => ()) constants properties methods)) :
    Reports (calls.ofMembers (fun _ => ()) constants properties methods)
      (emitMembers setting inInterface constants properties methods) := by
  rcases AllComplete.append_append_iff.mp complete with
    ⟨ofConstants, ofProperties, ofMethods⟩
  rw [AllComplete.flatMap_iff] at ofConstants ofProperties
  apply (Reports.forM fun constant member =>
    emitConstant_reports setting constant (ofConstants constant member)).bind
  intro _
  apply Reports.optional (.onPage _)
  apply (Reports.forM fun property member =>
    emitProperty_reports setting property (ofProperties property member)).bind
  intro _
  apply Reports.optional (.onPage _)
  exact emitMethods_reports setting inInterface methods ofMethods

theorem emitFunction_reports (definition : FunctionDefinition)
    (complete : AllComplete
      (lets.ofBody () definition.parameters definition.statements)) :
    Reports (calls.ofBody () definition.parameters definition.statements)
      (emitFunction setting definition) := by
  have complete := AllComplete.append_iff.mp complete
  apply Reports.bind_silent (.docblock definition.docblock)
  intro _
  apply Reports.withScope
  apply (renderParameters_reports setting definition.parameters complete.1).bind
  intro parameters
  exact emitBody_reports setting _ definition.statements complete.2

theorem emitEntry_reports (entry : Entry) (complete : AllComplete entry.assignments) :
    Reports (calls.ofEntry (fun _ => ()) entry) (emitEntry setting entry) := by
  cases entry with
  | comment location text => exact .comment text
  | namespaceName location name =>
      apply Reports.bind_silent (.line _)
      intro _
      exact .onPage _
  | imports location imports => exact .lines _
  | classDefinition definition =>
      have members := emitMembers_reports setting false definition.constants
        definition.properties definition.methods complete
      refine .bind_last (.bind_silent (.docblock _) fun _ => ?_) fun _ => .onPage _
      refine .bind_silent (.onPage _) fun _ => ?_
      exact members.bind_last fun _ => .onPage _
  | interfaceDefinition definition =>
      have members :=
        emitMembers_reports setting true definition.constants [] definition.methods
        complete
      refine .bind_last (.bind_silent (.docblock _) fun _ => ?_) fun _ => .onPage _
      refine .bind_silent (.onPage _) fun _ => ?_
      exact members.bind_last fun _ => .onPage _
  | functionDefinition definition =>
      apply (emitFunction_reports setting definition complete).bind_last
      intro _
      exact .onPage _
  | statement included => exact emitStmt_reports setting included complete

theorem emitProgram_reports (program : Program) (wellFormed : program.WellFormed) :
    Reports program.calls (emitProgram setting program) := by
  have each := program.wellFormed_iff.mp wellFormed
  apply Reports.bind_silent (.line _)
  intro _
  apply Reports.bind_silent (.onPage _)
  intro _
  exact .forM fun entry member =>
    emitEntry_reports setting entry (each entry member).assignments

end

/-- If a program that was read from nodes becomes PHP, the warnings are those that its
method calls deserve, wherever they stand, each as often as there is such a call. -/
theorem warnings_perm_calls {setting : Setting} {nodes : List Node} {program : Program}
    {php : String} (decoded : Program.ofNodes nodes = .ok program)
    (emitted : (program.toPhp setting).1 = .ok php) :
    (program.toPhp setting).2.Perm (program.calls.filterMap MethodCall.warning?) := by
  have reports :=
    emitProgram_reports setting program (ofNodes_wellFormed nodes program decoded)
  rw [Program.toPhp] at emitted ⊢
  cases ended : emitProgram setting program {} with
  | ok _ emitter => simpa using reports {} _ emitter ended
  | error diagnostic emitter =>
      rw [ended] at emitted
      cases emitted

/-- A function that fetches what is shifted from an array and pops from another one, with
an argument that the function of PHP does not take. -/
def shiftingProgram : Program :=
  let shifted (line : UInt32) : Expr :=
    .methodCall { line } (.atom .unknown .emptyArray) "shift" []
  let popped : Expr :=
    .methodCall { line := some 3 } (.array .unknown []) "pop" [shifted 2]
  { entries := [.functionDefinition
      { name := "f"
        parameters := []
        statements := [.cond .unknown (.fetch .unknown "x" (shifted 1)) [] [] none,
          .expression .unknown popped]
        docblock := none
        location := .unknown }] }

theorem warnings_perm_calls_of_shifting :
    (∃ php, (shiftingProgram.toPhp {}).1 = .ok php) ∧
      (shiftingProgram.toPhp {}).2.Perm
        [⟨"shift", "array_shift", { line := some 1 }⟩,
          ⟨"pop", "array_pop", { line := some 3 }⟩,
          ⟨"shift", "array_shift", { line := some 2 }⟩] := by
  have wellFormed : shiftingProgram.WellFormed := by
    constructor
    · intro statement member
      simp [shiftingProgram] at member
    · exact List.forall_mem_nil _
  have succeeds : (shiftingProgram.toPhp {}).1.toBool = true := by decide +kernel
  have deserved : shiftingProgram.calls.filterMap MethodCall.warning? =
      [⟨"shift", "array_shift", { line := some 1 }⟩,
        ⟨"pop", "array_pop", { line := some 3 }⟩,
        ⟨"shift", "array_shift", { line := some 2 }⟩] := by
    decide +kernel
  cases emitted : (shiftingProgram.toPhp {}).1 with
  | error diagnostic =>
      rw [emitted] at succeeds
      cases succeeds
  | ok php =>
      refine ⟨⟨php, rfl⟩, ?_⟩
      rw [← deserved]
      exact warnings_perm_calls (ofNodes_toNodes shiftingProgram wellFormed) emitted

end ZephirPhp
