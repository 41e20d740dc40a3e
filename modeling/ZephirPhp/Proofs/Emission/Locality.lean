import Mathlib.Tactic.Choose
import ZephirPhp.Proofs.Emission.Refusal
import ZephirPhp.Proofs.Runs

/-! # What emission depends on

Rendering an expression looks at one thing of the emitter, whether the object is known,
and changes one, the warnings. Writing a statement looks at the scope, the depth and the
line at hand, and only adds to the lines and the warnings that are there.

The two are proved together: the body of a closure starts on an empty page in a scope
that is made from what the expression looks at.
-/

namespace ZephirPhp

variable {α β : Type}

/-! ## Emissions apart from the emitter -/

/-- A result, and the warnings on the way to it. -/
structure Answer (α : Type) where
  result : Except Diagnostic α
  warnings : List Warning

/-- The emission that has an answer and does nothing but warn. -/
def Answer.emission (answer : Answer α) : Emission α := fun emitter =>
  let warned := { emitter with warnings := emitter.warnings ++ answer.warnings }
  match answer.result with
  | .ok value => .ok value warned
  | .error diagnostic => .error diagnostic warned

/-- What happens next, unless the result is a fault. -/
def Answer.andThen (answer : Answer α) (next : α → Answer β) : Answer β :=
  match answer with
  | ⟨.ok value, warnings⟩ => ⟨(next value).result, warnings ++ (next value).warnings⟩
  | ⟨.error diagnostic, warnings⟩ => ⟨.error diagnostic, warnings⟩

theorem Answer.emission_andThen (answer : Answer α) (next : α → Answer β) :
    (answer.andThen next).emission = answer.emission >>= fun value =>
      (next value).emission := by
  funext emitter
  rcases answer with ⟨result, warnings⟩
  cases result with
  | error diagnostic => rfl
  | ok value =>
      simp only [andThen, emission, EStateM.bind_apply]
      cases (next value).result <;> simp

/-- Whether the object is known in the scope at hand. -/
def Emitter.knowsThis (emitter : Emitter) : Bool :=
  Dictionary.contains emitter.scope "this"

namespace Emission

/-- An emission whose answer is settled by whether the object is known. -/
def Detached (emission : Emission α) : Prop :=
  ∃ answer : Bool → Answer α, ∀ emitter : Emitter,
    emission emitter = (answer emitter.knowsThis).emission emitter

namespace Detached

theorem pure (value : α) : Detached (Pure.pure value) :=
  ⟨fun _ => ⟨.ok value, []⟩, fun emitter => by simp [Answer.emission]⟩

theorem ofExcept (result : Except Diagnostic α) :
    Detached (Emission.ofExcept result) := by
  refine ⟨fun _ => ⟨result, []⟩, fun emitter => ?_⟩
  cases result <;> simp [Answer.emission, Emission.ofExcept]

theorem warn (warning : Warning) : Detached (Emission.warn warning) :=
  ⟨fun _ => ⟨.ok (), [warning]⟩, fun _ => rfl⟩

/-- The first of two emissions leaves the scope alone, so the second one looks at the same
object. -/
theorem bind {first : Emission α} {next : α → Emission β} (start : Detached first)
    (rest : ∀ value, Detached (next value)) : Detached (first >>= next) := by
  rcases start with ⟨answer, started⟩
  choose later continued using rest
  refine ⟨fun known => (answer known).andThen fun value =>
    later value known, fun emitter => ?_⟩
  rw [Answer.emission_andThen, EStateM.bind_apply, EStateM.bind_apply, started]
  rcases answer emitter.knowsThis with ⟨result, warnings⟩
  cases result with
  | error diagnostic => rfl
  | ok value => exact continued value _

theorem bind_pure {first : Emission α} {change : α → β} (start : Detached first) :
    Detached (first >>= fun value => Pure.pure (change value)) :=
  start.bind fun value => pure (change value)

theorem map {first : Emission α} {change : α → β} (start : Detached first) :
    Detached (change <$> first) := by
  rw [map_eq_pure_bind]
  exact start.bind_pure

/-- Whether the object is known outside is of no interest in a scope that does not depend
on it. -/
theorem withScope (scope : Scope) {emission : Emission α} (inside : Detached emission) :
    Detached (Emission.withScope scope emission) := by
  rcases inside with ⟨answer, settled⟩
  refine ⟨fun _ => answer (Dictionary.contains scope "this"), fun emitter => ?_⟩
  rw [Emission.withScope, settled, Answer.emission, Answer.emission]
  simp only [Emitter.knowsThis]
  cases (answer (Dictionary.contains scope "this")).result <;> rfl

end Detached

/-! ## Emissions that only add to the page -/

end Emission

/-- The page with earlier lines before its own. -/
def Page.after (earlier : List Line) (page : Page) : Page :=
  { page with lines := page.lines ++ earlier }

/-- The emitter with earlier lines and warnings before its own. -/
def Emitter.after (lines : List Line) (warnings : List Warning) (emitter : Emitter) :
    Emitter :=
  { emitter with page := emitter.page.after lines, warnings :=
    warnings ++ emitter.warnings }

/-- An emission with its last emitter changed. -/
def Emission.ending (change : Emitter → Emitter) :
    EStateM.Result Diagnostic Emitter α → EStateM.Result Diagnostic Emitter α
  | .ok value final => .ok value (change final)
  | .error diagnostic final => .error diagnostic (change final)

namespace Page

/-- A change of a page that only adds lines. -/
def Adds (change : Page → Page) : Prop :=
  ∀ earlier page, change (page.after earlier) = (change page).after earlier

namespace Adds

variable {first second : Page → Page}

theorem comp (inner : Adds first) (outer : Adds second) :
    Adds fun page => second (first page) := by
  intro earlier page
  dsimp only
  rw [inner, outer]

theorem append (text : String) : Adds (Page.append text) :=
  fun _ _ => rfl

theorem indent : Adds Page.indent :=
  fun _ _ => rfl

theorem unindent : Adds Page.unindent :=
  fun _ _ => rfl

theorem flush : Adds Page.flush := by
  intro earlier page
  simp [Page.flush, Page.after]

theorem line (text : String) : Adds (Page.line text) :=
  (append text).comp flush

theorem paragraph (text : String) : Adds (Page.paragraph text) := by
  intro earlier page
  rw [Page.paragraph, Page.paragraph]
  induction Text.lines text generalizing page with
  | nil => rfl
  | cons first rest induction =>
      rw [List.foldl_cons, List.foldl_cons, line, induction]

theorem openBlock (header : String) (braceOnNewLine : Bool) :
    Adds (Page.openBlock header braceOnNewLine) := by
  cases braceOnNewLine with
  | true => exact ((line _).comp (line _)).comp indent
  | false => exact (line _).comp indent

theorem closeBlock (suffix : String) : Adds (Page.closeBlock suffix) :=
  (flush.comp unindent).comp (line _)

theorem continueBlock (header : String) : Adds (Page.continueBlock header) :=
  (unindent.comp (line _)).comp indent

end Adds

end Page

namespace Emission

/-- An emission that does the same whatever lines and warnings were there before. -/
def Local (emission : Emission α) : Prop :=
  ∀ lines warnings emitter, emission (Emitter.after lines warnings emitter) =
    ending (Emitter.after lines warnings) (emission emitter)

theorem Detached.toLocal {emission : Emission α} (detached : Detached emission) :
    Local emission := by
  rcases detached with ⟨answer, settled⟩
  intro lines warnings emitter
  rw [settled, settled]
  change (answer emitter.knowsThis).emission _ = _
  simp only [Answer.emission]
  cases (answer emitter.knowsThis).result <;> simp [ending, Emitter.after]

namespace Local

theorem pure (value : α) : Local (Pure.pure value) :=
  fun _ _ _ => rfl

theorem bind {first : Emission α} {next : α → Emission β} (start : Local first)
    (rest : ∀ value, Local (next value)) : Local (first >>= next) := by
  intro lines warnings emitter
  rw [EStateM.bind_apply, EStateM.bind_apply, start]
  cases first emitter with
  | error diagnostic final => rfl
  | ok value final => exact rest value lines warnings final

theorem bind_pure {first : Emission α} {change : α → β} (start : Local first) :
    Local (first >>= fun value => Pure.pure (change value)) :=
  start.bind fun value => pure (change value)

theorem forM {values : List α} {act : α → Emission Unit}
    (each : ∀ value, Local (act value)) :
    Local (values.forM act) := by
  induction values with
  | nil => exact pure ()
  | cons value rest induction => exact (each value).bind fun _ => induction

theorem onPage {change : Page → Page} (adds : Page.Adds change) :
    Local (Emission.onPage change) := by
  intro lines warnings emitter
  simp [Emission.onPage, ending, Emitter.after, adds lines emitter.page]

theorem line (text : String) : Local (Emission.line text) :=
  onPage (.line text)

theorem lines (texts : List String) : Local (Emission.lines texts) :=
  forM line

theorem comment (text : String) : Local (Emission.comment text) :=
  onPage (.paragraph _)

theorem onScope (change : Scope → Scope) : Local (Emission.onScope change) :=
  fun _ _ _ => rfl

/-- Looking up the variable of an assignment looks at the scope only. -/
theorem bindTarget (binding : Binding) (name : String) (location : Location) :
    Local (Emission.bind binding name location) := by
  cases binding with
  | none => exact pure ()
  | write => exact onScope _
  | update =>
      intro lines warnings emitter
      have updates : Local (Emission.ofExcept (emitter.scope.update name location) >>=
          fun scope => Emission.onScope fun _ => scope) :=
        (Detached.ofExcept _).toLocal.bind fun _ => onScope _
      exact updates lines warnings emitter

theorem block (header : String) {body : Emission Unit} (inside : Local body)
    (suffix : String) :
    Local (do
      Emission.onPage (·.openBlock header false)
      body
      Emission.onPage (·.closeBlock suffix)) := by
  apply (onPage (.openBlock header false)).bind
  intro _
  apply inside.bind
  intro _
  exact onPage (.closeBlock suffix)

theorem clause (label : String) {body rest : Emission Unit} (inside : Local body)
    (later : Local rest) :
    Local (do
      Emission.line label
      Emission.onPage (·.indent)
      body
      Emission.onPage (·.flush.unindent)
      rest) := by
  apply (line label).bind
  intro _
  apply (onPage .indent).bind
  intro _
  apply inside.bind
  intro _
  apply (onPage (Page.Adds.flush.comp .unindent)).bind
  intro _
  exact later

end Local

/-- What is written on a page of its own, in a scope that is made from what is known of
the object. -/
theorem Detached.ofOwnPage (inside : Bool → Scope) {emission : Emission Unit}
    (writes : Local emission) (shown : Page → α) :
    Detached (do
      let emitter ← get
      let page ← Emission.withScope (inside emitter.knowsThis)
        (Emission.onOwnPage emission)
      return shown page) := by
  let start (known : Bool) : Emitter := { scope := inside known }
  refine ⟨fun known =>
    ⟨(fun _ => shown (EStateM.final (emission (start known))).page) <$>
        EStateM.outcome (emission (start known)),
      (EStateM.final (emission (start known))).warnings⟩, fun emitter => ?_⟩
  have placed : emission
      { emitter with scope := inside emitter.knowsThis, page := .empty } =
      ending (Emitter.after [] emitter.warnings)
        (emission (start emitter.knowsThis)) := by
    rw [← writes]
    simp [start, Emitter.after, Page.after, Page.empty]
  simp only [EStateM.bind_apply, EStateM.get_apply, Emission.withScope,
    Emission.onOwnPage,
    placed, Answer.emission]
  cases emission (start emitter.knowsThis) with
  | error diagnostic final => rfl
  | ok value final =>
      simp [ending, EStateM.outcome, EStateM.final, Emitter.after, Page.after]

end Emission

/-! ## Expressions and statements -/

theorem methodCallCode_detached (receiver : Option Receiver) (location : Location)
    (method object : String) (arguments : List String) :
    Emission.Detached (methodCallCode receiver location method object arguments) := by
  cases receiver with
  | none => exact .pure _
  | some kind =>
      apply (Emission.Detached.ofExcept _).bind
      intro pseudoMethod
      cases pseudoMethod.inPlace with
      | true => exact (Emission.Detached.warn _).bind fun _ => .pure _
      | false => exact .pure _

theorem renderCondition_fetch_local {setting : Setting} (location : Location)
    (target : String) {source : Expr}
    (rendered : Emission.Detached (renderExpr setting source)) :
    Emission.Local (renderCondition setting (.fetch location target source)) := by
  apply rendered.toLocal.bind
  intro code
  exact (Emission.Local.bindTarget .write target location).bind_pure

theorem declareOptional_local (name : Option String) (location : Location) :
    Emission.Local (declareOptional name location) := by
  cases name with
  | none => exact .pure ()
  | some name => exact .onScope _

/-- The target of an assignment, and its right-hand side if there is one, once the steps
into an array are rendered. -/
def compileSides (setting : Setting) (form : AssignmentForm)
    (operator : Option AssignmentOperator) (target : String) (property : Option String)
    (value : Option Expr) (location : Location) (steps : List String) :
    Emission CompiledAssignment := do
  let path := String.join (steps.map fun step => "[" ++ step ++ "]")
  let left ← Emission.ofExcept (form.targetCode target property path location)
  if form.takesExpression then
    match value with
    | none => throw (.malformedNode form.name "expr" location)
    | some value => do
      let operator := operator.getD .assign
      let code ← renderExpr setting value
      let compiled ← Emission.ofExcept
        (value.compiled (assignmentContext form operator target) code)
      return ⟨left ++ " " ++ operator.symbol ++ " " ++ code ++ ";", some compiled⟩
  else
    return ⟨left ++ ";", none⟩

theorem compileAssignment_sides {setting : Setting} (form : AssignmentForm)
    (operator : Option AssignmentOperator) (target : String) (property : Option String)
    (index : List Expr) (value : Option Expr) (location : Location) :
    compileAssignment setting ⟨form, operator, target, property, index, value, location⟩ =
      (do
        Emission.bind form.binding target location
        let steps ← renderExprs setting (if form.takesIndex then index else [])
        compileSides setting form operator target property value location steps) := by
  rw [compileAssignment]
  cases form.takesIndex <;> rfl

theorem compileSides_detached {setting : Setting} {form : AssignmentForm}
    {operator : Option AssignmentOperator} {target : String} {property : Option String}
    {value : Option Expr} {location : Location} {steps : List String}
    (rendered : ∀ expression ∈ value, Emission.Detached (renderExpr setting expression)) :
    Emission.Detached
      (compileSides setting form operator target property value location steps) := by
  apply (Emission.Detached.ofExcept _).bind
  intro left
  split
  · cases value with
    | none => exact .ofExcept (.error _)
    | some value =>
        apply (rendered value rfl).bind
        intro code
        exact (Emission.Detached.ofExcept _).bind_pure
  · exact .pure _

section

variable (setting : Setting)

mutual

/-- What an expression becomes depends on the object being known, and nothing else. -/
theorem renderExpr_detached (expression : Expr) :
    Emission.Detached (renderExpr setting expression) := by
  cases expression with
  | atom location leaf => exact .pure leaf.code
  | array location items => exact (renderItems_detached items).bind_pure
  | unary location operator operand =>
      have rendered := renderExpr_detached operand
      cases operator with
      | isset =>
          cases operand with
          | index place container key =>
              apply (renderExpr_detached container).bind
              intro containerCode
              exact (renderExpr_detached key).bind_pure
          | property place object name => exact (renderExpr_detached object).bind_pure
          | stringProperty place object name =>
              exact (renderExpr_detached object).bind_pure
          | dynamicProperty place object name =>
              apply (renderExpr_detached object).bind
              intro objectCode
              exact (renderExpr_detached name).bind_pure
          | _ => exact rendered.bind_pure
      | _ => exact rendered.bind_pure
  | binary location operator left right =>
      apply (renderExpr_detached left).bind
      intro leftCode
      exact (renderExpr_detached right).bind_pure
  | range location inclusive first last =>
      apply (renderExpr_detached first).bind
      intro firstCode
      exact (renderExpr_detached last).bind_pure
  | property location object name => exact (renderExpr_detached object).bind_pure
  | dynamicProperty location object name =>
      apply (renderExpr_detached object).bind
      intro objectCode
      exact (renderExpr_detached name).bind_pure
  | stringProperty location object name => exact (renderExpr_detached object).bind_pure
  | index location container key =>
      apply (renderExpr_detached container).bind
      intro containerCode
      exact (renderExpr_detached key).bind_pure
  | methodCall location receiver method arguments =>
      apply (renderExpr_detached receiver).bind
      intro object
      apply (renderExprs_detached arguments).bind
      intro codes
      exact methodCallCode_detached _ location method object codes
  | functionCall location function arguments =>
      apply (Emission.Detached.ofExcept _).bind
      intro _
      exact (renderExprs_detached arguments).bind_pure
  | staticCall location className method arguments =>
      exact (renderExprs_detached arguments).bind_pure
  | new location className dynamic arguments =>
      exact (renderExprs_detached arguments).bind_pure
  | cast location type operand => exact renderExpr_detached operand
  | typeHint location type operand => exact renderExpr_detached operand
  | ternary location condition consequence alternative =>
      apply (renderExpr_detached condition).bind
      intro conditionCode
      apply (renderExpr_detached consequence).bind
      intro consequenceCode
      exact (renderExpr_detached alternative).bind_pure
  | closure location parameters body =>
      rw [renderExpr]
      apply (renderParameters_detached parameters).bind
      intro parameterList
      have written : Emission.Local (do
          Emission.onPage
            (·.openBlock ("function (" ++ ", ".intercalate parameterList ++ ")") false)
          emitBlock setting body
          Emission.onPage (·.closeBlock "")) := by
        apply (Emission.Local.onPage (.openBlock _ _)).bind
        intro _
        apply (emitBlock_local body).bind
        intro _
        exact .onPage (.closeBlock "")
      exact .ofOwnPage (fun known => Scope.ofNames location
        (if known then "this" :: parameters.map (·.name) else parameters.map (·.name)))
        written (Page.content setting.layout)
  | arrow location parameter body =>
      exact ((renderExpr_detached body).withScope
        (Scope.ofNames location [parameter])).bind_pure
  | fetch location target source => exact (renderExpr_detached source).bind_pure
termination_by structural expression

theorem renderExprs_detached (expressions : List Expr) :
    Emission.Detached (renderExprs setting expressions) := by
  cases expressions with
  | nil => exact .pure _
  | cons expression rest =>
      apply (renderExpr_detached expression).bind
      intro code
      exact (renderExprs_detached rest).bind_pure
termination_by structural expressions

theorem renderItems_detached (items : List ArrayItem) :
    Emission.Detached (renderItems setting items) := by
  cases items with
  | nil => exact .pure _
  | cons item rest =>
      rcases item with ⟨key, value⟩
      cases key with
      | none =>
          apply (renderExpr_detached value).bind
          intro valueCode
          exact (renderItems_detached rest).bind_pure
      | some key =>
          apply (renderExpr_detached value).bind
          intro valueCode
          apply (renderExpr_detached key).map.bind
          intro keyCode
          exact (renderItems_detached rest).bind_pure
termination_by structural items

theorem renderParameters_detached (parameters : List Parameter) :
    Emission.Detached (renderParameters setting parameters) := by
  cases parameters with
  | nil => exact .pure _
  | cons parameter rest =>
      rcases parameter with ⟨name, default, byReference⟩
      cases default with
      | none => exact (renderParameters_detached rest).bind_pure
      | some default =>
          apply (renderExpr_detached default).map.bind
          intro code
          exact (renderParameters_detached rest).bind_pure
termination_by structural parameters

theorem compileAssignment_local (assignment : Assignment) :
    Emission.Local (compileAssignment setting assignment) := by
  rcases assignment with ⟨form, operator, target, property, index, value, location⟩
  have steps : Emission.Detached
      (renderExprs setting (if form.takesIndex then index else [])) := by
    split
    · exact renderExprs_detached index
    · exact .pure []
  have sides (codes : List String) : Emission.Detached
      (compileSides setting form operator target property value location codes) := by
    apply compileSides_detached
    cases value with
    | none => simp
    | some value => simpa using renderExpr_detached value
  rw [compileAssignment_sides]
  apply (Emission.Local.bindTarget form.binding target location).bind
  intro _
  exact steps.toLocal.bind fun codes => (sides codes).toLocal
termination_by structural assignment

theorem compileAssignments_local (assignments : List Assignment) :
    Emission.Local (compileAssignments setting assignments) := by
  cases assignments with
  | nil => exact .pure _
  | cons assignment rest =>
      apply (compileAssignment_local assignment).bind
      intro compiled
      exact (compileAssignments_local rest).bind_pure
termination_by structural assignments

theorem emitStmt_local (statement : Stmt) :
    Emission.Local (emitStmt setting statement) := by
  cases statement with
  | assign location assignments =>
      apply (compileAssignments_local assignments).bind
      intro compiled
      exact .lines _
  | declare location declarations => exact emitDeclarations_local location declarations
  | expression location expression =>
      apply (renderExpr_detached expression).toLocal.bind
      intro code
      exact .line _
  | cond location condition body alternatives otherwise =>
      have head : Emission.Local (renderCondition setting condition) := by
        cases condition with
        | fetch place target source =>
            exact renderCondition_fetch_local place target (renderExpr_detached source)
        | _ => exact (renderExpr_detached _).toLocal.bind_pure
      rw [emitStmt_cond]
      apply head.bind
      intro code
      apply (Emission.Local.onPage (.openBlock _ _)).bind
      intro _
      apply (Emission.Local.lines _).bind
      intro _
      apply (emitBlock_local body).bind
      intro _
      apply (emitBranches_local alternatives).bind
      intro _
      cases otherwise with
      | none => exact .onPage (.closeBlock "")
      | some block =>
          apply (Emission.Local.onPage (.continueBlock "else")).bind
          intro _
          apply (emitBlock_local block).bind
          intro _
          exact .onPage (.closeBlock "")
  | loop location body => exact .block _ (emitBlock_local body) _
  | whileLoop location condition body =>
      apply (renderExpr_detached condition).toLocal.bind
      intro code
      exact .block _ (emitBlock_local body) _
  | doWhile location body condition =>
      apply (Emission.Local.onPage (.openBlock "do" false)).bind
      intro _
      apply (emitBlock_local body).bind
      intro _
      apply (renderExpr_detached condition).toLocal.bind
      intro code
      exact .onPage (.closeBlock _)
  | forEach location key value reverse source body =>
      rw [emitStmt_forEach]
      apply (renderExpr_detached source).toLocal.bind
      intro code
      apply (Emission.Local.onScope _).bind
      intro _
      apply (declareOptional_local _ location).bind
      intro _
      exact .block _ (emitBlock_local body) _
  | switch location subject clauses =>
      apply (renderExpr_detached subject).toLocal.bind
      intro code
      exact .block _ (emitClauses_local clauses) _
  | continueLoop location => exact .line _
  | breakLoop location => exact .line _
  | returnValue location value =>
      cases value with
      | none => exact .line _
      | some value => exact (renderExpr_detached value).toLocal.bind fun _ => .line _
  | throwValue location value =>
      exact (renderExpr_detached value).toLocal.bind fun _ => .line _
  | unset location target =>
      exact (renderExpr_detached target).toLocal.bind fun _ => .line _
  | echo location values =>
      exact (renderExprs_detached values).toLocal.bind fun _ => .line _
  | require location file =>
      exact (renderExpr_detached file).toLocal.bind fun _ => .line _
  | tryCatch location body handlers =>
      apply (Emission.Local.onPage (.openBlock "try" false)).bind
      intro _
      apply (emitBlock_local body).bind
      intro _
      apply (emitHandlers_local handlers).bind
      intro _
      exact .onPage (.closeBlock "")
  | comment location text => exact .comment text
  | empty location => exact .pure ()
termination_by structural statement

theorem emitBlock_local (statements : List Stmt) :
    Emission.Local (emitBlock setting statements) := by
  cases statements with
  | nil => exact .pure ()
  | cons statement rest =>
      apply (emitStmt_local statement).bind
      intro _
      exact emitBlock_local rest
termination_by structural statements

theorem emitDeclarations_local (location : Location) (declarations : List Declaration) :
    Emission.Local (emitDeclarations setting location declarations) := by
  cases declarations with
  | nil => exact .pure ()
  | cons declaration rest =>
      rcases declaration with ⟨name, value⟩
      cases value with
      | none =>
          exact (Emission.Local.onScope _).bind fun _ =>
            emitDeclarations_local location rest
      | some value =>
          apply (Emission.Local.onScope _).bind
          intro _
          apply (renderExpr_detached value).toLocal.bind
          intro code
          apply (Emission.Local.line _).bind
          intro _
          exact emitDeclarations_local location rest
termination_by structural declarations

theorem emitBranches_local (branches : List Branch) :
    Emission.Local (emitBranches setting branches) := by
  cases branches with
  | nil => exact .pure ()
  | cons branch rest =>
      rcases branch with ⟨condition, body⟩
      have head : Emission.Local (renderCondition setting condition) := by
        cases condition with
        | fetch place target source =>
            exact renderCondition_fetch_local place target (renderExpr_detached source)
        | _ => exact (renderExpr_detached _).toLocal.bind_pure
      rw [emitBranches_cons]
      apply head.bind
      intro code
      apply (Emission.Local.onPage (.continueBlock _)).bind
      intro _
      apply (Emission.Local.lines _).bind
      intro _
      apply (emitBlock_local body).bind
      intro _
      exact emitBranches_local rest
termination_by structural branches

theorem emitClauses_local (clauses : List Clause) :
    Emission.Local (emitClauses setting clauses) := by
  cases clauses with
  | nil => exact .pure ()
  | cons clause rest =>
      cases clause with
      | case test body =>
          apply (renderExpr_detached test).toLocal.bind
          intro code
          exact .clause _ (emitBlock_local body) (emitClauses_local rest)
      | default body => exact .clause _ (emitBlock_local body) (emitClauses_local rest)
termination_by structural clauses

theorem emitHandlers_local (handlers : List Handler) :
    Emission.Local (emitHandlers setting handlers) := by
  cases handlers with
  | nil => exact .pure ()
  | cons handler rest =>
      rcases handler with ⟨classes, caught, body⟩
      rw [emitHandlers_cons]
      apply (declareOptional_local caught .unknown).bind
      intro _
      apply (Emission.Local.onPage (.continueBlock _)).bind
      intro _
      apply (emitBlock_local body).bind
      intro _
      exact emitHandlers_local rest
termination_by structural handlers

end

end

/-! ## Rendering leaves no trace -/

namespace Answer

@[simp] theorem result_emission (answer : Answer α) (emitter : Emitter) :
    EStateM.outcome (answer.emission emitter) = answer.result := by
  rcases answer with ⟨result, warnings⟩
  cases result <;> rfl

@[simp] theorem final_emission (answer : Answer α) (emitter : Emitter) :
    EStateM.final (answer.emission emitter) =
      { emitter with warnings := emitter.warnings ++ answer.warnings } := by
  rcases answer with ⟨result, warnings⟩
  cases result <;> rfl

end Answer

/-- Rendering an expression leaves the page and the scope as they were, also after a
fault. Two emitters that both know the object, or both do not, get the same code or the
same fault, and the same warnings. -/
theorem renderExpr_frame_and_context (setting : Setting) (expression : Expr) :
    (∀ emitter : Emitter,
      (EStateM.final (renderExpr setting expression emitter)).page = emitter.page ∧
        (EStateM.final (renderExpr setting expression emitter)).scope = emitter.scope) ∧
    ∀ left right : Emitter, left.knowsThis = right.knowsThis →
      EStateM.outcome (renderExpr setting expression left) =
          EStateM.outcome (renderExpr setting expression right) ∧
        ∃ warnings,
          (EStateM.final (renderExpr setting expression left)).warnings =
              left.warnings ++ warnings ∧
            (EStateM.final (renderExpr setting expression right)).warnings =
              right.warnings ++ warnings := by
  rcases renderExpr_detached setting expression with ⟨answer, settled⟩
  constructor
  · intro emitter
    simp [settled]
  · intro left right same
    refine ⟨?_, (answer left.knowsThis).warnings, ?_, ?_⟩
    · simp [settled, same]
    · simp [settled]
    · simp [settled, same]

/-- A closure that writes to an element of a variable it does not have, after it has
written a line. -/
def strayClosure : Expr :=
  .closure .unknown [] [.echo .unknown [.atom .unknown (.string "a")],
    .assign .unknown [⟨.arrayIndex, none, "v", none, [.atom .unknown (.int "0")],
      some (.atom .unknown (.int "1")), .unknown⟩]]

/-- The variable is known around the closure, and a line is begun there. -/
theorem renderExpr_frame_and_context_of_strayClosure :
    let begun : Emitter :=
      { scope := Scope.ofNames .unknown ["v"], page := { depth := 2, pending := "x = " } }
    EStateM.outcome (renderExpr {} strayClosure begun) =
        .error (.undeclaredVariable "v" .unknown) ∧
      (EStateM.final (renderExpr {} strayClosure begun)).page = begun.page ∧
      (EStateM.final (renderExpr {} strayClosure begun)).scope = begun.scope ∧
      EStateM.outcome (renderExpr {} strayClosure {}) =
        EStateM.outcome (renderExpr {} strayClosure begun) := by
  intro begun
  have same : ({} : Emitter).knowsThis = begun.knowsThis := by decide
  have kept := renderExpr_frame_and_context {} strayClosure
  exact ⟨rfl, (kept.1 begun).1, (kept.1 begun).2, (kept.2 {} begun same).1⟩

/-- A function that appends to a variable that it does not declare. -/
def borrowing : FunctionDefinition where
  name := "f"
  parameters := []
  statements := [.assign .unknown [⟨.variableAppend, some .assign, "x", none, [],
    some (.atom .unknown .emptyArray), .unknown⟩]]
  docblock := none
  location := .unknown

end ZephirPhp
