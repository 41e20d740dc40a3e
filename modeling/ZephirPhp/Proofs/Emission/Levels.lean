import ZephirPhp.Proofs.Emission.Writing

/-! # Levels of nesting

A statement may open blocks and indent clauses, but where it ends the page is at the level
at which it began, with no line left unfinished. So each part of a file begins at a level
that only depends on the blocks around it.
-/

namespace ZephirPhp

variable {α β : Type}

/-! ## Pages at a level -/

/-- The next line of the page is at this level, and nothing of it is written. -/
structure Page.AtLevel (level : Nat) (page : Page) : Prop where
  depth : page.depth = level
  pending : page.pending = ""

namespace Page.AtLevel

variable {level : Nat} {page : Page}

theorem empty : AtLevel 0 .empty :=
  ⟨rfl, rfl⟩

theorem flush (deep : page.depth = level) : page.flush.AtLevel level :=
  ⟨deep, rfl⟩

theorem line (start : page.AtLevel level) (text : String) :
    (page.line text).AtLevel level :=
  flush start.depth

theorem paragraph (start : page.AtLevel level) (text : String) :
    (page.paragraph text).AtLevel level := by
  rw [Page.paragraph]
  induction Text.lines text generalizing page with
  | nil => exact start
  | cons first rest induction => exact induction (start.line _)

theorem blankLine (start : page.AtLevel level) : page.blankLine.AtLevel level := by
  have flushed : page.flush.AtLevel level := flush start.depth
  rw [Page.blankLine]
  split
  · exact ⟨flushed.depth, flushed.pending⟩
  · exact flushed

theorem indent (start : page.AtLevel level) : page.indent.AtLevel (level + 1) :=
  ⟨congrArg (· + 1) start.depth, start.pending⟩

theorem unindent (start : page.AtLevel (level + 1)) : page.unindent.AtLevel level :=
  ⟨congrArg (· - 1) start.depth, start.pending⟩

theorem openBlock (start : page.AtLevel level) (header : String) (braceOnNewLine : Bool) :
    (page.openBlock header braceOnNewLine).AtLevel (level + 1) := by
  cases braceOnNewLine with
  | true => exact ((start.line _).line _).indent
  | false => exact (start.line _).indent

theorem closeBlock (start : page.AtLevel (level + 1)) (suffix : String) :
    (page.closeBlock suffix).AtLevel level := by
  rw [Page.closeBlock]
  exact (flush start.depth).unindent.line _

theorem continueBlock (start : page.AtLevel (level + 1)) (header : String) :
    (page.continueBlock header).AtLevel (level + 1) := by
  rw [Page.continueBlock]
  exact (start.unindent.line _).indent

end Page.AtLevel

/-! ## Emissions between levels -/

namespace Emission

/-- An emission that succeeds goes from one level to another. -/
def Shifts (before after : Nat) (emission : Emission α) : Prop :=
  Leads (Page.AtLevel before) (fun _ => Page.AtLevel after) emission

namespace Shifts

variable {before middle after level : Nat}

theorem pure (value : α) : Shifts level level (Pure.pure value) :=
  Leads.pure fun _ start => start

theorem bind {first : Emission α} {next : α → Emission β}
    (start : Shifts before middle first)
    (rest : ∀ value, Shifts middle after (next value)) :
    Shifts before after (first >>= next) :=
  Leads.bind start rest

theorem ofDetached {emission : Emission α} (detached : Detached emission) :
    Shifts level level emission :=
  Quiet.ofDetached detached _

/-- The first part is rendered apart from the page. -/
theorem bind_detached {first : Emission α} {next : α → Emission β}
    (detached : Detached first) (rest : ∀ value, Shifts before after (next value)) :
    Shifts before after (first >>= next) :=
  (ofDetached detached).bind rest

theorem onScope (change : Scope → Scope) : Shifts level level (Emission.onScope change) :=
  Leads.onScope change

theorem bindTarget (binding : Binding) (name : String) (location : Location) :
    Shifts level level (Emission.bind binding name location) :=
  Leads.bindTarget binding name location

theorem withScope {scope : Scope} {emission : Emission α}
    (inside : Shifts before after emission) :
    Shifts before after (Emission.withScope scope emission) :=
  Leads.withScope inside

theorem forM {values : List α} {act : α → Emission Unit}
    (each : ∀ value ∈ values, Shifts level level (act value)) :
    Shifts level level (values.forM act) :=
  Leads.forM each

theorem line (text : String) : Shifts level level (Emission.line text) :=
  Leads.onPage fun _ start => start.line text

theorem lines (texts : List String) : Shifts level level (Emission.lines texts) :=
  forM fun text _ => line text

theorem comment (text : String) : Shifts level level (Emission.comment text) :=
  Leads.onPage fun _ start => start.paragraph _

theorem docblock (text : Option String) :
    Shifts level level (Emission.docblock text) := by
  cases text with
  | none => exact pure ()
  | some text => exact comment text

theorem blankLine : Shifts level level (Emission.onPage (·.blankLine)) :=
  Leads.onPage fun _ start => start.blankLine

theorem openBlock (header : String) (braceOnNewLine : Bool) :
    Shifts level (level + 1) (Emission.onPage (·.openBlock header braceOnNewLine)) :=
  Leads.onPage fun _ start => start.openBlock header braceOnNewLine

theorem closeBlock (suffix : String) :
    Shifts (level + 1) level (Emission.onPage (·.closeBlock suffix)) :=
  Leads.onPage fun _ start => start.closeBlock suffix

theorem continueBlock (header : String) :
    Shifts (level + 1) (level + 1) (Emission.onPage (·.continueBlock header)) :=
  Leads.onPage fun _ start => start.continueBlock header

theorem indent : Shifts level (level + 1) (Emission.onPage (·.indent)) :=
  Leads.onPage fun _ start => start.indent

theorem unindent : Shifts (level + 1) level (Emission.onPage (·.flush.unindent)) :=
  Leads.onPage fun _ start => (Page.AtLevel.flush start.depth).unindent

theorem block (header suffix : String) {body : Emission Unit} (braceOnNewLine : Bool)
    (inside : Shifts (level + 1) (level + 1) body) :
    Shifts level level (do
      Emission.onPage (·.openBlock header braceOnNewLine)
      body
      Emission.onPage (·.closeBlock suffix)) := by
  apply (openBlock header braceOnNewLine).bind
  intro _
  apply inside.bind
  intro _
  exact closeBlock suffix

theorem clause (label : String) {body rest : Emission Unit}
    (inside : Shifts (level + 1) (level + 1) body) (later : Shifts level level rest) :
    Shifts level level (do
      Emission.line label
      Emission.onPage (·.indent)
      body
      Emission.onPage (·.flush.unindent)
      rest) := by
  apply (line label).bind
  intro _
  apply indent.bind
  intro _
  apply inside.bind
  intro _
  apply unindent.bind
  intro _
  exact later

end Shifts

end Emission

/-! ## Statements -/

section

variable (setting : Setting)

theorem renderCondition_shifts {level : Nat} (condition : Expr) :
    Emission.Shifts level level (renderCondition setting condition) :=
  renderCondition_quiet setting condition _

theorem declareOptional_shifts {level : Nat} (name : Option String)
    (location : Location) :
    Emission.Shifts level level (declareOptional name location) :=
  declareOptional_quiet name location _

theorem compileAssignment_shifts {level : Nat} (assignment : Assignment) :
    Emission.Shifts level level (compileAssignment setting assignment) :=
  compileAssignment_quiet setting assignment _

theorem compileAssignments_shifts {level : Nat} (assignments : List Assignment) :
    Emission.Shifts level level (compileAssignments setting assignments) :=
  compileAssignments_quiet setting assignments _

theorem emitDeclarations_shifts {level : Nat} (location : Location)
    (declarations : List Declaration) :
    Emission.Shifts level level (emitDeclarations setting location declarations) := by
  induction declarations with
  | nil => exact .pure ()
  | cons declaration rest induction =>
      rcases declaration with ⟨name, value⟩
      cases value with
      | none => exact (Emission.Shifts.onScope _).bind fun _ => induction
      | some value =>
          apply (Emission.Shifts.onScope _).bind
          intro _
          refine .bind_detached (renderExpr_detached setting value) fun code => ?_
          exact (Emission.Shifts.line _).bind fun _ => induction

mutual

/-- A statement ends at the level at which it begins. -/
theorem emitStmt_shifts (level : Nat) (statement : Stmt) :
    Emission.Shifts level level (emitStmt setting statement) := by
  cases statement with
  | assign location assignments =>
      exact (compileAssignments_shifts setting assignments).bind fun compiled => .lines _
  | declare location declarations =>
      exact emitDeclarations_shifts setting location declarations
  | expression location expression =>
      exact .bind_detached (renderExpr_detached setting expression) fun code => .line _
  | cond location condition body alternatives otherwise =>
      rw [emitStmt_cond]
      apply (renderCondition_shifts setting condition).bind
      intro test
      apply (Emission.Shifts.openBlock _ false).bind
      intro _
      apply (Emission.Shifts.lines _).bind
      intro _
      apply (emitBlock_shifts (level + 1) body).bind
      intro _
      apply (emitBranches_shifts level alternatives).bind
      intro _
      cases otherwise with
      | none => exact .closeBlock ""
      | some block =>
          apply (Emission.Shifts.continueBlock "else").bind
          intro _
          apply (emitBlock_shifts (level + 1) block).bind
          intro _
          exact .closeBlock ""
  | loop location body => exact .block _ _ false (emitBlock_shifts (level + 1) body)
  | whileLoop location condition body =>
      exact .bind_detached (renderExpr_detached setting condition) fun code =>
        .block _ _ false (emitBlock_shifts (level + 1) body)
  | doWhile location body condition =>
      apply (Emission.Shifts.openBlock "do" false).bind
      intro _
      apply (emitBlock_shifts (level + 1) body).bind
      intro _
      exact .bind_detached (renderExpr_detached setting condition)
        fun code => .closeBlock _
  | forEach location key value reverse source body =>
      rw [emitStmt_forEach]
      refine .bind_detached (renderExpr_detached setting source) fun code => ?_
      apply (Emission.Shifts.onScope _).bind
      intro _
      apply (declareOptional_shifts _ location).bind
      intro _
      exact .block _ _ false (emitBlock_shifts (level + 1) body)
  | switch location subject clauses =>
      exact .bind_detached (renderExpr_detached setting subject) fun code =>
        .block _ _ false (emitClauses_shifts (level + 1) clauses)
  | continueLoop location => exact .line _
  | breakLoop location => exact .line _
  | returnValue location value =>
      cases value with
      | none => exact .line _
      | some value =>
          exact .bind_detached (renderExpr_detached setting value) fun code => .line _
  | throwValue location value =>
      exact .bind_detached (renderExpr_detached setting value) fun code => .line _
  | unset location target =>
      exact .bind_detached (renderExpr_detached setting target) fun code => .line _
  | echo location values =>
      exact .bind_detached (renderExprs_detached setting values) fun codes => .line _
  | require location file =>
      exact .bind_detached (renderExpr_detached setting file) fun code => .line _
  | tryCatch location body handlers =>
      apply (Emission.Shifts.openBlock "try" false).bind
      intro _
      apply (emitBlock_shifts (level + 1) body).bind
      intro _
      apply (emitHandlers_shifts level handlers).bind
      intro _
      exact .closeBlock ""
  | comment location text => exact .comment text
  | empty location => exact .pure ()
termination_by structural statement

theorem emitBlock_shifts (level : Nat) (statements : List Stmt) :
    Emission.Shifts level level (emitBlock setting statements) := by
  cases statements with
  | nil => exact .pure ()
  | cons statement rest =>
      apply (emitStmt_shifts level statement).bind
      intro _
      exact emitBlock_shifts level rest
termination_by structural statements

/-- The block of the branch before is open, and so is the one of the last branch. -/
theorem emitBranches_shifts (level : Nat) (branches : List Branch) :
    Emission.Shifts (level + 1) (level + 1) (emitBranches setting branches) := by
  cases branches with
  | nil => exact .pure ()
  | cons branch rest =>
      rcases branch with ⟨condition, body⟩
      rw [emitBranches_cons]
      apply (renderCondition_shifts setting condition).bind
      intro test
      apply (Emission.Shifts.continueBlock _).bind
      intro _
      apply (Emission.Shifts.lines _).bind
      intro _
      apply (emitBlock_shifts (level + 1) body).bind
      intro _
      exact emitBranches_shifts level rest
termination_by structural branches

theorem emitClauses_shifts (level : Nat) (clauses : List Clause) :
    Emission.Shifts level level (emitClauses setting clauses) := by
  cases clauses with
  | nil => exact .pure ()
  | cons clause rest =>
      have later := emitClauses_shifts level rest
      cases clause with
      | case test body =>
          exact .bind_detached (renderExpr_detached setting test) fun code =>
            .clause _ (emitBlock_shifts (level + 1) body) later
      | default body => exact .clause _ (emitBlock_shifts (level + 1) body) later
termination_by structural clauses

theorem emitHandlers_shifts (level : Nat) (handlers : List Handler) :
    Emission.Shifts (level + 1) (level + 1) (emitHandlers setting handlers) := by
  cases handlers with
  | nil => exact .pure ()
  | cons handler rest =>
      rcases handler with ⟨classes, caught, body⟩
      rw [emitHandlers_cons]
      apply (declareOptional_shifts caught .unknown).bind
      intro _
      apply (Emission.Shifts.continueBlock _).bind
      intro _
      apply (emitBlock_shifts (level + 1) body).bind
      intro _
      exact emitHandlers_shifts level rest
termination_by structural handlers

end

/-! ## Definitions -/

variable {level : Nat}

theorem emitConstant_shifts (constant : Constant) :
    Emission.Shifts level level (emitConstant setting constant) := by
  apply (Emission.Shifts.docblock constant.docblock).bind
  intro _
  exact .bind_detached (renderExpr_detached setting constant.value) fun code => .line _

theorem emitProperty_shifts (property : Property) :
    Emission.Shifts level level (emitProperty setting property) := by
  apply (Emission.Shifts.docblock property.docblock).bind
  intro _
  cases property.default with
  | none => exact .line _
  | some default =>
      exact .bind_detached (renderExpr_detached setting default) fun code => .line _

theorem emitBody_shifts (head : String) (statements : List Stmt) :
    Emission.Shifts level level (emitBody setting head statements) :=
  .block _ _ _ (emitBlock_shifts setting (level + 1) statements)

theorem emitMethod_shifts (inInterface : Bool) (method : Method) :
    Emission.Shifts level level (emitMethod setting inInterface method) := by
  apply (Emission.Shifts.docblock method.docblock).bind
  intro _
  apply Emission.Shifts.withScope
  refine .bind_detached (renderParameters_detached setting method.parameters)
    fun parameters => ?_
  split
  · exact .line _
  · exact emitBody_shifts setting _ _

theorem emitFunction_shifts (definition : FunctionDefinition) :
    Emission.Shifts level level (emitFunction setting definition) := by
  apply (Emission.Shifts.docblock definition.docblock).bind
  intro _
  apply Emission.Shifts.withScope
  refine .bind_detached (renderParameters_detached setting definition.parameters)
    fun parameters => ?_
  exact emitBody_shifts setting _ _

end

end ZephirPhp
