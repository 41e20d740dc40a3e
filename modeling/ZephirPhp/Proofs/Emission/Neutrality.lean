import ZephirPhp.Proofs.Emission.Levels
import ZephirPhp.Proofs.Emission.Showing

/-! # Statements that stop at a fault

A statement that can be written ends at the level at which it began. One that meets a
fault stops somewhere inside its blocks, where the page is at that level or deeper:
between the blocks of an `if` or a `try`, the page is one level back for a single line
only, and nothing can go wrong there. No line is left unfinished, and no line that was
written before is lost.
-/

namespace ZephirPhp

variable {α β : Type}

namespace Emission

/-- From a page at `level`, a fault leaves a page between lines that is not above
`floor`. -/
def Halts (floor level : Nat) (emission : Emission α) : Prop :=
  ∀ emitter diagnostic final, emission emitter = .error diagnostic final →
    emitter.page.AtLevel level → floor ≤ final.page.depth ∧ final.page.pending = ""

namespace Halts

variable {floor level before middle : Nat}

theorem pure (value : α) : Halts floor level (Pure.pure value) := by
  rintro emitter diagnostic final ⟨⟩

theorem onPage (change : Page → Page) : Halts floor level (Emission.onPage change) := by
  rintro emitter diagnostic final ⟨⟩

theorem onScope (change : Scope → Scope) :
    Halts floor level (Emission.onScope change) := by
  rintro emitter diagnostic final ⟨⟩

/-- The first part meets a fault, or it ends and the rest meets one. -/
theorem bind {first : Emission α} {next : α → Emission β}
    (start : Halts floor before first) (shifts : Shifts before middle first)
    (rest : ∀ value, Halts floor middle (next value)) :
    Halts floor before (first >>= next) := by
  intro emitter diagnostic final ended begun
  rcases (EStateM.bind_eq_error_iff first next emitter final diagnostic).mp ended with
    stopped | ⟨value, between, passed, stopped⟩
  · exact start emitter diagnostic final stopped begun
  · exact rest value between diagnostic final stopped
      (shifts emitter value between passed begun)

theorem ofDetached {emission : Emission α} (low : floor ≤ level)
    (detached : Detached emission) :
    Halts floor level emission := by
  intro emitter diagnostic final ended begun
  rcases detached with ⟨answer, settled⟩
  have unmoved : (EStateM.final (emission emitter)).page = emitter.page := by
    rw [settled, Answer.final_emission]
  rw [ended] at unmoved
  rw [show final.page = emitter.page from unmoved, begun.depth]
  exact ⟨low, begun.pending⟩

/-- The first part is rendered apart from the page. -/
theorem bind_detached {first : Emission α} {next : α → Emission β} (low : floor ≤ level)
    (detached : Detached first) (rest : ∀ value, Halts floor level (next value)) :
    Halts floor level (first >>= next) :=
  (ofDetached low detached).bind (.ofDetached detached) rest

theorem bindTarget (low : floor ≤ level) (binding : Binding) (name : String)
    (location : Location) : Halts floor level (Emission.bind binding name location) := by
  cases binding with
  | none => exact pure ()
  | write => exact onScope _
  | update =>
      intro emitter diagnostic final ended begun
      rw [Emission.bind, EStateM.bind_apply, EStateM.get_apply] at ended
      have halts : Halts floor level (do
          let scope ← Emission.ofExcept (emitter.scope.update name location)
          Emission.onScope fun _ => scope) :=
        bind_detached low (.ofExcept _) fun _ => onScope _
      exact halts emitter diagnostic final ended begun

theorem lines (texts : List String) : Halts floor level (Emission.lines texts) := by
  induction texts with
  | nil => exact pure ()
  | cons text rest induction =>
      have first : Halts floor level (Emission.line text) := onPage _
      exact first.bind (.line text) fun _ => induction

theorem block (header suffix : String) {body : Emission Unit}
    (inside : Halts floor (level + 1) body)
    (shifts : Shifts (level + 1) (level + 1) body) :
    Halts floor level (do
      Emission.onPage (·.openBlock header false)
      body
      Emission.onPage (·.closeBlock suffix)) := by
  apply (onPage _).bind (.openBlock header false)
  intro _
  apply inside.bind shifts
  intro _
  exact onPage _

theorem clause (label : String) {body rest : Emission Unit}
    (inside : Halts floor (level + 1) body) (shifts : Shifts (level + 1) (level + 1) body)
    (later : Halts floor level rest) :
    Halts floor level (do
      Emission.line label
      Emission.onPage (·.indent)
      body
      Emission.onPage (·.flush.unindent)
      rest) := by
  apply (onPage _).bind (.line label)
  intro _
  apply (onPage _).bind .indent
  intro _
  apply inside.bind shifts
  intro _
  apply (onPage _).bind .unindent
  intro _
  exact later

end Halts

end Emission

/-! ## Statements -/

section

variable (setting : Setting)

theorem renderCondition_halts {floor level : Nat} (low : floor ≤ level)
    (condition : Expr) :
    Emission.Halts floor level (renderCondition setting condition) := by
  cases condition with
  | fetch location target source =>
      apply Emission.Halts.bind_detached low (renderExpr_detached setting source)
      intro code
      exact (Emission.Halts.bindTarget low .write target location).bind
        (.bindTarget .write target location) fun _ => .pure _
  | _ => exact .bind_detached low (renderExpr_detached setting _) fun code => .pure _

theorem declareOptional_halts {floor level : Nat} (name : Option String)
    (location : Location) :
    Emission.Halts floor level (declareOptional name location) := by
  cases name with
  | none => exact .pure ()
  | some name => exact .onScope _

theorem compileAssignments_halts {floor level : Nat} (low : floor ≤ level)
    (assignments : List Assignment) :
    Emission.Halts floor level (compileAssignments setting assignments) := by
  induction assignments with
  | nil => exact .pure _
  | cons assignment rest induction =>
      have first : Emission.Halts floor level (compileAssignment setting assignment) := by
        rcases assignment with ⟨form, operator, target, property, index, value, location⟩
        rw [compileAssignment_sides]
        apply (Emission.Halts.bindTarget low form.binding target location).bind
          (.bindTarget _ _ _)
        intro _
        apply Emission.Halts.bind_detached low (renderExprs_detached setting _)
        intro steps
        exact .ofDetached low
          (compileSides_detached fun expression _ =>
            renderExpr_detached setting expression)
      apply first.bind (compileAssignment_shifts setting assignment)
      intro compiled
      exact induction.bind (compileAssignments_shifts setting rest) fun others => .pure _

theorem emitDeclarations_halts {floor level : Nat} (low : floor ≤ level)
    (location : Location) (declarations : List Declaration) :
    Emission.Halts floor level (emitDeclarations setting location declarations) := by
  induction declarations with
  | nil => exact .pure ()
  | cons declaration rest induction =>
      rcases declaration with ⟨name, value⟩
      cases value with
      | none => exact (Emission.Halts.onScope _).bind (.onScope _) fun _ => induction
      | some value =>
          apply (Emission.Halts.onScope _).bind (.onScope _)
          intro _
          apply Emission.Halts.bind_detached low (renderExpr_detached setting value)
          intro code
          exact (Emission.Halts.onPage _).bind (.line _) fun _ => induction

mutual

/-- A statement that meets a fault stops at the level at which it begins, or deeper. -/
theorem emitStmt_halts {floor level : Nat} (low : floor ≤ level) (statement : Stmt) :
    Emission.Halts floor level (emitStmt setting statement) := by
  have inner : floor ≤ level + 1 := Nat.le_succ_of_le low
  cases statement with
  | assign location assignments =>
      exact (compileAssignments_halts setting low assignments).bind
        (compileAssignments_shifts setting assignments) fun compiled => .lines _
  | declare location declarations =>
      exact emitDeclarations_halts setting low location declarations
  | expression location expression =>
      exact .bind_detached low (renderExpr_detached setting expression)
        fun code => .onPage _
  | cond location condition body alternatives otherwise =>
      rw [emitStmt_cond]
      apply (renderCondition_halts setting low condition).bind
        (renderCondition_shifts setting condition)
      intro test
      apply (Emission.Halts.onPage _).bind (.openBlock _ false)
      intro _
      apply (Emission.Halts.lines _).bind (.lines _)
      intro _
      apply (emitBlock_halts inner body).bind (emitBlock_shifts setting (level + 1) body)
      intro _
      apply (emitBranches_halts inner alternatives).bind
        (emitBranches_shifts setting level alternatives)
      intro _
      cases otherwise with
      | none => exact .onPage _
      | some block =>
          apply (Emission.Halts.onPage _).bind (.continueBlock "else")
          intro _
          apply (emitBlock_halts inner block).bind
            (emitBlock_shifts setting (level + 1) block)
          intro _
          exact .onPage _
  | loop location body =>
      exact .block _ _ (emitBlock_halts inner body)
        (emitBlock_shifts setting (level + 1) body)
  | whileLoop location condition body =>
      exact .bind_detached low (renderExpr_detached setting condition) fun code =>
        .block _ _ (emitBlock_halts inner body)
          (emitBlock_shifts setting (level + 1) body)
  | doWhile location body condition =>
      apply (Emission.Halts.onPage _).bind (.openBlock "do" false)
      intro _
      apply (emitBlock_halts inner body).bind (emitBlock_shifts setting (level + 1) body)
      intro _
      exact .bind_detached inner (renderExpr_detached setting condition)
        fun code => .onPage _
  | forEach location key value reverse source body =>
      rw [emitStmt_forEach]
      apply Emission.Halts.bind_detached low (renderExpr_detached setting source)
      intro code
      apply (Emission.Halts.onScope _).bind (.onScope _)
      intro _
      apply (declareOptional_halts _ location).bind (declareOptional_shifts _ location)
      intro _
      exact .block _ _ (emitBlock_halts inner body)
        (emitBlock_shifts setting (level + 1) body)
  | switch location subject clauses =>
      exact .bind_detached low (renderExpr_detached setting subject) fun code =>
        .block _ _ (emitClauses_halts inner clauses)
          (emitClauses_shifts setting (level + 1) clauses)
  | continueLoop location => exact .onPage _
  | breakLoop location => exact .onPage _
  | returnValue location value =>
      cases value with
      | none => exact .onPage _
      | some value =>
          exact .bind_detached low (renderExpr_detached setting value)
            fun code => .onPage _
  | throwValue location value =>
      exact .bind_detached low (renderExpr_detached setting value) fun code => .onPage _
  | unset location target =>
      exact .bind_detached low (renderExpr_detached setting target) fun code => .onPage _
  | echo location values =>
      exact .bind_detached low (renderExprs_detached setting values)
        fun codes => .onPage _
  | require location file =>
      exact .bind_detached low (renderExpr_detached setting file) fun code => .onPage _
  | tryCatch location body handlers =>
      apply (Emission.Halts.onPage _).bind (.openBlock "try" false)
      intro _
      apply (emitBlock_halts inner body).bind (emitBlock_shifts setting (level + 1) body)
      intro _
      apply (emitHandlers_halts inner handlers).bind
        (emitHandlers_shifts setting level handlers)
      intro _
      exact .onPage _
  | comment location text => exact .onPage _
  | empty location => exact .pure ()
termination_by structural statement

theorem emitBlock_halts {floor level : Nat} (low : floor ≤ level)
    (statements : List Stmt) :
    Emission.Halts floor level (emitBlock setting statements) := by
  cases statements with
  | nil => exact .pure ()
  | cons statement rest =>
      apply (emitStmt_halts low statement).bind (emitStmt_shifts setting level statement)
      intro _
      exact emitBlock_halts low rest
termination_by structural statements

theorem emitBranches_halts {floor level : Nat} (low : floor ≤ level + 1)
    (branches : List Branch) :
    Emission.Halts floor (level + 1) (emitBranches setting branches) := by
  cases branches with
  | nil => exact .pure ()
  | cons branch rest =>
      rcases branch with ⟨condition, body⟩
      rw [emitBranches_cons]
      -- The condition is rendered before the block of the branch before is closed.
      apply (renderCondition_halts setting low condition).bind
        (renderCondition_shifts setting condition)
      intro test
      apply (Emission.Halts.onPage _).bind (.continueBlock _)
      intro _
      apply (Emission.Halts.lines _).bind (.lines _)
      intro _
      apply (emitBlock_halts low body).bind (emitBlock_shifts setting (level + 1) body)
      intro _
      exact emitBranches_halts low rest
termination_by structural branches

theorem emitClauses_halts {floor level : Nat} (low : floor ≤ level)
    (clauses : List Clause) :
    Emission.Halts floor level (emitClauses setting clauses) := by
  have inner : floor ≤ level + 1 := Nat.le_succ_of_le low
  cases clauses with
  | nil => exact .pure ()
  | cons clause rest =>
      have later := emitClauses_halts low rest
      cases clause with
      | case test body =>
          exact .bind_detached low (renderExpr_detached setting test) fun code =>
            .clause _ (emitBlock_halts inner body)
              (emitBlock_shifts setting (level + 1) body) later
      | default body =>
          exact .clause _ (emitBlock_halts inner body)
            (emitBlock_shifts setting (level + 1) body) later
termination_by structural clauses

theorem emitHandlers_halts {floor level : Nat} (low : floor ≤ level + 1)
    (handlers : List Handler) :
    Emission.Halts floor (level + 1) (emitHandlers setting handlers) := by
  cases handlers with
  | nil => exact .pure ()
  | cons handler rest =>
      rcases handler with ⟨classes, caught, body⟩
      rw [emitHandlers_cons]
      apply (declareOptional_halts caught .unknown).bind
        (declareOptional_shifts caught .unknown)
      intro _
      apply (Emission.Halts.onPage _).bind (.continueBlock _)
      intro _
      apply (emitBlock_halts low body).bind (emitBlock_shifts setting (level + 1) body)
      intro _
      exact emitHandlers_halts low rest
termination_by structural handlers

end

end

/-! ## What is written -/

namespace Page

/-- The finished lines of a page, each with its line break. -/
def text (layout : Layout) (page : Page) : String :=
  String.join (page.lines.reverse.map fun line => showLine layout line ++ "\n")

theorem GrowsTo.keepsText {page grown : Page} (grows : page.GrowsTo grown)
    (layout : Layout) :
    (page.text layout).toList <+: (grown.text layout).toList := by
  rcases grows with ⟨later, added⟩
  rw [text, text, added, List.reverse_append, List.map_append, String.join_append,
    String.toList_append]
  exact List.prefix_append _ _

end Page

/-- A statement that is written between lines leaves the depth as it was, and no line
unfinished. If it meets a fault, the depth is no smaller, no line is unfinished either,
and what was written before is still there, with what follows it. -/
theorem emitStmt_depth_neutral (setting : Setting) (statement : Stmt)
    (emitter : Emitter) (between : emitter.page.pending = "") :
    (∀ final, emitStmt setting statement emitter = .ok () final →
      final.page.depth = emitter.page.depth ∧ final.page.pending = "" ∧
        (emitter.page.text setting.layout).toList <+:
          (final.page.text setting.layout).toList) ∧
    ∀ diagnostic final, emitStmt setting statement emitter = .error diagnostic final →
      emitter.page.depth ≤ final.page.depth ∧ final.page.pending = "" ∧
        (emitter.page.text setting.layout).toList <+:
          (final.page.text setting.layout).toList := by
  have start : emitter.page.AtLevel emitter.page.depth := ⟨rfl, between⟩
  have kept :=
    ((emitStmt_local setting statement).growsTo emitter).keepsText setting.layout
  constructor
  · intro final ended
    have level := emitStmt_shifts setting _ statement emitter () final ended start
    rw [ended] at kept
    exact ⟨level.depth, level.pending, kept⟩
  · intro diagnostic final ended
    have stopped :=
      emitStmt_halts setting (Nat.le_refl _) statement emitter diagnostic final
      ended start
    rw [ended] at kept
    exact ⟨stopped.1, stopped.2, kept⟩

/-- The second branch of an `if` appends to a variable that is not declared, in a clause
of a `switch`. -/
def derailed : Stmt :=
  .cond .unknown (.atom .unknown (.bool true))
    [.echo .unknown [.atom .unknown (.int "1")]]
    [⟨.atom .unknown (.bool false), [.switch .unknown (.atom .unknown (.int "2"))
      [.case (.atom .unknown (.int "3")) [.breakLoop .unknown,
        .assign .unknown
          [⟨.variableAppend, none, "v", none, [], some (.atom .unknown .null),
            .unknown⟩]]]]⟩]
    none

theorem emitStmt_depth_neutral_of_derailed :
    let begun : Emitter := { page := { depth := 1, lines := [.code 0 "do \x7b"] } }
    begun.page.pending = "" ∧
      ∃ final, emitStmt {} derailed begun =
        .error (.undeclaredVariable "v" .unknown) final ∧
        final.page.depth = 4 ∧ begun.page.depth ≤ final.page.depth ∧
        final.page.pending = "" ∧
        (begun.page.text {}).toList <+: (final.page.text {}).toList := by
  intro begun
  have ended : emitStmt {} derailed begun = .error (.undeclaredVariable "v" .unknown)
      (EStateM.final (emitStmt {} derailed begun)) := by rfl
  exact ⟨rfl, _, ended, by rfl,
    (emitStmt_depth_neutral {} derailed begun rfl).2 _ _ ended⟩

end ZephirPhp
