import ZephirPhp.Proofs.Emission.Accounting

/-! # Branch hints

The hints `likely` and `unlikely` show nothing but their operand. A condition that
fetches a value into a variable is recognised by its shape, however, and a hint around
it changes that shape. So hints can be left out around every condition but such a one,
where they cost the assignment to the variable.
-/

namespace ZephirPhp

/-- Whether an operator is a hint. -/
def UnaryOperator.IsHint (operator : UnaryOperator) : Prop :=
  operator = .likely ∨ operator = .unlikely

/-- Whether a condition fetches a value into a variable. -/
def Expr.IsFetch (condition : Expr) : Prop :=
  ∃ location target source, condition = .fetch location target source

theorem Expr.not_isFetch_unary (place : Location) (operator : UnaryOperator)
    (operand : Expr) :
    ¬ (Expr.unary place operator operand).IsFetch := by
  rintro ⟨_, _, _, impossible⟩
  cases impossible

/-- An `if` without one of its conditions: the first one, or the one of a further
branch. -/
inductive Guard where
  | first (body : List Stmt) (alternatives : List Branch) (otherwise : Option (List Stmt))
  | further (leading : Expr) (body : List Stmt) (earlier : List Branch)
      (inner : List Stmt)
      (later : List Branch) (otherwise : Option (List Stmt))

/-- The `if` with its missing condition. -/
def Guard.stmt (location : Location) : Guard → Expr → Stmt
  | .first body alternatives otherwise, condition =>
    .cond location condition body alternatives otherwise
  | .further leading body earlier inner later otherwise, condition =>
    .cond location leading body (earlier ++ ⟨condition, inner⟩ :: later) otherwise

/-! ## Conditions that are treated alike -/

section

variable (setting : Setting)

theorem renderExpr_hint {operator : UnaryOperator} (hint : operator.IsHint)
    (place : Location) (operand : Expr) :
    renderExpr setting (.unary place operator operand) = renderExpr setting operand := by
  have shown : ∀ code, operator.code code = code := by
    rcases hint with rfl | rfl <;> exact fun _ => rfl
  have unfolded : renderExpr setting (.unary place operator operand) = (do
      return operator.code (← renderExpr setting operand)) := by
    rcases hint with rfl | rfl <;> rfl
  simp only [unfolded, shown, bind_pure]

theorem renderCondition_of_not_isFetch {condition : Expr} (plain : ¬ condition.IsFetch) :
    renderCondition setting condition =
      (do return ⟨← renderExpr setting condition, none⟩) := by
  cases condition with
  | fetch location target source => exact absurd ⟨location, target, source, rfl⟩ plain
  | _ => rfl

theorem renderCondition_hint {operator : UnaryOperator} (hint : operator.IsHint)
    (place : Location) {condition : Expr} (plain : ¬ condition.IsFetch) :
    renderCondition setting (.unary place operator condition) =
      renderCondition setting condition := by
  rw [renderCondition_of_not_isFetch setting plain,
    renderCondition_of_not_isFetch setting
      (Expr.not_isFetch_unary place operator condition),
    renderExpr_hint setting hint]

theorem emitBranches_congr {condition other : Expr}
    (alike : renderCondition setting condition = renderCondition setting other)
    (earlier : List Branch) (inner : List Stmt) (later : List Branch) :
    emitBranches setting (earlier ++ ⟨condition, inner⟩ :: later) =
      emitBranches setting (earlier ++ ⟨other, inner⟩ :: later) := by
  induction earlier with
  | nil =>
      rw [List.nil_append, List.nil_append, emitBranches_cons, emitBranches_cons, alike]
  | cons branch rest induction =>
      rcases branch with ⟨first, body⟩
      rw [List.cons_append, List.cons_append, emitBranches_cons,
        emitBranches_cons, induction]

/-- Of a condition, an `if` sees how it is rendered. -/
theorem Guard.emitStmt_congr (guard : Guard) (location : Location)
    {condition other : Expr}
    (alike : renderCondition setting condition = renderCondition setting other) :
    emitStmt setting (guard.stmt location condition) =
      emitStmt setting (guard.stmt location other) := by
  cases guard with
  | first body alternatives otherwise =>
      rw [Guard.stmt, Guard.stmt, emitStmt_cond, emitStmt_cond, alike]
  | further leading body earlier inner later otherwise =>
      rw [Guard.stmt, Guard.stmt, emitStmt_cond, emitStmt_cond,
        emitBranches_congr setting alike]

end

/-! ## Conditions that are counted -/

theorem Noting.ofBranches_append (noting : Noting) (earlier later : List Branch) :
    noting.ofBranches (earlier ++ later) =
      noting.ofBranches later ++ noting.ofBranches earlier := by
  induction earlier with
  | nil => exact (List.append_nil _).symm
  | cons branch rest induction =>
      rcases branch with ⟨condition, body⟩
      simp only [List.cons_append, ofBranches, induction, List.append_assoc]

/-- A condition adds the name that it fetches into, and nothing else. -/
theorem Guard.writes_stmt (guard : Guard) (location : Location) :
    ∃ front back, ∀ condition,
      Noting.writes.ofStmt (guard.stmt location condition) =
        front ++ (condition.fetched ++ back) := by
  open Noting in
  cases guard with
  | first body alternatives otherwise =>
      refine ⟨writes.ofBlock (otherwise.getD []) ++ (writes.ofBranches alternatives ++
        writes.ofBlock body), [], fun condition => ?_⟩
      cases otherwise <;> simp [Guard.stmt, ofStmt, ofBlock]
  | further leading body earlier inner later otherwise =>
      refine ⟨writes.ofBlock (otherwise.getD []) ++ (writes.ofBranches later ++
        writes.ofBlock inner),
        writes.ofBranches earlier ++ (writes.ofBlock body ++ leading.fetched),
        fun condition => ?_⟩
      cases otherwise <;>
        simp [Guard.stmt, ofStmt, ofBranches_append, ofBranches, ofBlock]

/-- An `if` that fetches into a variable writes to it once more than with a hint there. -/
theorem Guard.count_writes_fetch (guard : Guard) (location place fetchPlace : Location)
    (operator : UnaryOperator) (target : String) (source : Expr) :
    (Noting.writes.ofStmt
        (guard.stmt location (.fetch fetchPlace target source))).count target =
      (Noting.writes.ofStmt (guard.stmt location
        (.unary place operator (.fetch fetchPlace target source)))).count target + 1 := by
  rcases guard.writes_stmt location with ⟨front, back, writes⟩
  rw [writes, writes]
  simp only [Expr.fetched, List.nil_append, List.count_append, List.count_singleton_self]
  omega

/-- A hint around a condition that is not a fetch is as good as none: the `if` is emitted
with the same lines and warnings, in the same scope, or with the same fault. A hint around
a fetch is not, if the `if` can be emitted at all. -/
theorem hint_transparent_iff (setting : Setting) {operator : UnaryOperator}
    (hint : operator.IsHint) (guard : Guard) (location place : Location)
    (condition : Expr) :
    (¬ condition.IsFetch →
      emitStmt setting (guard.stmt location (.unary place operator condition)) =
        emitStmt setting (guard.stmt location condition)) ∧
    ∀ emitter after,
      emitStmt setting (guard.stmt location condition) emitter = .ok () after ∨
          emitStmt setting (guard.stmt location (.unary place operator condition))
            emitter =
            .ok () after →
        (emitStmt setting (guard.stmt location (.unary place operator condition))
          emitter =
            emitStmt setting (guard.stmt location condition) emitter ↔
          ¬ condition.IsFetch) := by
  have transparent (plain : ¬ condition.IsFetch) :=
    guard.emitStmt_congr setting location (renderCondition_hint setting hint place plain)
  refine ⟨transparent, fun emitter after done => ⟨fun same => ?_, fun plain => ?_⟩⟩
  · rintro ⟨fetchPlace, target, source, rfl⟩
    -- Both succeed in the same scope, but one of them has counted a write more.
    rw [same, or_self] at done
    have plainCount :=
      ((emitStmt_accounts setting _ emitter).2 () after done).writes target
    have hintedCount :=
      ((emitStmt_accounts setting _ emitter).2 () after (same.trans done)).writes target
    have more := guard.count_writes_fetch location place fetchPlace operator target source
    omega
  · rw [transparent plain]

/-- A fetch from one variable into another. -/
def fetching : Expr :=
  .fetch .unknown "v" (.atom .unknown (.variable "a"))

/-- A second hint around a fetch changes nothing, also at a further branch. -/
theorem hint_transparent_iff_of_stacked :
    let guard : Guard := .further fetching [] [] [.breakLoop .unknown] [] none
    let hinted : Expr := .unary .unknown .likely fetching
    emitStmt {} (guard.stmt .unknown (.unary .unknown .unlikely hinted)) =
        emitStmt {} (guard.stmt .unknown hinted) ∧
      emitStmt {} (guard.stmt .unknown hinted) {} ≠
        emitStmt {} (guard.stmt .unknown fetching) {} := by
  intro guard hinted
  constructor
  · apply (hint_transparent_iff {} (.inr rfl) guard .unknown .unknown hinted).1
    exact Expr.not_isFetch_unary .unknown .likely fetching
  · have done : ∃ after, emitStmt {} (guard.stmt .unknown fetching) {} = .ok () after :=
      ⟨_, rfl⟩
    rcases done with ⟨after, done⟩
    intro same
    exact ((hint_transparent_iff {} (.inl rfl) guard .unknown .unknown fetching).2 {}
      after (.inl done)).mp same ⟨_, _, _, rfl⟩

/-- With a hint, the variable of a fetch is neither bound nor assigned. -/
theorem hinted_fetch_not_assigned :
    let guard : Guard := .first [] [] none
    (∃ plain, emitStmt {} (guard.stmt .unknown fetching) {} = .ok () plain ∧
      plain.page.finish {} = "if (isset($a)) \x7b\n  $v = $a;\n\x7d\n" ∧
      Dictionary.get? plain.scope "v" = some ⟨"v", 1, .unknown⟩) ∧
    ∃ hinted, emitStmt {} (guard.stmt .unknown (.unary .unknown .likely fetching)) {} =
        .ok () hinted ∧
      hinted.page.finish {} = "if (isset($a)) \x7b\n\x7d\n" ∧
      Dictionary.get? hinted.scope "v" = none :=
  ⟨⟨_, rfl, by decide, rfl⟩, _, rfl, by decide, rfl⟩

end ZephirPhp
