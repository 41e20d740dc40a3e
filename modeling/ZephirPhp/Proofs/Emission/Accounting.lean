import ZephirPhp.Proofs.Emission.Locality

/-! # What emission does to the scope

Statements bind variables and count the writes to them. The names that a body writes to,
as often as it does, say by how much the counts have grown once it is emitted, and the
names that it binds say which variables are there then. On the way, and also when
emission stops at a fault, variables are only added and counts only go up.
-/

namespace ZephirPhp

variable {α β : Type}

/-! ## Scopes before and after -/

/-- A symbol later on: it is declared where it was, and no write to it is forgotten. -/
structure Symbol.Continues (symbol later : Symbol) : Prop where
  declaredAt : later.declaredAt = symbol.declaredAt
  writes : symbol.writes ≤ later.writes

namespace Scope

/-- How often a variable has been bound for a write; never, if it is not there. -/
def writeCount (scope : Scope) (name : String) : Nat :=
  (Dictionary.get? scope name).elim 0 (·.writes)

/-- Every variable is there later on. -/
def Grows (scope later : Scope) : Prop :=
  ∀ name symbol, Dictionary.get? scope name = some symbol →
    ∃ next, Dictionary.get? later name = some next ∧ symbol.Continues next

/-- The later scope counts the written names on top of the earlier one, and has the bound
names besides those of the earlier one. -/
structure Accounts (written bound : List String) (scope later : Scope) : Prop where
  writes : ∀ name, later.writeCount name = scope.writeCount name + written.count name
  names : ∀ name, Dictionary.contains later name = true ↔
    Dictionary.contains scope name = true ∨ name ∈ bound

variable {scope middle later : Scope}

theorem Grows.refl (scope : Scope) : scope.Grows scope :=
  fun _ symbol found => ⟨symbol, found, rfl, Nat.le_refl _⟩

theorem Grows.trans (start : scope.Grows middle) (rest : middle.Grows later) :
    scope.Grows later := by
  intro name symbol found
  rcases start name symbol found with ⟨next, foundNext, continues⟩
  rcases rest name next foundNext with ⟨last, foundLast, continuesNext⟩
  exact ⟨last, foundLast, continuesNext.declaredAt.trans continues.declaredAt,
    continues.writes.trans continuesNext.writes⟩

theorem Accounts.refl (scope : Scope) : scope.Accounts [] [] scope :=
  ⟨fun _ => rfl, fun _ => by simp⟩

theorem Accounts.trans {written laterWritten bound laterBound : List String}
    (start : scope.Accounts written bound middle)
    (rest : middle.Accounts laterWritten laterBound later) :
    scope.Accounts (laterWritten ++ written) (laterBound ++ bound) later := by
  constructor
  · intro name
    rw [rest.writes, start.writes, List.count_append,
      Nat.add_comm (laterWritten.count name),
      Nat.add_assoc]
  · intro name
    rw [rest.names, start.names, List.mem_append, or_right_comm, or_assoc]

/-! ### A variable that is put into a scope -/

theorem writeCount_insert (scope : Scope) (name : String) (symbol : Symbol)
    (other : String) :
    writeCount (Dictionary.insert name symbol scope) other =
      if other = name then symbol.writes else scope.writeCount other := by
  rw [writeCount]
  split_ifs with same
  · rw [same, Dictionary.get?_insert_self, Option.elim_some]
  · rw [Dictionary.get?_insert_of_ne scope symbol same]
    rfl

theorem grows_insert {name : String} {next : Symbol}
    (continues : ∀ symbol, Dictionary.get? scope name = some symbol →
      symbol.Continues next) :
    scope.Grows (Dictionary.insert name next scope) := by
  intro other symbol found
  by_cases same : other = name
  · subst same
    exact ⟨next, Dictionary.get?_insert_self _ _ _, continues symbol found⟩
  · exact ⟨symbol, (Dictionary.get?_insert_of_ne scope next same).trans found, rfl,
      Nat.le_refl _⟩

/-- The counts are right if the one of the new symbol is. -/
theorem accounts_insert {written : List String} {name : String} {next : Symbol}
    (only : ∀ other, other ≠ name → other ∉ written)
    (writes : next.writes = scope.writeCount name + written.count name) :
    scope.Accounts written [name] (Dictionary.insert name next scope) := by
  constructor
  · intro other
    rw [writeCount_insert]
    split_ifs with same
    · rw [writes, same]
    · rw [List.count_eq_zero.mpr (only other same), Nat.add_zero]
  · intro other
    rw [Dictionary.contains_insert, List.mem_singleton, or_comm]

/-- A name that is there need not be listed as a bound one. -/
theorem Accounts.drop {written : List String} {name : String}
    (accounts : scope.Accounts written [name] later)
    (known : Dictionary.contains scope name = true) :
    scope.Accounts written [] later := by
  refine ⟨accounts.writes, fun other => ?_⟩
  rw [accounts.names, List.mem_singleton]
  simp only [List.not_mem_nil, or_false, or_iff_left_iff_imp]
  rintro rfl
  exact known

/-! ### The three ways to bind a variable -/

theorem contains_of_get? {name : String} {symbol : Symbol}
    (found : Dictionary.get? scope name = some symbol) :
    Dictionary.contains scope name = true := by
  rw [Dictionary.contains, found]
  rfl

theorem declare_grows (scope : Scope) (name : String) (location : Location) :
    scope.Grows (scope.declare name location) := by
  rw [declare]
  cases found : Dictionary.get? scope name with
  | some symbol => exact .refl scope
  | none => exact grows_insert (by simp [found])

theorem declare_accounts (scope : Scope) (name : String) (location : Location) :
    scope.Accounts [] [name] (scope.declare name location) := by
  rw [declare]
  cases found : Dictionary.get? scope name with
  | some symbol =>
      refine ⟨fun _ => rfl, fun other => ?_⟩
      rw [List.mem_singleton, or_iff_left_of_imp]
      rintro rfl
      exact contains_of_get? found
  | none => exact accounts_insert (by simp) (by simp [writeCount, found])

/-- A write to a symbol is counted. -/
theorem count_grows {name : String} {symbol : Symbol}
    (found : Dictionary.get? scope name = some symbol) :
    scope.Grows (Dictionary.insert name { symbol with writes := symbol.writes + 1 }
      scope) := by
  apply grows_insert
  intro same foundSame
  cases found.symm.trans foundSame
  exact ⟨rfl, Nat.le_succ _⟩

theorem count_accounts {name : String} {symbol : Symbol}
    (found : Dictionary.get? scope name = some symbol) :
    scope.Accounts [name] [name]
      (Dictionary.insert name { symbol with writes := symbol.writes + 1 } scope) :=
  accounts_insert (fun _ different => by simpa using different)
    (by simp [writeCount, found])

theorem write_grows (scope : Scope) (name : String) (location : Location) :
    scope.Grows (scope.write name location) := by
  rw [write]
  cases found : Dictionary.get? scope name with
  | some symbol => exact count_grows found
  | none => exact grows_insert (by simp [found])

theorem write_accounts (scope : Scope) (name : String) (location : Location) :
    scope.Accounts [name] [name] (scope.write name location) := by
  rw [write]
  cases found : Dictionary.get? scope name with
  | some symbol => exact count_accounts found
  | none =>
      exact accounts_insert (fun _ different => by simpa using different)
        (by simp [writeCount, found])

theorem update_accounts {name : String} {location : Location}
    (done : scope.update name location = .ok later) :
    scope.Grows later ∧ scope.Accounts [name] [] later := by
  rw [update] at done
  cases found : Dictionary.get? scope name with
  | some symbol =>
      rw [found] at done
      cases done
      exact ⟨count_grows found, (count_accounts found).drop (contains_of_get? found)⟩
  | none =>
      rw [found] at done
      cases done

end Scope

/-! ## Emissions with known bindings -/

/-- Whatever happens, the scope only grows. After success it accounts for the names that
are written and those that are bound. -/
def Emission.Accounts (written bound : List String) (emission : Emission α) : Prop :=
  ∀ emitter : Emitter,
    emitter.scope.Grows (EStateM.final (emission emitter)).scope ∧
      ∀ value after, emission emitter = .ok value after →
        emitter.scope.Accounts written bound after.scope

namespace Emission.Accounts

variable {written laterWritten bound laterBound : List String}

/-- An emission that leaves the scope alone. -/
theorem silent {emission : Emission α}
    (kept : ∀ emitter, (EStateM.final (emission emitter)).scope = emitter.scope) :
    Accounts [] [] emission := by
  intro emitter
  constructor
  · rw [kept]
    exact .refl _
  · intro value after done
    have same := kept emitter
    rw [done] at same
    rw [show after.scope = emitter.scope from same]
    exact .refl _

theorem ofDetached {emission : Emission α} (detached : Detached emission) :
    Accounts [] [] emission := by
  rcases detached with ⟨answer, settled⟩
  apply silent
  intro emitter
  rw [settled, Answer.final_emission]

theorem pure (value : α) : Accounts [] [] (Pure.pure value) :=
  silent fun _ => rfl

theorem onPage (change : Page → Page) : Accounts [] [] (Emission.onPage change) :=
  silent fun _ => rfl

theorem bind {first : Emission α} {next : α → Emission β}
    (start : Accounts written bound first)
    (rest : ∀ value, Accounts laterWritten laterBound (next value)) :
    Accounts (laterWritten ++ written) (laterBound ++ bound) (first >>= next) := by
  intro emitter
  rcases start emitter with ⟨grows, accounts⟩
  rw [EStateM.bind_apply]
  cases run : first emitter with
  | error diagnostic middle =>
      rw [run] at grows
      refine ⟨grows, fun result after impossible => ?_⟩
      cases impossible
  | ok value middle =>
      rw [run] at grows
      rcases rest value middle with ⟨growsOn, accountsOn⟩
      exact ⟨grows.trans growsOn, fun result after done =>
        (accounts value middle run).trans (accountsOn result after done)⟩

/-- The names may be listed in another order. -/
theorem perm {emission : Emission α} {sameWritten sameBound : List String}
    (accounts : Accounts written bound emission) (writes : written.Perm sameWritten)
    (names : bound.Perm sameBound) : Accounts sameWritten sameBound emission := by
  intro emitter
  refine ⟨(accounts emitter).1, fun value after done => ?_⟩
  have listed := (accounts emitter).2 value after done
  constructor
  · intro name
    rw [listed.writes, writes.count_eq]
  · intro name
    rw [listed.names, names.mem_iff]

/-- A first part that binds nothing. -/
theorem bind_silent {first : Emission α} {next : α → Emission β}
    (start : Accounts [] [] first) (rest : ∀ value, Accounts written bound (next value)) :
    Accounts written bound (first >>= next) := by
  have both := start.bind rest
  rwa [List.append_nil, List.append_nil] at both

/-- A first part that binds but does not write. -/
theorem bind_declaring {first : Emission α} {next : α → Emission β}
    (start : Accounts [] bound first)
    (rest : ∀ value, Accounts laterWritten laterBound (next value)) :
    Accounts laterWritten (laterBound ++ bound) (first >>= next) := by
  have both := start.bind rest
  rwa [List.append_nil] at both

/-- A last part that binds nothing. -/
theorem bind_last {first : Emission α} {next : α → Emission β}
    (start : Accounts written bound first) (rest : ∀ value, Accounts [] [] (next value)) :
    Accounts written bound (first >>= next) :=
  start.bind rest

theorem bind_pure {first : Emission α} {change : α → β}
    (start : Accounts written bound first) :
    Accounts written bound (first >>= fun value => Pure.pure (change value)) :=
  start.bind_last fun value => pure (change value)

theorem line (text : String) : Accounts [] [] (Emission.line text) :=
  onPage _

theorem lines (texts : List String) : Accounts [] [] (Emission.lines texts) := by
  induction texts with
  | nil => exact pure ()
  | cons text rest induction => exact (line text).bind fun _ => induction

theorem declare (name : String) (location : Location) :
    Accounts [] [name] (Emission.onScope (·.declare name location)) := by
  intro emitter
  refine ⟨emitter.scope.declare_grows name location, fun value after done => ?_⟩
  cases done
  exact emitter.scope.declare_accounts name location

theorem declareOptional (name : Option String) (location : Location) :
    Accounts [] name.toList (ZephirPhp.declareOptional name location) := by
  cases name with
  | none => exact pure ()
  | some name => exact declare name location

theorem write (name : String) (location : Location) :
    Accounts [name] [name] (Emission.onScope (·.write name location)) := by
  intro emitter
  refine ⟨emitter.scope.write_grows name location, fun value after done => ?_⟩
  cases done
  exact emitter.scope.write_accounts name location

theorem update (name : String) (location : Location) :
    Accounts [name] [] (Emission.bind .update name location) := by
  intro emitter
  simp only [Emission.bind, EStateM.bind_apply, EStateM.get_apply]
  cases updated : emitter.scope.update name location with
  | error diagnostic =>
      refine ⟨.refl _, fun value after impossible => ?_⟩
      cases impossible
  | ok scope =>
      rcases Scope.update_accounts updated with ⟨grows, accounts⟩
      refine ⟨grows, fun value after done => ?_⟩
      cases done
      exact accounts

/-- Looking up the variable of an assignment. -/
theorem bindTarget (form : AssignmentForm) (target : String) (location : Location) :
    Accounts (writtenByForm form target) (boundByForm form target)
      (Emission.bind form.binding target location) := by
  rw [writtenByForm, boundByForm]
  cases form.binding with
  | none => exact pure ()
  | write => exact write target location
  | update => exact update target location

theorem block (header : String) {body : Emission Unit}
    (inside : Accounts written bound body) (suffix : String) :
    Accounts written bound (do
      Emission.onPage (·.openBlock header false)
      body
      Emission.onPage (·.closeBlock suffix)) :=
  (onPage _).bind_silent fun _ => inside.bind_last fun _ => onPage _

theorem clause (label : String) {body rest : Emission Unit}
    (inside : Accounts written bound body)
    (later : Accounts laterWritten laterBound rest) :
    Accounts (laterWritten ++ written) (laterBound ++ bound) (do
      Emission.line label
      Emission.onPage (·.indent)
      body
      Emission.onPage (·.flush.unindent)
      rest) := by
  apply (line label).bind_silent
  intro _
  apply (onPage _).bind_silent
  intro _
  apply inside.bind
  intro _
  exact (onPage _).bind_silent fun _ => later

end Emission.Accounts

/-! ## Statements -/

section

variable (setting : Setting)

theorem renderExpr_accounts (expression : Expr) :
    Emission.Accounts [] [] (renderExpr setting expression) :=
  .ofDetached (renderExpr_detached setting expression)

theorem renderCondition_accounts (condition : Expr) :
    Emission.Accounts condition.fetched condition.fetched
      (renderCondition setting condition) := by
  cases condition with
  | fetch location target source =>
      apply (renderExpr_accounts setting source).bind_silent
      intro code
      exact (Emission.Accounts.write target location).bind_pure
  | _ => exact (renderExpr_accounts setting _).bind_pure

/-- A branch with all that follows it. -/
theorem branch_accounts {written laterWritten bound laterBound : List String}
    (condition : Expr) (opening : Condition → Page → Page) {body rest : Emission Unit}
    (inside : Emission.Accounts written bound body)
    (later : Emission.Accounts laterWritten laterBound rest) :
    Emission.Accounts (laterWritten ++ written ++ condition.fetched)
      (laterBound ++ bound ++ condition.fetched) (do
        let condition ← renderCondition setting condition
        Emission.onPage (opening condition)
        Emission.lines condition.assignment.toList
        body
        rest) := by
  apply (renderCondition_accounts setting condition).bind
  intro code
  apply (Emission.Accounts.onPage _).bind_silent
  intro _
  apply (Emission.Accounts.lines _).bind_silent
  intro _
  exact inside.bind fun _ => later

theorem compileAssignment_accounts (assignment : Assignment) :
    Emission.Accounts (writtenByForm assignment.form assignment.target)
      (boundByForm assignment.form assignment.target)
        (compileAssignment setting assignment) := by
  rcases assignment with ⟨form, operator, target, property, index, value, location⟩
  rw [compileAssignment_sides]
  apply (Emission.Accounts.bindTarget form target location).bind_last
  intro _
  apply (Emission.Accounts.ofDetached (renderExprs_detached setting _)).bind_silent
  intro steps
  exact .ofDetached
    (compileSides_detached fun expression _ => renderExpr_detached setting expression)

theorem compileAssignments_accounts (assignments : List Assignment) :
    Emission.Accounts
      (assignments.flatMap fun assignment =>
        writtenByForm assignment.form assignment.target)
      (assignments.flatMap fun assignment =>
        boundByForm assignment.form assignment.target)
      (compileAssignments setting assignments) := by
  induction assignments with
  | nil => exact .pure _
  | cons assignment rest induction =>
      have later (compiled : CompiledAssignment) : Emission.Accounts _ _ (do
          return compiled :: (← compileAssignments setting rest)) :=
        induction.bind_pure
      have both := (compileAssignment_accounts setting assignment).bind later
      exact both.perm List.perm_append_comm List.perm_append_comm

/-- A variable is there before its first value is rendered, which binds nothing. -/
theorem emitDeclarations_accounts (location : Location)
    (declarations : List Declaration) :
    Emission.Accounts [] (declarations.map (·.name))
      (emitDeclarations setting location declarations) := by
  induction declarations with
  | nil => exact .pure ()
  | cons declaration rest induction =>
      rcases declaration with ⟨name, value⟩
      have first := Emission.Accounts.declare name location
      cases value with
      | none =>
          have both := first.bind fun _ => induction
          exact both.perm (.refl _) List.perm_append_comm
      | some value =>
          have written (code : String) :=
            (Emission.Accounts.line ("$" ++ name ++ " = " ++ code ++ ";")).bind_silent
              fun _ => induction
          have both := first.bind fun _ =>
            (renderExpr_accounts setting value).bind_silent written
          exact both.perm (.refl _) List.perm_append_comm

mutual

/-- A statement accounts for the names that it writes to and those that it binds. -/
theorem emitStmt_accounts (statement : Stmt) :
    Emission.Accounts (Noting.writes.ofStmt statement) (Noting.names.ofStmt statement)
      (emitStmt setting statement) := by
  cases statement with
  | assign location assignments =>
      apply (compileAssignments_accounts setting assignments).bind_last
      intro compiled
      exact .lines _
  | declare location declarations =>
      exact emitDeclarations_accounts setting location declarations
  | cond location condition body alternatives otherwise =>
      have branches := emitBranches_accounts alternatives
      rw [emitStmt_cond]
      cases otherwise with
      | none =>
          apply branch_accounts setting condition _ (emitBlock_accounts body)
          exact branches.bind_last fun _ => .onPage _
      | some block =>
          apply branch_accounts setting condition _ (emitBlock_accounts body)
          apply branches.bind
          intro _
          apply (Emission.Accounts.onPage _).bind_silent
          intro _
          exact (emitBlock_accounts block).bind_last fun _ => .onPage _
  | loop location body => exact .block _ (emitBlock_accounts body) _
  | whileLoop location condition body =>
      apply (renderExpr_accounts setting condition).bind_silent
      intro code
      exact .block _ (emitBlock_accounts body) _
  | doWhile location body condition =>
      apply (Emission.Accounts.onPage _).bind_silent
      intro _
      apply (emitBlock_accounts body).bind_last
      intro _
      apply (renderExpr_accounts setting condition).bind_silent
      intro code
      exact .onPage _
  | forEach location key value reverse source body =>
      rw [emitStmt_forEach]
      apply (renderExpr_accounts setting source).bind_silent
      intro code
      have names : Noting.names.ofStmt (.forEach location key value reverse source body) =
          Noting.names.ofBlock body ++ (key.filter (· != "_")).toList ++
            [value.getD "_"] := by
        rw [List.append_assoc]
        rfl
      have writes : Noting.writes.ofStmt
          (.forEach location key value reverse source body) =
          Noting.writes.ofBlock body :=
        List.append_nil _
      rw [names, writes]
      apply (Emission.Accounts.declare _ location).bind_declaring
      intro _
      apply (Emission.Accounts.declareOptional _ location).bind_declaring
      intro _
      exact .block _ (emitBlock_accounts body) _
  | switch location subject clauses =>
      apply (renderExpr_accounts setting subject).bind_silent
      intro code
      exact .block _ (emitClauses_accounts clauses) _
  | tryCatch location body handlers =>
      apply (Emission.Accounts.onPage _).bind_silent
      intro _
      apply (emitBlock_accounts body).bind
      intro _
      exact (emitHandlers_accounts handlers).bind_last fun _ => .onPage _
  | returnValue location value =>
      cases value with
      | none => exact .line _
      | some value =>
          exact (renderExpr_accounts setting value).bind_silent fun _ => .line _
  | expression location expression =>
      exact (renderExpr_accounts setting expression).bind_silent fun _ => .line _
  | throwValue location value =>
      exact (renderExpr_accounts setting value).bind_silent fun _ => .line _
  | unset location target =>
      exact (renderExpr_accounts setting target).bind_silent fun _ => .line _
  | require location file =>
      exact (renderExpr_accounts setting file).bind_silent fun _ => .line _
  | echo location values =>
      have rendered := Emission.Accounts.ofDetached (renderExprs_detached setting values)
      exact rendered.bind_silent fun _ => .line _
  | continueLoop location => exact .line _
  | breakLoop location => exact .line _
  | comment location text => exact .onPage _
  | empty location => exact .pure ()
termination_by structural statement

theorem emitBlock_accounts (statements : List Stmt) :
    Emission.Accounts (Noting.writes.ofBlock statements) (Noting.names.ofBlock statements)
      (emitBlock setting statements) := by
  cases statements with
  | nil => exact .pure ()
  | cons statement rest =>
      exact (emitStmt_accounts statement).bind fun _ => emitBlock_accounts rest
termination_by structural statements

theorem emitBranches_accounts (branches : List Branch) :
    Emission.Accounts (Noting.writes.ofBranches branches)
      (Noting.names.ofBranches branches)
      (emitBranches setting branches) := by
  cases branches with
  | nil => exact .pure ()
  | cons branch rest =>
      rcases branch with ⟨condition, body⟩
      rw [emitBranches_cons]
      exact branch_accounts setting condition _ (emitBlock_accounts body)
        (emitBranches_accounts rest)
termination_by structural branches

theorem emitClauses_accounts (clauses : List Clause) :
    Emission.Accounts (Noting.writes.ofClauses clauses) (Noting.names.ofClauses clauses)
      (emitClauses setting clauses) := by
  cases clauses with
  | nil => exact .pure ()
  | cons clause rest =>
      cases clause with
      | case test body =>
          apply (renderExpr_accounts setting test).bind_silent
          intro code
          exact .clause _ (emitBlock_accounts body) (emitClauses_accounts rest)
      | default body =>
          exact .clause _ (emitBlock_accounts body) (emitClauses_accounts rest)
termination_by structural clauses

theorem emitHandlers_accounts (handlers : List Handler) :
    Emission.Accounts (Noting.writes.ofHandlers handlers)
      (Noting.names.ofHandlers handlers)
      (emitHandlers setting handlers) := by
  cases handlers with
  | nil => exact .pure ()
  | cons handler rest =>
      rcases handler with ⟨classes, caught, body⟩
      rw [emitHandlers_cons]
      apply (Emission.Accounts.declareOptional caught .unknown).bind
      intro _
      apply (Emission.Accounts.onPage _).bind_silent
      intro _
      exact (emitBlock_accounts body).bind fun _ => emitHandlers_accounts rest
termination_by structural handlers

end

end

/-- Once a body is emitted, the count of a variable has grown by the number of times that
the body writes to it, in a `let` that looks it up or by a condition that fetches into it,
and the variable is there exactly if it was there before or the body binds it. Also after
a fault, a variable that was there is still there. It is declared where it was, and its
count has not gone down. -/
theorem emitBlock_counts_writes_and_binds (setting : Setting) (statements : List Stmt)
    (emitter : Emitter) (name : String) :
    (∀ after, emitBlock setting statements emitter = .ok () after →
      after.scope.writeCount name =
          emitter.scope.writeCount name + (Noting.writes.ofBlock statements).count name ∧
        (Dictionary.contains after.scope name = true ↔
          Dictionary.contains emitter.scope name = true ∨
            name ∈ Noting.names.ofBlock statements)) ∧
    ∀ symbol, Dictionary.get? emitter.scope name = some symbol →
      ∃ later,
        Dictionary.get? (EStateM.final (emitBlock setting statements emitter)).scope
            name = some later ∧
          later.declaredAt = symbol.declaredAt ∧ symbol.writes ≤ later.writes := by
  rcases emitBlock_accounts setting statements emitter with ⟨grows, accounts⟩
  constructor
  · intro after done
    exact ⟨(accounts () after done).writes name, (accounts () after done).names name⟩
  · intro symbol found
    rcases grows name symbol found with ⟨later, foundLater, continues⟩
    exact ⟨later, foundLater, continues.declaredAt, continues.writes⟩

/-- Three writes to `v`, and one in a closure. The key of the loop is not bound, its value
has no name. -/
def tallied : List Stmt :=
  let one : Expr := .atom .unknown (.int "1")
  [.assign .unknown [⟨.variable, none, "v", none, [], some one, .unknown⟩],
    .cond .unknown (.fetch .unknown "v" (.atom .unknown (.variable "a")))
      [.forEach .unknown (some "_") none false (.atom .unknown (.variable "a"))
        [.assign .unknown [⟨.variableAppend, none, "v", none, [], some one, .unknown⟩]]]
      [⟨.fetch .unknown "w" (.atom .unknown (.variable "b")), []⟩] none,
    .expression .unknown (.closure .unknown []
      [.assign .unknown [⟨.variable, none, "v", none, [], some one, .unknown⟩]])]

/-- A write to an element of a variable that is not there. -/
def tallyFails : Stmt :=
  .assign .unknown [⟨.variable, none, "v", none, [],
    some (.atom .unknown (.int "1")), .unknown⟩,
    ⟨.variableAppend, none, "u", none, [], some (.atom .unknown (.int "1")), .unknown⟩]

theorem emitBlock_counts_writes_and_binds_of_tallied :
    let known : Emitter := { scope := Scope.ofNames ⟨some "f", some 3, none⟩ ["v"] }
    (∃ after, emitBlock {} tallied known = .ok () after ∧ after.scope.writeCount "v" = 3 ∧
      Dictionary.contains after.scope "_" = true ∧
      Dictionary.contains after.scope "a" = false) ∧
    EStateM.outcome (emitBlock {} [tallyFails] known) =
        .error (.undeclaredVariable "u" .unknown) ∧
      ∃ later, Dictionary.get?
        (EStateM.final (emitBlock {} [tallyFails] known)).scope "v" =
          some later ∧
        later.declaredAt = ⟨some "f", some 3, none⟩ := by
  intro known
  have done : ∃ after, emitBlock {} tallied known = .ok () after := ⟨_, rfl⟩
  rcases done with ⟨after, done⟩
  have found : Dictionary.get? known.scope "v" =
      some ⟨"v", 0, ⟨some "f", some 3, none⟩⟩ := rfl
  have counted (name : String) :=
    (emitBlock_counts_writes_and_binds {} tallied known name).1 after done
  rcases (emitBlock_counts_writes_and_binds {} [tallyFails] known "v").2 _ found with
    ⟨later, foundLater, declaredAt, _⟩
  refine ⟨⟨after, done, (counted "v").1, ?_, ?_⟩, rfl, later, foundLater, declaredAt⟩
  · exact (counted "_").2.mpr (.inr (by decide))
  · rw [Bool.eq_false_iff]
    exact fun present => absurd ((counted "a").2.mp present) (by decide)

end ZephirPhp
