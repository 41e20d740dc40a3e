import ZephirPhp.Program.Basic

/-! # The names that statements note

A statement declares variables in its body and counts the writes to them. Which names it
notes for such a purpose is given for the few statements that do so themselves, and goes
for the statements around them. What closures note stays inside them.
-/

namespace ZephirPhp

/-- The name that an assignment binds: a write creates its variable. -/
def boundByForm (form : AssignmentForm) (target : String) : List String :=
  if form.binding = .write then [target] else []

/-- The name that an assignment writes to, unless it is not looked up. -/
def writtenByForm (form : AssignmentForm) (target : String) : List String :=
  if form.binding = .none then [] else [target]

/-- The name that a condition binds by fetching into it. -/
def Expr.fetched : Expr → List String
  | .fetch _ target _ => [target]
  | _ => []

/-- The names that a loop over elements binds. A missing value is named `_`, and a key of
that name is not bound. -/
def boundByLoop (key value : Option String) : List String :=
  (key.filter (· != "_")).toList ++ [value.getD "_"]

/-- The names that are bound at the start of a closure. -/
def boundInClosure (bound parameters : List String) : List String :=
  if "this" ∈ bound then "this" :: parameters else parameters

/-- The names that are bound at the start of a method. -/
def Method.bound (method : Method) : List String :=
  let parameters := method.parameters.map (·.name)
  if method.isStatic then parameters else "this" :: parameters

def Clause.body : Clause → List Stmt
  | .case _ body => body
  | .default body => body

/-- What the statements with names of their own note. A condition that fetches notes its
target in any case. -/
structure Noting where
  assignment : AssignmentForm → String → List String
  declarations : List Declaration → List String
  loop : Option String → Option String → List String
  handler : Option String → List String

namespace Noting

/-- The names that are bound. -/
def names : Noting where
  assignment := boundByForm
  declarations := List.map (·.name)
  loop := boundByLoop
  handler := Option.toList

/-- The names that are written to, as often as they are. -/
def writes : Noting where
  assignment := writtenByForm
  declarations _ := []
  loop _ _ := []
  handler _ := []

variable (noting : Noting)

mutual

/-- What is noted last comes first. -/
def ofStmt : Stmt → List String
  | .assign _ assignments =>
    assignments.flatMap fun assignment =>
      noting.assignment assignment.form assignment.target
  | .declare _ declarations => noting.declarations declarations
  | .cond _ condition body alternatives (some otherwise) =>
    ofBlock otherwise ++ ofBranches alternatives ++ ofBlock body ++ condition.fetched
  | .cond _ condition body alternatives none =>
    ofBranches alternatives ++ ofBlock body ++ condition.fetched
  | .loop _ body => ofBlock body
  | .whileLoop _ _ body => ofBlock body
  | .doWhile _ body _ => ofBlock body
  | .forEach _ key value _ _ body => ofBlock body ++ noting.loop key value
  | .switch _ _ clauses => ofClauses clauses
  | .tryCatch _ body handlers => ofHandlers handlers ++ ofBlock body
  | _ => []
termination_by structural statement => statement

def ofBlock : List Stmt → List String
  | [] => []
  | statement :: rest => ofBlock rest ++ ofStmt statement
termination_by structural statements => statements

def ofBranches : List Branch → List String
  | [] => []
  | ⟨condition, body⟩ :: rest => ofBranches rest ++ ofBlock body ++ condition.fetched
termination_by structural branches => branches

def ofClauses : List Clause → List String
  | [] => []
  | .case _ body :: rest => ofClauses rest ++ ofBlock body
  | .default body :: rest => ofClauses rest ++ ofBlock body
termination_by structural clauses => clauses

def ofHandlers : List Handler → List String
  | [] => []
  | ⟨_, caught, body⟩ :: rest => ofHandlers rest ++ ofBlock body ++ noting.handler caught
termination_by structural handlers => handlers

end

end Noting

end ZephirPhp
