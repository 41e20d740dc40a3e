import ZephirPhp.Proofs.Program.Survey

/-! # The assignments of a program

The form of an assignment decides which of its optional parts are there. An assignment
can stand deep inside an expression, since closures have bodies.
-/

namespace ZephirPhp

/-- An assignment that has the parts of its form and no others. -/
structure Assignment.IsComplete (assignment : Assignment) : Prop where
  property : assignment.property.isSome = assignment.form.takesProperty
  value : assignment.value.isSome = assignment.form.takesExpression
  index : assignment.form.takesIndex = false → assignment.index = []

/-- An assignment, before those inside it. -/
def Item.withAssignments : Item → List Assignment → List Assignment
  | .assignment own, inside => own :: inside
  | _, inside => inside

def Survey.lets : Survey Unit Assignment :=
  .ofCollect Item.withAssignments

open Survey (lets)

def Method.assignments (method : Method) : List Assignment :=
  lets.ofMethod () method

def Entry.assignments (entry : Entry) : List Assignment :=
  lets.ofEntry (fun _ => ()) entry

def Program.assignments (program : Program) : List Assignment :=
  lets.ofProgram (fun _ => ()) program

/-! ## Well-formed programs -/

/-- A program whose only statements at the top level include files, and whose assignments
have the parts of their forms. -/
structure Program.WellFormed (program : Program) : Prop where
  statements : ∀ statement, Entry.statement statement ∈ program.entries →
    ∃ location file, statement = .require location file
  assignments : ∀ assignment ∈ program.assignments, assignment.IsComplete

/-- What a well-formed program asks of each of its entries. -/
structure Entry.WellFormed (entry : Entry) : Prop where
  included : ∀ statement, entry = .statement statement →
    ∃ location file, statement = .require location file
  assignments : ∀ assignment ∈ entry.assignments, assignment.IsComplete

theorem Program.wellFormed_iff (program : Program) :
    program.WellFormed ↔ ∀ entry ∈ program.entries, entry.WellFormed := by
  constructor
  · intro wellFormed entry member
    constructor
    · rintro statement rfl
      exact wellFormed.statements statement member
    · intro assignment inside
      exact wellFormed.assignments assignment
        (List.mem_flatMap.mpr ⟨entry, member, inside⟩)
  · intro each
    constructor
    · intro statement member
      exact (each _ member).included statement rfl
    · intro assignment inside
      rcases List.mem_flatMap.mp inside with ⟨entry, member, inside⟩
      exact (each entry member).assignments assignment inside

/-- Assignments that all have the parts of their forms. -/
def AllComplete (assignments : List Assignment) : Prop :=
  ∀ assignment ∈ assignments, assignment.IsComplete

namespace AllComplete

variable {α : Type} {left right : List Assignment}

@[simp] theorem nil : AllComplete [] :=
  List.forall_mem_nil _

@[simp] theorem append_iff : AllComplete (left ++ right) ↔ AllComplete left ∧
  AllComplete right :=
  List.forall_mem_append

theorem append_append_iff {others : List Assignment} :
    AllComplete (left ++ (right ++ others)) ↔
      AllComplete left ∧ AllComplete right ∧ AllComplete others :=
  append_iff.trans (and_congr_right' append_iff)

@[simp] theorem cons_iff {assignment : Assignment} :
    AllComplete (assignment :: right) ↔ assignment.IsComplete ∧ AllComplete right :=
  List.forall_mem_cons

theorem flatMap_iff (assignments : α → List Assignment) (values : List α) :
    AllComplete (values.flatMap assignments) ↔
      ∀ value ∈ values, AllComplete (assignments value) :=
  List.forall_mem_flatMap

/-! ### Parts that may be missing -/

theorem single_iff (expression : Expr) :
    AllComplete (lets.ofExprs () [expression]) ↔
      AllComplete (lets.ofExpr () expression) :=
  append_iff.trans (and_iff_left nil)

theorem item_iff (key : Option Expr) (value : Expr) :
    AllComplete (lets.ofItem () ⟨key, value⟩) ↔
      AllComplete (lets.ofExpr () value) ∧ AllComplete (lets.ofExprs () key.toList) := by
  cases key with
  | none => exact (and_iff_left nil).symm
  | some key => exact append_iff.trans (and_congr_right' (single_iff key).symm)

theorem parameter_iff (name : String) (default : Option Expr) (byReference : Bool) :
    AllComplete (lets.ofParameter () ⟨name, default, byReference⟩) ↔
      AllComplete (lets.ofExprs () default.toList) := by
  cases default with
  | none => exact .rfl
  | some default => exact (single_iff default).symm

theorem assignment_iff (assignment : Assignment) :
    AllComplete (lets.ofAssignment () assignment) ↔
      assignment.IsComplete ∧ AllComplete (lets.ofExprs () assignment.index) ∧
        AllComplete (lets.ofExprs () assignment.value.toList) := by
  rcases assignment with ⟨form, operator, target, property, index, value, location⟩
  cases value with
  | none => exact cons_iff.trans (and_congr_right' (and_iff_left nil).symm)
  | some value =>
      exact cons_iff.trans (and_congr_right' (append_iff.trans
        (and_congr_right' (single_iff value).symm)))

theorem declaration_iff (name : String) (value : Option Expr) :
    AllComplete (lets.ofDeclaration () ⟨name, value⟩) ↔
      AllComplete (lets.ofExprs () value.toList) := by
  cases value with
  | none => exact .rfl
  | some value => exact (single_iff value).symm

theorem returnValue_iff (location : Location) (value : Option Expr) :
    AllComplete (lets.ofStmt () (.returnValue location value)) ↔
      AllComplete (lets.ofExprs () value.toList) := by
  cases value with
  | none => exact .rfl
  | some value => exact (single_iff value).symm

theorem cond_iff (location : Location) (condition : Expr) (body : List Stmt)
    (alternatives : List Branch) (otherwise : Option (List Stmt)) :
    AllComplete (lets.ofStmt () (.cond location condition body alternatives otherwise)) ↔
      AllComplete (lets.ofExpr () condition) ∧ AllComplete (lets.ofBlock () body) ∧
        AllComplete (lets.ofBranches () alternatives) ∧
          AllComplete (lets.ofBlock () (otherwise.getD [])) := by
  cases otherwise with
  | none =>
      exact append_append_iff.trans
        (and_congr_right' (and_congr_right' (and_iff_left nil).symm))
  | some block =>
      exact append_append_iff.trans (and_congr_right' (and_congr_right' append_iff))

/-! ### Lists -/

/-- What is collected over a list is complete if it is for each element. -/
theorem iff_forall {collect : List α → List Assignment} {single : α → List Assignment}
    (empty : collect [] = [])
    (step : ∀ value rest, collect (value :: rest) = single value ++ collect rest)
    (values : List α) :
    AllComplete (collect values) ↔ ∀ value ∈ values, AllComplete (single value) := by
  induction values with
  | nil => simp [empty]
  | cons value rest induction => rw [step, append_iff, induction, List.forall_mem_cons]

theorem exprs_iff (expressions : List Expr) :
    AllComplete (lets.ofExprs () expressions) ↔
      ∀ expression ∈ expressions, AllComplete (lets.ofExpr () expression) :=
  iff_forall rfl (fun _ _ => rfl) expressions

theorem items_iff (items : List ArrayItem) :
    AllComplete (lets.ofItems () items) ↔
      ∀ item ∈ items, AllComplete (lets.ofItem () item) :=
  iff_forall rfl (fun _ _ => rfl) items

theorem parameters_iff (parameters : List Parameter) :
    AllComplete (lets.ofParameters () parameters) ↔
      ∀ parameter ∈ parameters, AllComplete (lets.ofParameter () parameter) :=
  iff_forall rfl (fun _ _ => rfl) parameters

theorem assignments_iff (assignments : List Assignment) :
    AllComplete (lets.ofAssignments () assignments) ↔
      ∀ assignment ∈ assignments, AllComplete (lets.ofAssignment () assignment) :=
  iff_forall rfl (fun _ _ => rfl) assignments

theorem block_iff (statements : List Stmt) :
    AllComplete (lets.ofBlock () statements) ↔
      ∀ statement ∈ statements, AllComplete (lets.ofStmt () statement) :=
  iff_forall rfl (fun _ _ => rfl) statements

theorem declarations_iff (declarations : List Declaration) :
    AllComplete (lets.ofDeclarations () declarations) ↔
      ∀ declaration ∈ declarations, AllComplete (lets.ofDeclaration () declaration) :=
  iff_forall rfl (fun _ _ => rfl) declarations

theorem branches_iff (branches : List Branch) :
    AllComplete (lets.ofBranches () branches) ↔
      ∀ branch ∈ branches, AllComplete (lets.ofBranch () branch) :=
  iff_forall rfl (fun _ _ => rfl) branches

theorem clauses_iff (clauses : List Clause) :
    AllComplete (lets.ofClauses () clauses) ↔
      ∀ clause ∈ clauses, AllComplete (lets.ofClause () clause) :=
  iff_forall rfl (fun _ _ => rfl) clauses

theorem handlers_iff (handlers : List Handler) :
    AllComplete (lets.ofHandlers () handlers) ↔
      ∀ handler ∈ handlers, AllComplete (lets.ofHandler () handler) :=
  iff_forall rfl (fun _ _ => rfl) handlers

theorem members_iff (constants : List Constant) (properties : List Property)
    (methods : List Method) :
    AllComplete (lets.ofMembers (fun _ => ()) constants properties methods) ↔
      (∀ constant ∈ constants, AllComplete (lets.ofConstant () constant)) ∧
        (∀ property ∈ properties, AllComplete (lets.ofProperty () property)) ∧
          ∀ method ∈ methods, AllComplete (lets.ofMethod () method) := by
  rw [Survey.ofMembers, append_append_iff, flatMap_iff, flatMap_iff, flatMap_iff]

end AllComplete

end ZephirPhp
