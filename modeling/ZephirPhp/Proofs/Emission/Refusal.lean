import ZephirPhp.Proofs.Emission.Faults
import ZephirPhp.Proofs.Program.Decoded
import ZephirPhp.Proofs.Program.Processing

/-! # When emission is refused

A program that was read from nodes becomes PHP if all of its sites are allowed. Otherwise
the first site that is not allowed says what is wrong.
-/

namespace ZephirPhp

open Survey (lets sites)

/-! ## Definitions -/

section

variable (setting : Setting)

theorem faultsAt_flatMap {α : Type} (sitesOf : α → List Site) (values : List α) :
    faultsAt setting (values.flatMap sitesOf) =
      values.flatMap fun value => faultsAt setting (sitesOf value) :=
  List.filterMap_flatMap

theorem emitConstant_checked (constant : Constant)
    (complete : AllComplete (lets.ofConstant () constant)) :
    Checked [] [] (faultsAt setting (sites.ofConstant [] constant))
      (emitConstant setting constant) := by
  apply Checked.bind_silent (.docblock constant.docblock)
  intro _
  apply (renderExpr_checked setting [] constant.value complete).bind_last
  intro code
  exact .line _

theorem emitProperty_checked (property : Property)
    (complete : AllComplete (lets.ofProperty () property)) :
    Checked [] [] (faultsAt setting (sites.ofProperty [] property))
      (emitProperty setting property) := by
  apply Checked.bind_silent (.docblock property.docblock)
  intro _
  rcases property with ⟨visibility, name, default, shortcuts, docblock, location⟩
  cases default with
  | none => exact .line _
  | some default =>
      apply (renderExpr_checked setting [] default
        ((AllComplete.single_iff default).mp complete)).followed
      intro code
      exact .line _

theorem emitBody_checked (bound : List String) (head : String) (statements : List Stmt)
    (complete : AllComplete (lets.ofBlock () statements)) :
    Checked bound (Noting.names.ofBlock statements ++ bound)
      (faultsAt setting (sites.ofBlock bound statements))
        (emitBody setting head statements) := by
  apply Checked.bind_silent (.onPage _)
  intro _
  apply (emitBlock_checked setting bound statements complete).bind_last
  intro _
  exact .onPage _

/-- A method has a scope of its own, whatever is bound outside. -/
theorem emitMethod_checked (outside : List String) (inInterface : Bool) (method : Method)
    (complete : AllComplete (lets.ofMethod () method)) :
    Checked outside outside (faultsAt setting (sites.ofMethod method.bound method))
      (emitMethod setting inInterface method) := by
  have parts := AllComplete.append_iff.mp complete
  apply Checked.bind_silent (.docblock method.docblock)
  intro _
  have binds : method.scope.Binds method.bound := Scope.ofNames_binds _ _
  refine Checked.withScope binds
    (?_ : Checked _
      (Noting.names.ofBlock (method.statements.getD []) ++ method.bound) _ _)
  apply (renderParameters_checked setting method.bound method.parameters parts.1).followed
  intro parameters
  split
  · rename_i signature
    rw [Method.isSignature, Bool.and_eq_true, Option.isNone_iff_eq_none] at signature
    rw [signature.1]
    exact .line _
  · exact emitBody_checked setting method.bound _ _ parts.2

theorem emitFunction_checked (definition : FunctionDefinition)
    (complete : AllComplete
      (lets.ofBody () definition.parameters definition.statements)) :
    Checked [] []
      (faultsAt setting (sites.ofBody (definition.parameters.map (·.name))
        definition.parameters definition.statements))
      (emitFunction setting definition) := by
  have parts := AllComplete.append_iff.mp complete
  apply Checked.bind_silent (.docblock definition.docblock)
  intro _
  have binds : definition.scope.Binds (definition.parameters.map (·.name)) :=
    Scope.ofNames_binds _ _
  apply Checked.withScope binds
  apply (renderParameters_checked setting _ definition.parameters parts.1).followed
  intro parameters
  exact emitBody_checked setting _ _ definition.statements parts.2

theorem emitMethods_checked (inInterface : Bool) (methods : List Method)
    (complete : AllComplete (methods.flatMap (lets.ofMethod ()))) :
    Checked [] []
      (faultsAt setting (methods.flatMap fun method =>
        sites.ofMethod method.bound method))
      (emitMethods setting inInterface methods) := by
  induction methods with
  | nil => exact .pure ()
  | cons method rest induction =>
      have parts := AllComplete.append_iff.mp complete
      have first := emitMethod_checked setting [] inInterface method parts.1
      cases rest with
      | nil => exact first.ofFaults (by simp)
      | cons next others =>
          apply first.followed
          intro _
          apply Checked.bind_silent (.onPage _)
          intro _
          exact induction parts.2

theorem emitMembers_checked (inInterface : Bool) (constants : List Constant)
    (properties : List Property) (methods : List Method)
    (complete : AllComplete (lets.ofMembers (fun _ => ()) constants properties methods)) :
    Checked [] [] (faultsAt setting (sites.ofMembers id constants properties methods))
      (emitMembers setting inInterface constants properties methods) := by
  rcases AllComplete.append_append_iff.mp complete with
    ⟨ofConstants, ofProperties, ofMethods⟩
  rw [AllComplete.flatMap_iff] at ofConstants ofProperties
  rw [Survey.ofMembers, faultsAt_append, faultsAt_append,
    faultsAt_flatMap setting _ constants,
    faultsAt_flatMap setting _ properties]
  apply (Checked.forM fun constant member =>
    emitConstant_checked setting constant (ofConstants constant member)).bind
  intro _
  apply Checked.optional (.onPage _)
  apply (Checked.forM fun property member =>
    emitProperty_checked setting property (ofProperties property member)).bind
  intro _
  apply Checked.optional (.onPage _)
  exact emitMethods_checked setting inInterface methods ofMethods

theorem emitEntry_checked (entry : Entry) (wellFormed : entry.WellFormed) :
    Checked [] [] (faultsAt setting (sites.ofEntry id entry))
      (emitEntry setting entry) := by
  have complete : AllComplete entry.assignments := wellFormed.assignments
  cases entry with
  | comment location text => exact .comment text
  | namespaceName location name =>
      apply Checked.bind_silent (.line _)
      intro _
      exact .onPage _
  | imports location imports => exact .lines _
  | classDefinition definition =>
      have members := emitMembers_checked setting false definition.constants
        definition.properties definition.methods complete
      refine .bind_last (.bind_silent (.docblock _) fun _ => ?_) fun _ => .onPage _
      refine .bind_silent (.onPage _) fun _ => ?_
      exact members.bind_last fun _ => .onPage _
  | interfaceDefinition definition =>
      have members :=
        emitMembers_checked setting true definition.constants [] definition.methods
          complete
      refine .bind_last (.bind_silent (.docblock _) fun _ => ?_) fun _ => .onPage _
      refine .bind_silent (.onPage _) fun _ => ?_
      exact members.bind_last fun _ => .onPage _
  | functionDefinition definition =>
      apply (emitFunction_checked setting definition complete).bind_last
      intro _
      exact .onPage _
  | statement included =>
      rcases wellFormed.included included rfl with ⟨location, file, rfl⟩
      exact emitStmt_checked setting [] (.require location file) complete

/-- Emission of a program meets the faults at the sites of the program. -/
theorem emitProgram_checked (program : Program) (wellFormed : program.WellFormed) :
    Checked [] [] (faultsAt setting program.sites) (emitProgram setting program) := by
  have each := program.wellFormed_iff.mp wellFormed
  rw [Program.sites, Survey.ofProgram, faultsAt_flatMap]
  apply Checked.bind_silent (.line _)
  intro _
  apply Checked.bind_silent (.onPage _)
  intro _
  exact .forM fun entry member => emitEntry_checked setting entry (each entry member)

end

/-! ## Allowed sites -/

/-- What emission asks of a site: a method of a literal is known, a global named by a
string is declared, a `let` that changes a part of a variable finds the variable bound,
and a right-hand side has code. -/
def Site.Allowed (setting : Setting) : Site → Prop
  | .methodCall _ receiver method => ∀ kind, receiver.literalReceiver? = some kind →
    (PseudoMethod.find? kind method).isSome
  | .functionCall _ function arguments => ∀ values location name rest,
    setting.globals = .initialized values →
    function = "globals_get" ∨ function = "globals_set" →
    arguments = .atom location (.string name) :: rest → values.contains name = true
  | .target assignment bound =>
    assignment.form.binding = .update → assignment.target ∈ bound
  | .value expression => ∀ emitter code final,
    renderExpr setting expression emitter = .ok code final → Text.trim code ≠ ""

theorem checkGlobals_eq_ok_iff (globals : Globals) (location : Location)
    (function : String) (arguments : List Expr) :
    checkGlobals globals location function arguments = .ok () ↔
      ∀ values place name rest, globals = .initialized values →
        function = "globals_get" ∨ function = "globals_set" →
        arguments = .atom place (.string name) :: rest → values.contains name = true := by
  have accesses : accessesGlobals function = true ↔
      function = "globals_get" ∨ function = "globals_set" := by
    simp [accessesGlobals]
  constructor
  · rintro passed values place name rest rfl named rfl
    by_contra missing
    simp [checkGlobals, accesses.mpr named, missing] at passed
  · intro declared
    unfold checkGlobals
    split
    · rename_i values place name rest
      rw [if_neg]
      intro refused
      rw [Bool.and_eq_true, accesses] at refused
      simp [declared values place name rest rfl refused.1 rfl] at refused
    · rfl

namespace Site

variable (setting : Setting)

theorem fault?_methodCall_eq_none_iff (location : Location) (receiver : Expr)
    (method : String) :
    (methodCall location receiver method).fault? setting = none ↔
      (methodCall location receiver method).Allowed setting := by
  rw [fault?, Allowed]
  cases receiver.literalReceiver? with
  | none => simp
  | some kind => simp [Option.isSome_iff_ne_none]

theorem fault?_functionCall_eq_none_iff (location : Location) (function : String)
    (arguments : List Expr) :
    (functionCall location function arguments).fault? setting = none ↔
      (functionCall location function arguments).Allowed setting := by
  rw [Allowed, ← checkGlobals_eq_ok_iff setting.globals location function arguments,
    fault?]
  cases checkGlobals setting.globals location function arguments <;> simp

theorem fault?_value_eq_none_iff (expression : Expr) :
    (value expression).fault? setting = none ↔ (value expression).Allowed setting := by
  rw [fault?, Allowed]
  cases blank : expression.isBlank with
  | false =>
      simp only [Bool.false_eq_true, if_false, true_iff]
      intro emitter code final rendered
      have shown := renderExpr_yields setting expression emitter code final rendered
      have trimmed := Text.isEmpty_trim code
      rw [shown, blank] at trimmed
      intro empty
      simp [empty] at trimmed
  | true =>
      -- Blank code comes out of every emitter, so the empty one is as good as any.
      rcases renderExpr_of_isBlank setting expression blank with ⟨code, rendered⟩
      have shown := renderExpr_yields setting expression {} code {} (rendered {})
      have trimmed := Text.isEmpty_trim code
      rw [shown, blank] at trimmed
      simp only [if_true, reduceCtorEq, false_iff]
      intro allowed
      exact allowed {} code {} (rendered {}) (String.isEmpty_iff.mp trimmed)

theorem fault?_eq_none_iff (site : Site) :
    site.fault? setting = none ↔ site.Allowed setting := by
  cases site with
  | methodCall location receiver method =>
      exact fault?_methodCall_eq_none_iff setting location receiver method
  | functionCall location function arguments =>
      exact fault?_functionCall_eq_none_iff setting location function arguments
  | target assignment bound => simp [fault?, Allowed]
  | value expression => exact fault?_value_eq_none_iff setting expression

end Site

/-! ## Programs -/

/-- The causes for which emission is refused. -/
def Diagnostic.isRefusal : Diagnostic → Bool
  | .unknownMethod _ _ _ => true
  | .unknownGlobal _ _ => true
  | .invalidExpression _ => true
  | .undeclaredVariable _ _ => true
  | _ => false

theorem checkGlobals_error {globals : Globals} {location : Location} {function : String}
    {arguments : List Expr} {diagnostic : Diagnostic}
    (refused : checkGlobals globals location function arguments = .error diagnostic) :
    ∃ name, diagnostic = .unknownGlobal name location := by
  unfold checkGlobals at refused
  split at refused
  · rename_i values place name rest
    split at refused
    · cases refused
      exact ⟨name, rfl⟩
    · cases refused
  · cases refused

theorem Site.isRefusal_of_fault? {setting : Setting} {site : Site}
    {diagnostic : Diagnostic} (found : site.fault? setting = some diagnostic) :
    diagnostic.isRefusal = true := by
  cases site with
  | methodCall location receiver method =>
      rw [fault?] at found
      split at found
      · split at found
        · cases found
        · cases found
          rfl
      · cases found
  | functionCall location function arguments =>
      rw [fault?] at found
      split at found
      · cases found
      · rename_i refusal refused
        cases found
        rcases checkGlobals_error refused with ⟨name, rfl⟩
        rfl
  | target assignment bound =>
      rw [fault?] at found
      split at found
      · cases found
        rfl
      · cases found
  | value expression =>
      rw [fault?] at found
      split at found
      · cases found
        rfl
      · cases found

theorem Program.toPhp_faults (setting : Setting) {program : Program}
    (wellFormed : program.WellFormed) :
    match (program.toPhp setting).1 with
    | .ok _ => faultsAt setting program.sites = []
    | .error diagnostic => (faultsAt setting program.sites).head? = some diagnostic := by
  have ended := emitProgram_checked setting program wellFormed {} Scope.empty_binds
  rw [toPhp]
  cases equal : emitProgram setting program {} with
  | ok nothing final =>
      rw [equal] at ended
      exact ended.1
  | error diagnostic final =>
      rw [equal] at ended
      exact ended

/-- A program that was read from nodes, and perhaps processed, becomes PHP exactly if all
of its sites are allowed. If it does not, the first site that is not allowed says why. -/
theorem toPhp_ok_iff_sites_allowed (setting : Setting) {nodes : List Node}
    {phases : List Phase} {source program : Program}
    (decoded : Program.ofNodes nodes = .ok source)
    (processed : source.process phases = .ok program) :
    ((∃ php, (program.toPhp setting).1 = .ok php) ↔
      ∀ site ∈ program.sites, site.Allowed setting) ∧
    ∀ diagnostic, (program.toPhp setting).1 = .error diagnostic →
      diagnostic.isRefusal = true ∧
      ∃ earlier site later, program.sites = earlier ++ site :: later ∧
        site.fault? setting = some diagnostic ∧
        ∀ passed ∈ earlier, passed.Allowed setting := by
  have wellFormed : program.WellFormed :=
    Program.process_wellFormed phases source
      (ofNodes_wellFormed nodes source decoded) program
      processed
  have outcome := program.toPhp_faults setting wellFormed
  have faultless : faultsAt setting program.sites = [] ↔
      ∀ site ∈ program.sites, site.Allowed setting := by
    simp only [faultsAt, List.filterMap_eq_nil_iff, Site.fault?_eq_none_iff]
  rw [← faultless]
  cases ended : (program.toPhp setting).1 with
  | ok php =>
      rw [ended] at outcome
      exact ⟨⟨fun _ => outcome, fun _ => ⟨php, rfl⟩⟩, by rintro _ ⟨⟩⟩
  | error first =>
      rw [ended] at outcome
      have found : (faultsAt setting program.sites).head? = some first := outcome
      constructor
      · constructor
        · rintro ⟨php, impossible⟩
          cases impossible
        · intro none
          rw [none] at found
          cases found
      · intro diagnostic same
        cases same
        rw [faultsAt, List.head?_filterMap, List.findSome?_eq_some_iff] at found
        rcases found with ⟨earlier, site, later, split, refused, passed⟩
        refine ⟨Site.isRefusal_of_fault? refused, earlier, site, later,
          split, refused, ?_⟩
        intro before member
        exact (before.fault?_eq_none_iff setting).mp (passed before member)

/-- Nodes of a function whose closure changes a parameter of the function. -/
def capturingNodes : List Node :=
  [⟨"function", [("name", .string "f"),
    ("parameters", .array [.object [("name", .string "items")]]),
    ("statements", .array [
      .object [("type", .string "let"), ("assignments", .array [
        .object [("assign-type", .string "variable-append"),
          ("variable", .string "items"),
          ("expr", .object [("type", .string "int"), ("value", .string "1")])],
        .object [("assign-type", .string "variable"), ("variable", .string "change"),
          ("expr", .object [("type", .string "closure"), ("statements", .array [
            .object [("type", .string "let"), ("assignments", .array [
              .object [("assign-type", .string "variable-append"),
                ("variable", .string "items"),
                ("expr", .object [("type", .string "int"),
                  ("value", .string "2")])]])]])])]])]])]⟩]

def capturing : Program where
  entries := [.functionDefinition {
    name := "f"
    parameters := [⟨"items", none, false⟩]
    statements := [.assign .unknown [
      ⟨.variableAppend, none, "items", none, [],
        some (.atom .unknown (.int "1")), .unknown⟩,
      ⟨.variable, none, "change", none, [], some (.closure .unknown [] [.assign .unknown [
        ⟨.variableAppend, none, "items", none, [], some (.atom .unknown (.int "2")),
          .unknown⟩]]), .unknown⟩]]
    docblock := none
    location := .unknown }]

/-- The parameter is bound in the function and not in the closure. -/
theorem toPhp_refused_in_closure :
    Program.ofNodes capturingNodes = .ok capturing ∧
    capturing.process Phase.standard = .ok capturing ∧
    (capturing.toPhp {}).1 = .error (.undeclaredVariable "items" .unknown) ∧
    (¬ ∀ site ∈ capturing.sites, site.Allowed {}) ∧
    ∃ earlier site later, capturing.sites = earlier ++ site :: later ∧
      site.fault? {} = some (.undeclaredVariable "items" .unknown) ∧
      ∀ passed ∈ earlier, passed.Allowed {} := by
  have decoded : Program.ofNodes capturingNodes = .ok capturing := rfl
  have processed : capturing.process Phase.standard = .ok capturing := rfl
  have refused : (capturing.toPhp {}).1 = .error (.undeclaredVariable "items" .unknown) :=
    rfl
  have outcome := toPhp_ok_iff_sites_allowed {} decoded processed
  refine ⟨decoded, processed, refused, ?_, (outcome.2 _ refused).2⟩
  rw [← outcome.1, refused]
  rintro ⟨php, impossible⟩
  cases impossible

end ZephirPhp
