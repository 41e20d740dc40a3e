import ZephirPhp.Emission.Definition
import ZephirPhp.Proofs.Emission.Visible
import ZephirPhp.Proofs.Program.Survey

/-! # What emission checks

Emission can be refused at four kinds of places: at a call on a literal, at a call that
may name a global, and at the two sides of a `let`. The sites of a program are these
places in the order in which emission comes to them. The target of a `let` comes with
the names that are bound there.
-/

namespace ZephirPhp

/-- A place that emission checks. -/
inductive Site where
  | methodCall (location : Location) (receiver : Expr) (method : String)
  | functionCall (location : Location) (function : String) (arguments : List Expr)
  /-- The left-hand side of a `let`, before it is bound. -/
  | target (assignment : Assignment) (bound : List String)
  /-- The right-hand side of a `let`. -/
  | value (expression : Expr)

/-- A call on a literal is checked after its receiver and its arguments, a call that may
name a global before them. -/
def Item.withSites (bound : List String) : Item → List Site → List Site
  | .expr (.methodCall location receiver name _), inside =>
    inside ++ [.methodCall location receiver name]
  | .expr (.functionCall location function arguments), inside =>
    .functionCall location function arguments :: inside
  | .assignment own, inside =>
    .target own bound :: (inside ++ (own.value.map Site.value).toList)
  | _, inside => inside

namespace Survey

/-- The context is the names that are bound. -/
def sites : Survey (List String) Site where
  bind names bound := names ++ bound
  enter opening bound := opening.bound bound
  collect := Item.withSites

end Survey

def Program.sites (program : Program) : List Site :=
  Survey.sites.ofProgram id program

/-! ## Faults -/

/-- Why emission is refused at a site, if it is. -/
def Site.fault? (setting : Setting) : Site → Option Diagnostic
  | .methodCall location receiver method =>
    match receiver.literalReceiver? with
    | some kind =>
      if (PseudoMethod.find? kind method).isSome then none
      else some (.unknownMethod method kind location)
    | none => none
  | .functionCall location function arguments =>
    match checkGlobals setting.globals location function arguments with
    | .ok () => none
    | .error diagnostic => some diagnostic
  | .target assignment bound =>
    if assignment.form.binding = .update ∧ assignment.target ∉ bound then
      some (.undeclaredVariable assignment.target assignment.location)
    else none
  | .value expression =>
    if expression.isBlank then some (.invalidExpression expression.location) else none

/-- The faults at some sites, in the order of the sites. -/
def faultsAt (setting : Setting) (sites : List Site) : List Diagnostic :=
  sites.filterMap (Site.fault? setting)

@[simp] theorem faultsAt_nil (setting : Setting) : faultsAt setting [] = [] := rfl

@[simp] theorem faultsAt_append (setting : Setting) (left right : List Site) :
    faultsAt setting (left ++ right) = faultsAt setting left ++ faultsAt setting right :=
  List.filterMap_append

theorem faultsAt_cons (setting : Setting) (site : Site) (rest : List Site) :
    faultsAt setting (site :: rest) =
      (site.fault? setting).toList ++ faultsAt setting rest := by
  rw [faultsAt, List.filterMap_cons]
  cases site.fault? setting <;> rfl

end ZephirPhp
