import ZephirPhp.Globals
import ZephirPhp.Page
import ZephirPhp.Program.Reads
import ZephirPhp.PseudoMethod
import ZephirPhp.Scope

/-! # Emission

Emitting PHP changes an emitter: the scope of the body at hand, the page that is
written, and the warnings so far. An emission that fails still leaves its changes, so
what was written before a fault stays written.
-/

namespace ZephirPhp

/-- A function that changes its first argument is called on a literal, so the change is
lost. -/
structure Warning where
  method : String
  function : String
  location : Location
deriving DecidableEq, Repr

structure Setting where
  layout : Layout := {}
  globals : Globals := .uninitialized

structure Emitter where
  scope : Scope := .empty
  page : Page := .empty
  warnings : List Warning := []

abbrev Emission := EStateM Diagnostic Emitter

namespace Emission

variable {α : Type}

def onPage (change : Page → Page) : Emission Unit :=
  modify fun emitter => { emitter with page := change emitter.page }

def onScope (change : Scope → Scope) : Emission Unit :=
  modify fun emitter => { emitter with scope := change emitter.scope }

def line (text : String) : Emission Unit :=
  onPage (·.line text)

def lines (texts : List String) : Emission Unit :=
  texts.forM line

def comment (text : String) : Emission Unit :=
  onPage (·.paragraph ("/" ++ text ++ "/"))

def docblock : Option String → Emission Unit
  | none => pure ()
  | some text => comment text

def warn (warning : Warning) : Emission Unit :=
  modify fun emitter => { emitter with warnings := emitter.warnings ++ [warning] }

def ofExcept : Except Diagnostic α → Emission α
  | .ok value => pure value
  | .error diagnostic => throw diagnostic

/-- Runs an emission in another scope. The scope at hand comes back afterwards, also
after a fault. -/
def withScope (scope : Scope) (emission : Emission α) : Emission α := fun emitter =>
  match emission { emitter with scope } with
  | .ok value after => .ok value { after with scope := emitter.scope }
  | .error diagnostic after => .error diagnostic { after with scope := emitter.scope }

/-- Runs an emission on a page of its own, which is the result. The page at hand comes
back afterwards, also after a fault. -/
def onOwnPage (emission : Emission Unit) : Emission Page := fun emitter =>
  match emission { emitter with page := .empty } with
  | .ok () after => .ok after.page { after with page := emitter.page }
  | .error diagnostic after => .error diagnostic { after with page := emitter.page }

def bind (binding : Binding) (name : String) (location : Location) : Emission Unit := do
  match binding with
  | .write => onScope (·.write name location)
  | .update => do
    let scope ← ofExcept ((← get).scope.update name location)
    onScope fun _ => scope
  | .none => pure ()

end Emission

/-! ## Expressions in context -/

structure ExpressionContext where
  expectReturn : Bool := false
  target : Option String := none
  readOnly : Bool := false

structure CompiledExpression where
  code : String
  kind : String
  readOnly : Bool
  /-- Whether the value can go to the target at once, since the expression does not read
  the target. -/
  directWrite : Bool
deriving DecidableEq, Repr

def Expr.isReadOnly : Expr → Bool
  | .property _ _ _ => true
  | .index _ _ _ => true
  | .typeHint _ _ _ => true
  | _ => false

def Expr.compiled (expression : Expr) (context : ExpressionContext) (code : String) :
    Except Diagnostic CompiledExpression :=
  if context.expectReturn && (Text.trim code).isEmpty then
    .error (.invalidExpression expression.location)
  else
    .ok {
      code
      kind := expression.kind
      readOnly := context.readOnly || expression.isReadOnly
      directWrite := match context.target with
        | some target => !expression.reads target
        | none => false }

end ZephirPhp
