import ZephirPhp.Emission.Body
import ZephirPhp.Proofs.Program.Survey

/-! # The method calls of a program

All calls of methods that stand anywhere in a program, each as often as it stands there:
in constants and defaults, in conditions, in the steps and the right-hand sides of
assignments, in closures, and in the receivers and arguments of other calls.
-/

namespace ZephirPhp

/-- A call of a method, without its arguments. -/
structure MethodCall where
  location : Location
  receiver : Expr
  method : String

/-- What there is to say about a call: on a literal, a function that changes its first
argument changes nothing. -/
def MethodCall.warning? (call : MethodCall) : Option Warning := do
  let kind ← call.receiver.literalReceiver?
  let pseudoMethod ← PseudoMethod.find? kind call.method
  if pseudoMethod.inPlace then
    some ⟨call.method, pseudoMethod.function, call.location⟩
  else none

/-- A call, before those in its receiver and its arguments. -/
def Item.withCalls : Item → List MethodCall → List MethodCall
  | .expr (.methodCall location receiver name _), inside =>
    ⟨location, receiver, name⟩ :: inside
  | _, inside => inside

def Survey.calls : Survey Unit MethodCall :=
  .ofCollect Item.withCalls

def Program.calls (program : Program) : List MethodCall :=
  Survey.calls.ofProgram (fun _ => ()) program

end ZephirPhp
