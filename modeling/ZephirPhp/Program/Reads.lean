import ZephirPhp.Program.Basic

/-! # Variables that an expression reads

The body of a closure runs in a scope of its own, so what it reads does not count. The
body of an arrow closure counts, except for its parameter.
-/

namespace ZephirPhp

def Atom.reads (name : String) : Atom → Bool
  | .variable found => found == name
  | _ => false

namespace Expr

mutual

def reads (name : String) : Expr → Bool
  | .atom _ leaf => leaf.reads name
  | .array _ items => readsItems name items
  | .unary _ _ operand => reads name operand
  | .binary _ _ left right => reads name left || reads name right
  | .range _ _ first last => reads name first || reads name last
  | .property _ object _ => reads name object
  | .dynamicProperty _ object selector => reads name object || reads name selector
  | .stringProperty _ object _ => reads name object
  | .index _ container key => reads name container || reads name key
  | .methodCall _ receiver _ arguments => reads name receiver || readsAny name arguments
  | .functionCall _ _ arguments => readsAny name arguments
  | .staticCall _ _ _ arguments => readsAny name arguments
  | .new _ className dynamic arguments =>
    (dynamic && className == name) || readsAny name arguments
  | .cast _ _ operand => reads name operand
  | .typeHint _ _ operand => reads name operand
  | .ternary _ condition consequence alternative =>
    reads name condition || reads name consequence || reads name alternative
  | .closure _ _ _ => false
  | .arrow _ parameter body => parameter != name && reads name body
  | .fetch _ _ source => reads name source
termination_by structural expression => expression

def readsAny (name : String) : List Expr → Bool
  | [] => false
  | expression :: rest => reads name expression || readsAny name rest
termination_by structural expressions => expressions

def readsItems (name : String) : List ArrayItem → Bool
  | [] => false
  | ⟨key, value⟩ :: rest =>
    reads name value || (match key with
      | some key => reads name key
      | none => false) || readsItems name rest
termination_by structural items => items

end

end Expr

end ZephirPhp
