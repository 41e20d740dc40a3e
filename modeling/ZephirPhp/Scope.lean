import ZephirPhp.Diagnostic
import ZephirPhp.Dictionary

/-! # Scopes

The local variables of one body: a function, a method or a closure.
-/

namespace ZephirPhp

structure Symbol where
  name : String
  /-- How often the variable has been bound for a write. -/
  writes : Nat
  declaredAt : Location
deriving DecidableEq, Repr

abbrev Scope := Dictionary Symbol

namespace Scope

def empty : Scope := []

/-- The scope with a name that is there before any assignment; a name that is known
stays as it is. -/
def declare (name : String) (location : Location) (scope : Scope) : Scope :=
  match scope.get? name with
  | some _ => scope
  | none => scope.insert name ⟨name, 0, location⟩

def write (name : String) (location : Location) (scope : Scope) : Scope :=
  match scope.get? name with
  | some symbol => scope.insert name { symbol with writes := symbol.writes + 1 }
  | none => scope.insert name ⟨name, 1, location⟩

def update (name : String) (location : Location) (scope : Scope) :
    Except Diagnostic Scope :=
  match scope.get? name with
  | some symbol => .ok (scope.insert name { symbol with writes := symbol.writes + 1 })
  | none => .error (.undeclaredVariable name location)

def ofNames (location : Location) (names : List String) : Scope :=
  names.foldl (fun scope name => scope.declare name location) empty

end Scope

end ZephirPhp
