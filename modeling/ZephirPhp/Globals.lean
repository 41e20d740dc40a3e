import ZephirPhp.Diagnostic
import ZephirPhp.Dictionary

/-! # Extension globals

The settings that an extension declares before it reads or changes any of them. Before
that the table is not initialized, which differs from an empty table.
-/

namespace ZephirPhp

inductive Globals where
  | uninitialized
  | initialized (values : Dictionary String)
deriving DecidableEq, Repr

namespace Globals

def values : Globals → Except Diagnostic (Dictionary String)
  | .uninitialized => .error .globalsNotInitialized
  | .initialized values => .ok values

def isInitialized : Globals → Bool
  | .uninitialized => false
  | .initialized _ => true

def declare (globals : Globals) (settings : List (String × String)) : Globals :=
  let values := match globals with
    | .uninitialized => []
    | .initialized values => values
  .initialized
    (settings.foldl (fun values setting => values.insert setting.1 setting.2) values)

def contains (globals : Globals) (name : String) : Except Diagnostic Bool := do
  return (← globals.values).contains name

def get (globals : Globals) (name : String) : Except Diagnostic String := do
  match (← globals.values).get? name with
  | some value => return value
  | none => throw (.unknownGlobal name .unknown)

def set (globals : Globals) (name value : String) : Except Diagnostic Globals := do
  return .initialized ((← globals.values).insert name value)

end Globals

end ZephirPhp
