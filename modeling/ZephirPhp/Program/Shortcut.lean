import ZephirPhp.Diagnostic
import ZephirPhp.Program.Basic
import ZephirPhp.Text.Upper

/-! # Shortcuts of properties

A property can ask for accessors by the shortcuts `get`, `set` and `toString`. Expanding
them appends public methods to the class. A property may use a shortcut once, and no
accessor may have the name of a method that is there.
-/

namespace ZephirPhp

def Property.read (property : Property) (location : Location) : Expr :=
  .property location (.atom location (.variable "this")) property.name

def Property.write (property : Property) (location : Location) (parameter : String) :
    Stmt :=
  .assign location [{
    form := .objectProperty
    operator := some .assign
    target := "this"
    property := some property.name
    index := []
    value := some (.atom location (.variable parameter))
    location }]

def accessor (shortcut : Shortcut) (name : String) (parameters : List Parameter)
    (statement : Stmt) : Method where
  visibility := ["public"]
  name := name
  parameters := parameters
  statements := some [statement]
  docblock := none
  location := shortcut.location

def Property.accessor? (property : Property) (shortcut : Shortcut) : Option Method :=
  let location := shortcut.location
  match shortcut.name with
  | "get" =>
    some (accessor shortcut ("get" ++ Text.capitalize property.name) []
      (.returnValue location (some (property.read location))))
  | "toString" =>
    some (accessor shortcut "__toString" []
      (.returnValue location (some (property.read location))))
  | "set" =>
    let parameter := "__p_" ++ property.name ++ "__"
    some (accessor shortcut ("set" ++ Text.capitalize property.name)
      [⟨parameter, none, false⟩]
      (property.write location parameter))
  | _ => none

/-- The methods for the shortcuts of a property, of which those in `seen` have been
used. -/
def Property.accessors (property : Property) (seen : List String) :
    List Shortcut → Except Diagnostic (List Method)
  | [] => .ok []
  | shortcut :: rest =>
    if seen.contains shortcut.name then
      .error (.shortcut (.repeated shortcut.name property.name))
    else
      match property.accessor? shortcut with
      | none => .error (.shortcut (.unsupported shortcut.name property.name))
      | some method => do
        return method :: (← property.accessors (shortcut.name :: seen) rest)

def addMethods (methods : List Method) : List Method → Except Diagnostic (List Method)
  | [] => .ok methods
  | method :: rest =>
    if methods.any fun existing => existing.name == method.name then
      .error (.shortcut (.clash method.name))
    else
      addMethods (methods ++ [method]) rest

def addAccessors (methods : List Method) : List Property → Except Diagnostic (List Method)
  | [] => .ok methods
  | property :: rest => do
    addAccessors (← addMethods methods (← property.accessors [] property.shortcuts)) rest

def ClassDefinition.expandShortcuts (definition : ClassDefinition) :
    Except Diagnostic ClassDefinition := do
  let methods ← addAccessors definition.methods definition.properties
  return { definition with
    methods
    properties :=
      definition.properties.map fun property => { property with shortcuts := [] } }

def Entry.expandShortcuts : Entry → Except Diagnostic Entry
  | .classDefinition definition => do
    return .classDefinition (← definition.expandShortcuts)
  | entry => .ok entry

def Program.inlineShortcuts (program : Program) : Except Diagnostic Program := do
  return ⟨← program.entries.mapM Entry.expandShortcuts⟩

end ZephirPhp
