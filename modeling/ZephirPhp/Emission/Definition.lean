import ZephirPhp.Emission.Body

/-! # Code of definitions and programs -/

namespace ZephirPhp

/-- The modifiers of PHP. Zephir has more, which are dropped. -/
def phpModifiers : List String :=
  ["abstract", "final", "public", "protected", "private", "static"]

def modifierCode (visibility : List String) (allowAbstract : Bool) : String :=
  " ".intercalate <| (visibility.map Text.trim).filter fun modifier =>
    phpModifiers.contains modifier && (allowAbstract || modifier != "abstract")

def namesCode (word : String) (names : List String) : String :=
  if names.isEmpty then "" else " " ++ word ++ " " ++ ", ".intercalate names

/-- The head of a class. A class that is final is not shown as abstract. -/
def ClassDefinition.head (definition : ClassDefinition) : String :=
  (if definition.isFinal then "final "
    else if definition.isAbstract then "abstract " else "") ++
    "class " ++ definition.name ++ namesCode "extends" definition.parent.toList ++
    namesCode "implements" definition.interfaces

def InterfaceDefinition.head (definition : InterfaceDefinition) : String :=
  "interface " ++ definition.name ++ namesCode "extends" definition.parents

def Method.head (method : Method) (inInterface : Bool) (parameters : List String) :
    String :=
  let modifiers := modifierCode method.visibility (!inInterface)
  (if modifiers.isEmpty then "" else modifiers ++ " ") ++ "function " ++ method.name ++
    argumentCode parameters

def Method.isSignature (method : Method) (inInterface : Bool) : Bool :=
  method.statements.isNone && (inInterface || method.visibility.contains "abstract")

def Method.scope (method : Method) : Scope :=
  let parameters := method.parameters.map (·.name)
  Scope.ofNames method.location
    (if method.isStatic then parameters else "this" :: parameters)

def FunctionDefinition.scope (definition : FunctionDefinition) : Scope :=
  Scope.ofNames definition.location (definition.parameters.map (·.name))

def Import.code (imported : Import) : String :=
  match imported.shortName with
  | some shortName => "use " ++ imported.name ++ " as " ++ shortName ++ ";"
  | none => "use " ++ imported.name ++ ";"

section

variable (setting : Setting)

def emitConstant (constant : Constant) : Emission Unit := do
  Emission.docblock constant.docblock
  let value ← renderExpr setting constant.value
  Emission.line ("const " ++ constant.name ++ " = " ++ value ++ ";")

/-- Writes a property, which is public unless its modifiers say otherwise. -/
def emitProperty (property : Property) : Emission Unit := do
  Emission.docblock property.docblock
  let modifiers := modifierCode property.visibility false
  let modifiers := if modifiers.isEmpty then "public" else modifiers
  match property.default with
  | some default =>
    let value ← renderExpr setting default
    Emission.line (modifiers ++ " $" ++ property.name ++ " = " ++ value ++ ";")
  | none => Emission.line (modifiers ++ " $" ++ property.name ++ ";")

def emitBody (head : String) (statements : List Stmt) : Emission Unit := do
  Emission.onPage (·.openBlock head setting.layout.braceOnNewLine)
  emitBlock setting statements
  Emission.onPage (·.closeBlock "")

def emitMethod (inInterface : Bool) (method : Method) : Emission Unit := do
  Emission.docblock method.docblock
  Emission.withScope method.scope do
    let parameters ← renderParameters setting method.parameters
    let head := method.head inInterface parameters
    if method.isSignature inInterface then
      Emission.line (head ++ ";")
    else
      emitBody setting head (method.statements.getD [])

def emitFunction (definition : FunctionDefinition) : Emission Unit := do
  Emission.docblock definition.docblock
  Emission.withScope definition.scope do
    let parameters ← renderParameters setting definition.parameters
    emitBody setting ("function " ++ definition.name ++ argumentCode parameters)
      definition.statements

def emitMethods (inInterface : Bool) : List Method → Emission Unit
  | [] => pure ()
  | [method] => emitMethod setting inInterface method
  | method :: rest => do
    emitMethod setting inInterface method
    Emission.onPage (·.blankLine)
    emitMethods inInterface rest

def emitMembers (inInterface : Bool) (constants : List Constant)
    (properties : List Property)
    (methods : List Method) : Emission Unit := do
  constants.forM (emitConstant setting)
  if !constants.isEmpty && !(properties.isEmpty && methods.isEmpty) then
    Emission.onPage (·.blankLine)
  properties.forM (emitProperty setting)
  if !properties.isEmpty && !methods.isEmpty then
    Emission.onPage (·.blankLine)
  emitMethods setting inInterface methods

def emitClass (definition : ClassDefinition) : Emission Unit := do
  Emission.docblock definition.docblock
  Emission.onPage (·.openBlock definition.head setting.layout.braceOnNewLine)
  emitMembers setting false definition.constants definition.properties definition.methods
  Emission.onPage (·.closeBlock "")

def emitInterface (definition : InterfaceDefinition) : Emission Unit := do
  Emission.docblock definition.docblock
  Emission.onPage (·.openBlock definition.head setting.layout.braceOnNewLine)
  emitMembers setting true definition.constants [] definition.methods
  Emission.onPage (·.closeBlock "")

def emitEntry : Entry → Emission Unit
  | .comment _ text => Emission.comment text
  | .namespaceName _ name => do
    Emission.line ("namespace " ++ name ++ ";")
    Emission.onPage (·.blankLine)
  | .imports _ imports => Emission.lines (imports.map (·.code))
  | .classDefinition definition => do
    emitClass setting definition
    Emission.onPage (·.blankLine)
  | .interfaceDefinition definition => do
    emitInterface setting definition
    Emission.onPage (·.blankLine)
  | .functionDefinition definition => do
    emitFunction setting definition
    Emission.onPage (·.blankLine)
  | .statement statement => emitStmt setting statement

def emitProgram (program : Program) : Emission Unit := do
  Emission.line "<?php"
  Emission.onPage (·.blankLine)
  program.entries.forM (emitEntry setting)

def Program.toPhp (program : Program) : Except Diagnostic String × List Warning :=
  match emitProgram setting program {} with
  | .ok () emitter => (.ok (emitter.page.finish setting.layout), emitter.warnings)
  | .error diagnostic emitter => (.error diagnostic, emitter.warnings)

end

end ZephirPhp
