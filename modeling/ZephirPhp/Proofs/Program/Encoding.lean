import ZephirPhp.Program.Decoding

/-! # Nodes for programs

Every part of a program is written as a node from which the decoder reads it back. Of
several spellings that the decoder accepts, one is used: names are texts, missing parts
are `null`, and closures name their parts by role.
-/

namespace ZephirPhp

/-! ## Nodes from fields -/

/-- The dictionary of a list of entries; the first entry of a key counts. -/
def Dictionary.ofFields {α : Type} (fields : List (String × α)) : Dictionary α :=
  fields.foldr (fun field dictionary => dictionary.insert field.1 field.2) []

namespace Json

def ofOption : Option Json → Json
  | none => .null
  | some json => json

def ofText (text : Option String) : Json :=
  ofOption (text.map .string)

def ofTexts (texts : List String) : Json :=
  .array (texts.map .string)

def ofPosition (number : Option UInt32) : Json :=
  ofOption (number.map fun number => .number (.integer number.toNat))

end Json

def Location.fields (location : Location) : List (String × Json) :=
  [("file", .ofText location.file), ("line", .ofPosition location.line),
    ("char", .ofPosition location.column)]

namespace Node

/-- The node of a kind at a location, with some fields. -/
def ofFields (kind : String) (location : Location) (fields : List (String × Json)) :
    Node :=
  ⟨kind, (Dictionary.ofFields (location.fields ++ fields)).erase "type"⟩

/-- The object of a node, with the kind under `type`. -/
def toJson (node : Node) : Json :=
  .object (node.attributes.insert "type" (.string node.kind))

/-- The object of a node whose kind is known from its place. -/
def toRecord (node : Node) : Json :=
  .object node.attributes

end Node

def Json.ofNodes (nodes : List Node) : Json :=
  .array (nodes.map Node.toJson)

def Json.ofRecords (nodes : List Node) : Json :=
  .array (nodes.map Node.toRecord)

/-! ## Expressions and statements -/

def EmptyValue.name : EmptyValue → String
  | .array => "array"
  | .string => "string"

def Atom.fields : Atom → List (String × Json)
  | .int text => [("value", .string text)]
  | .double text => [("value", .string text)]
  | .bool value => [("value", .bool value)]
  | .null => []
  | .string content => [("value", .string content)]
  | .interpolated content => [("value", .string content)]
  | .char content => [("value", .string content)]
  | .emptyArray => []
  | .constant name => [("value", .string name)]
  | .variable name => [("value", .string name)]
  | .staticProperty className name =>
    [("left", .string className), ("right", .string name)]
  | .staticConstant className name =>
    [("left", .string className), ("right", .string name)]
  | .newType value => [("internal-type", .string value.name)]

/-- The object around an argument of a call. -/
def Node.argument (node : Node) : Node :=
  .ofFields "argument" .unknown [("parameter", node.toJson)]

mutual

def Expr.toNode : Expr → Node
  | .atom location leaf => .ofFields leaf.kind location leaf.fields
  | .array location items =>
    .ofFields "array" location [("left", .ofRecords (nodesOfItems items))]
  | .unary location operator operand =>
    .ofFields operator.kind location [("left", operand.toNode.toJson)]
  | .binary location operator left right =>
    .ofFields operator.kind location
      [("left", left.toNode.toJson), ("right", right.toNode.toJson)]
  | .range location inclusive first last =>
    .ofFields (if inclusive then "irange" else "erange") location
      [("left", first.toNode.toJson), ("right", last.toNode.toJson)]
  | .property location object name =>
    .ofFields "property-access" location
      [("left", object.toNode.toJson), ("right", .string name)]
  | .dynamicProperty location object name =>
    .ofFields "property-dynamic-access" location
      [("left", object.toNode.toJson), ("right", name.toNode.toJson)]
  | .stringProperty location object name =>
    .ofFields "property-string-access" location
      [("left", object.toNode.toJson), ("right", .string name)]
  | .index location array index =>
    .ofFields "array-access" location
      [("left", array.toNode.toJson), ("right", index.toNode.toJson)]
  | .methodCall location receiver method arguments =>
    .ofFields "mcall" location
      [("variable", receiver.toNode.toJson), ("name", .string method),
      ("parameters", .ofRecords ((nodesOfExprs arguments).map Node.argument))]
  | .functionCall location function arguments =>
    .ofFields "fcall" location [("name", .string function),
      ("parameters", .ofRecords ((nodesOfExprs arguments).map Node.argument))]
  | .staticCall location className method arguments =>
    .ofFields "scall" location [("class", .string className), ("name", .string method),
      ("parameters", .ofRecords ((nodesOfExprs arguments).map Node.argument))]
  | .new location className dynamic arguments =>
    .ofFields "new" location [("class", .string className), ("dynamic", .bool dynamic),
      ("parameters", .ofRecords ((nodesOfExprs arguments).map Node.argument))]
  | .cast location type operand =>
    .ofFields "cast" location [("left", .string type), ("right", operand.toNode.toJson)]
  | .typeHint location type operand =>
    .ofFields "type-hint" location
      [("left", .string type), ("right", operand.toNode.toJson)]
  | .ternary location condition consequence alternative =>
    .ofFields "ternary" location [("left", condition.toNode.toJson),
      ("right", consequence.toNode.toJson), ("extra", alternative.toNode.toJson)]
  | .closure location parameters body =>
    .ofFields "closure" location
      [("parameters", .ofRecords (nodesOfParameters parameters)),
      ("statements", .ofNodes (nodesOfBlock body))]
  | .arrow location parameter body =>
    .ofFields "closure-arrow" location
      [("left", .string parameter), ("right", body.toNode.toJson)]
  | .fetch location target source =>
    .ofFields "fetch" location [("left", .string target), ("right", source.toNode.toJson)]
termination_by structural expression => expression

def nodesOfExprs : List Expr → List Node
  | [] => []
  | expression :: rest => expression.toNode :: nodesOfExprs rest
termination_by structural expressions => expressions

def jsonOfOptional : Option Expr → Json
  | none => .null
  | some expression => expression.toNode.toJson
termination_by structural expression => expression

def nodesOfItems : List ArrayItem → List Node
  | [] => []
  | ⟨key, value⟩ :: rest =>
    .ofFields "array-item" .unknown
      [("key", jsonOfOptional key), ("value", value.toNode.toJson)] ::
      nodesOfItems rest
termination_by structural items => items

def nodesOfParameters : List Parameter → List Node
  | [] => []
  | ⟨name, default, byReference⟩ :: rest =>
    .ofFields "parameter" .unknown
      [("name", .string name), ("default", jsonOfOptional default),
      ("reference", .bool byReference)] :: nodesOfParameters rest
termination_by structural parameters => parameters

def nodesOfAssignments : List Assignment → List Node
  | [] => []
  | ⟨form, operator, target, property, index, value, location⟩ :: rest =>
    .ofFields "assignment" location [("assign-type", .string form.name),
      ("operator", .ofText (operator.map (·.name))), ("variable", .string target),
      ("property", .ofText property), ("index-expr", .ofNodes (nodesOfExprs index)),
      ("expr", jsonOfOptional value)] :: nodesOfAssignments rest
termination_by structural assignments => assignments

def Stmt.toNode : Stmt → Node
  | .assign location assignments =>
    .ofFields "let" location
      [("assignments", .ofRecords (nodesOfAssignments assignments))]
  | .declare location declarations =>
    .ofFields "declare" location
      [("variables", .ofRecords (nodesOfDeclarations declarations))]
  | .expression location expression =>
    .ofFields "mcall" location [("expr", expression.toNode.toJson)]
  | .cond location condition body alternatives otherwise =>
    .ofFields "if" location [("expr", condition.toNode.toJson),
      ("statements", .ofNodes (nodesOfBlock body)),
      ("elseif_statements", .ofRecords (nodesOfBranches alternatives)),
      ("else_statements", jsonOfOptionalBlock otherwise)]
  | .loop location body =>
    .ofFields "loop" location [("statements", .ofNodes (nodesOfBlock body))]
  | .whileLoop location condition body =>
    .ofFields "while" location [("expr", condition.toNode.toJson),
      ("statements", .ofNodes (nodesOfBlock body))]
  | .doWhile location body condition =>
    .ofFields "do-while" location [("statements", .ofNodes (nodesOfBlock body)),
      ("expr", condition.toNode.toJson)]
  | .forEach location key value reverse source body =>
    .ofFields "for" location [("key", .ofText key), ("value", .ofText value),
      ("reverse", .bool reverse), ("expr", source.toNode.toJson),
      ("statements", .ofNodes (nodesOfBlock body))]
  | .switch location subject clauses =>
    .ofFields "switch" location [("expr", subject.toNode.toJson),
      ("clauses", .ofNodes (nodesOfClauses clauses))]
  | .continueLoop location => .ofFields "continue" location []
  | .breakLoop location => .ofFields "break" location []
  | .returnValue location value =>
    .ofFields "return" location [("expr", jsonOfOptional value)]
  | .throwValue location value =>
    .ofFields "throw" location [("expr", value.toNode.toJson)]
  | .unset location target => .ofFields "unset" location [("expr", target.toNode.toJson)]
  | .echo location values =>
    .ofFields "echo" location [("expressions", .ofNodes (nodesOfExprs values))]
  | .require location file => .ofFields "require" location [("expr", file.toNode.toJson)]
  | .tryCatch location body handlers =>
    .ofFields "try-catch" location [("statements", .ofNodes (nodesOfBlock body)),
      ("catches", .ofRecords (nodesOfHandlers handlers))]
  | .comment location text => .ofFields "comment" location [("value", .string text)]
  | .empty location => .ofFields "empty" location []
termination_by structural statement => statement

def nodesOfBlock : List Stmt → List Node
  | [] => []
  | statement :: rest => statement.toNode :: nodesOfBlock rest
termination_by structural statements => statements

def jsonOfOptionalBlock : Option (List Stmt) → Json
  | none => .null
  | some statements => .ofNodes (nodesOfBlock statements)
termination_by structural statements => statements

def nodesOfDeclarations : List Declaration → List Node
  | [] => []
  | ⟨name, value⟩ :: rest =>
    .ofFields "declaration" .unknown
      [("variable", .string name), ("expr", jsonOfOptional value)] ::
      nodesOfDeclarations rest
termination_by structural declarations => declarations

def nodesOfBranches : List Branch → List Node
  | [] => []
  | ⟨condition, body⟩ :: rest =>
    .ofFields "elseif" .unknown [("expr", condition.toNode.toJson),
      ("statements", .ofNodes (nodesOfBlock body))] :: nodesOfBranches rest
termination_by structural branches => branches

def nodesOfClauses : List Clause → List Node
  | [] => []
  | .case test body :: rest =>
    .ofFields "case" .unknown [("expr", test.toNode.toJson),
      ("statements", .ofNodes (nodesOfBlock body))] :: nodesOfClauses rest
  | .default body :: rest =>
    .ofFields "default" .unknown [("statements", .ofNodes (nodesOfBlock body))] ::
      nodesOfClauses rest
termination_by structural clauses => clauses

def nodesOfHandlers : List Handler → List Node
  | [] => []
  | ⟨classes, caught, body⟩ :: rest =>
    .ofFields "catch" .unknown
      [("classes", .ofTexts classes), ("variable", .ofText caught),
      ("statements", .ofNodes (nodesOfBlock body))] :: nodesOfHandlers rest
termination_by structural handlers => handlers

end

/-! ## Definitions -/

def Constant.toNode (constant : Constant) : Node :=
  .ofFields "const" .unknown [("name", .string constant.name),
    ("default", constant.value.toNode.toJson), ("docblock", .ofText constant.docblock)]

def Shortcut.toNode (shortcut : Shortcut) : Node :=
  .ofFields "shortcut" shortcut.location [("name", .string shortcut.name)]

def Property.toNode (property : Property) : Node :=
  .ofFields "property" property.location [("visibility", .ofTexts property.visibility),
    ("name", .string property.name), ("default", jsonOfOptional property.default),
    ("shortcuts", .ofNodes (property.shortcuts.map Shortcut.toNode)),
    ("docblock", .ofText property.docblock)]

def Method.toNode (method : Method) : Node :=
  .ofFields "method" method.location [("visibility", .ofTexts method.visibility),
    ("name", .string method.name),
    ("parameters", .ofRecords (nodesOfParameters method.parameters)),
    ("statements", jsonOfOptionalBlock method.statements),
    ("docblock", .ofText method.docblock)]

/-- The members of a class or an interface as one object. -/
def Node.ofMembers (constants : List Constant) (properties : List Property)
    (methods : List Method) : Node :=
  .ofFields "definition" .unknown
    [("constants", .ofNodes (constants.map Constant.toNode)),
    ("properties", .ofNodes (properties.map Property.toNode)),
    ("methods", .ofNodes (methods.map Method.toNode))]

def ClassDefinition.toNode (definition : ClassDefinition) : Node :=
  .ofFields "class" definition.location [("name", .string definition.name),
    ("abstract", .bool definition.isAbstract), ("final", .bool definition.isFinal),
    ("extends", .ofText definition.parent),
    ("implements", .ofTexts definition.interfaces),
    ("docblock", .ofText definition.docblock),
    ("definition", (Node.ofMembers definition.constants definition.properties
      definition.methods).toRecord)]

def InterfaceDefinition.toNode (definition : InterfaceDefinition) : Node :=
  .ofFields "interface" definition.location [("name", .string definition.name),
    ("extends", .ofTexts definition.parents), ("docblock", .ofText definition.docblock),
    ("definition", (Node.ofMembers definition.constants [] definition.methods).toRecord)]

def FunctionDefinition.toNode (definition : FunctionDefinition) : Node :=
  .ofFields "function" definition.location [("name", .string definition.name),
    ("parameters", .ofRecords (nodesOfParameters definition.parameters)),
    ("statements", .ofNodes (nodesOfBlock definition.statements)),
    ("docblock", .ofText definition.docblock)]

def Import.toNode (imported : Import) : Node :=
  .ofFields "use-alias" .unknown [("name", .string imported.name),
    ("alias", .ofText imported.shortName)]

def Entry.toNode : Entry → Node
  | .comment location text => .ofFields "comment" location [("value", .string text)]
  | .namespaceName location name =>
    .ofFields "namespace" location [("name", .string name)]
  | .imports location aliases =>
    .ofFields "use" location [("aliases", .ofRecords (aliases.map Import.toNode))]
  | .classDefinition definition => definition.toNode
  | .interfaceDefinition definition => definition.toNode
  | .functionDefinition definition => definition.toNode
  | .statement included => included.toNode

def Program.toNodes (program : Program) : List Node :=
  program.entries.map Entry.toNode

end ZephirPhp
