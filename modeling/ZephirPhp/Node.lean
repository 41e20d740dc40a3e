import ZephirPhp.Diagnostic
import ZephirPhp.Json.Basic
import ZephirPhp.Json.Reader
import ZephirPhp.Kind

/-! # Nodes of the syntax tree

A parser prints a syntax tree as a JSON array of objects, each with its kind under
`type`. A node keeps the kind and the other fields as attributes. The accessors read an
attribute as one of the shapes that occur; an attribute of another shape makes the node
malformed. An attribute that is `null` counts as missing.
-/

namespace ZephirPhp

structure Node where
  kind : String
  attributes : Dictionary Json

abbrev Reading := Except Diagnostic

namespace Node

def ofJson? : Json → Option Node
  | .object fields =>
    match Dictionary.get? fields "type" with
    | some (.string kind) => some ⟨kind, Dictionary.erase "type" fields⟩
    | _ => none
  | _ => none

def ofElements? : List Json → Option (List Node)
  | [] => some []
  | element :: rest => do
    return (← ofJson? element) :: (← ofElements? rest)

def ofText (path text : String) : Reading (List Node) :=
  match Json.parse? Json.depthLimit text with
  | none => .error (.invalidTree path .json)
  | some (.array elements) =>
    match ofElements? elements with
    | some nodes => .ok nodes
    | none => .error (.invalidTree path .json)
  | some .null => .error (.invalidTree path .missing)
  | some _ => .error (.invalidTree path .notList)

def key (node : Node) : String := kindKey node.kind

def nesting (node : Node) : Nat := Json.nestingFields node.attributes + 1

def get? (node : Node) (name : String) : Option Json :=
  node.attributes.get? name

/-! ## Locations -/

def positionNumber? : Option Json → Option UInt32
  | some (.number number) => do
    let value ← number.natural?
    guard (value ≤ Text.limit32)
    return UInt32.ofNat value
  | some (.string text) => (Text.natural? Text.limit32 text).map UInt32.ofNat
  | _ => none

def location (node : Node) : Location where
  file := match node.get? "file" with
    | some (.string file) => some file
    | _ => none
  line := positionNumber? (node.get? "line")
  column := positionNumber? (node.get? "char")

/-! ## Attributes -/

def has (node : Node) (name : String) : Bool :=
  match node.get? name with
  | none => false
  | some .null => false
  | some _ => true

def malformed (node : Node) (name : String) : Diagnostic :=
  .malformedNode node.kind name node.location

def require {α : Type} (node : Node) (name : String) (value : Option α) : Reading α :=
  match value with
  | some value => .ok value
  | none => .error (node.malformed name)

def optionalString (node : Node) (name : String) : Reading (Option String) :=
  match node.get? name with
  | none => .ok none
  | some .null => .ok none
  | some (.string text) => .ok (some text)
  | some _ => .error (node.malformed name)

def string (node : Node) (name : String) : Reading String := do
  node.require name (← node.optionalString name)

/-- A text, or the text of a number or a truth value: parsers differ in what they
quote. -/
def scalar (node : Node) (name : String) : Reading String :=
  match node.get? name with
  | some (.string text) => .ok text
  | some (.number number) => .ok number.text
  | some (.bool value) => .ok (if value then "true" else "false")
  | _ => .error (node.malformed name)

/-- A truth value, also as a number or as text. A missing one is false. -/
def flag (node : Node) (name : String) : Reading Bool :=
  match node.get? name with
  | none => .ok false
  | some .null => .ok false
  | some (.bool value) => .ok value
  | some (.number number) => .ok number.isNonzeroWord
  | some (.string text) =>
    if text = "true" ∨ text = "1" then .ok true
    else if text = "false" ∨ text = "0" ∨ text = "" then .ok false
    else .error (node.malformed name)
  | some _ => .error (node.malformed name)

def optionalChild (node : Node) (name : String) : Reading (Option Node) :=
  match node.get? name with
  | none => .ok none
  | some .null => .ok none
  | some value => do return some (← node.require name (ofJson? value))

def child (node : Node) (name : String) : Reading Node := do
  node.require name (← node.optionalChild name)

def children (node : Node) (name : String) : Reading (List Node) :=
  match node.get? name with
  | none => .ok []
  | some .null => .ok []
  | some (.array elements) => node.require name (ofElements? elements)
  | some _ => .error (node.malformed name)

/-- The objects of a list as nodes of the given kind, whatever their own `type` is. -/
def recordsOf? (kind : String) : List Json → Option (List Node)
  | [] => some []
  | .object fields :: rest => do
    return ⟨kind, Dictionary.erase "type" fields⟩ :: (← recordsOf? kind rest)
  | _ :: _ => none

def records (node : Node) (name kind : String) : Reading (List Node) :=
  match node.get? name with
  | none => .ok []
  | some .null => .ok []
  | some (.array elements) => node.require name (recordsOf? kind elements)
  | some _ => .error (node.malformed name)

def record (node : Node) (name kind : String) : Reading (Option Node) :=
  match node.get? name with
  | none => .ok none
  | some .null => .ok none
  | some (.object fields) => .ok (some ⟨kind, Dictionary.erase "type" fields⟩)
  | some _ => .error (node.malformed name)

def stringsOf? : List Json → Option (List String)
  | [] => some []
  | .string text :: rest => do return text :: (← stringsOf? rest)
  | _ :: _ => none

def strings (node : Node) (name : String) : Reading (List String) :=
  match node.get? name with
  | none => .ok []
  | some .null => .ok []
  | some (.array elements) => node.require name (stringsOf? elements)
  | some _ => .error (node.malformed name)

/-! ## Names

A name is given as text, or as a node that carries the text in its `value`.
-/

def optionalName (node : Node) (name : String) : Reading (Option String) :=
  match node.get? name with
  | none => .ok none
  | some .null => .ok none
  | some (.string text) => .ok (some text)
  | some (.object _) => do return some (← (← node.child name).scalar "value")
  | some _ => .error (node.malformed name)

def name (node : Node) (field : String) : Reading String := do
  node.require field (← node.optionalName field)

def namesOf? : List Json → Option (List String)
  | [] => some []
  | .string text :: rest => do return text :: (← namesOf? rest)
  | .object fields :: rest =>
    match Dictionary.get? fields "value" with
    | some (.string text) => do return text :: (← namesOf? rest)
    | _ => none
  | _ :: _ => none

def names (node : Node) (field : String) : Reading (List String) :=
  match node.get? field with
  | none => .ok []
  | some .null => .ok []
  | some (.string text) => .ok [text]
  | some (.array elements) => node.require field (namesOf? elements)
  | some _ => .error (node.malformed field)

end Node

end ZephirPhp
