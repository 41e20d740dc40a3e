import ZephirPhp.Program.Decoding
import ZephirPhp.Proofs.Runs

/-! # Spellings of kinds

A parser may spell the kind of a node in several ways that have the same key. Two trees
that differ only in such spellings are the same program, or have the same fault, in which
the spelling of one kind may be shown.
-/

namespace ZephirPhp

variable {α β : Type}

/-! ## Trees that differ in spellings -/

mutual

/-- The second value is the first with other spellings of the kinds of objects. -/
inductive Json.Respelled : Json → Json → Prop
  | null : Json.Respelled .null .null
  | bool (value : Bool) : Json.Respelled (.bool value) (.bool value)
  | number (value : Number) : Json.Respelled (.number value) (.number value)
  | string (value : String) : Json.Respelled (.string value) (.string value)
  | array {elements others : List Json}
      (each : List.Forall₂ Json.Respelled elements others) :
      Json.Respelled (.array elements) (.array others)
  | object {fields others : List (String × Json)}
      (each : List.Forall₂ Json.RespelledField fields others) :
      Json.Respelled (.object fields) (.object others)

/-- The kind of an object stands under `type`. -/
inductive Json.RespelledField : String × Json → String × Json → Prop
  | kind {spelling other : String} (same : kindKey spelling = kindKey other) :
      Json.RespelledField ("type", .string spelling) ("type", .string other)
  | part (name : String) {value other : Json} (respelled : Json.Respelled value other) :
      Json.RespelledField (name, value) (name, other)

end

/-- Fields without a kind among them. -/
def Json.RespelledPart (field other : String × Json) : Prop :=
  field.1 = other.1 ∧ field.2.Respelled other.2

/-- The second node is the first with other spellings of its kind and of those inside. -/
structure Node.Respelled (node other : Node) : Prop where
  key : node.key = other.key
  attributes : List.Forall₂ Json.RespelledPart node.attributes other.attributes

/-- The same cause, which may show a kind in another spelling. -/
inductive Diagnostic.SameButKind : Diagnostic → Diagnostic → Prop
  | refl (diagnostic : Diagnostic) : SameButKind diagnostic diagnostic
  | kind {spelling other : String} (field : String) (location : Location)
      (same : kindKey spelling = kindKey other) :
      SameButKind (.malformedNode spelling field location)
        (.malformedNode other field location)

/-- Two readings with related values, or with the same fault but for the spelling of a
kind. -/
abbrev ReadAlike (values : α → β → Prop) (left : Reading α) (right : Reading β) : Prop :=
  Except.Alike Diagnostic.SameButKind values left right

namespace Json

mutual

theorem Respelled.refl (value : Json) : value.Respelled value := by
  cases value with
  | null => exact .null
  | bool value => exact .bool value
  | number value => exact .number value
  | string value => exact .string value
  | array elements => exact .array (respelledElements_refl elements)
  | object fields => exact .object (respelledFields_refl fields)
termination_by structural value

theorem respelledElements_refl (elements : List Json) :
    List.Forall₂ Respelled elements elements := by
  cases elements with
  | nil => exact .nil
  | cons element rest =>
      exact .cons (Respelled.refl element) (respelledElements_refl rest)
termination_by structural elements

theorem respelledFields_refl (fields : List (String × Json)) :
    List.Forall₂ RespelledField fields fields := by
  cases fields with
  | nil => exact .nil
  | cons field rest =>
      rcases field with ⟨name, value⟩
      exact .cons (.part name (Respelled.refl value)) (respelledFields_refl rest)
termination_by structural fields

end

/-! A decoder goes as deep as the objects are nested, which does not depend on
spellings. -/

mutual

theorem Respelled.nesting_eq (value : Json) {other : Json}
    (respelled : value.Respelled other) :
    value.nesting = other.nesting := by
  cases value with
  | array elements =>
      cases respelled with
      | array each => exact nestingElements_eq elements each
  | object fields =>
      cases respelled with
      | object each =>
          rw [nesting, nesting, nestingFields_eq fields each]
  | _ =>
      cases respelled
      rfl
termination_by structural value

theorem nestingElements_eq (elements : List Json) {others : List Json}
    (each : List.Forall₂ Respelled elements others) :
    nestingElements elements = nestingElements others := by
  cases elements with
  | nil =>
      cases each
      rfl
  | cons element rest =>
      cases each with
      | cons first later =>
          rw [nestingElements, nestingElements, Respelled.nesting_eq element first,
            nestingElements_eq rest later]
termination_by structural elements

theorem nestingFields_eq (fields : List (String × Json)) {others : List (String × Json)}
    (each : List.Forall₂ RespelledField fields others) :
    nestingFields fields = nestingFields others := by
  cases fields with
  | nil =>
      cases each
      rfl
  | cons field rest =>
      rcases field with ⟨name, value⟩
      cases each with
      | cons first later =>
          cases first with
          | kind same =>
              rw [nestingFields, nestingFields, nestingFields_eq rest later]; rfl
          | part name respelled =>
              rw [nestingFields, nestingFields, Respelled.nesting_eq value respelled,
                nestingFields_eq rest later]
termination_by structural fields

end

theorem RespelledPart.toField {field other : String × Json}
    (part : RespelledPart field other) :
    RespelledField field other := by
  rcases field with ⟨name, value⟩
  rcases other with ⟨otherName, otherValue⟩
  rcases part with ⟨same, respelled⟩
  cases same
  exact .part name respelled

variable {fields others : Dictionary Json}

theorem get?_part (each : List.Forall₂ RespelledPart fields others) (name : String) :
    Option.Rel Respelled (fields.get? name) (others.get? name) := by
  induction each with
  | nil => exact .none
  | cons first later induction =>
      rw [Dictionary.get?, Dictionary.get?, ← first.1]
      split
      · exact .some first.2
      · exact induction

theorem get?_field (each : List.Forall₂ RespelledField fields others) {name : String}
    (apart : name ≠ "type") :
    Option.Rel Respelled (fields.get? name) (others.get? name) := by
  induction each with
  | nil => exact .none
  | cons first later induction =>
      cases first with
      | kind same =>
          rw [Dictionary.get?, Dictionary.get?, if_neg apart, if_neg apart]
          exact induction
      | part other respelled =>
          rw [Dictionary.get?, Dictionary.get?]
          split
          · exact .some respelled
          · exact induction

theorem erase_type (each : List.Forall₂ RespelledField fields others) :
    List.Forall₂ RespelledPart (fields.erase "type") (others.erase "type") := by
  induction each with
  | nil => exact .nil
  | cons first later induction =>
      cases first with
      | kind same => simpa only [Dictionary.erase, if_true] using induction
      | part name respelled =>
          simp only [Dictionary.erase]
          split
          · exact induction
          · exact .cons ⟨rfl, respelled⟩ induction

/-- What stands under `type`: the kind, or something that is no kind on both sides. -/
theorem get?_type (each : List.Forall₂ RespelledField fields others) :
    (∃ spelling other, fields.get? "type" = some (.string spelling) ∧
      others.get? "type" = some (.string other) ∧ kindKey spelling = kindKey other) ∨
    Option.Rel Respelled (fields.get? "type") (others.get? "type") := by
  induction each with
  | nil => exact .inr .none
  | cons first later induction =>
      cases first with
      | @kind spelling other same =>
          exact .inl ⟨spelling,
            other, by simp [Dictionary.get?], by simp [Dictionary.get?], same⟩
      | part name respelled =>
          simp only [Dictionary.get?]
          split
          · exact .inr (.some respelled)
          · exact induction

variable {value other : Json}

theorem Respelled.ofJson? (respelled : value.Respelled other) :
    Option.Rel Node.Respelled (Node.ofJson? value) (Node.ofJson? other) := by
  cases respelled with
  | @object fields others each =>
      simp only [Node.ofJson?]
      rcases get?_type each with ⟨spelling, other, here, there, same⟩ | related
      · rw [here, there]
        exact .some ⟨same, erase_type each⟩
      · generalize Dictionary.get? fields "type" = found at related ⊢
        generalize Dictionary.get? others "type" = otherFound at related ⊢
        cases related with
        | none => exact .none
        | some respelled =>
            cases respelled with
            | string kind => exact .some ⟨rfl, erase_type each⟩
            | _ => exact .none
  | _ => exact .none

theorem ofElements?_respelled {elements others : List Json}
    (each : List.Forall₂ Respelled elements others) :
    Option.Rel (List.Forall₂ Node.Respelled) (Node.ofElements? elements)
      (Node.ofElements? others) := by
  induction each with
  | nil => exact .some .nil
  | @cons element other rest later first _ induction =>
      rw [Node.ofElements?, Node.ofElements?]
      have head := first.ofJson?
      generalize Node.ofJson? element = found at head ⊢
      generalize Node.ofJson? other = otherFound at head ⊢
      generalize Node.ofElements? rest = nodes at induction ⊢
      generalize Node.ofElements? later = otherNodes at induction ⊢
      cases head with
      | none => exact .none
      | some node =>
          cases induction with
          | none => exact .none
          | some nodes => exact .some (.cons node nodes)

theorem recordsOf?_respelled (kind : String) {elements others : List Json}
    (each : List.Forall₂ Respelled elements others) :
    Option.Rel (List.Forall₂ Node.Respelled) (Node.recordsOf? kind elements)
      (Node.recordsOf? kind others) := by
  induction each with
  | nil => exact .some .nil
  | @cons element other rest later first _ induction =>
      cases first with
      | object each =>
          rw [Node.recordsOf?, Node.recordsOf?]
          generalize Node.recordsOf? kind rest = nodes at induction ⊢
          generalize Node.recordsOf? kind later = otherNodes at induction ⊢
          cases induction with
          | none => exact .none
          | some nodes => exact .some (.cons ⟨rfl, erase_type each⟩ nodes)
      | _ => exact .none

theorem stringsOf?_respelled {elements others : List Json}
    (each : List.Forall₂ Respelled elements others) :
    Node.stringsOf? elements = Node.stringsOf? others := by
  induction each with
  | nil => rfl
  | cons first _ induction =>
      cases first with
      | string text => rw [Node.stringsOf?, Node.stringsOf?, induction]
      | _ => rfl

theorem namesOf?_respelled {elements others : List Json}
    (each : List.Forall₂ Respelled elements others) :
    Node.namesOf? elements = Node.namesOf? others := by
  induction each with
  | nil => rfl
  | cons first _ induction =>
      cases first with
      | string text => rw [Node.namesOf?, Node.namesOf?, induction]
      | @object fields others each =>
          rw [Node.namesOf?, Node.namesOf?, induction]
          have found := get?_field each (by decide : "value" ≠ "type")
          generalize Dictionary.get? fields "value" = text at found ⊢
          generalize Dictionary.get? others "value" = otherText at found ⊢
          cases found with
          | none => rfl
          | some respelled => cases respelled <;> rfl
      | _ => rfl

end Json

/-! ## Attributes -/

namespace Node.Respelled

variable {node other : Node} (respelled : node.Respelled other)
include respelled

/-- An attribute is missing in both nodes, or it is there in both. -/
theorem get?_cases (name : String) :
    (node.get? name = none ∧ other.get? name = none) ∨
      ∃ value otherValue, node.get? name = some value ∧
        other.get? name = some otherValue ∧
        value.Respelled otherValue := by
  have found := Json.get?_part respelled.attributes name
  rw [get?, get?]
  generalize Dictionary.get? node.attributes name = value at found ⊢
  generalize Dictionary.get? other.attributes name = otherValue at found ⊢
  cases found with
  | none => exact .inl ⟨rfl, rfl⟩
  | some related => exact .inr ⟨_, _, rfl, rfl, related⟩

theorem nesting_eq : node.nesting = other.nesting := by
  have fields := respelled.attributes.imp fun _ _ => Json.RespelledPart.toField
  rw [nesting, nesting, Json.nestingFields_eq _ fields]

theorem location_eq : node.location = other.location := by
  have number (name : String) :
      positionNumber? (node.get? name) = positionNumber? (other.get? name) := by
    rcases respelled.get?_cases name with
      ⟨here, there⟩ | ⟨value, otherValue, here, there, related⟩
    · rw [here, there]
    · rw [here, there]
      cases related <;> rfl
  rw [location, location, number "line", number "char"]
  rcases respelled.get?_cases "file" with
    ⟨here, there⟩ | ⟨value, otherValue, here, there, related⟩
  · rw [here, there]
  · rw [here, there]
    cases related <;> rfl

theorem has_eq (name : String) : node.has name = other.has name := by
  rw [has, has]
  rcases respelled.get?_cases name with
    ⟨here, there⟩ | ⟨value, otherValue, here, there, related⟩
  · rw [here, there]
  · rw [here, there]
    cases related <;> rfl

theorem noHandler {values : α → β → Prop} (family : Family) :
    ReadAlike values (.error (node.noHandler family))
      (.error (other.noHandler family)) := by
  rw [Node.noHandler, Node.noHandler, respelled.key, respelled.location_eq]
  exact .error (.refl _)

theorem malformed (name : String) :
    Diagnostic.SameButKind (node.malformed name) (other.malformed name) := by
  rw [Node.malformed, Node.malformed, respelled.location_eq]
  exact .kind name other.location respelled.key

theorem require {values : α → β → Prop} (name : String) {found : Option α}
    {otherFound : Option β} (related : Option.Rel values found otherFound) :
    ReadAlike values (node.require name found) (other.require name otherFound) := by
  cases related with
  | none => exact .error (respelled.malformed name)
  | some value => exact .ok value

theorem require_eq (name : String) (found : Option α) :
    ReadAlike Eq (node.require name found) (other.require name found) := by
  cases found with
  | none => exact .error (respelled.malformed name)
  | some value => exact .ok rfl

theorem optionalString (name : String) :
    ReadAlike Eq (node.optionalString name) (other.optionalString name) := by
  rw [Node.optionalString, Node.optionalString]
  rcases respelled.get?_cases name with
    ⟨here, there⟩ | ⟨value, otherValue, here, there, related⟩
  · rw [here, there]
    exact .ok rfl
  · rw [here, there]
    cases related with
    | null => exact .ok rfl
    | string text => exact .ok rfl
    | _ => exact .error (respelled.malformed name)

theorem string (name : String) : ReadAlike Eq (node.string name) (other.string name) :=
  .bind_eq (respelled.optionalString name) fun found => respelled.require_eq name found

theorem scalar (name : String) : ReadAlike Eq (node.scalar name) (other.scalar name) := by
  rw [Node.scalar, Node.scalar]
  rcases respelled.get?_cases name with
    ⟨here, there⟩ | ⟨value, otherValue, here, there, related⟩
  · rw [here, there]
    exact .error (respelled.malformed name)
  · rw [here, there]
    cases related with
    | string text => exact .ok rfl
    | number value => exact .ok rfl
    | bool value => exact .ok rfl
    | _ => exact .error (respelled.malformed name)

theorem flag (name : String) : ReadAlike Eq (node.flag name) (other.flag name) := by
  rw [Node.flag, Node.flag]
  rcases respelled.get?_cases name with
    ⟨here, there⟩ | ⟨value, otherValue, here, there, related⟩
  · rw [here, there]
    exact .ok rfl
  · rw [here, there]
    cases related with
    | string text =>
        dsimp only
        split
        · exact .ok rfl
        · split
          · exact .ok rfl
          · exact .error (respelled.malformed name)
    | null => exact .ok rfl
    | number value => exact .ok rfl
    | bool value => exact .ok rfl
    | _ => exact .error (respelled.malformed name)

theorem optionalChild (name : String) :
    ReadAlike (Option.Rel Node.Respelled) (node.optionalChild name)
      (other.optionalChild name) := by
  have present {value otherValue : Json} (related : value.Respelled otherValue) :
      ReadAlike (Option.Rel Node.Respelled)
        (do return some (← node.require name (ofJson? value)))
        (do return some (← other.require name (ofJson? otherValue))) :=
    .bind (respelled.require name related.ofJson?) fun _ _ child => .ok (.some child)
  rw [Node.optionalChild, Node.optionalChild]
  rcases respelled.get?_cases name with
    ⟨here, there⟩ | ⟨value, otherValue, here, there, related⟩
  · rw [here, there]
    exact .ok .none
  · rw [here, there]
    cases related with
    | null => exact .ok .none
    | bool value => exact present (.bool value)
    | number value => exact present (.number value)
    | string value => exact present (.string value)
    | array each => exact present (.array each)
    | object each => exact present (.object each)

theorem child (name : String) :
    ReadAlike Node.Respelled (node.child name) (other.child name) :=
  .bind (respelled.optionalChild name) fun _ _ found => respelled.require name found

theorem children (name : String) :
    ReadAlike (List.Forall₂ Node.Respelled) (node.children name)
      (other.children name) := by
  rw [Node.children, Node.children]
  rcases respelled.get?_cases name with
    ⟨here, there⟩ | ⟨value, otherValue, here, there, related⟩
  · rw [here, there]
    exact .ok .nil
  · rw [here, there]
    cases related with
    | null => exact .ok .nil
    | array each => exact respelled.require name (Json.ofElements?_respelled each)
    | _ => exact .error (respelled.malformed name)

theorem records (name kind : String) :
    ReadAlike (List.Forall₂ Node.Respelled) (node.records name kind)
      (other.records name kind) := by
  rw [Node.records, Node.records]
  rcases respelled.get?_cases name with
    ⟨here, there⟩ | ⟨value, otherValue, here, there, related⟩
  · rw [here, there]
    exact .ok .nil
  · rw [here, there]
    cases related with
    | null => exact .ok .nil
    | array each => exact respelled.require name (Json.recordsOf?_respelled kind each)
    | _ => exact .error (respelled.malformed name)

theorem record (name kind : String) :
    ReadAlike (Option.Rel Node.Respelled) (node.record name kind)
      (other.record name kind) := by
  rw [Node.record, Node.record]
  rcases respelled.get?_cases name with
    ⟨here, there⟩ | ⟨value, otherValue, here, there, related⟩
  · rw [here, there]
    exact .ok .none
  · rw [here, there]
    cases related with
    | null => exact .ok .none
    | object each => exact .ok (.some ⟨rfl, Json.erase_type each⟩)
    | _ => exact .error (respelled.malformed name)

theorem strings (name : String) :
    ReadAlike Eq (node.strings name) (other.strings name) := by
  rw [Node.strings, Node.strings]
  rcases respelled.get?_cases name with
    ⟨here, there⟩ | ⟨value, otherValue, here, there, related⟩
  · rw [here, there]
    exact .ok rfl
  · rw [here, there]
    cases related with
    | null => exact .ok rfl
    | array each =>
        dsimp only
        rw [Json.stringsOf?_respelled each]
        exact respelled.require_eq name _
    | _ => exact .error (respelled.malformed name)

theorem optionalName (name : String) :
    ReadAlike Eq (node.optionalName name) (other.optionalName name) := by
  rw [Node.optionalName, Node.optionalName]
  rcases respelled.get?_cases name with
    ⟨here, there⟩ | ⟨value, otherValue, here, there, related⟩
  · rw [here, there]
    exact .ok rfl
  · rw [here, there]
    cases related with
    | null => exact .ok rfl
    | string text => exact .ok rfl
    | object each =>
        refine .bind (respelled.child name) fun _ _ child => ?_
        exact .bind_eq (child.scalar "value") fun _ => .ok rfl
    | _ => exact .error (respelled.malformed name)

theorem name (field : String) : ReadAlike Eq (node.name field) (other.name field) :=
  .bind_eq (respelled.optionalName field) fun found => respelled.require_eq field found

theorem names (name : String) : ReadAlike Eq (node.names name) (other.names name) := by
  rw [Node.names, Node.names]
  rcases respelled.get?_cases name with
    ⟨here, there⟩ | ⟨value, otherValue, here, there, related⟩
  · rw [here, there]
    exact .ok rfl
  · rw [here, there]
    cases related with
    | null => exact .ok rfl
    | string text => exact .ok rfl
    | array each =>
        dsimp only
        rw [Json.namesOf?_respelled each]
        exact respelled.require_eq name _
    | _ => exact .error (respelled.malformed name)

end Node.Respelled

/-! ## Decoding -/

/-- Reading does not depend on spellings. -/
def Node.Steady (read : Node → Reading α) : Prop :=
  ∀ ⦃node other : Node⦄, node.Respelled other → ReadAlike Eq (read node) (read other)

theorem Node.Steady.mapM {read : Node → Reading α} (steady : Steady read)
    {nodes others : List Node} (respelled : List.Forall₂ Node.Respelled nodes others) :
    ReadAlike Eq (nodes.mapM read) (others.mapM read) := by
  have alike := Except.Alike.mapM respelled fun _ _ related => steady related
  rwa [List.forall₂_eq_eq_eq] at alike

/-- Something that is built from records which are all read in the same way. -/
theorem Node.Steady.recordsOf {read : Node → Reading α} (steady : Steady read)
    (build : List α → β) (name kind : String) :
    Steady fun node => (do return build (← (← node.records name kind).mapM read)) := by
  intro node other respelled
  refine .bind (respelled.records name kind) fun _ _ records => ?_
  exact .bind_eq (steady.mapM records) fun _ => .ok rfl

structure Decoder.Steady (decoder : Decoder) : Prop where
  expression : Node.Steady decoder.expression
  statement : Node.Steady decoder.statement

theorem Decoder.emptyValue_steady : Node.Steady Decoder.emptyValue := by
  intro node other respelled
  refine .bind_eq (respelled.string "internal-type") fun type => ?_
  split
  iterate 2 exact .ok rfl
  · exact .error (respelled.malformed "internal-type")

namespace Decoder.Steady

variable {decoder : Decoder} (steady : decoder.Steady)
include steady

/-! ### Parts of a node -/

theorem child (name : String) : Node.Steady (decoder.child · name) :=
  fun _ _ respelled => .bind (respelled.child name) fun _ _ found =>
    steady.expression found

theorem optionalChild (name : String) : Node.Steady (decoder.optionalChild · name) := by
  intro node other respelled
  refine .bind (respelled.optionalChild name) fun _ _ found => ?_
  cases found with
  | none => exact .ok rfl
  | some child => exact .bind_eq (steady.expression child) fun _ => .ok rfl

theorem children (name : String) : Node.Steady (decoder.children · name) :=
  fun _ _ respelled => .bind (respelled.children name) fun _ _ found =>
    steady.expression.mapM found

theorem block (name : String) : Node.Steady (decoder.block · name) :=
  fun _ _ respelled => .bind (respelled.children name) fun _ _ found =>
    steady.statement.mapM found

theorem optionalBlock (name : String) : Node.Steady (decoder.optionalBlock · name) := by
  intro node other respelled
  simp only [Decoder.optionalBlock, respelled.has_eq]
  split
  · exact .bind_eq (steady.block name respelled) fun _ => .ok rfl
  · exact .ok rfl

theorem parameter : Node.Steady decoder.parameter := by
  intro node other respelled
  refine .bind_eq (respelled.string "name") fun name => ?_
  refine .bind_eq (steady.optionalChild "default" respelled) fun default => ?_
  exact .bind_eq (respelled.flag "reference") fun _ => .ok rfl

theorem parameters (name : String) : Node.Steady (decoder.parameters · name) :=
  fun _ _ respelled => .bind (respelled.records name "parameter") fun _ _ found =>
    steady.parameter.mapM found

theorem arrayItem : Node.Steady decoder.arrayItem := by
  intro node other respelled
  refine .bind_eq (steady.optionalChild "key" respelled) fun key => ?_
  exact .bind_eq (steady.child "value" respelled) fun _ => .ok rfl

/-- A node that is read from one of its parts. -/
theorem single (build : Expr → α) (name : String) :
    Node.Steady fun node => (do return build (← decoder.child node name)) :=
  fun _ _ respelled => .bind_eq (steady.child name respelled) fun _ => .ok rfl

/-- A node that is read from two of its parts. -/
theorem pair (build : Expr → Expr → α) (first second : String) :
    Node.Steady fun node =>
      (do return build (← decoder.child node first) (← decoder.child node second)) :=
  fun _ _ respelled => .bind_eq (steady.child first respelled) fun left =>
    steady.single (build left) second respelled

/-- A call whose arguments are read last. -/
theorem call (build : List Expr → Expr) :
    Node.Steady fun node => (do return build (← decoder.arguments node)) :=
  fun _ _ respelled => .bind_eq
    (.bind (respelled.records "parameters" "argument") fun _ _ found =>
      (steady.child "parameter").mapM found)
    fun _ => .ok rfl

/-- Something that is built from a block. -/
theorem headless (build : List Stmt → α) :
    Node.Steady fun node => (do return build (← decoder.block node "statements")) :=
  fun _ _ respelled => .bind_eq (steady.block "statements" respelled) fun _ => .ok rfl

/-- Something that is built from an expression and a block. -/
theorem headed (build : Expr → List Stmt → α) :
    Node.Steady fun node =>
      (do
        return build (← decoder.child node "expr")
          (← decoder.block node "statements")) :=
  fun _ _ respelled => .bind_eq (steady.child "expr" respelled) fun head =>
    steady.headless (build head) respelled

/-! ### Expressions -/

theorem closure : Node.Steady decoder.closure := by
  intro node other respelled
  rw [Decoder.closure, Decoder.closure, respelled.has_eq, respelled.has_eq,
    respelled.location_eq]
  refine .bind_eq (steady.parameters _ respelled) fun parameters => ?_
  exact .bind_eq (steady.block _ respelled) fun _ => .ok rfl

theorem operation : Node.Steady decoder.operation := by
  intro node other respelled
  rw [Decoder.operation, Decoder.operation, respelled.key, respelled.location_eq]
  split
  · exact steady.single _ "left" respelled
  · split
    · exact steady.pair _ "left" "right" respelled
    · exact respelled.noHandler .expression

theorem expressionWith : Node.Steady decoder.expressionWith := by
  intro node other respelled
  have scalar (build : String → Expr) :
      ReadAlike Eq (do return build (← node.scalar "value"))
        (do return build (← other.scalar "value")) :=
    .bind_eq (respelled.scalar "value") fun _ => .ok rfl
  have named (build : String → String → Expr) :
      ReadAlike Eq (do return build (← node.name "left") (← node.name "right"))
        (do return build (← other.name "left") (← other.name "right")) :=
    .bind_eq (respelled.name "left") fun left =>
      .bind_eq (respelled.name "right") fun _ => .ok rfl
  have member (build : Expr → String → Expr) :
      ReadAlike Eq (do return build (← decoder.child node "left") (← node.name "right"))
        (do return build (← decoder.child other "left") (← other.name "right")) :=
    .bind_eq (steady.child "left" respelled) fun object =>
      .bind_eq (respelled.name "right") fun _ => .ok rfl
  have typed (build : String → Expr → Expr) :
      ReadAlike Eq (do return build (← node.name "left") (← decoder.child node "right"))
        (do return build (← other.name "left") (← decoder.child other "right")) :=
    .bind_eq (respelled.name "left") fun type =>
      steady.single (build type) "right" respelled
  -- With one key for both nodes, a split takes both sides to the same branch.
  rw [Decoder.expressionWith, Decoder.expressionWith, respelled.key,
    respelled.location_eq]
  split
  iterate 5 exact scalar _
  · exact .bind_eq (respelled.flag "value") fun _ => .ok rfl
  · exact .ok rfl
  iterate 3 exact scalar _
  · exact steady.arrayItem.recordsOf _ "left" "array-item" respelled
  · exact .ok rfl
  iterate 2 exact scalar _
  iterate 2 exact steady.pair _ "left" "right" respelled
  · exact member _
  · exact steady.pair _ "left" "right" respelled
  · exact member _
  iterate 2 exact named _
  · exact steady.pair _ "left" "right" respelled
  · refine .bind_eq (steady.child "variable" respelled) fun receiver => ?_
    exact .bind_eq (respelled.string "name") fun method => steady.call _ respelled
  · exact .bind_eq (respelled.string "name") fun function => steady.call _ respelled
  · refine .bind_eq (respelled.name "class") fun className => ?_
    exact .bind_eq (respelled.string "name") fun method => steady.call _ respelled
  · refine .bind_eq (respelled.name "class") fun className => ?_
    exact .bind_eq (respelled.flag "dynamic") fun isDynamic => steady.call _ respelled
  · exact .bind_eq (emptyValue_steady respelled) fun _ => .ok rfl
  iterate 2 exact typed _
  · exact .bind_eq (steady.child "left" respelled) fun condition =>
      steady.pair _ "right" "extra" respelled
  · exact steady.closure respelled
  iterate 2 exact typed _
  · exact steady.operation respelled

/-! ### Statements -/

/-- The parts of an assignment whose form and operator are read. -/
theorem assignmentParts (form : AssignmentForm) (operator : Option AssignmentOperator) :
    Node.Steady fun node => (do
      if node.has "expr" != form.takesExpression then
        throw (.malformedNode form.name "expr" node.location)
      let value ← decoder.optionalChild node "expr"
      let property ← if form.takesProperty then some <$> node.name "property"
        else pure none
      let index ← if form.takesIndex then decoder.children node "index-expr" else pure []
      return { form, operator, target := ← node.name "variable", property, index, value,
               location := node.location } : Reading Assignment) := by
  intro node other respelled
  have ending (value : Option Expr) (property : Option String) :
      Node.Steady fun node => (do
        let index ← if form.takesIndex then decoder.children node "index-expr"
            else pure []
        return { form, operator, target := ← node.name "variable", property, index, value,
                 location := other.location } : Reading Assignment) := by
    intro node other respelled
    dsimp only
    split
    · refine .bind_eq (steady.children "index-expr" respelled) fun index => ?_
      exact .bind_eq (respelled.name "variable") fun _ => .ok rfl
    · rw [pure_bind, pure_bind]
      exact .bind_eq (respelled.name "variable") fun _ => .ok rfl
  dsimp only
  rw [respelled.has_eq, respelled.location_eq]
  split
  · exact .error (.refl _)
  · refine .bind_eq (steady.optionalChild "expr" respelled) fun value => ?_
    split
    · rw [map_eq_pure_bind, map_eq_pure_bind, bind_assoc, bind_assoc]
      exact .bind_eq (respelled.name "property") fun property =>
        ending value (some property) respelled
    · exact ending value none respelled

theorem assignment : Node.Steady decoder.assignment := by
  intro node other respelled
  refine .bind_eq (respelled.string "assign-type") fun variant => ?_
  split
  · rename_i form _
    refine .bind_eq (respelled.optionalString "operator") fun name => ?_
    dsimp only
    split
    · exact steady.assignmentParts form none respelled
    · split
      · rename_i operator _
        exact steady.assignmentParts form (some operator) respelled
      · rw [respelled.location_eq]
        exact .error (.refl _)
  · rw [respelled.location_eq]
    exact .error (.refl _)

theorem declaration : Node.Steady decoder.declaration := by
  intro node other respelled
  refine .bind_eq (respelled.name "variable") fun name => ?_
  exact .bind_eq (steady.optionalChild "expr" respelled) fun _ => .ok rfl

theorem branch : Node.Steady decoder.branch :=
  fun _ _ respelled => steady.headed Branch.mk respelled

theorem clause : Node.Steady decoder.clause := by
  intro node other respelled
  rw [Decoder.clause, Decoder.clause, respelled.key]
  split
  · exact steady.headed _ respelled
  · exact steady.headless _ respelled
  · exact respelled.noHandler .clause

theorem handler : Node.Steady decoder.handler := by
  intro node other respelled
  refine .bind_eq (respelled.names "classes") fun classes => ?_
  exact .bind_eq (respelled.optionalName "variable") fun caught =>
    steady.headless _ respelled

theorem statementWith : Node.Steady decoder.statementWith := by
  intro node other respelled
  rw [Decoder.statementWith, Decoder.statementWith, respelled.key, respelled.location_eq]
  split
  · exact steady.assignment.recordsOf _ "assignments" "assignment" respelled
  · exact steady.declaration.recordsOf _ "variables" "declaration" respelled
  iterate 3 exact steady.single _ "expr" respelled
  · refine .bind_eq (steady.child "expr" respelled) fun condition => ?_
    refine .bind_eq (steady.block "statements" respelled) fun body => ?_
    refine .bind (respelled.records "elseif_statements" "elseif") fun _ _ records => ?_
    refine .bind_eq (steady.branch.mapM records) fun branches => ?_
    exact .bind_eq (steady.optionalBlock "else_statements" respelled) fun _ => .ok rfl
  · exact steady.single _ "expr" respelled
  · exact steady.headless _ respelled
  · exact steady.headed _ respelled
  · exact .bind_eq (steady.block "statements" respelled) fun body =>
      steady.single _ "expr" respelled
  · refine .bind_eq (respelled.optionalString "key") fun key => ?_
    refine .bind_eq (respelled.optionalString "value") fun value => ?_
    exact .bind_eq (respelled.flag "reverse") fun reverse => steady.headed _ respelled
  · refine .bind_eq (steady.child "expr" respelled) fun subject => ?_
    refine .bind (respelled.children "clauses") fun _ _ parts => ?_
    exact .bind_eq (steady.clause.mapM parts) fun _ => .ok rfl
  iterate 2 exact .ok rfl
  · exact .bind_eq (steady.optionalChild "expr" respelled) fun _ => .ok rfl
  iterate 2 exact steady.single _ "expr" respelled
  · exact .bind_eq (steady.children "expressions" respelled) fun _ => .ok rfl
  · exact steady.single _ "expr" respelled
  · refine .bind_eq (steady.block "statements" respelled) fun body => ?_
    exact steady.handler.recordsOf _ "catches" "catch" respelled
  · exact .bind_eq (respelled.scalar "value") fun _ => .ok rfl
  · exact .ok rfl
  · exact respelled.noHandler .statement

end Decoder.Steady

/-- By induction on how deep a decoder reads. -/
theorem decoder_steady (depth : Nat) : (decoder depth).Steady := by
  induction depth with
  | zero =>
      constructor
      · exact fun _ _ respelled => respelled.noHandler .expression
      · exact fun _ _ respelled => respelled.noHandler .statement
  | succ depth steady =>
      rw [decoder]
      constructor
      · dsimp only
        exact steady.expressionWith
      · dsimp only
        exact steady.statementWith

/-! ## Definitions and programs -/

namespace Decoder.Steady

variable {decoder : Decoder} (steady : decoder.Steady)
include steady

theorem constant : Node.Steady decoder.constant := by
  intro node other respelled
  refine .bind_eq (respelled.string "name") fun name => ?_
  refine .bind_eq (steady.child "default" respelled) fun value => ?_
  exact .bind_eq (respelled.optionalString "docblock") fun _ => .ok rfl

omit steady in
theorem shortcut : Node.Steady Decoder.shortcut := by
  intro node other respelled
  rw [Decoder.shortcut, Decoder.shortcut, respelled.location_eq]
  exact .bind_eq (respelled.string "name") fun _ => .ok rfl

theorem property : Node.Steady decoder.property := by
  intro node other respelled
  rw [Decoder.property, Decoder.property, respelled.location_eq]
  refine .bind_eq (steady.optionalChild "default" respelled) fun default => ?_
  refine .bind (respelled.children "shortcuts") fun _ _ parts => ?_
  refine .bind_eq (shortcut.mapM parts) fun shortcuts => ?_
  refine .bind_eq (respelled.strings "visibility") fun visibility => ?_
  refine .bind_eq (respelled.string "name") fun name => ?_
  exact .bind_eq (respelled.optionalString "docblock") fun _ => .ok rfl

theorem method : Node.Steady decoder.method := by
  intro node other respelled
  rw [Decoder.method, Decoder.method, respelled.location_eq]
  refine .bind_eq (steady.optionalBlock "statements" respelled) fun body => ?_
  refine .bind_eq (respelled.strings "visibility") fun visibility => ?_
  refine .bind_eq (respelled.string "name") fun name => ?_
  refine .bind_eq (steady.parameters "parameters" respelled) fun parameters => ?_
  exact .bind_eq (respelled.optionalString "docblock") fun _ => .ok rfl

omit steady in
theorem member (key : String) {decode : Node → Reading α} (decoded : Node.Steady decode) :
    Node.Steady (member key decode) := by
  intro node other respelled
  rw [Decoder.member, Decoder.member, respelled.key]
  split
  · exact decoded respelled
  · exact respelled.noHandler .classMember

theorem members : Node.Steady decoder.members := by
  intro node other respelled
  refine .bind (respelled.record "definition" "definition") fun _ _ found => ?_
  cases found with
  | none => exact .ok rfl
  | some body =>
      refine .bind (body.children "constants") fun _ _ nodes => ?_
      refine .bind_eq ((member "Const" steady.constant).mapM nodes) fun constants => ?_
      refine .bind (body.children "properties") fun _ _ nodes => ?_
      refine .bind_eq ((member "Property" steady.property).mapM nodes)
        fun properties => ?_
      refine .bind (body.children "methods") fun _ _ nodes => ?_
      exact .bind_eq ((member "Method" steady.method).mapM nodes) fun _ => .ok rfl

theorem classDefinition : Node.Steady decoder.classDefinition := by
  intro node other respelled
  rw [Decoder.classDefinition, Decoder.classDefinition, respelled.location_eq]
  refine .bind_eq (steady.members respelled) fun members => ?_
  refine .bind_eq (respelled.string "name") fun name => ?_
  refine .bind_eq (respelled.flag "abstract") fun isAbstract => ?_
  refine .bind_eq (respelled.flag "final") fun isFinal => ?_
  refine .bind_eq (respelled.optionalName "extends") fun parent => ?_
  refine .bind_eq (respelled.names "implements") fun interfaces => ?_
  exact .bind_eq (respelled.optionalString "docblock") fun _ => .ok rfl

theorem interfaceDefinition : Node.Steady decoder.interfaceDefinition := by
  intro node other respelled
  rw [Decoder.interfaceDefinition, Decoder.interfaceDefinition, respelled.location_eq]
  refine .bind_eq (steady.members respelled) fun members => ?_
  dsimp only
  split
  · exact .error (.refl _)
  · refine .bind_eq (respelled.string "name") fun name => ?_
    refine .bind_eq (respelled.names "extends") fun parents => ?_
    exact .bind_eq (respelled.optionalString "docblock") fun _ => .ok rfl

theorem functionDefinition : Node.Steady decoder.functionDefinition := by
  intro node other respelled
  rw [Decoder.functionDefinition, Decoder.functionDefinition, respelled.location_eq]
  refine .bind_eq (respelled.string "name") fun name => ?_
  refine .bind_eq (steady.parameters "parameters" respelled) fun parameters => ?_
  refine .bind_eq (steady.block "statements" respelled) fun body => ?_
  exact .bind_eq (respelled.optionalString "docblock") fun _ => .ok rfl

omit steady in
theorem importedName : Node.Steady Decoder.importedName := by
  intro node other respelled
  refine .bind_eq (respelled.string "name") fun name => ?_
  exact .bind_eq (respelled.optionalString "alias") fun _ => .ok rfl

theorem entry : Node.Steady decoder.entry := by
  intro node other respelled
  rw [Decoder.entry, Decoder.entry, respelled.key, respelled.location_eq]
  split
  · exact .bind_eq (respelled.scalar "value") fun _ => .ok rfl
  · exact .bind_eq (respelled.string "name") fun _ => .ok rfl
  · exact importedName.recordsOf _ "aliases" "use-alias" respelled
  · exact .bind_eq (steady.classDefinition respelled) fun _ => .ok rfl
  · exact .bind_eq (steady.interfaceDefinition respelled) fun _ => .ok rfl
  · exact .bind_eq (steady.functionDefinition respelled) fun _ => .ok rfl
  · exact .bind_eq (steady.statement respelled) fun _ => .ok rfl
  · exact respelled.noHandler .topLevel

end Decoder.Steady

/-- Nodes that differ only in spellings of kinds with the same key, at any depth, are the
same program, or have faults that are the same but for the spelling of a malformed node's
kind. -/
theorem ofNodes_respelled {nodes others : List Node}
    (respelled : List.Forall₂ Node.Respelled nodes others) :
    Except.Alike Diagnostic.SameButKind Eq (Program.ofNodes nodes)
      (Program.ofNodes others) := by
  have entry : Node.Steady fun node => (decoder node.nesting).entry node := by
    intro node other related
    dsimp only
    rw [related.nesting_eq]
    exact (decoder_steady other.nesting).entry related
  exact .bind_eq (entry.mapM respelled) fun _ => .ok rfl

/-- A function that returns an expression of the given kind with the given parts. -/
def returningNode (kind : String) (parts : List (String × Json)) : Node where
  kind := "function"
  attributes := [("name", .string "f"), ("statements", .array [.object
    [("expr", .object (("type", .string kind) :: parts)), ("type", .string "return")]])]

theorem returningNode_respelled {spelling other : String}
    (same : kindKey spelling = kindKey other) (parts : List (String × Json)) :
    (returningNode spelling parts).Respelled (returningNode other parts) := by
  have expression :=
    Json.Respelled.object (.cons (.kind same) (Json.respelledFields_refl parts))
  have statement := Json.Respelled.object
    (.cons (.part "expr" expression) (.cons (.part "type" (.string "return")) .nil))
  exact ⟨rfl, .cons ⟨rfl, .string "f"⟩ (.cons ⟨rfl, .array (.cons statement .nil)⟩ .nil)⟩

/-- The parts of an access to an array. -/
def elementParts : List (String × Json) :=
  [("left", .object [("type", .string "variable"), ("value", .string "v")]),
    ("right", .object [("type", .string "int"), ("value", .string "0")])]

/-- A program with a function that returns an element of an array. -/
def returningElement : Program where
  entries := [.functionDefinition {
    name := "f", parameters := [], docblock := none, location := .unknown
    statements := [.returnValue .unknown (some (.index .unknown
      (.atom .unknown (.variable "v")) (.atom .unknown (.int "0"))))] }]

/-- An access to an array in two spellings, once complete and once without its parts. -/
theorem ofNodes_respelled_of_access :
    Program.ofNodes [returningNode "array-access" elementParts] = .ok returningElement ∧
      Program.ofNodes [returningNode "array_access" elementParts] = .ok returningElement ∧
      Program.ofNodes [returningNode "array-access" []] =
        .error (.malformedNode "array-access" "left" .unknown) ∧
      ∃ diagnostic, Program.ofNodes [returningNode "array_access" []] =
        .error diagnostic ∧
        Diagnostic.SameButKind (.malformedNode "array-access" "left" .unknown)
          diagnostic := by
  have same : kindKey "array-access" = kindKey "array_access" := by decide
  have complete :=
    ofNodes_respelled (.cons (returningNode_respelled same elementParts) .nil)
  have lacking := ofNodes_respelled (.cons (returningNode_respelled same []) .nil)
  have read : Program.ofNodes [returningNode "array-access" elementParts] =
      .ok returningElement := by rfl
  have refused : Program.ofNodes [returningNode "array-access" []] =
      .error (.malformedNode "array-access" "left" .unknown) := by rfl
  rw [read] at complete
  rw [refused] at lacking
  exact ⟨read, complete.eq_ok, refused, lacking.eq_error⟩

end ZephirPhp
