import Mathlib.Data.List.Forall2
import ZephirPhp.Proofs.Program.Encoding
import ZephirPhp.Proofs.Sequencing

/-! # Reading the fields of written nodes

A node that was made from fields gives every field back, and the nodes in its fields are
read by the decoder of the next smaller depth. A decoder must be deep enough for the
nodes it reads; the depth of a part is below that of the node around it.
-/

namespace ZephirPhp

/-! ## Fields -/

namespace Dictionary

variable {α : Type}

theorem get?_ofFields (fields : List (String × α)) (name : String) :
    (ofFields fields).get? name = get? fields name := by
  induction fields with
  | nil => rfl
  | cons field rest induction =>
      rw [ofFields, List.foldr_cons]
      by_cases same : name = field.1
      · subst same
        simp [get?]
      · rw [get?_insert_of_ne _ _ same, get?, if_neg same]
        exact induction

theorem erase_of_get?_eq_none {dictionary : Dictionary α} {key : String}
    (missing : dictionary.get? key = none) : dictionary.erase key = dictionary := by
  induction dictionary with
  | nil => rfl
  | cons entry rest induction =>
      rw [get?] at missing
      split at missing
      · cases missing
      · rename_i different
        rw [erase, if_neg different, induction missing]

theorem erase_insert {dictionary : Dictionary α} {key : String} (value : α)
    (missing : dictionary.get? key = none) :
    (dictionary.insert key value).erase key = dictionary := by
  induction dictionary with
  | nil => simp [insert, erase]
  | cons entry rest induction =>
      rw [get?] at missing
      split at missing
      · cases missing
      · rename_i different
        rw [insert, if_neg different]
        split
        · simp [erase, different, erase_of_get?_eq_none missing]
        · simp [erase, different, induction missing]

end Dictionary

namespace Json

theorem nesting_le_of_get? {fields : List (String × Json)} {name : String} {json : Json}
    (found : Dictionary.get? fields name = some json) :
    json.nesting ≤ nestingFields fields := by
  induction fields with
  | nil => cases found
  | cons field rest induction =>
      rw [Dictionary.get?] at found
      rw [nestingFields]
      split at found
      · cases found
        exact Nat.le_max_left _ _
      · exact Nat.le_trans (induction found) (Nat.le_max_right _ _)

theorem nesting_le_of_mem {elements : List Json} {json : Json}
    (member : json ∈ elements) :
    json.nesting ≤ nestingElements elements := by
  induction elements with
  | nil => cases member
  | cons element rest induction =>
      rw [nestingElements]
      rcases List.mem_cons.mp member with rfl | later
      · exact Nat.le_max_left _ _
      · exact Nat.le_trans (induction later) (Nat.le_max_right _ _)

theorem nestingFields_le_insert (fields : List (String × Json)) (name : String)
    (text : String) (missing : Dictionary.get? fields name = none) :
    nestingFields fields ≤
      nestingFields (Dictionary.insert name (.string text) fields) := by
  induction fields with
  | nil => simp [nestingFields]
  | cons field rest induction =>
      rw [Dictionary.get?] at missing
      split at missing
      · cases missing
      · rename_i different
        rw [Dictionary.insert, if_neg different]
        split
        · rw [nestingFields, nestingFields, nestingFields]
          exact Nat.le_max_right _ _
        · rw [nestingFields, nestingFields]
          have inside := induction missing
          omega

end Json

/-! ## Nodes -/

namespace Node

/-- The value of a field that is neither the kind nor a part of the location. -/
def fieldOf? (fields : List (String × Json)) (name : String) : Option Json :=
  if name = "type" ∨ name = "file" ∨ name = "line" ∨ name = "char" then none
  else Dictionary.get? fields name

variable {kind : String} {location : Location} {fields : List (String × Json)}

theorem get?_type_ofFields : (ofFields kind location fields).get? "type" = none :=
  Dictionary.get?_erase_self _ _

theorem get?_ofFields {name : String} {json : Json}
    (found : fieldOf? fields name = some json) :
    (ofFields kind location fields).get? name = some json := by
  rw [fieldOf?] at found
  split at found
  · cases found
  · rename_i ordinary
    simp only [not_or] at ordinary
    rw [get?, ofFields, Dictionary.get?_erase_of_ne _ ordinary.1,
      Dictionary.get?_ofFields]
    simp [Location.fields, Dictionary.get?, ordinary, found]

theorem positionNumber?_ofPosition (number : Option UInt32) :
    positionNumber? (some (.ofPosition number)) = number := by
  cases number with
  | none => rfl
  | some number =>
      have bounded : number.toNat ≤ Text.limit32 := by
        have below := number.toNat_lt
        simp [Text.limit32]
        omega
      simp [Json.ofPosition, Json.ofOption, positionNumber?, Number.natural?,
        guard, bounded]

theorem location_ofFields : (ofFields kind location fields).location = location := by
  have read (name : String) (different : name ≠ "type") :
      (ofFields kind location fields).get? name =
        Dictionary.get? (location.fields ++ fields) name := by
    rw [get?, ofFields, Dictionary.get?_erase_of_ne _ different, Dictionary.get?_ofFields]
  rw [Node.location, read "file" (by decide), read "line" (by decide),
    read "char" (by decide)]
  have line : Dictionary.get? (location.fields ++ fields) "line" =
      some (.ofPosition location.line) := rfl
  have column : Dictionary.get? (location.fields ++ fields) "char" =
      some (.ofPosition location.column) := rfl
  have file : Dictionary.get? (location.fields ++ fields) "file" =
      some (.ofText location.file) := rfl
  rw [line, column, file, positionNumber?_ofPosition, positionNumber?_ofPosition]
  rcases location with ⟨path, number, place⟩
  cases path <;> rfl

theorem ofJson?_toJson {node : Node} (plain : node.get? "type" = none) :
    ofJson? node.toJson = some node := by
  simp [ofJson?, toJson, Dictionary.erase_insert _ plain]

theorem nesting_toJson {node : Node} (plain : node.get? "type" = none) :
    node.nesting ≤ node.toJson.nesting :=
  Nat.succ_le_succ (Json.nestingFields_le_insert node.attributes "type" node.kind plain)

/-! ### Texts and flags -/

section

variable (name : String)

theorem optionalString_ofFields {text : Option String}
    (found : fieldOf? fields name = some (.ofText text)) :
    (ofFields kind location fields).optionalString name = .ok text := by
  rw [optionalString, get?_ofFields found]
  cases text <;> rfl

theorem string_ofFields {text : String}
    (found : fieldOf? fields name = some (.string text)) :
    (ofFields kind location fields).string name = .ok text := by
  rw [string, optionalString, get?_ofFields found]
  rfl

theorem scalar_ofFields {text : String}
    (found : fieldOf? fields name = some (.string text)) :
    (ofFields kind location fields).scalar name = .ok text := by
  rw [scalar, get?_ofFields found]

theorem flag_ofFields {value : Bool} (found : fieldOf? fields name = some (.bool value)) :
    (ofFields kind location fields).flag name = .ok value := by
  rw [flag, get?_ofFields found]

theorem optionalName_ofFields {text : Option String}
    (found : fieldOf? fields name = some (.ofText text)) :
    (ofFields kind location fields).optionalName name = .ok text := by
  rw [optionalName, get?_ofFields found]
  cases text <;> rfl

theorem name_ofFields {text : String}
    (found : fieldOf? fields name = some (.string text)) :
    (ofFields kind location fields).name name = .ok text := by
  rw [Node.name, optionalName, get?_ofFields found]
  rfl

theorem namesOf?_texts (texts : List String) :
    namesOf? (texts.map .string) = some texts := by
  induction texts with
  | nil => rfl
  | cons text rest induction => simp [namesOf?, induction]

theorem names_ofFields {texts : List String}
    (found : fieldOf? fields name = some (.ofTexts texts)) :
    (ofFields kind location fields).names name = .ok texts := by
  rw [names, get?_ofFields found, Json.ofTexts]
  simp only [namesOf?_texts, require]

theorem stringsOf?_texts (texts : List String) :
    stringsOf? (texts.map .string) = some texts := by
  induction texts with
  | nil => rfl
  | cons text rest induction => simp [stringsOf?, induction]

theorem strings_ofFields {texts : List String}
    (found : fieldOf? fields name = some (.ofTexts texts)) :
    (ofFields kind location fields).strings name = .ok texts := by
  rw [strings, get?_ofFields found, Json.ofTexts]
  simp only [stringsOf?_texts, require]

end

/-! ### Nodes inside nodes -/

/-- All fields are nested at most `depth` deep. -/
def Fits (depth : Nat) (fields : List (String × Json)) : Prop :=
  ∀ name json, fieldOf? fields name = some json → json.nesting ≤ depth

theorem fits_of_nesting_le {depth : Nat}
    (shallow : (ofFields kind location fields).nesting ≤ depth + 1) :
    Fits depth fields := by
  intro name json found
  have present : (ofFields kind location fields).get? name = some json :=
    get?_ofFields found
  exact Nat.le_trans (Json.nesting_le_of_get? present) (Nat.le_of_succ_le_succ shallow)

/-- Every decoder that is deep enough for a node reads it as a value. -/
structure Reads {α : Type} (read : Decoder → Node → Reading α) (node : Node) (value : α) :
    Prop where
  plain : node.get? "type" = none
  read : ∀ depth, node.nesting ≤ depth → read (decoder depth) node = .ok value

namespace Reads

variable {α : Type} {read : Decoder → Node → Reading α} {value : α}

theorem ofFields
    (reads : ∀ depth, Fits depth fields →
      read (decoder depth) (ofFields kind location fields) = .ok value) :
    (Node.ofFields kind location fields).Reads read value where
  plain := get?_type_ofFields
  read := fun depth deep => reads depth (fits_of_nesting_le (Nat.le_succ_of_le deep))

theorem ofExpression {expression : Expr} (reads : ∀ depth, Fits depth fields →
      (decoder depth).expressionWith (Node.ofFields kind location fields) =
        .ok expression) :
    (Node.ofFields kind location fields).Reads Decoder.expression expression where
  plain := get?_type_ofFields
  read := fun depth deep => by
    cases depth with
    | zero => cases deep
    | succ depth =>
        simp only [decoder]
        exact reads depth (fits_of_nesting_le deep)

theorem ofStatement {statement : Stmt} (reads : ∀ depth, Fits depth fields →
      (decoder depth).statementWith (Node.ofFields kind location fields) =
        .ok statement) :
    (Node.ofFields kind location fields).Reads Decoder.statement statement where
  plain := get?_type_ofFields
  read := fun depth deep => by
    cases depth with
    | zero => cases deep
    | succ depth =>
        simp only [decoder]
        exact reads depth (fits_of_nesting_le deep)

end Reads

/-- A record is read as a value by its place, which gives its kind. -/
def ReadsRecord {α : Type} (kind : String) (read : Decoder → Node → Reading α)
    (node : Node) (value : α) : Prop :=
  node.kind = kind ∧ node.Reads read value

theorem ofElements?_toJson {parts : List Node}
    (plain : ∀ part ∈ parts, part.get? "type" = none) :
    ofElements? (parts.map toJson) = some parts := by
  induction parts with
  | nil => rfl
  | cons part rest induction =>
      rw [List.forall_mem_cons] at plain
      simp [ofElements?, ofJson?_toJson plain.1, induction plain.2]

theorem recordsOf?_toRecord {kind : String} {parts : List Node}
    (plain : ∀ part ∈ parts, part.kind = kind ∧ part.get? "type" = none) :
    recordsOf? kind (parts.map toRecord) = some parts := by
  induction parts with
  | nil => rfl
  | cons part rest induction =>
      rw [List.forall_mem_cons] at plain
      rcases plain with ⟨⟨rfl, missing⟩, others⟩
      simp [recordsOf?, toRecord, Dictionary.erase_of_get?_eq_none missing,
        induction others]

section

variable {α : Type} {read : Decoder → Node → Reading α} {parts : List Node}
  {values : List α}

theorem plain_of_reads (reads : List.Forall₂ (Reads read) parts values) :
    ∀ part ∈ parts, part.get? "type" = none := by
  induction reads with
  | nil => simp
  | cons first _ induction => exact List.forall_mem_cons.mpr ⟨first.plain, induction⟩

theorem plain_of_readsRecord {kind : String}
    (reads : List.Forall₂ (ReadsRecord kind read) parts values) :
    ∀ part ∈ parts, part.kind = kind ∧ part.get? "type" = none := by
  induction reads with
  | nil => simp
  | cons first _ induction =>
      exact List.forall_mem_cons.mpr ⟨⟨first.1, first.2.plain⟩, induction⟩

theorem mapM_of_reads {depth : Nat} (reads : List.Forall₂ (Reads read) parts values)
    (shallow : ∀ part ∈ parts, part.nesting ≤ depth) :
    parts.mapM (read (decoder depth)) = .ok values := by
  induction reads with
  | nil => rfl
  | cons first _ induction =>
      rw [List.forall_mem_cons] at shallow
      rw [List.mapM_cons]
      apply Except.bind_ok (first.read depth shallow.1)
      exact Except.bind_ok (induction shallow.2) rfl

end

theorem children_ofFields (name : String) {parts : List Node}
    (found : fieldOf? fields name = some (.ofNodes parts))
    (plain : ∀ part ∈ parts, part.get? "type" = none) :
    (ofFields kind location fields).children name = .ok parts := by
  rw [children, get?_ofFields found, Json.ofNodes]
  simp only [ofElements?_toJson plain, require]

theorem records_ofFields (name : String) {part : String} {parts : List Node}
    (found : fieldOf? fields name = some (.ofRecords parts))
    (plain : ∀ node ∈ parts, node.kind = part ∧ node.get? "type" = none) :
    (ofFields kind location fields).records name part = .ok parts := by
  rw [records, get?_ofFields found, Json.ofRecords]
  simp only [recordsOf?_toRecord plain, require]

theorem record_ofFields (name : String) {part : Node}
    (found : fieldOf? fields name = some part.toRecord)
    (plain : part.get? "type" = none) :
    (ofFields kind location fields).record name part.kind = .ok (some part) := by
  rw [record, get?_ofFields found, toRecord]
  simp only [Dictionary.erase_of_get?_eq_none plain]

theorem has_ofFields (name : String) {json : Json}
    (found : fieldOf? fields name = some json) (present : json ≠ .null) :
    (ofFields kind location fields).has name = true := by
  rw [has, get?_ofFields found]
  cases json with
  | null => exact absurd rfl present
  | _ => rfl

theorem not_has_ofFields (name : String) (found : fieldOf? fields name = some .null) :
    (ofFields kind location fields).has name = false := by
  rw [has, get?_ofFields found]

theorem key_ofFields {key : String} (spelled : kindKey kind = key) :
    (ofFields kind location fields).key = key :=
  spelled

theorem optionalChild_ofFields (name : String) {part : Node}
    (found : fieldOf? fields name = some part.toJson) (plain : part.get? "type" = none) :
    (ofFields kind location fields).optionalChild name = .ok (some part) := by
  rw [optionalChild, get?_ofFields found]
  apply Except.bind_ok (by rw [ofJson?_toJson plain]; rfl)
  rfl

namespace Fits

variable {α : Type} {read : Decoder → Node → Reading α} {depth : Nat}
  (fits : Fits depth fields) (name : String)
include fits

theorem deep {part : Node} {value : α} (found : fieldOf? fields name = some part.toJson)
    (reads : part.Reads read value) : read (decoder depth) part = .ok value :=
  reads.read depth (Nat.le_trans (nesting_toJson reads.plain) (fits name _ found))

theorem child {part : Node} {expression : Expr}
    (found : fieldOf? fields name = some part.toJson)
    (reads : part.Reads Decoder.expression expression) :
    (decoder depth).child (ofFields kind location fields) name = .ok expression := by
  rw [Decoder.child, Node.child, optionalChild_ofFields name found reads.plain]
  exact fits.deep name found reads

theorem optionalChild {option : Option Expr}
    (found : fieldOf? fields name = some (jsonOfOptional option))
    (reads : ∀ expression ∈ option,
      expression.toNode.Reads Decoder.expression expression) :
    (decoder depth).optionalChild (ofFields kind location fields) name = .ok option := by
  rw [Decoder.optionalChild]
  cases option with
  | none =>
      rw [Node.optionalChild, get?_ofFields found, jsonOfOptional]
      rfl
  | some expression =>
      have inside := reads expression rfl
      rw [jsonOfOptional] at found
      apply Except.bind_ok (optionalChild_ofFields name found inside.plain)
      exact Except.bind_ok (fits.deep name found inside) rfl

variable {parts : List Node} {values : List α}

theorem eachNode (found : fieldOf? fields name = some (.ofNodes parts))
    (reads : List.Forall₂ (Reads read) parts values) :
    parts.mapM (read (decoder depth)) = .ok values := by
  apply mapM_of_reads reads
  intro part member
  have inside : part.toJson.nesting ≤ Json.nestingElements (parts.map toJson) :=
    Json.nesting_le_of_mem (List.mem_map_of_mem member)
  have outside : Json.nestingElements (parts.map toJson) ≤ depth := fits name _ found
  have plain := plain_of_reads reads part member
  exact Nat.le_trans (nesting_toJson plain) (Nat.le_trans inside outside)

theorem eachRecord {part : String}
    (found : fieldOf? fields name = some (.ofRecords parts))
    (reads : List.Forall₂ (ReadsRecord part read) parts values) :
    parts.mapM (read (decoder depth)) = .ok values := by
  apply mapM_of_reads (reads.imp fun _ _ both => both.2)
  intro part member
  have inside : part.toRecord.nesting ≤ Json.nestingElements (parts.map toRecord) :=
    Json.nesting_le_of_mem (List.mem_map_of_mem member)
  have outside : Json.nestingElements (parts.map toRecord) ≤ depth := fits name _ found
  exact Nat.le_trans inside outside

/-! ### Lists of parts -/

theorem expressions {expressions : List Expr}
    (found : fieldOf? fields name = some (.ofNodes parts))
    (reads : List.Forall₂ (Reads Decoder.expression) parts expressions) :
    (decoder depth).children (ofFields kind location fields) name = .ok expressions :=
  Except.bind_ok (children_ofFields name found (plain_of_reads reads))
    (fits.eachNode name found reads)

theorem block {statements : List Stmt}
    (found : fieldOf? fields name = some (.ofNodes parts))
    (reads : List.Forall₂ (Reads Decoder.statement) parts statements) :
    (decoder depth).block (ofFields kind location fields) name = .ok statements :=
  Except.bind_ok (children_ofFields name found (plain_of_reads reads))
    (fits.eachNode name found reads)

theorem optionalBlock {option : Option (List Stmt)}
    (found : fieldOf? fields name = some (jsonOfOptionalBlock option))
    (reads : ∀ statements ∈ option,
      List.Forall₂ (Reads Decoder.statement) (nodesOfBlock statements) statements) :
    (decoder depth).optionalBlock (ofFields kind location fields) name = .ok option := by
  rw [Decoder.optionalBlock]
  cases option with
  | none =>
      rw [not_has_ofFields name found]
      rfl
  | some statements =>
      rw [has_ofFields name found (fun impossible => nomatch impossible)]
      exact Except.bind_ok (fits.block name found (reads statements rfl)) rfl

theorem parameters {parameters : List Parameter}
    (found : fieldOf? fields name = some (.ofRecords parts))
    (reads : List.Forall₂ (ReadsRecord "parameter" Decoder.parameter) parts parameters) :
    (decoder depth).parameters (ofFields kind location fields) name = .ok parameters :=
  Except.bind_ok (records_ofFields name found (plain_of_readsRecord reads))
    (fits.eachRecord name found reads)

omit name in
theorem arguments {expressions : List Expr}
    (found : fieldOf? fields "parameters" = some (.ofRecords (parts.map Node.argument)))
    (reads : List.Forall₂ (Reads Decoder.expression) parts expressions) :
    (decoder depth).arguments (ofFields kind location fields) = .ok expressions := by
  have wrapped : List.Forall₂
      (ReadsRecord "argument" fun decoder node => decoder.child node "parameter")
      (parts.map Node.argument) expressions := by
    rw [List.forall₂_map_left_iff]
    exact reads.imp fun part expression inside =>
      ⟨rfl, .ofFields fun depth fits => fits.child "parameter" rfl inside⟩
  exact Except.bind_ok
    (records_ofFields "parameters" found (plain_of_readsRecord wrapped))
    (fits.eachRecord "parameters" found wrapped)

end Fits

end Node

end ZephirPhp
