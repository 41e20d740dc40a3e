import ZephirPhp.Proofs.Program.Fields

/-! # How deeply nodes are nested

What an accessor of a node gives is nested less deeply than the node. A text is read
down to a fixed depth only, and this bounds the nesting of the nodes that it spells.
-/

namespace ZephirPhp

/-! ## Nodes in nodes -/

namespace Json

theorem nestingFields_erase_le (name : String) (fields : List (String × Json)) :
    nestingFields (Dictionary.erase name fields) ≤ nestingFields fields := by
  induction fields with
  | nil => exact Nat.le_refl _
  | cons field rest induction =>
      rw [Dictionary.erase]
      split
      · exact Nat.le_trans induction (Nat.le_max_right _ _)
      · rw [nestingFields, nestingFields]
        omega

end Json

namespace Node

variable (node : Node) (name : String)

/-- Every node of a list is less deep than `node`. -/
abbrev Encloses (parts : List Node) : Prop :=
  ∀ part ∈ parts, part.nesting < node.nesting

theorem nesting_le_of_ofJson? {json : Json} {part : Node}
    (read : ofJson? json = some part) :
    part.nesting ≤ json.nesting := by
  cases json with
  | object fields =>
      rw [ofJson?] at read
      split at read
      · cases read
        exact Nat.succ_le_succ (Json.nestingFields_erase_le "type" fields)
      · cases read
  | _ => cases read

theorem nesting_le_of_ofElements? {elements : List Json} {parts : List Node}
    (read : ofElements? elements = some parts) :
    ∀ part ∈ parts, part.nesting ≤ Json.nestingElements elements := by
  induction elements generalizing parts with
  | nil =>
      cases read
      exact List.forall_mem_nil _
  | cons element rest induction =>
      simp only [ofElements?, Option.bind_eq_bind, Option.bind_eq_some_iff,
        Option.pure_def,
        Option.some.injEq] at read
      rcases read with ⟨first, readFirst, others, readOthers, rfl⟩
      rw [Json.nestingElements, List.forall_mem_cons]
      have firstBelow := nesting_le_of_ofJson? readFirst
      refine ⟨by omega, fun part member => ?_⟩
      have below := induction readOthers part member
      omega

theorem nesting_le_of_recordsOf? {kind : String} {elements : List Json}
    {parts : List Node} (read : recordsOf? kind elements = some parts) :
    ∀ part ∈ parts, part.nesting ≤ Json.nestingElements elements := by
  induction elements generalizing parts with
  | nil =>
      cases read
      exact List.forall_mem_nil _
  | cons element rest induction =>
      cases element with
      | object fields =>
          simp only [recordsOf?, Option.bind_eq_bind, Option.bind_eq_some_iff,
            Option.pure_def,
            Option.some.injEq] at read
          rcases read with ⟨others, readOthers, rfl⟩
          rw [Json.nestingElements, Json.nesting, List.forall_mem_cons, nesting]
          have erased := Json.nestingFields_erase_le "type" fields
          refine ⟨by dsimp only; omega, fun part member => ?_⟩
          have below := induction readOthers part member
          omega
      | _ => cases read

/-- What is found under a name is less deep than the node. -/
theorem nesting_lt_of_get? {json : Json} (found : node.get? name = some json) :
    json.nesting < node.nesting :=
  Nat.lt_succ_of_le (Json.nesting_le_of_get? found)

theorem require_ensures {α : Type} {property : α → Prop} {value : Option α}
    (holds : ∀ found, value = some found → property found) :
    Except.Ensures property (node.require name value) := by
  cases value with
  | none => exact .error _
  | some found => exact .ok (holds found rfl)

theorem optionalChild_encloses :
    Except.Ensures (fun found => node.Encloses found.toList)
      (node.optionalChild name) := by
  rw [optionalChild]
  split
  · exact .ok (List.forall_mem_nil _)
  · exact .ok (List.forall_mem_nil _)
  · rename_i found
    refine .bind (node.require_ensures name fun part read =>
      Nat.lt_of_le_of_lt (nesting_le_of_ofJson? read)
        (node.nesting_lt_of_get? name found))
      fun part below => .ok ?_
    simpa [Encloses] using below

theorem child_encloses :
    Except.Ensures (fun part => part.nesting < node.nesting) (node.child name) := by
  refine .bind (node.optionalChild_encloses name) fun found below => ?_
  refine node.require_ensures name ?_
  rintro part rfl
  exact below part (by simp)

theorem children_encloses : Except.Ensures node.Encloses (node.children name) := by
  rw [children]
  split
  · exact .ok (List.forall_mem_nil _)
  · exact .ok (List.forall_mem_nil _)
  · rename_i elements found
    refine node.require_ensures name fun parts read part member => ?_
    exact Nat.lt_of_le_of_lt (nesting_le_of_ofElements? read part member)
      (node.nesting_lt_of_get? name found)
  · exact .error _

theorem records_encloses (kind : String) :
    Except.Ensures node.Encloses (node.records name kind) := by
  rw [records]
  split
  · exact .ok (List.forall_mem_nil _)
  · exact .ok (List.forall_mem_nil _)
  · rename_i elements found
    refine node.require_ensures name fun parts read part member => ?_
    exact Nat.lt_of_le_of_lt (nesting_le_of_recordsOf? read part member)
      (node.nesting_lt_of_get? name found)
  · exact .error _

theorem record_encloses (kind : String) :
    Except.Ensures (fun found => node.Encloses found.toList) (node.record name kind) := by
  rw [record]
  split
  · exact .ok (List.forall_mem_nil _)
  · exact .ok (List.forall_mem_nil _)
  · rename_i fields found
    have below := node.nesting_lt_of_get? name found
    have erased := Json.nestingFields_erase_le "type" fields
    refine .ok ?_
    rw [Json.nesting] at below
    simp only [Encloses, Option.toList_some, List.forall_mem_singleton]
    exact Nat.lt_of_le_of_lt (Nat.succ_le_succ erased) below
  · exact .error _

end Node

/-! ## Reading texts -/

namespace Json

theorem nestingFields_insert_le (name : String) (value : Json)
    (fields : List (String × Json)) :
    nestingFields (Dictionary.insert name value fields) ≤
      max value.nesting (nestingFields fields) := by
  induction fields with
  | nil => simp [Dictionary.insert, nestingFields]
  | cons field rest induction =>
      rw [Dictionary.insert]
      split
      · simp only [nestingFields]
        omega
      · split
        · simp only [nestingFields]
          omega
        · simp only [nestingFields]
          omega

theorem nestingFields_ofEntries_le (entries : List (String × Json)) :
    nestingFields (Dictionary.ofEntries entries) ≤ nestingFields entries := by
  have inserted (fields : List (String × Json)) :
      nestingFields
          (entries.foldl (fun all entry =>
            Dictionary.insert entry.1 entry.2 all) fields) ≤
        max (nestingFields fields) (nestingFields entries) := by
    induction entries generalizing fields with
    | nil => exact Nat.le_max_left _ _
    | cons entry rest induction =>
        rw [List.foldl_cons, nestingFields]
        have later := induction (Dictionary.insert entry.1 entry.2 fields)
        have first := nestingFields_insert_le entry.1 entry.2 fields
        omega
  exact Nat.le_trans (inserted []) (Nat.max_le.mpr ⟨Nat.zero_le _, Nat.le_refl _⟩)

/-- Whatever is read from the front of some characters satisfies a property. -/
def Gives {α : Type} (property : α → Prop) (result : Option (α × List Char)) : Prop :=
  ∀ value rest, result = some (value, rest) → property value

namespace Gives

variable {α β : Type} {property : α → Prop} {conclusion : β → Prop}

theorem none : Gives property none := by
  intro value rest impossible
  cases impossible

theorem some {value : α} (holds : property value) (rest : List Char) :
    Gives property (some (value, rest)) := by
  intro found others same
  cases same
  exact holds

theorem bind {first : Option (α × List Char)}
    {next : α × List Char → Option (β × List Char)} (start : Gives property first)
    (continued : ∀ value rest, property value → Gives conclusion (next (value, rest))) :
    Gives conclusion (first >>= next) := by
  intro result others read
  rcases Option.bind_eq_some_iff.mp read with ⟨⟨value, rest⟩, found, later⟩
  exact continued value rest (start value rest found) result others later

/-- Of the first part nothing needs to be known. -/
theorem after {first : Option (α × List Char)}
    {next : α × List Char → Option (β × List Char)}
    (continued : ∀ value rest, Gives conclusion (next (value, rest))) :
    Gives conclusion (first >>= next) :=
  bind (fun _ _ _ => trivial : Gives (fun _ => True) first)
    fun value rest _ => continued value rest

end Gives

/-- A value that fits in `depth` levels of arrays and objects has few objects around each
other, and in an array one less. -/
structure Fits (depth : Nat) (json : Json) : Prop where
  nesting : json.nesting ≤ depth
  elements : ∀ elements, json = .array elements → nestingElements elements < depth

/-- With this fuel, no more levels are read than allowed. -/
structure ReadsWithin (fuel : Nat) : Prop where
  value : ∀ depth characters, Gives (Fits depth) (readValue fuel depth characters)
  elements : ∀ depth characters,
    Gives (fun elements => nestingElements elements ≤ depth)
      (readElements fuel depth characters)
  fields : ∀ depth characters,
    Gives (fun fields => nestingFields fields ≤ depth) (readFields fuel depth characters)

theorem Fits.ofScalar {json : Json} (depth : Nat) (flat : json.nesting = 0)
    (scalar : ∀ elements, json ≠ .array elements) : json.Fits depth where
  nesting := by omega
  elements := fun elements same => absurd same (scalar elements)

theorem Fits.array {depth : Nat} {elements : List Json}
    (inside : nestingElements elements ≤ depth) :
    (Json.array elements).Fits (depth + 1) where
  nesting := Nat.le_succ_of_le inside
  elements := by
    rintro _ ⟨⟩
    exact Nat.lt_succ_of_le inside

theorem Fits.object {depth : Nat} {fields : List (String × Json)}
    (inside : nestingFields fields ≤ depth) : (Json.object fields).Fits (depth + 1) where
  nesting := Nat.succ_le_succ inside
  elements := by
    rintro _ ⟨⟩

namespace ReadsWithin

variable {fuel : Nat} (within : ReadsWithin fuel) (depth : Nat) (characters : List Char)
include within

theorem readValue_succ : Gives (Fits depth) (readValue (fuel + 1) depth characters) := by
  rw [readValue]
  split
  iterate 3 exact .some (.ofScalar depth rfl (by simp)) _
  · exact .after fun text rest => .some (.ofScalar depth rfl (by simp)) rest
  · cases depth with
    | zero => exact .none
    | succ depth =>
        dsimp only
        split
        · exact .some (.array (Nat.zero_le depth)) _
        · exact .bind (within.elements depth _)
            fun elements rest inside => .some (.array inside) rest
  · cases depth with
    | zero => exact .none
    | succ depth =>
        dsimp only
        split
        · exact .some (.object (Nat.zero_le depth)) _
        · refine .bind (within.fields depth _) fun fields rest inside => .some ?_ rest
          exact .object (Nat.le_trans (nestingFields_ofEntries_le fields) inside)
  · exact .after fun number rest => .some (.ofScalar depth rfl (by simp)) rest

theorem readElements_succ :
    Gives (fun elements => nestingElements elements ≤ depth)
      (readElements (fuel + 1) depth characters) := by
  rw [readElements]
  refine .bind (within.value depth characters) fun element rest fits => ?_
  dsimp only
  split
  · refine .bind (within.elements depth _) fun elements others inside => .some ?_ others
    exact Nat.max_le.mpr ⟨fits.nesting, inside⟩
  · refine .some ?_ _
    exact Nat.max_le.mpr ⟨fits.nesting, Nat.zero_le depth⟩
  · exact .none

theorem readFields_succ :
    Gives (fun fields => nestingFields fields ≤ depth)
      (readFields (fuel + 1) depth characters) := by
  rw [readFields]
  split
  · refine .after fun name rest => ?_
    dsimp only
    split
    · refine .bind (within.value depth _) fun value others fits => ?_
      dsimp only
      split
      · refine .bind (within.fields depth _) fun fields remaining inside =>
          .some ?_ remaining
        exact Nat.max_le.mpr ⟨fits.nesting, inside⟩
      · refine .some ?_ _
        exact Nat.max_le.mpr ⟨fits.nesting, Nat.zero_le depth⟩
      · exact .none
    · exact .none
  · exact .none

end ReadsWithin

theorem readsWithin (fuel : Nat) : ReadsWithin fuel := by
  induction fuel with
  | zero =>
      exact ⟨fun depth characters => .none, fun depth characters => .none,
        fun depth characters => .none⟩
  | succ fuel within =>
      exact ⟨within.readValue_succ, within.readElements_succ, within.readFields_succ⟩

theorem parse?_fits {depth : Nat} {text : String} {json : Json}
    (read : parse? depth text = some json) : json.Fits depth := by
  rw [parse?] at read
  rcases Option.bind_eq_some_iff.mp read with ⟨⟨value, rest⟩, found, ended⟩
  rcases Option.bind_eq_some_iff.mp ended with ⟨_, _, ⟨⟩⟩
  exact (readsWithin _).value depth _ json rest found

end Json

namespace Node

/-- The nesting of the deepest of some nodes. -/
def deepest : List Node → Nat
  | [] => 0
  | node :: rest => max node.nesting (deepest rest)

theorem nesting_le_deepest {nodes : List Node} :
    ∀ node ∈ nodes, node.nesting ≤ deepest nodes := by
  induction nodes with
  | nil => exact List.forall_mem_nil _
  | cons first rest induction =>
      rw [deepest, List.forall_mem_cons]
      refine ⟨Nat.le_max_left _ _, fun node member => ?_⟩
      exact Nat.le_trans (induction node member) (Nat.le_max_right _ _)

theorem deepest_le {nodes : List Node} {depth : Nat}
    (below : ∀ node ∈ nodes, node.nesting ≤ depth) :
    deepest nodes ≤ depth := by
  induction nodes with
  | nil => exact Nat.zero_le depth
  | cons first rest induction =>
      rw [List.forall_mem_cons] at below
      exact Nat.max_le.mpr ⟨below.1, induction below.2⟩

/-- The array around the nodes of a text takes one level away from them. -/
theorem deepest_lt_of_ofText {path text : String} {nodes : List Node}
    (read : ofText path text = .ok nodes) : deepest nodes < Json.depthLimit := by
  rw [ofText] at read
  split at read
  · cases read
  · rename_i elements parsed
    split at read
    · rename_i found
      cases read
      have inside := (Json.parse?_fits parsed).elements elements rfl
      exact Nat.lt_of_le_of_lt (deepest_le (nesting_le_of_ofElements? found)) inside
    · cases read
  iterate 2 cases read

end Node

end ZephirPhp
