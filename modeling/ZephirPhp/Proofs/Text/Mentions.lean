import Mathlib.Data.List.Forall2
import Mathlib.Data.List.Sublists
import ZephirPhp.Proofs.Text.Tokens

/-! # Variables that a text refers to

A text refers to a variable if a dollar sign and the whole name of the variable stand in
it. A reference in a text that is put together from parts is a reference in one of the
parts, if no part goes on with a name where another one ends.
-/

namespace ZephirPhp.Text

/-- The text does not go on with a name. -/
def Breaks (text : List Char) : Prop :=
  ∀ next ∈ text.head?, isNameChar next = false

instance (text : List Char) : Decidable (Breaks text) :=
  inferInstanceAs (Decidable (∀ next ∈ text.head?, isNameChar next = false))

/-- The name of a variable. -/
structure Identifier where
  text : String
  named : isName text.toList = true

/-- A dollar sign, the name and the end of the name stand in the text. -/
def Refers (name : Identifier) (text : String) : Prop :=
  ∃ before after, text.toList = before ++ '$' :: (name.text.toList ++ after) ∧
    Breaks after

/-- A reference begins where some rest of the text begins. -/
theorem refers_iff_tails (name : Identifier) (text : String) :
    Refers name text ↔ ∃ rest ∈ text.toList.tails, rest.head? = some '$' ∧
      name.text.toList <+: rest.tail ∧
        Breaks (rest.tail.drop name.text.toList.length) := by
  simp only [List.mem_tails]
  constructor
  · rintro ⟨before, after, spelled, ends⟩
    refine ⟨'$' :: (name.text.toList ++ after), ⟨before, spelled.symm⟩, rfl,
      List.prefix_append _ _, ?_⟩
    rwa [List.tail_cons, List.drop_left]
  · rintro ⟨rest, ⟨before, spelled⟩, head, ⟨after, tail⟩, ends⟩
    rw [← tail, List.drop_left] at ends
    refine ⟨before, after, ?_, ends⟩
    rw [← spelled, tail, List.cons_head?_tail head]

instance (name : Identifier) (text : String) : Decidable (Refers name text) :=
  decidable_of_iff' _ (refers_iff_tails name text)

/-- Parts of a text between which no reference can arise or get lost. -/
def Parted (left right : String) : Prop :=
  '$' ∉ left.toList ∨ Breaks right.toList

section

variable {name : Identifier} {left right : String}

theorem isName_chars {name : List Char} (named : isName name = true) :
    ∀ character ∈ name, isNameChar character = true :=
  ((isName_iff name).mp named).2

theorem dollar_mem_of_refers {text : String} (refers : Refers name text) :
    '$' ∈ text.toList := by
  rcases refers with ⟨before, after, spelled, _⟩
  rw [spelled]
  exact List.mem_append_right before List.mem_cons_self

theorem Breaks.append {left right : List Char} (first : Breaks left)
    (second : Breaks right) :
    Breaks (left ++ right) := by
  cases left with
  | nil => exact second
  | cons next others => exact first

theorem Refers.append_left (refers : Refers name left) (parted : Parted left right) :
    Refers name (left ++ right) := by
  rcases parted with plain | breaks
  · exact absurd (dollar_mem_of_refers refers) plain
  · rcases refers with ⟨before, after, spelled, ends⟩
    refine ⟨before, after ++ right.toList, ?_, ends.append breaks⟩
    simp [spelled]

theorem Refers.append_right (left : String) (refers : Refers name right) :
    Refers name (left ++ right) := by
  rcases refers with ⟨before, after, spelled, ends⟩
  exact ⟨left.toList ++ before, after, by simp [spelled], ends⟩

/-- A name that begins in one part ends in it. -/
theorem split_name {name after left right : List Char} (named : isName name = true)
    (split : left ++ right = name ++ after) (ends : Breaks after)
    (breaks : Breaks right) :
    ∃ others, left = name ++ others ∧ Breaks others := by
  rcases List.append_eq_append_iff.mp split with
    ⟨others, rest, spelled⟩ | ⟨others, spelled, rest⟩
  · cases others with
    | nil => exact ⟨[], by simpa using rest.symm, fun _ impossible => by cases impossible⟩
    | cons next more =>
        have nameChar := isName_chars named next (by simp [rest])
        have other := breaks next (by simp [spelled])
        rw [nameChar] at other
        cases other
  · refine ⟨others, spelled, ?_⟩
    cases others with
    | nil => exact fun _ impossible => by cases impossible
    | cons next more => exact fun found head => ends found (by simpa [rest] using head)

theorem refers_append_iff (parted : Parted left right) :
    Refers name (left ++ right) ↔ Refers name left ∨ Refers name right := by
  constructor
  · rintro ⟨before, after, spelled, ends⟩
    rw [String.toList_append] at spelled
    rcases List.append_eq_append_iff.mp spelled with
      ⟨others, _, inRight⟩ | ⟨others, inLeft, reaching⟩
    · exact .inr ⟨others, after, inRight, ends⟩
    · cases others with
      | nil => exact .inr ⟨[], after, reaching.symm, ends⟩
      | cons first more =>
          rcases List.cons.inj reaching with ⟨rfl, split⟩
          rcases parted with plain | breaks
          · exact absurd (inLeft ▸ List.mem_append_right before List.mem_cons_self) plain
          · rcases split_name name.named split.symm ends breaks with ⟨rest, rfl, restEnds⟩
            exact .inl ⟨before, rest, inLeft, restEnds⟩
  · rintro (refers | refers)
    · exact refers.append_left parted
    · exact refers.append_right left

end

theorem dollar_not_mem_of_isName {name : List Char} (named : isName name = true) :
    '$' ∉ name := by
  intro member
  cases isName_chars named '$' member

/-- A variable is a reference to itself only. -/
theorem refers_variable_iff (name : Identifier) {other : String}
    (otherNamed : isName other.toList = true) :
    Refers name ("$" ++ other) ↔ other = name.text := by
  have spelled : ("$" ++ other).toList = '$' :: other.toList := by
    rw [String.toList_append]; rfl
  constructor
  · rintro ⟨before, after, split, ends⟩
    rw [spelled] at split
    cases before with
    | nil =>
        have rest : other.toList ++ [] = name.text.toList ++ after := by
          rw [List.append_nil]
          exact (List.cons.inj split).2
        rcases split_name name.named rest ends
          (fun _ impossible => by cases impossible) with
          ⟨others, whole, othersEnd⟩
        cases others with
        | nil => exact String.toList_injective (by rw [whole, List.append_nil])
        | cons next more =>
            have nameChar := isName_chars otherNamed next (by simp [whole])
            rw [othersEnd next rfl] at nameChar
            cases nameChar
    | cons first rest =>
        have within : '$' ∈ other.toList := by
          rw [(List.cons.inj split).2]
          exact List.mem_append_right rest List.mem_cons_self
        exact absurd within (dollar_not_mem_of_isName otherNamed)
  · rintro rfl
    exact ⟨[], [], by simp [spelled], fun _ impossible => by cases impossible⟩

/-! ## Texts and what they mention -/

/-- A part of a text that has a dollar sign: a variable, or a content in which PHP finds
variables itself. -/
inductive Mention where
  | named (name : String)
  | content (text : String)
deriving DecidableEq, Repr

def Mention.text : Mention → String
  | .named name => "$" ++ name
  | .content text => text

/-- A text refers to a variable if one of its mentions does. -/
def Mirrors (name : Identifier) (mentions : List Mention) (text : String) : Prop :=
  Refers name text ↔ ∃ mention ∈ mentions, Refers name mention.text

/-- A text without a dollar sign that ends the name before it. -/
def Separates (text : String) : Prop :=
  '$' ∉ text.toList ∧ ∃ next ∈ text.toList.head?, isNameChar next = false

instance (text : String) : Decidable (Separates text) :=
  inferInstanceAs (Decidable (_ ∧ ∃ next ∈ text.toList.head?, isNameChar next = false))

theorem Separates.breaks {text : String} (separates : Separates text) (rest : List Char) :
    Breaks (text.toList ++ rest) := by
  rcases separates.2 with ⟨next, head, noName⟩
  intro found foundHead
  rw [List.head?_append, Option.mem_def.mp head] at foundHead
  cases foundHead
  exact noName

theorem Separates.append {text more : String} (separates : Separates text)
    (plain : '$' ∉ more.toList) : Separates (text ++ more) := by
  rcases separates with ⟨noDollar, next, head, noName⟩
  rw [Separates, String.toList_append, List.mem_append, not_or, List.head?_append,
    Option.mem_def.mp head]
  exact ⟨⟨noDollar, plain⟩, next, rfl, noName⟩

namespace Mirrors

variable {name : Identifier} {mentions others : List Mention} {text other : String}

theorem plain (noDollar : '$' ∉ text.toList) : Mirrors name [] text := by
  constructor
  · exact fun refers => absurd (dollar_mem_of_refers refers) noDollar
  · rintro ⟨mention, impossible, _⟩
    cases impossible

theorem single (mention : Mention) : Mirrors name [mention] mention.text := by
  simp only [Mirrors, List.mem_singleton, exists_eq_left]

theorem append (left : Mirrors name mentions text) (right : Mirrors name others other)
    (parted : Parted text other) : Mirrors name (mentions ++ others) (text ++ other) := by
  rw [Mirrors] at left right
  rw [Mirrors, refers_append_iff parted, left, right]
  simp only [List.mem_append, or_and_right, exists_or]

theorem prepend (before : String) (noDollar : '$' ∉ before.toList)
    (mirrors : Mirrors name mentions text) : Mirrors name mentions (before ++ text) :=
  append (plain noDollar) mirrors (.inl noDollar)

theorem extend (mirrors : Mirrors name mentions text) {after : String}
    (separates : Separates after) : Mirrors name mentions (text ++ after) := by
  have parted : Parted text after := .inr (by simpa using separates.breaks [])
  simpa using append mirrors (plain separates.1) parted

theorem wrap {before after : String} (noDollar : '$' ∉ before.toList)
    (mirrors : Mirrors name mentions text) (separates : Separates after) :
    Mirrors name mentions (before ++ text ++ after) :=
  extend (prepend before noDollar mirrors) separates

theorem join (left : Mirrors name mentions text) {between : String}
    (separates : Separates between) (right : Mirrors name others other) :
    Mirrors name (mentions ++ others) (text ++ between ++ other) := by
  have parted : Parted text (between ++ other) :=
    .inr (by simpa using separates.breaks other.toList)
  rw [String.append_assoc]
  exact append left (prepend between separates.1 right) parted

theorem wrapPair {before between after : String} (noDollar : '$' ∉ before.toList)
    (left : Mirrors name mentions text) (inner : Separates between)
    (right : Mirrors name others other) (outer : Separates after) :
    Mirrors name (mentions ++ others) (before ++ text ++ between ++ other ++ after) :=
  extend (join (prepend before noDollar left) inner right) outer

theorem wrapWith {before between shown after : String} (noDollar : '$' ∉ before.toList)
    (mirrors : Mirrors name mentions text) (inner : Separates between)
    (plainShown : '$' ∉ shown.toList) (outer : Separates after) :
    Mirrors name mentions (before ++ text ++ between ++ shown ++ after) := by
  simpa using wrapPair noDollar mirrors inner (plain plainShown) outer

theorem intercalate {separator : String} (separates : Separates separator)
    {all : List (List Mention)} {texts : List String}
    (each : List.Forall₂ (Mirrors name) all texts) :
    Mirrors name all.flatten (separator.intercalate texts) := by
  induction each with
  | nil => exact plain (by simp)
  | cons first rest induction =>
      cases rest with
      | nil => simpa using first
      | cons second more =>
          rw [String.intercalate_cons_cons, List.flatten_cons]
          exact join first separates induction

end Mirrors

end ZephirPhp.Text
