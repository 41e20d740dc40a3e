import Mathlib.Logic.Relation
import ZephirPhp.Proofs.Text.Indentation
import ZephirPhp.Proofs.Text.UpperCase

/-! # Keys of kinds

The key of a kind is a normal form. A text is its own key exactly if it has the form
`IsKey`, and every key has that form. How the words of a kind are separated does not
matter: the key of two kinds with a separator between them is the one key followed by
the other (`keyChars_append_separator`).
-/

namespace ZephirPhp

open Text

/-! ## The form of keys -/

/-- A text without separators that begins with a capital and does not end in a blank. It
may be empty. -/
structure IsKey (characters : List Char) : Prop where
  joined : ∀ character ∈ characters, isSeparator character = false
  begins : ∀ first ∈ characters.head?, IsCapital first
  ends : ∀ last ∈ characters.getLast?, isBlank last = false

namespace IsKey

theorem nil : IsKey [] :=
  ⟨by simp, by simp, by simp⟩

theorem append {left right : List Char} (leftKey : IsKey left) (rightKey : IsKey right) :
    IsKey (left ++ right) := by
  refine ⟨List.forall_mem_append.mpr ⟨leftKey.joined, rightKey.joined⟩, ?_, ?_⟩
  · intro first head
    rw [List.head?_append, Option.mem_def, Option.or_eq_some_iff] at head
    rcases head with head | ⟨_, head⟩
    · exact leftKey.begins first head
    · exact rightKey.begins first head
  · intro last final
    rw [List.getLast?_append, Option.mem_def, Option.or_eq_some_iff] at final
    rcases final with final | ⟨_, final⟩
    · exact rightKey.ends last final
    · exact leftKey.ends last final

theorem flatMap {α : Type} {part : α → List Char} {values : List α}
    (each : ∀ value ∈ values, IsKey (part value)) : IsKey (values.flatMap part) := by
  induction values with
  | nil => exact nil
  | cons value rest induction =>
      rw [List.forall_mem_cons] at each
      rw [List.flatMap_cons]
      exact each.1.append (induction each.2)

end IsKey

/-! ## Words -/

namespace Text

theorem EndsVisibly.isBlank_getLast? {characters : List Char}
    (visible : EndsVisibly characters) :
    ∀ last ∈ characters.getLast?, isBlank last = false := by
  rcases visible with ⟨earlier, last, rfl, visible⟩
  simpa using visible

theorem endsVisibly_of_getLast? {characters : List Char} (some : characters ≠ [])
    (ends : ∀ last ∈ characters.getLast?, isBlank last = false) :
    EndsVisibly characters := by
  rcases List.eq_nil_or_concat characters with rfl | ⟨earlier, last, rfl⟩
  · exact absurd rfl some
  · exact ⟨earlier, last, by simp, ends last (by simp)⟩

theorem trimChars_subset (characters : List Char) : trimChars characters ⊆ characters :=
  List.Subset.trans (trimEndChars_subset _) (List.dropWhile_subset isBlank)

theorem trimChars_cases (characters : List Char) :
    trimChars characters = [] ∨
      ∃ first rest, trimChars characters = first :: rest ∧ isBlank first = false ∧
        EndsVisibly (first :: rest) := by
  cases trimmed : trimChars characters with
  | nil => exact .inl rfl
  | cons first rest =>
      have ends : EndsVisibly (trimChars characters) :=
        (trimEndChars_visible _).resolve_left (by rw [← trimChars, trimmed]; simp)
      -- The order of the ends does not matter, and the start shows once it is last.
      have begins := List.head?_dropWhile_not isBlank (trimEndChars characters)
      rw [← trimStartChars, trimStartChars_trimEndChars, ← trimChars, trimmed] at begins
      exact .inr ⟨first, rest, rfl, begins, trimmed ▸ ends⟩

end Text

/-- A stretch without separators becomes a key of its own. -/
theorem isKey_capitalizeChars_trimChars {segment : List Char}
    (joined : ∀ character ∈ segment, isSeparator character = false) :
    IsKey (capitalizeChars (trimChars segment)) := by
  rcases trimChars_cases segment with nothing | ⟨first, rest, trimmed, visible, ends⟩
  · rw [nothing]
    exact .nil
  · have within : first :: rest ⊆ segment := trimmed ▸ trimChars_subset segment
    have capital (letter : Char) (member : letter ∈ upperChars first) :
        IsCapital letter :=
      isCapital_of_mem_upperChars visible (joined first (within (.head _))) member
    rw [trimmed, capitalizeChars]
    refine ⟨?_, ?_, ?_⟩
    · refine List.forall_mem_append.mpr
        ⟨fun letter member => (capital letter member).joined, ?_⟩
      exact fun character member => joined character (within (.tail _ member))
    · intro letter head
      rw [List.head?_append_of_ne_nil _ (upperChars_ne_nil first)] at head
      exact capital letter (List.mem_of_mem_head? head)
    · intro last final
      -- A segment of one character ends in the last letter of its upper case.
      rw [List.getLast?_append, Option.mem_def, Option.or_eq_some_iff] at final
      rcases final with final | ⟨_, final⟩
      · refine ends.isBlank_getLast? last ?_
        rw [List.getLast?_cons, final]
        rfl
      · exact (capital last (List.mem_of_getLast? final)).visible

/-! ## Segments -/

theorem joined_of_mem_splitOnP (characters : List Char) :
    ∀ segment ∈ characters.splitOnP isSeparator,
      ∀ character ∈ segment, isSeparator character = false := by
  induction characters with
  | nil => simp
  | cons character rest induction =>
      rw [List.splitOnP_cons_eq_if_modifyHead]
      split
      · rw [List.forall_mem_cons]
        exact ⟨by simp, induction⟩
      · rename_i joined
        rcases List.exists_cons_of_ne_nil (List.splitOnP_ne_nil isSeparator rest) with
          ⟨first, more, found⟩
        rw [found, List.forall_mem_cons] at induction
        rw [found, List.modifyHead_cons, List.forall_mem_cons, List.forall_mem_cons]
        exact ⟨⟨Bool.eq_false_iff.mpr joined, induction.1⟩, induction.2⟩

/-! ## Keys -/

theorem keyChars_append_separator (front : List Char) {mark : Char}
    (separates : isSeparator mark = true) (back : List Char) :
    keyChars (front ++ mark :: back) = keyChars front ++ keyChars back := by
  rw [keyChars, List.splitOnP_append_cons front back separates,
    List.flatMap_append, keyChars,
    keyChars]

theorem isKey_keyChars (kind : List Char) : IsKey (keyChars kind) :=
  .flatMap fun segment member =>
    isKey_capitalizeChars_trimChars (joined_of_mem_splitOnP kind segment member)

theorem IsKey.keyChars_eq {characters : List Char} (key : IsKey characters) :
    keyChars characters = characters := by
  rw [keyChars, List.splitOnP_eq_singleton key.joined, List.flatMap_singleton]
  cases characters with
  | nil => rfl
  | cons first rest =>
      have capital := key.begins first rfl
      have begun : trimStartChars (first :: rest) = first :: rest :=
        List.dropWhile_cons_of_neg (by simp [capital.visible])
      rw [trimChars, begun,
        trimEndChars_of_visible (endsVisibly_of_getLast? (by simp) key.ends),
        capitalizeChars, capital.final]
      rfl

theorem keyChars_eq_self_iff (kind : List Char) : keyChars kind = kind ↔ IsKey kind :=
  ⟨fun same => same ▸ isKey_keyChars kind, IsKey.keyChars_eq⟩

instance (characters : List Char) : Decidable (IsKey characters) :=
  decidable_of_iff _ (keyChars_eq_self_iff characters)

example : IsKey "ArrayAccess".toList ∧ IsKey "Array access".toList ∧
    ¬ IsKey "arrayAccess".toList ∧ ¬ IsKey "Array-Access".toList := by decide

/-- One change to how the words of a kind are separated: a separator in it gives way to
another or is doubled, or one is added at an end. -/
inductive Respaced : List Char → List Char → Prop
  | exchanged (front back : List Char) {mark other : Char}
      (separates : isSeparator mark = true)
      (otherSeparates : isSeparator other = true) :
      Respaced (front ++ mark :: back) (front ++ other :: back)
  | doubled (front back : List Char) {mark : Char} (separates : isSeparator mark = true) :
      Respaced (front ++ mark :: back) (front ++ mark :: mark :: back)
  | begun (kind : List Char) {mark : Char} (separates : isSeparator mark = true) :
      Respaced kind (mark :: kind)
  | ended (kind : List Char) {mark : Char} (separates : isSeparator mark = true) :
      Respaced kind (kind ++ [mark])

theorem Respaced.keyChars_eq {kind other : List Char} (respaced : Respaced kind other) :
    keyChars kind = keyChars other := by
  have first (back : List Char) {mark : Char} (separates : isSeparator mark = true) :
      keyChars (mark :: back) = keyChars back :=
    keyChars_append_separator [] separates back
  cases respaced with
  | exchanged front back separates otherSeparates =>
      rw [keyChars_append_separator front separates,
        keyChars_append_separator front otherSeparates]
  | doubled front back separates =>
      rw [keyChars_append_separator front separates,
        keyChars_append_separator front separates,
        first back separates]
  | begun _ separates => exact (first kind separates).symm
  | ended _ separates =>
      rw [keyChars_append_separator kind separates]
      exact (List.append_nil _).symm

theorem keyChars_eq_of_respaced {kind other : List Char}
    (respaced : Relation.EqvGen Respaced kind other) :
    keyChars kind = keyChars other := by
  induction respaced with
  | rel _ _ step => exact step.keyChars_eq
  | refl _ => rfl
  | symm _ _ _ same => exact same.symm
  | trans _ _ _ _ _ same next => exact same.trans next

/-- Keys are a normal form of kinds. A key is its own key; the texts that are their own
keys are those in the form of a key; and a kind keeps its key however its separators are
changed. -/
theorem kindKey_normal_form (kind : String) :
    kindKey (kindKey kind) = kindKey kind ∧
      (kindKey kind = kind ↔ IsKey kind.toList) ∧
      ∀ other : String, Relation.EqvGen Respaced kind.toList other.toList →
        kindKey other = kindKey kind := by
  refine ⟨?_, ?_, fun other respaced => ?_⟩
  · rw [kindKey, kindKey, String.toList_ofList, (isKey_keyChars kind.toList).keyChars_eq]
  · rw [← keyChars_eq_self_iff, kindKey, ← String.toList_inj, String.toList_ofList]
  · rw [kindKey, kindKey, keyChars_eq_of_respaced respaced]

/-- The words are `ŉ`, whose upper case begins with an apostrophe, `ß`, and `x` after a
blank. -/
theorem kindKey_normal_form_of_words :
    Relation.EqvGen Respaced "ŉ-ß_ x".toList "_ŉ_ß__ x-".toList ∧
      kindKey "ŉ-ß_ x" = "ʼNSSX" ∧ kindKey "_ŉ_ß__ x-" = "ʼNSSX" ∧
      kindKey "ʼNSSX" = "ʼNSSX" ∧ IsKey "ʼNSSX".toList := by
  have hyphen : isSeparator '-' = true := rfl
  have underscore : isSeparator '_' = true := rfl
  have exchanged : Respaced "ŉ-ß_ x".toList "ŉ_ß_ x".toList :=
    .exchanged ['ŉ'] ['ß', '_', ' ', 'x'] hyphen underscore
  have doubled : Respaced "ŉ_ß_ x".toList "ŉ_ß__ x".toList :=
    .doubled ['ŉ', '_', 'ß'] [' ', 'x'] underscore
  have begun : Respaced "ŉ_ß__ x".toList "_ŉ_ß__ x".toList := .begun _ underscore
  have ended : Respaced "_ŉ_ß__ x".toList "_ŉ_ß__ x-".toList := .ended _ hyphen
  have respaced : Relation.EqvGen Respaced "ŉ-ß_ x".toList "_ŉ_ß__ x-".toList :=
    ((Relation.EqvGen.rel _ _ exchanged).trans _ _ _ (.rel _ _ doubled)).trans _ _ _
      (.trans _ _ _ (.rel _ _ begun) (.rel _ _ ended))
  have key : kindKey "ŉ-ß_ x" = "ʼNSSX" := by decide
  rcases kindKey_normal_form "ŉ-ß_ x" with ⟨again, _, unchanged⟩
  rw [key] at again unchanged
  exact ⟨respaced, key, unchanged _ respaced, again, (kindKey_normal_form _).2.1.mp again⟩

end ZephirPhp
