import Mathlib.Data.List.Basic
import ZephirPhp.Kind

/-! # Letters of an upper case

An upper case is final: none of its letters has an upper case of its own. Neither is one
of them blank or a separator, unless the character itself is
(`isCapital_of_mem_upperChars`). Both are read off the tables, whose letters are
compared as sets of code points.
-/

namespace ZephirPhp.Text

/-! ## Sets of code points -/

/-- A set of code points as the bits of a number. Large sets are compared in one step this
way, where a search of one list for each code point of another takes too long. -/
def codeBits (codes : List Nat) : Nat :=
  codes.foldr (fun code rest => 1 <<< code ||| rest) 0

theorem testBit_codeBits (codes : List Nat) (code : Nat) :
    (codeBits codes).testBit code = decide (code ∈ codes) := by
  induction codes with
  | nil => simp [codeBits]
  | cons first rest induction =>
      have split : codeBits (first :: rest) = 1 <<< first ||| codeBits rest := rfl
      rw [split, Nat.testBit_or, Nat.one_shiftLeft, Nat.testBit_two_pow, induction]
      simp [eq_comm]

theorem disjoint_of_codeBits {left right : List Nat}
    (apart : codeBits left &&& codeBits right = 0) : left.Disjoint right := by
  intro code here there
  have both : (codeBits left &&& codeBits right).testBit code = true := by
    rw [Nat.testBit_and, testBit_codeBits, testBit_codeBits, decide_eq_true here,
      decide_eq_true there, Bool.and_true]
  rw [apart, Nat.zero_testBit] at both
  cases both

/-! ## Letters of the tables -/

namespace CaseRange

variable {range : CaseRange} {code : Nat}

def count (range : CaseRange) : Nat :=
  (range.last - range.first) / range.step + 1

def letters (range : CaseRange) : List Nat :=
  List.range' range.first range.count range.step

def upperLetters (range : CaseRange) : List Nat :=
  List.range' range.upper range.count range.step

theorem exists_of_contains (within : range.contains code = true) :
    ∃ index < range.count, code = range.first + range.step * index := by
  simp only [contains, Bool.and_eq_true, decide_eq_true_eq, beq_iff_eq] at within
  rcases within with ⟨⟨above, below⟩, multiple⟩
  refine ⟨(code - range.first) / range.step, ?_, ?_⟩
  · exact Nat.lt_succ_of_le
      (Nat.div_le_div_right (Nat.sub_le_sub_right below range.first))
  · have whole := Nat.div_add_mod (code - range.first) range.step
    omega

theorem mem_letters (within : range.contains code = true) : code ∈ range.letters :=
  List.mem_range'.mpr (exists_of_contains within)

theorem mem_upperLetters (within : range.contains code = true) :
    range.upper + (code - range.first) ∈ range.upperLetters := by
  rcases exists_of_contains within with ⟨index, inside, rfl⟩
  exact List.mem_range'.mpr ⟨index, inside, by rw [Nat.add_sub_cancel_left]⟩

end CaseRange

/-- The code points that the tables have an upper case for. -/
def smallCodes : List Nat :=
  upperExpansions.map (·.1) ++ upperRanges.flatMap CaseRange.letters

/-- The code points of the upper cases in the tables. -/
def capitalCodes : List Nat :=
  upperExpansions.flatMap (·.2) ++ upperRanges.flatMap CaseRange.upperLetters

def blankCodes : List Nat :=
  blankRanges.flatMap fun range => List.range' range.1 (range.2 + 1 - range.1)

def separatorCodes : List Nat :=
  ['-'.toNat, '_'.toNat]

theorem mem_blankCodes {character : Char} (blank : isBlank character = true) :
    character.toNat ∈ blankCodes := by
  rcases List.any_eq_true.mp blank with ⟨range, member, within⟩
  simp only [Bool.and_eq_true, decide_eq_true_eq] at within
  refine List.mem_flatMap.mpr ⟨range, member, List.mem_range'_1.mpr ?_⟩
  omega

theorem mem_separatorCodes {character : Char} (separates : isSeparator character = true) :
    character.toNat ∈ separatorCodes := by
  rw [isSeparator, Bool.or_eq_true, beq_iff_eq, beq_iff_eq] at separates
  rcases separates with rfl | rfl
  · exact .head _
  · exact .tail _ (.head _)

theorem capitalCodes_disjoint :
    capitalCodes.Disjoint (smallCodes ++ blankCodes ++ separatorCodes) :=
  disjoint_of_codeBits (by decide +kernel)

theorem isValidChar_of_mem_capitalCodes : ∀ code ∈ capitalCodes, code.isValidChar := by
  decide +kernel

/-! ## Upper cases -/

theorem upperCodes_of_not_mem {code : Nat} (capital : code ∉ smallCodes) :
    upperCodes code = [code] := by
  rw [smallCodes, List.mem_append, not_or] at capital
  have single : upperExpansions.lookup code = none := by
    refine List.lookup_eq_none_iff.mpr fun entry member => bne_iff_ne.mpr ?_
    rintro rfl
    exact capital.1 (List.mem_map_of_mem member)
  have unranged : upperRanges.find? (·.contains code) = none := by
    refine List.find?_eq_none.mpr fun range member within => ?_
    exact capital.2 (List.mem_flatMap.mpr ⟨range, member, CaseRange.mem_letters within⟩)
  simp only [upperCodes, single, unranged]

/-- All that an upper case can be. -/
theorem upperCodes_cases (code : Nat) :
    upperCodes code = [code] ∨ (∃ entry ∈ upperExpansions, upperCodes code = entry.2) ∨
      ∃ range ∈ upperRanges, range.contains code = true ∧
        upperCodes code = [range.upper + (code - range.first)] := by
  rw [upperCodes]
  split
  · next codes expanded =>
      rcases List.lookup_eq_some_iff.mp expanded with ⟨before, after, split, _⟩
      exact .inr (.inl ⟨(code, codes), by simp [split], rfl⟩)
  · split
    · next range found =>
        have within := List.find?_some found
        exact .inr (.inr ⟨range, List.mem_of_find?_eq_some found, within, rfl⟩)
    · exact .inl rfl

theorem upperCodes_eq_or_subset (code : Nat) :
    upperCodes code = [code] ∨ upperCodes code ⊆ capitalCodes := by
  rcases upperCodes_cases code with unchanged | ⟨entry, member, expanded⟩ |
    ⟨range, member, within, mapped⟩
  · exact .inl unchanged
  · rw [expanded]
    refine .inr fun letter inUpper => List.mem_append_left _ ?_
    exact List.mem_flatMap.mpr ⟨entry, member, inUpper⟩
  · rw [mapped]
    refine .inr (List.cons_subset.mpr ⟨List.mem_append_right _ ?_, List.nil_subset _⟩)
    exact List.mem_flatMap.mpr ⟨range, member, CaseRange.mem_upperLetters within⟩

theorem upperCodes_ne_nil (code : Nat) : upperCodes code ≠ [] := by
  have written : ∀ entry ∈ upperExpansions, entry.2 ≠ [] := by decide
  rcases upperCodes_cases code with
    unchanged | ⟨entry, member, expanded⟩ | ⟨range, _, _, mapped⟩
  · simp [unchanged]
  · exact expanded ▸ written entry member
  · simp [mapped]

theorem upperChars_ne_nil (character : Char) : upperChars character ≠ [] :=
  fun nothing => upperCodes_ne_nil _ (List.map_eq_nil_iff.mp nothing)

/-- A character that is its own upper case, and is neither blank nor a separator. -/
structure IsCapital (letter : Char) : Prop where
  final : upperChars letter = [letter]
  visible : isBlank letter = false
  joined : isSeparator letter = false

theorem isCapital_of_mem_capitalCodes {code : Nat} (member : code ∈ capitalCodes) :
    IsCapital (Char.ofNat code) := by
  have same : (Char.ofNat code).toNat = code :=
    congrArg Char.toNat (dif_pos (isValidChar_of_mem_capitalCodes code member))
  have apart : code ∉ smallCodes ++ blankCodes ++ separatorCodes :=
    capitalCodes_disjoint member
  rw [List.mem_append, List.mem_append, not_or, not_or] at apart
  rcases apart with ⟨⟨notSmall, notBlank⟩, notSeparator⟩
  refine ⟨?_, ?_, ?_⟩
  · rw [upperChars, same, upperCodes_of_not_mem notSmall]
    rfl
  · exact Bool.eq_false_iff.mpr fun blank => notBlank (same ▸ mem_blankCodes blank)
  · exact Bool.eq_false_iff.mpr fun separates =>
      notSeparator (same ▸ mem_separatorCodes separates)

/-- A character of a word has an upper case that is final and belongs to the word. -/
theorem isCapital_of_mem_upperChars {character letter : Char}
    (visible : isBlank character = false) (joined : isSeparator character = false)
    (member : letter ∈ upperChars character) :
    IsCapital letter := by
  rcases upperCodes_eq_or_subset character.toNat with unchanged | capital
  · have final : upperChars character = [character] := by
      rw [upperChars, unchanged, List.map_singleton, Char.ofNat_toNat]
    rw [final, List.mem_singleton] at member
    exact member ▸ ⟨final, visible, joined⟩
  · rcases List.mem_map.mp member with ⟨code, inUpper, rfl⟩
    exact isCapital_of_mem_capitalCodes (capital inUpper)

end ZephirPhp.Text
