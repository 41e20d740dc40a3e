import Mathlib.Data.Nat.Digits.Lemmas
import Mathlib.Data.Option.Basic
import ZephirPhp.Text.Decimal

/-! # Digits and numerals -/

namespace ZephirPhp.Text

/-- A text spells a number in decimal: there may be a plus sign and leading zeros, and the
number fits into 64 bits. -/
def Spells (text : String) (number : Nat) : Prop :=
  ∃ digits : List Nat, (∀ digit ∈ digits, digit < 10) ∧ digits ≠ [] ∧
    (text.toList = digits.map Nat.digitChar ∨
      text.toList = '+' :: digits.map Nat.digitChar) ∧
    number = Nat.ofDigits 10 digits.reverse ∧ number ≤ limit64

theorem digitChar_bounds {digit : Nat} (small : digit < 10) :
    '0' ≤ digit.digitChar ∧ digit.digitChar ≤ '9' ∧
      digit.digitChar.toNat - '0'.toNat = digit := by
  have each : ∀ digit : Fin 10, '0' ≤ digit.val.digitChar ∧ digit.val.digitChar ≤ '9' ∧
      digit.val.digitChar.toNat - '0'.toNat = digit.val := by
    decide
  exact each ⟨digit, small⟩

theorem exists_digitChar {character : Char} (low : '0' ≤ character)
    (high : character ≤ '9') :
    ∃ digit < 10, character = Nat.digitChar digit := by
  have lowNat : 48 ≤ character.toNat := low
  have highNat : character.toNat ≤ 57 := high
  have each : ∀ digit : Fin 10, Char.ofNat (48 + digit.val) = digit.val.digitChar := by
    decide
  have shifted : 48 + (character.toNat - 48) = character.toNat := by omega
  have found := each ⟨character.toNat - 48, by omega⟩
  rw [shifted, Char.ofNat_toNat] at found
  exact ⟨character.toNat - 48, by omega, found⟩

/-- What the ten digits have, every digit has. -/
theorem forall_isDigit {holds : Char → Bool}
    (each : ∀ digit : Fin 10, holds digit.val.digitChar = true) (character : Char)
    (digit : character.isDigit = true) : holds character = true := by
  have bounds : '0' ≤ character ∧ character ≤ '9' := by
    simpa [Char.isDigit, Char.le_def] using digit
  rcases exists_digitChar bounds.1 bounds.2 with ⟨value, small, rfl⟩
  exact each ⟨value, small⟩

theorem digitsValue_digitChars {digits : List Nat} (small : ∀ digit ∈ digits, digit < 10)
    (value : Nat) :
    digitsValue value (digits.map Nat.digitChar) =
      some (value * 10 ^ digits.length + Nat.ofDigits 10 digits.reverse) := by
  induction digits generalizing value with
  | nil => simp [digitsValue]
  | cons digit rest induction =>
      rcases digitChar_bounds (small digit List.mem_cons_self) with ⟨low, high, same⟩
      rw [List.map_cons, digitsValue, if_pos ⟨low, high⟩, same,
        induction fun other member => small other (List.mem_cons_of_mem digit member),
        List.reverse_cons, Nat.ofDigits_append, Nat.ofDigits_singleton,
        List.length_reverse,
        List.length_cons]
      congr 1
      ring

/-- Only digits have a value. -/
theorem exists_digits {characters : List Char} {start value : Nat}
    (valued : digitsValue start characters = some value) :
    ∃ digits : List Nat, (∀ digit ∈ digits, digit < 10) ∧
      characters = digits.map Nat.digitChar := by
  induction characters generalizing start with
  | nil => exact ⟨[], by simp, rfl⟩
  | cons character rest induction =>
      rw [digitsValue] at valued
      split at valued
      · rename_i isDigit
        rcases exists_digitChar isDigit.1 isDigit.2 with ⟨digit, small, rfl⟩
        rcases induction valued with ⟨digits, allSmall, rfl⟩
        exact ⟨digit :: digits, List.forall_mem_cons.mpr ⟨small, allSmall⟩, rfl⟩
      · cases valued

theorem digitsValue_eq_some_iff (characters : List Char) (value : Nat) :
    digitsValue 0 characters = some value ↔
      ∃ digits : List Nat, (∀ digit ∈ digits, digit < 10) ∧
        characters = digits.map Nat.digitChar ∧
          value = Nat.ofDigits 10 digits.reverse := by
  constructor
  · intro valued
    rcases exists_digits valued with ⟨digits, small, rfl⟩
    rw [digitsValue_digitChars small, Nat.zero_mul, Nat.zero_add,
      Option.some.injEq] at valued
    exact ⟨digits, small, rfl, valued.symm⟩
  · rintro ⟨digits, small, rfl, rfl⟩
    rw [digitsValue_digitChars small, Nat.zero_mul, Nat.zero_add]

theorem digitChar_ne_plus {digit : Nat} (small : digit < 10) : digit.digitChar ≠ '+' := by
  have each : ∀ digit : Fin 10, digit.val.digitChar ≠ '+' := by decide
  exact each ⟨digit, small⟩

/-- The characters of a numeral after its sign. -/
def unsigned : List Char → List Char
  | '+' :: rest => rest
  | characters => characters

theorem unsigned_eq_iff {digits : List Nat} (small : ∀ digit ∈ digits, digit < 10)
    (some : digits ≠ []) (characters : List Char) :
    unsigned characters = digits.map Nat.digitChar ↔
      characters = digits.map Nat.digitChar ∨
        characters = '+' :: digits.map Nat.digitChar := by
  rw [unsigned.eq_def]
  split
  · rename_i rest
    rw [List.cons.injEq]
    constructor
    · exact fun equal => .inr ⟨rfl, equal⟩
    · rintro (equal | equal)
      · cases digits with
        | nil => exact absurd rfl some
        | cons digit others =>
            rw [List.map_cons, List.cons.injEq] at equal
            exact absurd equal.1.symm (digitChar_ne_plus (small digit List.mem_cons_self))
      · exact equal.2
  · rename_i noSign
    constructor
    · exact .inl
    · rintro (equal | equal)
      · exact equal
      · exact absurd equal (noSign _)

theorem natural?_eq_some_iff (text : String) (number : Nat) :
    natural? limit64 text = some number ↔ Spells text number := by
  have stripped : natural? limit64 text = (do
      guard (unsigned text.toList ≠ [])
      let value ← digitsValue 0 (unsigned text.toList)
      guard (value ≤ limit64)
      return value) := rfl
  have opened : natural? limit64 text = some number ↔
      unsigned text.toList ≠ [] ∧ digitsValue 0 (unsigned text.toList) = some number ∧
        number ≤ limit64 := by
    rw [stripped]
    simp only [Option.bind_eq_bind, Option.bind_eq_some_iff, Option.guard_eq_some',
      Option.pure_def, Option.some.injEq, exists_and_left, exists_const]
    constructor
    · rintro ⟨nonempty, value, valued, fits, rfl⟩
      exact ⟨nonempty, valued, fits⟩
    · rintro ⟨nonempty, valued, fits⟩
      exact ⟨nonempty, number, valued, fits, rfl⟩
  rw [opened, digitsValue_eq_some_iff]
  constructor
  · rintro ⟨nonempty, ⟨digits, small, spelled, value⟩, fits⟩
    have some : digits ≠ [] := by
      rintro rfl
      exact nonempty spelled
    exact ⟨digits, small, some, (unsigned_eq_iff small some _).mp spelled, value, fits⟩
  · rintro ⟨digits, small, some, spelled, value, fits⟩
    have equal := (unsigned_eq_iff small some _).mpr spelled
    exact ⟨by simpa [equal] using some, ⟨digits, small, equal, value⟩, fits⟩

end ZephirPhp.Text
