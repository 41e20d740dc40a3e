/-! # Bounded natural numbers in decimal -/

namespace ZephirPhp.Text

def digitsValue (value : Nat) : List Char → Option Nat
  | [] => some value
  | character :: rest =>
    if '0' ≤ character ∧ character ≤ '9' then
      digitsValue (value * 10 + (character.toNat - '0'.toNat)) rest
    else
      none

/-- The number that a text spells: an optional plus sign, then at least one ASCII digit,
with a value of at most `limit`. -/
def natural? (limit : Nat) (text : String) : Option Nat := do
  let digits := match text.toList with
    | '+' :: rest => rest
    | characters => characters
  guard (digits ≠ [])
  let value ← digitsValue 0 digits
  guard (value ≤ limit)
  return value

def limit32 : Nat := Nat.pow 2 32 - 1

def limit64 : Nat := Nat.pow 2 64 - 1

example : natural? limit32 "+007" = some 7 ∧ natural? limit32 "+" = none ∧
    natural? limit32 "1_0" = none ∧
    natural? limit32 "4294967295" = some 4294967295 ∧
    natural? limit32 "4294967296" = none := by decide

end ZephirPhp.Text
