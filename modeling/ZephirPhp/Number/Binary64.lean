/-! # Double-precision numbers

The finite numbers of IEEE 754's binary64 format as exact integers, with the rounding of
a fraction to the nearest of them. Products and quotients are rounded from their exact
values, so no hardware arithmetic is involved.
-/

namespace ZephirPhp

/-- The number `significand · 2 ^ exponent`, with its sign kept apart so that zero has
one too. -/
structure Binary64 where
  negative : Bool
  significand : Nat
  exponent : Int
deriving DecidableEq, Repr, Inhabited

namespace Binary64

def leastExponent : Int := -1074

def greatestExponent : Int := 971

def zero : Binary64 := ⟨false, 0, leastExponent⟩

def isZero (number : Binary64) : Bool := number.significand == 0

def neg (number : Binary64) : Binary64 := { number with negative := !number.negative }

def divideToEven (numerator denominator : Nat) : Nat :=
  let quotient := numerator / denominator
  let remainder := numerator % denominator
  if 2 * remainder < denominator then quotient
  else if denominator < 2 * remainder then quotient + 1
  else if quotient % 2 = 0 then quotient
  else quotient + 1

example : divideToEven 5 2 = 2 ∧ divideToEven 7 2 = 4 ∧ divideToEven 8 3 = 3 := by decide

def shifted (numerator denominator : Nat) (shift : Int) : Nat × Nat :=
  if 0 ≤ shift then (numerator * Nat.pow 2 shift.toNat, denominator)
  else (numerator, denominator * Nat.pow 2 (-shift).toNat)

def leadingExponent (numerator denominator : Nat) : Int :=
  let guess : Int := numerator.log2 - denominator.log2
  let (numerator, denominator) := shifted numerator denominator (-guess)
  if denominator ≤ numerator then guess else guess - 1

/-- The number nearest to a fraction, of two nearest ones the one with even significand.
`none` if the fraction is too large for a finite number. -/
def nearest? (numerator denominator : Nat) : Option Binary64 :=
  if numerator = 0 then some zero
  else
    let exponent := max (leadingExponent numerator denominator - 52) leastExponent
    let (numerator, denominator) := shifted numerator denominator (-exponent)
    let significand := divideToEven numerator denominator
    let (significand, exponent) :=
      if significand = Nat.pow 2 53 then (Nat.pow 2 52, exponent + 1)
      else (significand, exponent)
    if greatestExponent < exponent then none else some ⟨false, significand, exponent⟩

example : nearest? 1 1 = some ⟨false, 2 ^ 52, -52⟩ ∧
    nearest? 1 (2 ^ 1074) = some ⟨false, 1, -1074⟩ ∧
    nearest? 1 (2 ^ 1075) = some ⟨false, 0, -1074⟩ ∧ nearest? (2 ^ 1024) 1 = none := by
  decide +kernel

def fraction (number : Binary64) : Nat × Nat :=
  shifted number.significand 1 number.exponent

def mul? (left right : Binary64) : Option Binary64 :=
  let (leftNumerator, leftDenominator) := left.fraction
  let (rightNumerator, rightDenominator) := right.fraction
  nearest? (leftNumerator * rightNumerator) (leftDenominator * rightDenominator)

def div? (left right : Binary64) : Option Binary64 :=
  let (leftNumerator, leftDenominator) := left.fraction
  let (rightNumerator, rightDenominator) := right.fraction
  nearest? (leftNumerator * rightDenominator) (leftDenominator * rightNumerator)

/-! ## Decimal scaling

A decimal `digits · 10 ^ exponent` is read in two rounding steps: the digits first, then
the product or quotient with the nearest number to the power of ten. The powers go up to
`10 ^ 308`; smaller decimals are divided by that power as often as needed.
-/

def greatestPower : Nat := 308

def powerOfTen? (exponent : Nat) : Option Binary64 :=
  nearest? (Nat.pow 10 exponent) 1

/-- The number divided by `10 ^ exponent`. `steps` bounds the divisions by the greatest
power. -/
def scaleDown (steps : Nat) (number : Binary64) (exponent : Nat) : Option Binary64 :=
  match steps with
  | 0 => some zero
  | steps + 1 =>
    if exponent ≤ greatestPower then do
      number.div? (← powerOfTen? exponent)
    else if number.isZero then
      some zero
    else do
      scaleDown steps (← number.div? (← powerOfTen? greatestPower))
        (exponent - greatestPower)

def ofDecimal? (digits : Nat) (exponent : Int) : Option Binary64 := do
  let number ← nearest? digits 1
  if exponent < 0 then
    scaleDown ((-exponent).toNat / greatestPower + 1) number (-exponent).toNat
  else if exponent.toNat ≤ greatestPower then
    number.mul? (← powerOfTen? exponent.toNat)
  else if number.isZero then
    some zero
  else
    none

example : ofDecimal? 5 (-324) = some ⟨false, 1, -1074⟩ ∧ ofDecimal? 1 400 = none ∧
    ofDecimal? 0 400 = some zero ∧ ofDecimal? 1 (-400) = some zero := by decide +kernel

end Binary64

end ZephirPhp
