import ZephirPhp.Number.Binary64

/-! # Shortest decimal text

The text of a double-precision number: the fewest decimal digits that read back as the
number, and of several such decimals the nearest. The digits are found by trying one
digit, two digits and so on; seventeen always suffice.
-/

namespace ZephirPhp.Binary64

structure Decimal where
  digits : Nat
  scale : Int
deriving DecidableEq, Repr

/-- The fractions that are nearer to a number than to its neighbours, as numerators over
one denominator. The ends belong to the range when the significand is even. -/
structure RoundingRange where
  lower : Nat
  value : Nat
  upper : Nat
  denominator : Nat
  closed : Bool

/-- The rounding range of a positive number. Below a power of two the neighbours lie
twice as close. -/
def roundingRange (number : Binary64) : RoundingRange :=
  let quarter :=
    if number.significand = Nat.pow 2 52 ∧ leastExponent < number.exponent then 1 else 2
  let scaled (multiple : Nat) : Nat × Nat := shifted multiple 1 (number.exponent - 2)
  { lower := (scaled (4 * number.significand - quarter)).1
    value := (scaled (4 * number.significand)).1
    upper := (scaled (4 * number.significand + 2)).1
    denominator := (scaled 1).2
    closed := number.significand % 2 = 0 }

def RoundingRange.contains (range : RoundingRange)
    (multiple numerator denominator : Nat) : Bool :=
  let candidate := multiple * numerator * range.denominator
  let lower := range.lower * denominator
  let upper := range.upper * denominator
  if range.closed then lower ≤ candidate && candidate ≤ upper
  else lower < candidate && candidate < upper

def powerOfTen (scale : Int) : Nat × Nat :=
  if 0 ≤ scale then (Nat.pow 10 scale.toNat, 1) else (1, Nat.pow 10 (-scale).toNat)

/-- The multiple of `10 ^ scale` in the range that is nearest to the value, of two
nearest the even one. Only the two multiples around the value need to be tried. -/
def RoundingRange.onGrid? (range : RoundingRange) (scale : Int) : Option Nat :=
  let (numerator, denominator) := powerOfTen scale
  let dividend := range.value * denominator
  let divisor := range.denominator * numerator
  let below := dividend / divisor
  let remainder := dividend % divisor
  let lowFits := range.contains below numerator denominator
  let highFits := range.contains (below + 1) numerator denominator
  if lowFits && highFits then
    if 2 * remainder < divisor then some below
    else if divisor < 2 * remainder then some (below + 1)
    else if below % 2 = 0 then some below
    else some (below + 1)
  else if lowFits then some below
  else if highFits then some (below + 1)
  else none

def decimalExponent (numerator denominator : Nat) (guess : Int) : Int :=
  let reaches (exponent : Int) : Bool :=
    let (powerNumerator, powerDenominator) := powerOfTen exponent
    powerNumerator * denominator ≤ numerator * powerDenominator
  if reaches (guess + 1) then guess + 1
  else if reaches guess then guess
  else guess - 1

def RoundingRange.firstDecimal (range : RoundingRange) (leading : Int) (count : Nat) :
    Nat → Decimal
  | 0 => ⟨0, 0⟩
  | tries + 1 =>
    let scale := leading + 1 - count
    match range.onGrid? scale with
    | some digits => ⟨digits, scale⟩
    | none => range.firstDecimal leading (count + 1) tries

def shortest (number : Binary64) : Decimal :=
  let range := number.roundingRange
  -- The binary exponent of the value times log₁₀ 2, from below, misses the decimal
  -- exponent by at most one.
  let binary : Int := (number.significand.log2 : Int) + number.exponent
  let leading := decimalExponent range.value range.denominator (binary * 30103 / 100000)
  range.firstDecimal leading 1 17

structure TextFormat where
  leastPositional : Int
  greatestPositional : Int

/-- Positional from `0.00001` up to sixteen places before the point, exponents with a
sign outside. -/
def standardFormat : TextFormat := ⟨-5, 15⟩

def Decimal.leadingDigits (decimal : Decimal) : List Char × Int :=
  let digits := Nat.toDigits 10 decimal.digits
  let significant := (digits.reverse.dropWhile (· == '0')).reverse
  (significant, decimal.scale + digits.length - 1)

def positional (digits : List Char) (exponent : Int) : List Char :=
  if exponent < 0 then
    '0' :: '.' :: (List.replicate ((-exponent).toNat - 1) '0' ++ digits)
  else
    let places := exponent.toNat + 1
    let whole := digits.take places
    let part := digits.drop places
    whole ++ List.replicate (places - whole.length) '0' ++
      '.' :: (if part.isEmpty then ['0'] else part)

def scientific (digits : List Char) (exponent : Int) : List Char :=
  let part := digits.drop 1
  let sign := if exponent < 0 then '-' else '+'
  digits.take 1 ++ (if part.isEmpty then [] else '.' :: part) ++
    'e' :: sign :: Nat.toDigits 10 exponent.natAbs

def text (number : Binary64) : String :=
  let (digits, exponent) :=
    if number.isZero then (['0'], 0) else number.shortest.leadingDigits
  let magnitude :=
    if standardFormat.leastPositional ≤ exponent ∧
        exponent ≤ standardFormat.greatestPositional then
      positional digits exponent
    else
      scientific digits exponent
  String.ofList (if number.negative then '-' :: magnitude else magnitude)

example : ((ofDecimal? 1 (-7)).map text) = some "1e-7" ∧
    ((ofDecimal? 1 16).map text) = some "1e+16" ∧
    ((ofDecimal? 1 15).map text) = some "1000000000000000.0" ∧
    ((ofDecimal? 1 (-5)).map text) = some "0.00001" ∧
    ((ofDecimal? 314 (-2)).map text) = some "3.14" ∧
    ((ofDecimal? 5 (-324)).map text) = some "5e-324" ∧
    zero.neg.text = "-0.0" := by decide +kernel

end ZephirPhp.Binary64
