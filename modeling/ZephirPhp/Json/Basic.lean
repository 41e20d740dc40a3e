import ZephirPhp.Dictionary
import ZephirPhp.Number.Shortest

/-! # JSON values -/

namespace ZephirPhp

/-- A number as the reader keeps it: an integer from `-2 ^ 63` to `2 ^ 64 - 1`, or a
double-precision number. -/
inductive Number where
  | integer (value : Int)
  | real (value : Binary64)
deriving DecidableEq, Repr

namespace Number

def text : Number → String
  | .integer value =>
    if value < 0 then "-" ++ Nat.repr value.natAbs else Nat.repr value.natAbs
  | .real value => value.text

def natural? : Number → Option Nat
  | .integer value => if 0 ≤ value then some value.toNat else none
  | .real _ => none

def isNonzeroWord : Number → Bool
  | .integer value => value ≠ 0 ∧ value < Nat.pow 2 63
  | .real _ => false

end Number

/-- A JSON value. The fields of an object have distinct names, in ascending order when
they come from the reader. -/
inductive Json where
  | null
  | bool (value : Bool)
  | number (value : Number)
  | string (value : String)
  | array (elements : List Json)
  | object (fields : List (String × Json))

namespace Json

/-! The nesting of a value counts the objects on the longest way to the inside. -/

mutual

def nesting : Json → Nat
  | .array elements => nestingElements elements
  | .object fields => nestingFields fields + 1
  | _ => 0

def nestingElements : List Json → Nat
  | [] => 0
  | element :: rest => max element.nesting (nestingElements rest)

def nestingFields : List (String × Json) → Nat
  | [] => 0
  | (_, value) :: rest => max value.nesting (nestingFields rest)

end

end Json

end ZephirPhp
