import ZephirPhp.Diagnostic
import ZephirPhp.Text.Blank
import ZephirPhp.Text.Decimal

/-! # Pseudo-methods of literals

Zephir has methods on strings and arrays, PHP has functions. Each pseudo-method stands
for a function, with the receiver at some place among the arguments.
-/

namespace ZephirPhp

/-! ## Orders of arguments

An order is written as slots between commas: `O` for the receiver, a number for the
argument at that place, counted from one, and `*` for all arguments that no number
names. Anything else is skipped.
-/

inductive Slot where
  | receiver
  | rest
  | argument (place : Nat)
deriving DecidableEq, Repr

namespace Slot

def ofText? (text : String) : Option Slot :=
  if text = "O" then some .receiver
  else if text = "*" then some .rest
  else
    match Text.natural? Text.limit64 text with
    | some (place + 1) => some (.argument place)
    | _ => none

def ofOrder (order : String) : List Slot :=
  (order.toList.splitOn ',').filterMap fun stretch =>
    ofText? (Text.trim (String.ofList stretch))

example : ofOrder "1, O,*,x,0" = [.argument 0, .receiver, .rest] := by decide

def named (slots : List Slot) : List Nat :=
  slots.filterMap fun
    | .argument place => some place
    | _ => none

variable {α : Type}

/-- The values at the places that are not named, from `place` on, and what remains. -/
def takeOthers (named : List Nat) (place : Nat) :
    List (Option α) → List α × List (Option α)
  | [] => ([], [])
  | value :: more =>
    let (taken, left) := takeOthers named (place + 1) more
    if named.contains place then (taken, value :: left)
    else (value.toList ++ taken, none :: left)

/-- The values in the order of the slots. A value that has been used is `none` from then
on. -/
def fill (named : List Nat) (slots : List Slot) (receiver : Option α)
    (arguments : List (Option α)) : List α :=
  match slots with
  | [] => []
  | .receiver :: more => receiver.toList ++ fill named more none arguments
  | .argument place :: more =>
    (arguments[place]?.getD none).toList ++
      fill named more receiver (arguments.set place none)
  | .rest :: more =>
    let (taken, left) := takeOthers named 0 arguments
    taken ++ fill named more receiver left

def arrange (slots : List Slot) (receiver : α) (arguments : List α) : List α :=
  fill (named slots) slots (some receiver) (arguments.map some)

example : arrange [.argument 0, .receiver, .rest] "O" ["a", "b"] = ["a", "O", "b"] := by
  decide

end Slot

/-! ## The tables -/

structure PseudoMethod where
  receiver : Receiver
  method : String
  function : String
  order : String
  /-- Whether the function changes its first argument. -/
  inPlace : Bool
deriving DecidableEq, Repr

namespace PseudoMethod

def ofString (method function : String) : PseudoMethod :=
  ⟨.string, method, function, "O,*", false⟩

def ofArray (method function order : String) : PseudoMethod :=
  ⟨.array, method, function, order, false⟩

def ofArrayInPlace (method function order : String) : PseudoMethod :=
  ⟨.array, method, function, order, true⟩

def stringMethods : List PseudoMethod :=
  [ofString "index" "strpos",
    ofString "trim" "trim",
    ofString "trimLeft" "ltrim",
    ofString "trimRight" "rtrim",
    ofString "length" "strlen",
    ofString "lower" "strtolower",
    ofString "upper" "strtoupper",
    ofString "lowerFirst" "lcfirst",
    ofString "upperFirst" "ucfirst",
    ofString "format" "sprintf",
    ofString "md5" "md5",
    ofString "sha1" "sha1",
    ofString "nl2br" "nl2br",
    ofString "parseCsv" "str_getcsv",
    ofString "parseJson" "json_decode",
    ofString "toJson" "json_encode",
    ofString "toutf8" "utf8_encode",
    ofString "repeat" "str_repeat",
    ofString "shuffle" "str_shuffle",
    ofString "split" "str_split",
    ofString "compare" "strcmp",
    ofString "compareLocale" "strcoll",
    ofString "rev" "strrev",
    ofString "htmlSpecialChars" "htmlspecialchars",
    ofString "camelize" "camelize",
    ofString "uncamelize" "uncamelize"]

def arrayMethods : List PseudoMethod :=
  [ofArray "join" "implode" "1,O",
    ofArray "reversed" "array_reverse" "O,*",
    ofArray "rev" "array_reverse" "O,*",
    ofArray "diff" "array_diff" "O,*",
    ofArray "flip" "array_flip" "O",
    ofArray "fill" "array_fill" "O,*",
    ofArrayInPlace "walk" "array_walk" "O,*",
    ofArray "haskey" "array_key_exists" "O,*",
    ofArray "keys" "array_keys" "O,*",
    ofArray "values" "array_values" "O",
    ofArray "split" "array_chunk" "O,*",
    ofArray "combine" "array_combine" "*",
    ofArray "intersect" "array_intersect" "O,*",
    ofArray "merge" "array_merge" "O,*",
    ofArray "mergerecursive" "array_merge_recursive" "O,*",
    ofArray "pad" "array_pad" "O,*",
    ofArrayInPlace "pop" "array_pop" "O",
    ofArrayInPlace "push" "array_push" "O,*",
    ofArray "rand" "array_rand" "O,*",
    ofArray "replace" "array_replace" "O,*",
    ofArray "map" "array_map" "1,O,*",
    ofArray "replacerecursive" "array_replace_recursive" "O,*",
    ofArrayInPlace "shift" "array_shift" "O",
    ofArray "slice" "array_slice" "O,*",
    ofArrayInPlace "splice" "array_splice" "O,*",
    ofArray "sum" "array_sum" "O",
    ofArray "unique" "array_unique" "O,*",
    ofArrayInPlace "prepend" "array_unshift" "O,*",
    ofArray "count" "count" "O,*",
    ofArray "current" "current" "O",
    ofArrayInPlace "each" "each" "O",
    ofArrayInPlace "end" "end" "O",
    ofArray "key" "key" "O",
    ofArrayInPlace "next" "next" "O",
    ofArrayInPlace "prev" "prev" "O",
    ofArrayInPlace "reset" "reset" "O",
    ofArrayInPlace "sort" "sort" "O,*",
    ofArrayInPlace "sortbykey" "ksort" "O,*",
    ofArrayInPlace "reversesort" "rsort" "O,*",
    ofArrayInPlace "reversesortbykey" "krsort" "O,*",
    ofArrayInPlace "shuffle" "shuffle" "O",
    ofArray "tojson" "json_encode" "O,*",
    ofArray "reduce" "array_reduce" "O,*"]

example : stringMethods.length = 26 ∧ arrayMethods.length = 43 := by decide

def methodsOf : Receiver → List PseudoMethod
  | .string => stringMethods
  | .array => arrayMethods

def sameName (left right : String) : Bool :=
  left.toList.map Char.toLower == right.toList.map Char.toLower

/-- The pseudo-method of a receiver with a name; as in PHP, names ignore the case of
ASCII letters. -/
def find? (receiver : Receiver) (name : String) : Option PseudoMethod :=
  (methodsOf receiver).find? fun pseudoMethod => sameName pseudoMethod.method name

def resolve (receiver : Receiver) (name : String) (location : Location) :
    Except Diagnostic PseudoMethod :=
  match find? receiver name with
  | some pseudoMethod => .ok pseudoMethod
  | none => .error (.unknownMethod name receiver location)

def arrange {α : Type} (pseudoMethod : PseudoMethod) (receiver : α)
    (arguments : List α) : List α :=
  Slot.arrange (Slot.ofOrder pseudoMethod.order) receiver arguments

end PseudoMethod

end ZephirPhp
