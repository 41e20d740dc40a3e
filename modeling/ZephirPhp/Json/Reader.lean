import ZephirPhp.Json.Basic
import ZephirPhp.Text.Decimal

/-! # Reading JSON

A strict reader of JSON text: no comments, no trailing commas, no control characters in
strings, no lone surrogate escapes, nothing after the value but blanks. Of repeated
field names the last one counts. Arrays and objects may be nested up to a given depth.

The readers take characters from the front of a list and return what they read with the
characters that remain.
-/

namespace ZephirPhp.Json

def depthLimit : Nat := 127

def isSpace (character : Char) : Bool :=
  character == ' ' || character == '\n' || character == '\r' || character == '\t'

def skipSpace (characters : List Char) : List Char :=
  characters.dropWhile isSpace

/-! ## Strings -/

/-- The characters up to the closing quote, escapes untouched, and those after it. -/
def scanString : List Char → Option (List Char × List Char)
  | [] => none
  | '"' :: rest => some ([], rest)
  | '\\' :: escaped :: rest => do
    let (raw, rest) ← scanString rest
    return ('\\' :: escaped :: raw, rest)
  | character :: rest =>
    if character.toNat < 0x20 then none
    else do
      let (raw, rest) ← scanString rest
      return (character :: raw, rest)

/-- What an escape sequence still needs: its letter, hexadecimal digits of a code unit,
or the second half of a surrogate pair whose first half is `high`. -/
inductive Escape where
  | none
  | letter
  | unit (high : Option Nat) (count value : Nat)
  | backslash (high : Nat)
  | secondUnit (high : Nat)

def hexDigit? (character : Char) : Option Nat :=
  if '0' ≤ character ∧ character ≤ '9' then some (character.toNat - '0'.toNat)
  else if 'a' ≤ character ∧ character ≤ 'f' then some (character.toNat - 'a'.toNat + 10)
  else if 'A' ≤ character ∧ character ≤ 'F' then some (character.toNat - 'A'.toNat + 10)
  else none

def letterEscapes : List (Char × Char) :=
  [('"', '"'), ('\\', '\\'), ('/', '/'), ('b', '\x08'), ('f', '\x0c'), ('n', '\n'),
    ('r', '\r'), ('t', '\t')]

def isHighSurrogate (unit : Nat) : Bool := 0xD800 ≤ unit && unit ≤ 0xDBFF

def isLowSurrogate (unit : Nat) : Bool := 0xDC00 ≤ unit && unit ≤ 0xDFFF

def ofSurrogates (high low : Nat) : Char :=
  Char.ofNat (0x10000 + (high - 0xD800) * 0x400 + (low - 0xDC00))

def unescape : Escape → List Char → Option (List Char)
  | .none, [] => some []
  | _, [] => none
  | .none, '\\' :: rest => unescape .letter rest
  | .none, character :: rest => (unescape .none rest).map (character :: ·)
  | .letter, 'u' :: rest => unescape (.unit none 0 0) rest
  | .letter, letter :: rest => do
    let character ← letterEscapes.lookup letter
    return character :: (← unescape .none rest)
  | .unit high count value, digit :: rest => do
    let unit := value * 16 + (← hexDigit? digit)
    if count < 3 then
      unescape (.unit high (count + 1) unit) rest
    else
      match high with
      | some high =>
        guard (isLowSurrogate unit)
        return ofSurrogates high unit :: (← unescape .none rest)
      | none =>
        if isHighSurrogate unit then
          unescape (.backslash unit) rest
        else
          guard (!isLowSurrogate unit)
          return Char.ofNat unit :: (← unescape .none rest)
  | .backslash high, '\\' :: rest => unescape (.secondUnit high) rest
  | .secondUnit high, 'u' :: rest => unescape (.unit (some high) 0 0) rest
  | .backslash _, _ :: _ => none
  | .secondUnit _, _ :: _ => none

def readString (characters : List Char) : Option (String × List Char) := do
  let (raw, rest) ← scanString characters
  return (String.ofList (← unescape .none raw), rest)

example : readString "a\\n\\ud83d\\ude00\" rest".toList =
    some ("a\n😀", " rest".toList) := by decide

example : readString "\\ud83d\"".toList = none := by decide

/-! ## Numbers

A number keeps as many digits as fit 64 bits. Further digits before the point only count
towards the exponent, and further digits after it are dropped.
-/

def digitValue (character : Char) : Nat := character.toNat - '0'.toNat

def wholeDigits (value : Nat) : List Char → Nat × Nat
  | [] => (value, 0)
  | digit :: rest =>
    let next := value * 10 + digitValue digit
    if next ≤ Text.limit64 then wholeDigits next rest else (value, rest.length + 1)

def partDigits (value : Nat) : List Char → Nat × Nat
  | [] => (value, 0)
  | digit :: rest =>
    let next := value * 10 + digitValue digit
    if next ≤ Text.limit64 then
      let (value, count) := partDigits next rest
      (value, count + 1)
    else
      (value, 0)

def readDigits (characters : List Char) : Option (List Char × List Char) := do
  let digits := characters.takeWhile Char.isDigit
  guard (!digits.isEmpty)
  return (digits, characters.dropWhile Char.isDigit)

def readPart : List Char → Option (Option (List Char) × List Char)
  | '.' :: rest => do
    let (digits, rest) ← readDigits rest
    return (some digits, rest)
  | characters => some (none, characters)

def readExponent : List Char → Option (Option Int × List Char)
  | mark :: rest => do
    if mark == 'e' || mark == 'E' then
      let (sign, rest) : Int × List Char := match rest with
        | '+' :: rest => (1, rest)
        | '-' :: rest => (-1, rest)
        | characters => (1, characters)
      let (digits, rest) ← readDigits rest
      return (some (sign *
        digits.foldl (fun value digit => value * 10 + digitValue digit) 0), rest)
    else
      return (none, mark :: rest)
  | [] => some (none, [])

/-- The number with the given parts. Negative zero and integers beyond 64 bits are real
numbers. -/
def ofParts? (negative : Bool) (whole : List Char) (part : Option (List Char))
    (exponent : Option Int) :
    Option Number := do
  let (value, excess) := wholeDigits 0 whole
  let sign (number : Binary64) : Number := .real (if negative then number.neg else number)
  match part, exponent, excess with
  | none, none, 0 =>
    if !negative then return .integer value
    else if value ≠ 0 ∧ value ≤ Nat.pow 2 63 then return .integer (-value)
    else return sign (← Binary64.ofDecimal? value 0)
  | part, exponent, excess =>
    let (value, places) := partDigits value (part.getD [])
    return sign (← Binary64.ofDecimal? value (excess - places + exponent.getD 0))

def readNumber (characters : List Char) : Option (Number × List Char) := do
  let (negative, characters) := match characters with
    | '-' :: rest => (true, rest)
    | characters => (false, characters)
  let (whole, rest) ← readDigits characters
  guard (whole.length = 1 ∨ whole.head? ≠ some '0')
  let (part, rest) ← readPart rest
  let (exponent, rest) ← readExponent rest
  return (← ofParts? negative whole part exponent, rest)

example : (readNumber "-12,".toList).map (·.1.text) = some "-12" ∧
    (readNumber "-0".toList).map (·.1.text) = some "-0.0" ∧
    (readNumber "18446744073709551616".toList).map (·.1.text) =
      some "1.8446744073709552e+19" ∧
    (readNumber "01".toList).isNone ∧ (readNumber "1.".toList).isNone := by decide +kernel

/-! ## Values

Every value takes at least one character and every further element a comma, so twice the
number of characters bounds the calls.
-/

mutual

/-- A value. `depth` bounds the arrays and objects around each other, `fuel` the calls. -/
def readValue (fuel depth : Nat) (characters : List Char) : Option (Json × List Char) :=
  match fuel with
  | 0 => none
  | fuel + 1 =>
    match skipSpace characters with
    | 'n' :: 'u' :: 'l' :: 'l' :: rest => some (.null, rest)
    | 't' :: 'r' :: 'u' :: 'e' :: rest => some (.bool true, rest)
    | 'f' :: 'a' :: 'l' :: 's' :: 'e' :: rest => some (.bool false, rest)
    | '"' :: rest => do
      let (text, rest) ← readString rest
      return (.string text, rest)
    | '[' :: rest =>
      match depth with
      | 0 => none
      | depth + 1 =>
        match skipSpace rest with
        | ']' :: rest => some (.array [], rest)
        | rest => do
          let (elements, rest) ← readElements fuel depth rest
          return (.array elements, rest)
    | '{' :: rest =>
      match depth with
      | 0 => none
      | depth + 1 =>
        match skipSpace rest with
        | '}' :: rest => some (.object [], rest)
        | rest => do
          let (fields, rest) ← readFields fuel depth rest
          return (.object (Dictionary.ofEntries fields), rest)
    | characters => do
      let (value, rest) ← readNumber characters
      return (.number value, rest)

def readElements (fuel depth : Nat) (characters : List Char) :
    Option (List Json × List Char) :=
  match fuel with
  | 0 => none
  | fuel + 1 => do
    let (element, rest) ← readValue fuel depth characters
    match skipSpace rest with
    | ',' :: rest =>
      let (elements, rest) ← readElements fuel depth rest
      return (element :: elements, rest)
    | ']' :: rest => return ([element], rest)
    | _ => none

def readFields (fuel depth : Nat) (characters : List Char) :
    Option (List (String × Json) × List Char) :=
  match fuel with
  | 0 => none
  | fuel + 1 => do
    let (name, rest) ← match skipSpace characters with
      | '"' :: rest => readString rest
      | _ => none
    let (value, rest) ← match skipSpace rest with
      | ':' :: rest => readValue fuel depth rest
      | _ => none
    match skipSpace rest with
    | ',' :: rest =>
      let (fields, rest) ← readFields fuel depth rest
      return ((name, value) :: fields, rest)
    | '}' :: rest => return ([(name, value)], rest)
    | _ => none

end

def parse? (depth : Nat) (text : String) : Option Json := do
  let characters := text.toList
  let (value, rest) ← readValue (2 * characters.length + 2) depth characters
  guard (skipSpace rest).isEmpty
  return value

end ZephirPhp.Json
