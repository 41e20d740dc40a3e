/-! # Blank characters and lines

Trimming and splitting of text. Blank characters are those with Unicode's `White_Space`
property, a larger set than the four of `Char.isWhitespace`. The working definitions are
on lists of characters; the functions on `String` wrap them.
-/

namespace ZephirPhp.Text

/-- The code points with the `White_Space` property, as closed ranges in ascending
order. -/
def blankRanges : List (Nat × Nat) :=
  [(0x09, 0x0D), (0x20, 0x20), (0x85, 0x85), (0xA0, 0xA0), (0x1680, 0x1680),
    (0x2000, 0x200A), (0x2028, 0x2029), (0x202F, 0x202F), (0x205F, 0x205F),
    (0x3000, 0x3000)]

def isBlank (character : Char) : Bool :=
  blankRanges.any fun range => range.1 ≤ character.toNat && character.toNat ≤ range.2

example : isBlank ' ' ∧ isBlank '\n' ∧ isBlank '\u00a0' ∧ ¬ isBlank '\u200b' := by decide

/-! ## Trimming -/

def trimStartChars (characters : List Char) : List Char :=
  characters.dropWhile isBlank

def trimEndChars (characters : List Char) : List Char :=
  (characters.reverse.dropWhile isBlank).reverse

def trimChars (characters : List Char) : List Char :=
  trimEndChars (trimStartChars characters)

def trim (text : String) : String :=
  String.ofList (trimChars text.toList)

def trimEnd (text : String) : String :=
  String.ofList (trimEndChars text.toList)

example : trim " \ta b\r\n" = "a b" := by decide

example : trimEnd " a \n " = " a" := by decide

/-! ## Lines -/

/-- The lines of a text. A line feed ends a line, together with one carriage return
right before it; a text that ends in a line feed has no empty line after it. -/
def lineChars : List Char → List (List Char)
  | [] => []
  | '\r' :: '\n' :: rest => [] :: lineChars rest
  | '\n' :: rest => [] :: lineChars rest
  | character :: rest =>
    match lineChars rest with
    | [] => [[character]]
    | line :: more => (character :: line) :: more

def lines (text : String) : List String :=
  (lineChars text.toList).map String.ofList

example : lines "a\r\n\nb\r" = ["a", "", "b\r"] := by decide

example : lines "\r\r\na\n" = ["\r", "a"] := by decide

end ZephirPhp.Text
