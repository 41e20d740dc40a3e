import ZephirPhp.Text.Blank
import ZephirPhp.Text.Upper

/-! # Kinds of nodes

A parser may spell a kind with hyphens or underscores between its words. The key of a kind
joins the words, each with a capital first letter, so that all spellings have one key.
-/

namespace ZephirPhp

def isSeparator (character : Char) : Bool :=
  character == '-' || character == '_'

def keyChars (characters : List Char) : List Char :=
  (characters.splitOnP isSeparator).flatMap fun segment =>
    Text.capitalizeChars (Text.trimChars segment)

def kindKey (kind : String) : String :=
  String.ofList (keyChars kind.toList)

example : kindKey "array-access" = "ArrayAccess" ∧ kindKey "bitwise_not" = "BitwiseNot" ∧
    kindKey "-- a-_b " = "AB" := by decide

end ZephirPhp
