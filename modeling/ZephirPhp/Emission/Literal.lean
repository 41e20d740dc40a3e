import ZephirPhp.Program.Basic

/-! # Code of expressions without parts -/

namespace ZephirPhp

/-- The characters of a string with a backslash before each dollar sign that has none.
`escaped` says whether a backslash stands right before them. -/
def escapeDollars (escaped : Bool) : List Char → List Char
  | [] => []
  | character :: rest =>
    let escapes := character == '\\' && !escaped
    if character == '$' && !escaped then
      '\\' :: character :: escapeDollars escapes rest
    else
      character :: escapeDollars escapes rest

/-- A string between double quotes. Zephir replaces no variables in a string, so dollar
signs are escaped; escapes of the string itself stay as they are. -/
def stringLiteral (content : String) : String :=
  "\"" ++ String.ofList (escapeDollars false content.toList) ++ "\""

example : stringLiteral "a$b\\$c\\\\$" = "\"a\\$b\\$c\\\\\\$\"" := by decide

def charLiteral (content : String) : String :=
  match content.toList with
  | '\\' :: _ => "\"" ++ content ++ "\""
  | _ => "'" ++ content ++ "'"

def Atom.code : Atom → String
  | .int text => text
  | .double text => text
  | .bool value => if value then "TRUE" else "FALSE"
  | .null => "NULL"
  | .string content => stringLiteral content
  | .interpolated content => "\"" ++ content ++ "\""
  | .char content => charLiteral content
  | .emptyArray => "[]"
  | .constant name => name
  | .variable name => "$" ++ name
  | .staticProperty className name => className ++ "::$" ++ name
  | .staticConstant className name => className ++ "::" ++ name
  | .newType .array => "[]"
  | .newType .string => "''"

def UnaryOperator.code (operator : UnaryOperator) (operand : String) : String :=
  match operator with
  | .not => "!" ++ operand
  | .bitwiseNot => "~" ++ operand
  | .minus => "-" ++ operand
  | .plus => "+" ++ operand
  | .isset => "isset(" ++ operand ++ ")"
  | .empty => "zephir_isempty(" ++ operand ++ ")"
  | .typeof => "gettype(" ++ operand ++ ")"
  | .require => "require " ++ operand
  | .clone => "clone " ++ operand
  | .list => "(" ++ operand ++ ")"
  | .likely => operand
  | .unlikely => operand

end ZephirPhp
