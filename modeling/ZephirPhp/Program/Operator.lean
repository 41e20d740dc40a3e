import ZephirPhp.Kind

/-! # Operators -/

namespace ZephirPhp

inductive UnaryOperator where
  | not
  | bitwiseNot
  | minus
  | plus
  | isset
  | empty
  | typeof
  | require
  | clone
  | list
  | likely
  | unlikely
deriving DecidableEq, Repr

namespace UnaryOperator

def all : List UnaryOperator :=
  [.not, .bitwiseNot, .minus, .plus, .isset, .empty, .typeof, .require, .clone, .list,
    .likely, .unlikely]

def kind : UnaryOperator → String
  | .not => "not"
  | .bitwiseNot => "bitwise_not"
  | .minus => "minus"
  | .plus => "plus"
  | .isset => "isset"
  | .empty => "empty"
  | .typeof => "typeof"
  | .require => "require"
  | .clone => "clone"
  | .list => "list"
  | .likely => "likely"
  | .unlikely => "unlikely"

def ofKey? (key : String) : Option UnaryOperator :=
  all.find? fun operator => kindKey operator.kind == key

end UnaryOperator

inductive BinaryOperator where
  | add
  | sub
  | mul
  | div
  | mod
  | concat
  | and
  | or
  | bitwiseOr
  | bitwiseAnd
  | bitwiseXor
  | shiftLeft
  | shiftRight
  | equals
  | notEquals
  | identical
  | notIdentical
  | less
  | greater
  | lessEqual
  | greaterEqual
  | instanceof
deriving DecidableEq, Repr

namespace BinaryOperator

def all : List BinaryOperator :=
  [.add, .sub, .mul, .div, .mod, .concat, .and, .or, .bitwiseOr, .bitwiseAnd, .bitwiseXor,
    .shiftLeft, .shiftRight, .equals, .notEquals, .identical, .notIdentical, .less,
    .greater, .lessEqual, .greaterEqual, .instanceof]

def kind : BinaryOperator → String
  | .add => "add"
  | .sub => "sub"
  | .mul => "mul"
  | .div => "div"
  | .mod => "mod"
  | .concat => "concat"
  | .and => "and"
  | .or => "or"
  | .bitwiseOr => "bitwise_or"
  | .bitwiseAnd => "bitwise_and"
  | .bitwiseXor => "bitwise_xor"
  | .shiftLeft => "bitwise_shiftleft"
  | .shiftRight => "bitwise_shiftright"
  | .equals => "equals"
  | .notEquals => "not-equals"
  | .identical => "identical"
  | .notIdentical => "not-identical"
  | .less => "less"
  | .greater => "greater"
  | .lessEqual => "less-equal"
  | .greaterEqual => "greater-equal"
  | .instanceof => "instanceof"

def ofKey? (key : String) : Option BinaryOperator :=
  all.find? fun operator => kindKey operator.kind == key

def symbol : BinaryOperator → String
  | .add => "+"
  | .sub => "-"
  | .mul => "*"
  | .div => "/"
  | .mod => "%"
  | .concat => "."
  | .and => "&&"
  | .or => "||"
  | .bitwiseOr => "|"
  | .bitwiseAnd => "&"
  | .bitwiseXor => "^"
  | .shiftLeft => "<<"
  | .shiftRight => ">>"
  | .equals => "=="
  | .notEquals => "!="
  | .identical => "==="
  | .notIdentical => "!=="
  | .less => "<"
  | .greater => ">"
  | .lessEqual => "<="
  | .greaterEqual => ">="
  | .instanceof => "instanceof"

end BinaryOperator

inductive AssignmentOperator where
  | assign
  | addAssign
  | subAssign
  | mulAssign
  | divAssign
  | modAssign
  | concatAssign
deriving DecidableEq, Repr

namespace AssignmentOperator

def all : List AssignmentOperator :=
  [.assign, .addAssign, .subAssign, .mulAssign, .divAssign, .modAssign, .concatAssign]

def name : AssignmentOperator → String
  | .assign => "assign"
  | .addAssign => "add-assign"
  | .subAssign => "sub-assign"
  | .mulAssign => "mul-assign"
  | .divAssign => "div-assign"
  | .modAssign => "mod-assign"
  | .concatAssign => "concat-assign"

/-- The operator with a name, in that very spelling. -/
def ofName? (name : String) : Option AssignmentOperator :=
  all.find? fun operator => operator.name == name

def symbol : AssignmentOperator → String
  | .assign => "="
  | .addAssign => "+="
  | .subAssign => "-="
  | .mulAssign => "*="
  | .divAssign => "/="
  | .modAssign => "%="
  | .concatAssign => ".="

end AssignmentOperator

end ZephirPhp
