import ZephirPhp.Location

/-! # Diagnostics

Everything that can go wrong between reading a syntax tree and writing PHP, each cause
with the data that its message shows.
-/

namespace ZephirPhp

inductive Family where
  | topLevel
  | statement
  | expression
  | clause
  | classMember
deriving DecidableEq, Repr

def Family.name : Family → String
  | .topLevel => "top-level"
  | .statement => "statement"
  | .expression => "expression"
  | .clause => "clause"
  | .classMember => "class-member"

inductive Receiver where
  | string
  | array
deriving DecidableEq, Repr

def Receiver.name : Receiver → String
  | .string => "string"
  | .array => "array"

inductive Form where
  | ir
  | ast
  | source
deriving DecidableEq, Repr

def Form.name : Form → String
  | .ir => "ir"
  | .ast => "ast"
  | .source => "source"

inductive ExitStatus where
  | code (value : Int)
  | signal
deriving DecidableEq, Repr

namespace ExitStatus

def success (status : ExitStatus) : Bool :=
  status == .code 0

def describe : ExitStatus → String
  | .code value => "exit code " ++ toString value
  | .signal => "a signal"

end ExitStatus

inductive TreeFault where
  | json
  | missing
  | notList
deriving DecidableEq, Repr

def TreeFault.message : TreeFault → String
  | .json => "<json error>"
  | .missing => "parser produced no AST"
  | .notList => "top level is not a list of nodes"

inductive ShortcutFault where
  | repeated (shortcut property : String)
  | unsupported (shortcut property : String)
  | clash (method : String)
deriving DecidableEq, Repr

def ShortcutFault.message : ShortcutFault → String
  | .repeated shortcut property =>
    "Shortcut [" ++ shortcut ++ "] is used multiple times in Property [" ++ property ++
      "]"
  | .unsupported shortcut property =>
    "Shortcut [" ++ shortcut ++ "] is not supported in Property [" ++ property ++ "]"
  | .clash method => "Class Method [" ++ method ++ "] already exists"

inductive Diagnostic where
  | io (reason : String)
  | stageNotFound (index : Nat)
  | missingParser (path : String)
  | failedParser (source : String) (status : ExitStatus)
  | missingSource (path : String)
  | invalidTree (path : String) (fault : TreeFault)
  | noHandler (family : Family) (kind : String) (location : Location)
  | malformedNode (kind field : String) (location : Location)
  | unknownAssignment (variant : String) (location : Location)
  | unknownOperator (operator : String) (location : Location)
  | unknownMethod (method : String) (receiver : Receiver) (location : Location)
  | invalidExpression (location : Location)
  | undeclaredVariable (name : String) (location : Location)
  | shortcut (fault : ShortcutFault)
  | globalsNotInitialized
  | unknownGlobal (name : String) (location : Location)
  | unexpectedUnit (stage : String) (found : Form)
deriving DecidableEq, Repr

namespace Diagnostic

def message : Diagnostic → String
  | .io reason => "i/o failure: " ++ reason
  | .stageNotFound index =>
    "stage with index [" ++ Nat.repr index ++ "] doesn't exist in the compiler"
  | .missingParser path => "parser binary " ++ path ++ " was not found"
  | .failedParser source status =>
    "parser exited with " ++ status.describe ++ " while parsing " ++ source
  | .missingSource path => "source file " ++ path ++ " doesn't exist"
  | .invalidTree path fault =>
    "failed to parse source file " ++ path ++ ": " ++ fault.message
  | .noHandler family kind location =>
    "handler for " ++ family.name ++ " kind [" ++ kind ++ "] not found" ++ location.suffix
  | .malformedNode kind field location =>
    "node [" ++ kind ++ "] is missing or has an invalid attribute [" ++ field ++ "]" ++
      location.suffix
  | .unknownAssignment variant location =>
    "unknown assignment: " ++ variant ++ location.suffix
  | .unknownOperator operator location =>
    "unknown assignment operator [" ++ operator ++ "]" ++ location.suffix
  | .unknownMethod method receiver location =>
    "method [" ++ method ++ "] does not exist for [" ++ receiver.name ++
      "] receiver type" ++ location.suffix
  | .invalidExpression location => "resolved expression is not valid" ++ location.suffix
  | .undeclaredVariable name location =>
    "cannot mutate undeclared variable [" ++ name ++ "]" ++ location.suffix
  | .shortcut fault => "invalid shortcut: " ++ fault.message
  | .globalsNotInitialized => "extension globals are not initialized"
  | .unknownGlobal name location =>
    "extension global [" ++ name ++ "] is not defined" ++ location.suffix
  | .unexpectedUnit stage found =>
    "stage [" ++ stage ++ "] cannot compile a unit in the " ++ found.name ++ " form"

/-- Whether the cause lies in the file being compiled. A build may go on with the next
file after such a diagnostic; any other ends the whole run. -/
def isConfinedToUnit : Diagnostic → Bool
  | .stageNotFound _ => false
  | .missingParser _ => false
  | .globalsNotInitialized => false
  | .io _ => false
  | _ => true

end Diagnostic

end ZephirPhp
