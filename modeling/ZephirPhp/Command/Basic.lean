import ZephirPhp.Options

/-! # Commands

What the arguments of the program ask for.
-/

namespace ZephirPhp

structure Command where
  /-- A file, or a directory of files. -/
  source : String
  output : String := "build"
  system : String := "."
  parser : Option String := none
  indent : Nat := 2
  tabs : Bool := false
  maxIndent : Nat := 10
  sameLineBraces : Bool := false
  globals : List (String × String) := []
  keepGoing : Bool := false
  print : Bool := false
  verbose : Bool := false
deriving DecidableEq, Repr

namespace Command

def layout (command : Command) : Layout where
  indent := if command.tabs then .tabs else .spaces command.indent
  maxDepth := command.maxIndent
  braceOnNewLine := !command.sameLineBraces

/-- Without a global on the command line the globals stay uninitialized, so that nothing
is checked. -/
def globalValues (command : Command) : Globals :=
  if command.globals.isEmpty then .uninitialized
  else Globals.uninitialized.declare command.globals

def options (command : Command) (inputRoot : String) : Options where
  inputRoot
  outputRoot := command.output
  systemRoot := command.system
  parser := command.parser
  setting := { layout := command.layout, globals := command.globalValues }

end Command

end ZephirPhp
