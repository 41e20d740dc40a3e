import ZephirPhp.Program.Docblock
import ZephirPhp.Program.Shortcut

/-! # Phases

The changes that a program goes through between decoding and emission.
-/

namespace ZephirPhp

inductive Phase where
  | inlineComments
  | inlineShortcuts
deriving DecidableEq, Repr

namespace Phase

def standard : List Phase := [.inlineComments, .inlineShortcuts]

def name : Phase → String
  | .inlineComments => "inline-comments"
  | .inlineShortcuts => "inline-shortcuts"

def ofName? (name : String) : Option Phase :=
  standard.find? fun phase => phase.name == name

def run : Phase → Program → Except Diagnostic Program
  | .inlineComments, program => .ok program.inlineComments
  | .inlineShortcuts, program => program.inlineShortcuts

end Phase

def Program.process (phases : List Phase) (program : Program) :
    Except Diagnostic Program :=
  phases.foldlM (fun program phase => phase.run program) program

end ZephirPhp
