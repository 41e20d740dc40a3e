import ZephirPhp.Emission.Basic
import ZephirPhp.Path

/-! # Options of a compilation -/

namespace ZephirPhp

structure Options where
  inputRoot : String := "."
  /-- Where syntax trees and PHP files go. -/
  outputRoot : String := "build"
  /-- Where the parser is installed. -/
  systemRoot : String := "."
  parser : Option String := none
  setting : Setting := {}

def Options.parserPath (options : Options) : String :=
  match options.parser with
  | some path => path
  | none => Path.join options.systemRoot "bin/zephir-parser"

end ZephirPhp
