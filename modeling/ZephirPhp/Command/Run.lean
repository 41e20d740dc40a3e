import ZephirPhp.Command.Arguments
import ZephirPhp.Compiler
import ZephirPhp.Files.Disk

/-! # Running a command -/

namespace ZephirPhp

/-- A failure: what was tried, and the causes from the outermost to the innermost. -/
structure Failure where
  context : String
  causes : List String := []
deriving DecidableEq, Repr

namespace Failure

def indentLines (margin text : String) : String :=
  String.ofList <| text.toList.flatMap fun character =>
    if character = '\n' then '\n' :: margin.toList else [character]

def numberedCauses (number : Nat) : List String → List String
  | [] => []
  | cause :: rest =>
    ("    " ++ Nat.repr number ++ ": " ++ indentLines "       " cause) ::
      numberedCauses (number + 1) rest

def causeLines : List String → List String
  | [] => []
  | [cause] => ["", "Caused by:", "    " ++ indentLines "    " cause]
  | causes => "" :: "Caused by:" :: numberedCauses 0 causes

def text (failure : Failure) : String :=
  "\n".intercalate (("Error: " ++ failure.context) :: causeLines failure.causes) ++ "\n"

example : text ⟨"failed to compile a.zep", ["i/o failure: x", "x"]⟩ =
    "Error: failed to compile a.zep\n\nCaused by:\n    0: i/o failure: x\n    1: x\n" :=
  by decide

end Failure

def Diagnostic.causes : Diagnostic → List String
  | .io reason => [Diagnostic.message (.io reason), reason]
  | diagnostic => [diagnostic.message]

structure Outcome where
  exit : Nat
  output : String := ""
  errors : String := ""
deriving DecidableEq, Repr

namespace Command

/-- The texts of compiled files. A file that was fresh is read, up to the first one that
cannot be. -/
def shownTexts (disk : Disk) : List CompiledFile → List String × Option Failure
  | [] => ([], none)
  | compiled :: rest =>
    match compiled.php with
    | some php => let (texts, failure) := shownTexts disk rest; (php :: texts, failure)
    | none =>
      match disk.read compiled.output with
      | .ok php => let (texts, failure) := shownTexts disk rest; (php :: texts, failure)
      | .error fault =>
        ([], some ⟨"failed to read output file " ++ compiled.output, [fault.reason]⟩)

def shown (command : Command) (disk : Disk) (compiled : List CompiledFile) :
    String × Option Failure :=
  if command.print then
    let (texts, failure) := shownTexts disk compiled
    (String.join texts, failure)
  else
    ("", none)

def notCompiled (command : Command) (diagnostic : Diagnostic) : Outcome where
  exit := 1
  errors := Failure.text ⟨"failed to compile " ++ command.source, diagnostic.causes⟩

def outcome (command : Command) (disk : Disk) (report : BuildReport) : Outcome :=
  let (output, failure) := command.shown disk report.compiled
  match failure with
  | some failure => ⟨1, output, failure.text⟩
  | none =>
    if report.isSuccess then ⟨0, output, ""⟩
    else
      let failed := report.failures.length
      let lines := report.failures.map fun (path, diagnostic) =>
        "error: " ++ path ++ ": " ++ diagnostic.message ++ "\n"
      let summary : Failure := {
        context :=
          Nat.repr failed ++ " of " ++ Nat.repr (failed + report.compiled.length) ++
            " files failed to compile" }
      ⟨1, output, String.join lines ++ summary.text⟩

def compiler (command : Command) (disk : Disk) (inputRoot : String) : Compiler Disk :=
  let options := command.options inputRoot
  Compiler.standard
    { disk with roots := ⟨options.inputRoot, options.outputRoot, options.systemRoot⟩ }
    options

def build (command : Command) (disk : Disk) :
    EStateM.Result Diagnostic (Compiler Disk) BuildReport :=
  if disk.isDirectory command.source then
    Compiler.compileAll command.keepGoing (command.compiler disk command.source)
  else
    match Compiler.compileFile command.source (command.compiler disk ".") with
    | .ok compiled compiler => .ok { compiled := [compiled] } compiler
    | .error diagnostic compiler => .error diagnostic compiler

def run (command : Command) (disk : Disk) : Outcome × Disk :=
  match command.build disk with
  | .ok report compiler => (command.outcome compiler.files report, compiler.files)
  | .error diagnostic compiler => (command.notCompiled diagnostic, compiler.files)

def versionText : String := "zepc-cli 0.1.0\n"

def usageText : String := "Usage: zepc [OPTIONS] <SOURCE>\n"

def Stop.outcome : Stop → Outcome
  | .misuse => ⟨2, "", usageText⟩
  | .help => ⟨0, usageText, ""⟩
  | .version => ⟨0, versionText, ""⟩

def execute (arguments : List String) (disk : Disk) : Outcome × Disk :=
  match ofArguments arguments with
  | .ok command => command.run disk
  | .error stop => (stop.outcome, disk)

end Command

end ZephirPhp
