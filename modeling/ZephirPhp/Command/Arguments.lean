import ZephirPhp.Command.Basic
import ZephirPhp.Text.Blank
import ZephirPhp.Text.Decimal

/-! # Arguments

Arguments are split into items first: sources, options with their values, and flags.
Then the items are applied from left to right, and the first one that is refused or that
asks for something else ends the reading.

An option may be written `--name value`, `--name=value`, `-n value`, `-nvalue` or
`-n=value`; flags of one letter may stand together, with an option as the last of them.
After `--` everything is a source. A value does not start with a dash, unless it is
attached.
-/

namespace ZephirPhp

namespace Command

inductive Valued where
  | output
  | system
  | parser
  | indent
  | maxIndent
  | global
deriving DecidableEq, Repr

inductive Flag where
  | tabs
  | sameLineBraces
  | keepGoing
  | print
  | verbose
  | help
  | version
deriving DecidableEq, Repr

inductive Switch where
  | valued (option : Valued)
  | flag (flag : Flag)
deriving DecidableEq, Repr

def Switch.ofName? : String → Option Switch
  | "output" => some (.valued .output)
  | "system" => some (.valued .system)
  | "parser" => some (.valued .parser)
  | "indent" => some (.valued .indent)
  | "max-indent" => some (.valued .maxIndent)
  | "global" => some (.valued .global)
  | "tabs" => some (.flag .tabs)
  | "same-line-braces" => some (.flag .sameLineBraces)
  | "keep-going" => some (.flag .keepGoing)
  | "print" => some (.flag .print)
  | "verbose" => some (.flag .verbose)
  | "help" => some (.flag .help)
  | "version" => some (.flag .version)
  | _ => none

def Switch.ofLetter? : Char → Option Switch
  | 'o' => some (.valued .output)
  | 't' => some (.valued .system)
  | 'v' => some (.flag .verbose)
  | 'h' => some (.flag .help)
  | 'V' => some (.flag .version)
  | _ => none

/-! ## Items -/

inductive Item where
  | source (text : String)
  | setting (option : Valued) (value : String)
  | flag (flag : Flag)
  | malformed
deriving DecidableEq, Repr

structure Scanned where
  items : List Item
  waiting : Option Valued := none
deriving DecidableEq, Repr

def splitEquals (text : List Char) : List Char × Option (List Char) :=
  match text.dropWhile (· ≠ '=') with
  | [] => (text, none)
  | _ :: value => (text.takeWhile (· ≠ '='), some value)

def scanName (text : List Char) : Scanned :=
  let (name, value) := splitEquals text
  match Switch.ofName? (String.ofList name), value with
  | some (.valued option), some value => ⟨[.setting option (String.ofList value)], none⟩
  | some (.valued option), none => ⟨[], some option⟩
  | some (.flag flag), none => ⟨[.flag flag], none⟩
  | some (.flag _), some _ => ⟨[.malformed], none⟩
  | none, _ => ⟨[.malformed], none⟩

def scanLetters : List Char → Scanned
  | [] => ⟨[], none⟩
  | letter :: rest =>
    match Switch.ofLetter? letter, rest with
    | some (.valued option), [] => ⟨[], some option⟩
    | some (.valued option), '=' :: value =>
      ⟨[.setting option (String.ofList value)], none⟩
    | some (.valued option), value => ⟨[.setting option (String.ofList value)], none⟩
    | some (.flag flag), rest =>
      let scanned := scanLetters rest
      { scanned with items := .flag flag :: scanned.items }
    | none, _ => ⟨[.malformed], none⟩

/-- Reads one argument before `--`. A dash that stands alone is a source. -/
def scan (argument : String) : Scanned :=
  match argument.toList with
  | '-' :: '-' :: name => scanName name
  | '-' :: letter :: letters => scanLetters (letter :: letters)
  | _ => ⟨[.source argument], none⟩

def isValue (argument : String) : Bool :=
  match argument.toList with
  | '-' :: _ :: _ => false
  | _ => true

def itemsAfter : Option Valued → List String → List Item
  | none, [] => []
  | some _, [] => [.malformed]
  | some option, value :: rest =>
    if isValue value then .setting option value :: itemsAfter none rest else [.malformed]
  | none, argument :: rest =>
    if argument = "--" then
      rest.map .source
    else
      let scanned := scan argument
      scanned.items ++ itemsAfter scanned.waiting rest

def items (arguments : List String) : List Item :=
  itemsAfter none arguments

example : items ["-vo", "out", "a.zep", "--indent=4", "--", "-x"] =
    [.flag .verbose, .setting .output "out", .source "a.zep", .setting .indent "4",
      .source "-x"] := by decide

example : items ["-o", "--print"] = [.malformed] := by decide

/-! ## Requests -/

inductive Stop where
  | misuse
  | help
  | version
deriving DecidableEq, Repr

structure Given where
  source : Option String := none
  output : Option String := none
  system : Option String := none
  parser : Option String := none
  indent : Option Nat := none
  maxIndent : Option Nat := none
  globals : List (String × String) := []
  flags : List Flag := []
deriving DecidableEq, Repr

def oncePath (before : Option String) (value : String) : Except Stop (Option String) :=
  if before.isSome || value.isEmpty then .error .misuse else .ok (some value)

def onceNumber (before : Option Nat) (value : String) : Except Stop (Option Nat) :=
  match before, Text.natural? Text.limit64 value with
  | none, some number => .ok (some number)
  | _, _ => .error .misuse

/-- The name and the value of a global. The name has no blanks around it and is not
empty. -/
def globalOf (text : String) : Except Stop (String × String) :=
  match splitEquals text.toList with
  | (name, some value) =>
    let name := Text.trim (String.ofList name)
    if name.isEmpty then .error .misuse else .ok (name, String.ofList value)
  | (_, none) => .error .misuse

def Given.set (given : Given) (option : Valued) (value : String) : Except Stop Given := do
  match option with
  | .output => return { given with output := ← oncePath given.output value }
  | .system => return { given with system := ← oncePath given.system value }
  | .parser => return { given with parser := ← oncePath given.parser value }
  | .indent => return { given with indent := ← onceNumber given.indent value }
  | .maxIndent => return { given with maxIndent := ← onceNumber given.maxIndent value }
  | .global => return { given with globals := given.globals ++ [← globalOf value] }

def Given.raise (given : Given) : Flag → Except Stop Given
  | .help => .error .help
  | .version => .error .version
  | flag =>
    if given.flags.contains flag then .error .misuse
    else .ok { given with flags := flag :: given.flags }

def Given.apply (given : Given) : Item → Except Stop Given
  | .source text => do return { given with source := ← oncePath given.source text }
  | .setting option value => given.set option value
  | .flag flag => given.raise flag
  | .malformed => .error .misuse

/-- The command of what is given. There must be a source, and tabs exclude a number of
spaces. -/
def Given.command (given : Given) : Except Stop Command :=
  match given.source with
  | none => .error .misuse
  | some source =>
    if given.flags.contains .tabs && given.indent.isSome then .error .misuse
    else
      .ok {
        source
        output := given.output.getD "build"
        system := given.system.getD "."
        parser := given.parser
        indent := given.indent.getD 2
        tabs := given.flags.contains .tabs
        maxIndent := given.maxIndent.getD 10
        sameLineBraces := given.flags.contains .sameLineBraces
        globals := given.globals
        keepGoing := given.flags.contains .keepGoing
        print := given.flags.contains .print
        verbose := given.flags.contains .verbose }

def ofArguments (arguments : List String) : Except Stop Command := do
  (← (items arguments).foldlM Given.apply {}).command

end Command

end ZephirPhp
