import ZephirPhp.Proofs.Build.Step

/-! # Where the parser is looked for

Without a parser of their own, options name the one that is installed under the system
root. The compiler then looks for that path as seen from the system root, so the root
comes in twice. That makes no difference to an absolute root, nor to one that names
nothing. Any other root is repeated, which leads to another place.
-/

namespace ZephirPhp

/-- A root that is repeated leads elsewhere, unless it is absolute or names nothing. -/
theorem Path.place_join_join_iff {root path : String}
    (relative : isAbsolute path = false) :
    place (join root (join root path)) = place (join root path) ↔
      isAbsolute root = true ∨ names root = [] := by
  constructor
  · intro same
    cases absolute : isAbsolute root with
    | true => exact .inl rfl
    | false =>
        have named := names_join root _ ((isAbsolute_join relative).trans absolute)
        exact .inr (List.append_left_eq_self.mp (named.symm.trans (names_congr same)))
  · intro harmless
    by_cases empty : root = ""
    · rw [empty, join_empty]
    · refine place_join_of_below harmless ?_
      rw [place_join relative empty]
      exact List.prefix_append _ _

/-! ## The installed parser -/

namespace Compiler

section

variable {σ : Type} (compiler : Compiler σ)

/-- Where the parser is installed. -/
def installedParser : String :=
  Path.join compiler.options.systemRoot "bin/zephir-parser"

/-- The path of the installed parser as seen from the system root. -/
def soughtParser : String :=
  Path.join compiler.options.systemRoot compiler.installedParser

variable [FileSystem σ]

/-- The parser is found if and only if it is installed, and the path that is found leads
to the installed one. -/
def FindsInstalled : Prop :=
  ((∃ path after, findParser compiler = .ok path after) ↔
      FileSystem.present compiler.files compiler.installedParser = true) ∧
    ∀ path after, findParser compiler = .ok path after →
      Path.place path = Path.place compiler.installedParser

/-- No parser lies where it is installed, nor where it is looked for. -/
def LacksParser : Prop :=
  FileSystem.present compiler.files compiler.installedParser = false ∧
    FileSystem.present compiler.files compiler.soughtParser = false

end

section

variable {σ : Type} [FileSystem σ] {compiler : Compiler σ}
  (implicit : compiler.options.parser = none)
  (joins : ∀ path, FileSystem.resolve compiler.files .system path =
    Path.join compiler.options.systemRoot path)

include implicit joins

theorem findParser_implicit :
    findParser compiler =
      if FileSystem.present compiler.files compiler.soughtParser then
        .ok compiler.soughtParser compiler
      else .error (.missingParser compiler.soughtParser) compiler := by
  apply findParser_eq
  rw [joins, Options.parserPath, implicit]
  rfl

theorem findsInstalled_iff
    (byPlace : Path.place compiler.soughtParser = Path.place compiler.installedParser →
      FileSystem.present compiler.files compiler.soughtParser =
        FileSystem.present compiler.files compiler.installedParser) :
    compiler.FindsInstalled ↔
      Path.place compiler.soughtParser = Path.place compiler.installedParser ∨
        compiler.LacksParser := by
  rw [FindsInstalled, findParser_implicit implicit joins, LacksParser]
  cases sought : FileSystem.present compiler.files compiler.soughtParser with
  | true =>
      constructor
      · rintro ⟨_, found⟩
        exact .inl (found _ _ rfl)
      · rintro (alike | ⟨_, ⟨⟩⟩)
        refine ⟨⟨fun _ => (byPlace alike).symm.trans sought, fun _ => ⟨_, _, rfl⟩⟩, ?_⟩
        rintro _ _ ⟨⟩
        exact alike
  | false =>
      have nothing : ¬∃ path after,
          (EStateM.Result.error (.missingParser compiler.soughtParser)
          compiler : EStateM.Result Diagnostic (Compiler σ) String) = .ok path after := by
        rintro ⟨_, _, ⟨⟩⟩
      rw [if_neg Bool.false_ne_true]
      constructor
      · rintro ⟨found, _⟩
        exact .inr ⟨Bool.eq_false_iff.mpr fun present => nothing (found.mpr present), rfl⟩
      · intro either
        have missing : FileSystem.present compiler.files compiler.installedParser =
            false := by
          rcases either with alike | ⟨missing, _⟩
          · exact (byPlace alike).symm.trans sought
          · exact missing
        refine ⟨⟨fun found => absurd found nothing, fun present => ?_⟩, ?_⟩
        · rw [missing] at present
          cases present
        · rintro _ _ ⟨⟩

end

end Compiler

/-- The installed parser is found where it is installed exactly if the system root is
absolute, or names nothing, or nothing lies at either path. The store must not tell the
two paths apart where they lead to one place. -/
theorem findsInstalled_iff_root {σ : Type} [FileSystem σ] {compiler : Compiler σ}
    (implicit : compiler.options.parser = none)
    (joins : ∀ path, FileSystem.resolve compiler.files .system path =
      Path.join compiler.options.systemRoot path)
    (byPlace : Path.place compiler.soughtParser = Path.place compiler.installedParser →
      FileSystem.present compiler.files compiler.soughtParser =
        FileSystem.present compiler.files compiler.installedParser) :
    compiler.FindsInstalled ↔
      Path.isAbsolute compiler.options.systemRoot = true ∨
        Path.names compiler.options.systemRoot = [] ∨ compiler.LacksParser := by
  have relative : Path.isAbsolute "bin/zephir-parser" = false := rfl
  rw [Compiler.findsInstalled_iff implicit joins byPlace, ← or_assoc]
  exact or_congr_left (Path.place_join_join_iff relative)

/-- The store of files in memory goes by places. -/
theorem Memory.present_congr (memory : Memory) {left right : String}
    (same : Path.place left = Path.place right) :
    FileSystem.present memory left = FileSystem.present memory right := by
  rw [present_eq, present_eq, FileTable.contains, FileTable.contains,
    FileTable.get?_congr memory.files same]

/-- A compiler for a store that holds one file, with a system root. -/
def rootedCompiler (root path : String) : Compiler Memory :=
  let empty : Memory := { roots := ⟨"/src", "/build", root⟩ }
  Compiler.standard (empty.put path "") { systemRoot := root }

/-- An absolute root that ends in a slash, and the directory where one is. -/
theorem findsInstalled_iff_root_of_harmless :
    ((rootedCompiler "/opt/" "/opt/bin/zephir-parser").FindsInstalled ∧
      Compiler.findParser (rootedCompiler "/opt/" "/opt/bin/zephir-parser") =
        .ok "/opt/bin/zephir-parser" (rootedCompiler "/opt/" "/opt/bin/zephir-parser")) ∧
    (rootedCompiler "." "./bin/zephir-parser").FindsInstalled ∧
      Compiler.findParser (rootedCompiler "." "./bin/zephir-parser") =
        .ok "././bin/zephir-parser" (rootedCompiler "." "./bin/zephir-parser") := by
  refine ⟨⟨?_, rfl⟩, ?_, rfl⟩
  · exact (findsInstalled_iff_root rfl (fun _ => rfl) (Memory.present_congr _)).mpr
      (.inl rfl)
  · refine (findsInstalled_iff_root rfl (fun _ => rfl) (Memory.present_congr _)).mpr ?_
    exact .inr (.inl (by decide))

/-- Under a relative root the installed parser is not found. -/
theorem installed_parser_not_found :
    (rootedCompiler "zephir" "zephir/bin/zephir-parser").installedParser =
        "zephir/bin/zephir-parser" ∧
      FileSystem.present (rootedCompiler "zephir" "zephir/bin/zephir-parser").files
        "zephir/bin/zephir-parser" = true ∧
      Compiler.findParser (rootedCompiler "zephir" "zephir/bin/zephir-parser") =
        .error (.missingParser "zephir/zephir/bin/zephir-parser")
          (rootedCompiler "zephir" "zephir/bin/zephir-parser") ∧
      ¬(rootedCompiler "zephir" "zephir/bin/zephir-parser").FindsInstalled := by
  have present : FileSystem.present
      (rootedCompiler "zephir" "zephir/bin/zephir-parser").files
      "zephir/bin/zephir-parser" = true := by decide +kernel
  refine ⟨rfl, present, rfl, fun finds => ?_⟩
  rcases finds.1.mpr present with ⟨_, _, ⟨⟩⟩

end ZephirPhp
