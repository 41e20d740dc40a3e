import ZephirPhp.Proofs.Build.Independence

/-! # Calls that end anywhere

All that a caller may rely on after a call on a file, whether it failed or not, follows
from where the call can end. The causes of failure alone do not say where that was:
stages are free to refuse a tree for any cause, also for one that otherwise says that
there is no tree.
-/

namespace ZephirPhp

section Endings

variable {compiler : Compiler Memory} {source parser : String} {after : Memory}

theorem Parses.output_eq {parsed : Bool}
    (parses : Parses compiler source parser parsed after) :
    after.files.get? (compiler.files.roots.outputPath source) =
      compiler.files.files.get? (compiler.files.roots.outputPath source) := by
  cases parses with
  | kept current => rfl
  | printed outdated success same =>
      rw [same.files, Memory.get?_put_of_ne _ _
        (Roots.place_treePath_ne_outputPath _ _ _).symm]

/-- The PHP file of a call that fails is as it was, or as absent. -/
theorem Ends.output_eq {diagnostic : Diagnostic}
    (ends : Ends compiler source parser (.error diagnostic) after) :
    after.files.get? (compiler.files.roots.outputPath source) =
      compiler.files.files.get? (compiler.files.roots.outputPath source) := by
  have apart := (compiler.files.roots.place_treePath_ne_outputPath source source).symm
  cases ends with
  | missing absent => rfl
  | unstarted broken same => rw [same.files]
  | unparsed failure same =>
      rw [same.files, Memory.get?_delete_of_ne _ apart, Memory.get?_put_of_ne _ _ apart]
  | leftover failure broken same => rw [same.files, Memory.get?_put_of_ne _ _ apart]
  | uncompiled parses cause same => rw [same.files, parses.output_eq]

/-- A call that the stages did not stop has a cause of its own, and with it the files that
belong to that cause. -/
theorem Ends.of_not_refuses {diagnostic : Diagnostic}
    (ends : Ends compiler source parser (.error diagnostic) after)
    (accepted : ¬compiler.Refuses after (compiler.files.roots.treePath source)
      diagnostic) :
    (∃ reason, diagnostic = .io reason) ∨
      (∃ status, diagnostic = .failedParser source status) ∧
        after.files.get? (compiler.files.roots.treePath source) = none ∨
      diagnostic = .missingSource source ∧ after.files = compiler.files.files := by
  cases ends with
  | missing absent => exact .inr (.inr ⟨rfl, rfl⟩)
  | unstarted broken same => exact .inl ⟨_, rfl⟩
  | unparsed failure same =>
      refine .inr (.inl ⟨⟨_, rfl⟩, ?_⟩)
      rw [same.files]
      exact Memory.get?_delete_self _ _
  | leftover failure broken same => exact .inl ⟨_, rfl⟩
  | uncompiled parses cause same =>
      rcases cause with ⟨_, reason⟩ | ⟨file, found, refused⟩
      · exact .inl reason
      · exact absurd ⟨file, same.files ▸ found, refused⟩ accepted

theorem Ends.paths_eq {compiled : CompiledFile}
    (ends : Ends compiler source parser (.ok compiled) after) :
    compiled.source = source ∧
      compiled.output = compiler.files.roots.outputPath source := by
  cases ends with
  | fresh present current output => exact ⟨rfl, rfl⟩
  | compiled present parses needed found translated same => exact ⟨rfl, rfl⟩

/-- The PHP file of a call that compiled holds what the stages make of the tree beside
it. -/
theorem Ends.text_written {compiled : CompiledFile} {php : String}
    (ends : Ends compiler source parser (.ok compiled) after)
    (written : compiled.php = some php) :
    after.text? (compiler.files.roots.outputPath source) = some php ∧
      ∃ text, after.text? (compiler.files.roots.treePath source) = some text ∧
        compiler.translation (compiler.files.roots.treePath source) text = .ok php := by
  cases ends with
  | fresh present current output => cases written
  | @compiled parsed middle _ _ tree _ present parses needed found translated same =>
      cases written
      have apart := compiler.files.roots.place_treePath_ne_outputPath source source
      have texts (path : String) :=
        Memory.text?_of_get?_eq (congrArg (·.get? path) same.files)
      refine ⟨?_, tree.text, ?_, translated⟩
      · rw [texts, Memory.text?_put, if_pos rfl]
      · rw [texts, Memory.text?_put, if_neg apart, Memory.text?, found]
        rfl

theorem Ends.unchanged_of_none {compiled : CompiledFile}
    (ends : Ends compiler source parser (.ok compiled) after)
    (fresh : compiled.php = none) :
    after.files = compiler.files.files := by
  cases ends with
  | fresh present current output => rfl
  | compiled present parses needed found translated same => cases fresh

end Endings

/-- A call on a file ends without the parser, or as a call on its source does. -/
theorem Compiler.compileFile_ends (before : Compiler Memory) (path : String) :
    compileFile path before = .error (.missingParser before.parserFile) before ∨
      Ends before (before.sourceFile path) before.parserFile
        (EStateM.outcome (compileFile path before))
        (EStateM.final (compileFile path before)).files := by
  cases present : before.files.files.contains before.parserFile with
  | false => exact .inl (compileFile_of_absent before path present)
  | true =>
      rw [compileFile_of_present before path present]
      exact .inr (compileSource_ends before path before.parserFile).2

/-- Wherever a call on a file ends, it has touched no file but the two artifacts of its
source, which lie right in the output root and neither at the source nor at each other's
place. After a failure the PHP file is as it was. If the stages did not refuse the tree
for that cause, a parser that failed has left no tree, and a missing parser or source has
left everything as it was. Standard stages never refuse a tree for these causes. After a
success the PHP file holds what the stages make of the tree that is stored now, or, if
nothing was compiled, all files are as they were. -/
theorem compileFile_atomic (before : Compiler Memory) (path : String) :
    let tree := before.files.roots.treePath (before.sourceFile path)
    let output := before.files.roots.outputPath (before.sourceFile path)
    let result := EStateM.outcome (Compiler.compileFile path before)
    let after := (EStateM.final (Compiler.compileFile path before)).files
    (Path.LiesIn before.files.roots.output tree ∧
      Path.LiesIn before.files.roots.output output ∧
      Path.place tree ≠ Path.place output ∧
      Path.place (before.sourceFile path) ≠ Path.place tree ∧
      Path.place (before.sourceFile path) ≠ Path.place output) ∧
    (∀ file, Path.place file ≠ Path.place tree → Path.place file ≠ Path.place output →
      after.files.get? file = before.files.files.get? file) ∧
    (∀ diagnostic, result = .error diagnostic →
      after.files.get? output = before.files.files.get? output ∧
      (¬before.Refuses after tree diagnostic →
        (∀ source status, diagnostic = .failedParser source status →
          after.files.get? tree = none) ∧
        (∀ name, diagnostic = .missingParser name ∨ diagnostic = .missingSource name →
          after.files = before.files.files)) ∧
      (∀ setting, before.pipeline = Pipeline.standard setting →
        before.Refuses after tree diagnostic → diagnostic.isOfTree = true)) ∧
    (∀ compiled, result = .ok compiled →
      compiled.source = before.sourceFile path ∧ compiled.output = output ∧
      (∀ php, compiled.php = some php → after.text? output = some php ∧
        ∃ text, after.text? tree = some text ∧ before.translation tree text = .ok php) ∧
      (compiled.php = none → after.files = before.files.files)) := by
  intro tree output result after
  refine ⟨⟨before.files.roots.treePath_liesIn _, before.files.roots.outputPath_liesIn _,
    before.files.roots.place_treePath_ne_outputPath _ _,
    before.files.roots.place_ne_treePath _,
    before.files.roots.place_ne_outputPath _⟩, ?_⟩
  have standard {diagnostic : Diagnostic} (setting : Setting)
      (stages : before.pipeline = Pipeline.standard setting)
      (refuses : before.Refuses after tree diagnostic) : diagnostic.isOfTree = true :=
    refuses.isOfTree stages
  rcases Compiler.compileFile_ends before path with parserless | ends
  · have unchanged : after = before.files := by
      simp only [after, parserless, EStateM.final]
    have failed : result = .error (.missingParser before.parserFile) := by
      simp only [result, parserless, EStateM.outcome]
    refine ⟨fun _ _ _ => by rw [unchanged], ?_, ?_⟩
    · intro diagnostic stopped
      cases failed.symm.trans stopped
      exact ⟨by rw [unchanged], fun _ =>
        ⟨by simp, fun _ _ => by rw [unchanged]⟩, standard⟩
    · intro compiled succeeded
      cases failed.symm.trans succeeded
  · refine ⟨?_, ?_, ?_⟩
    · intro file notTree notOutput
      refine ends.sameBut.files file ?_
      rintro (isTree | isOutput)
      · exact notTree isTree
      · exact notOutput isOutput
    · intro diagnostic failed
      change Ends before _ _ result _ at ends
      rw [failed] at ends
      refine ⟨ends.output_eq, fun accepted => ?_, standard⟩
      rcases ends.of_not_refuses accepted with
        ⟨reason, rfl⟩ | ⟨⟨status, rfl⟩, absent⟩ | ⟨rfl, unchanged⟩
      · simp
      · exact ⟨fun _ _ _ => absent, by simp⟩
      · exact ⟨by simp, fun _ _ => unchanged⟩
    · intro compiled succeeded
      change Ends before _ _ result _ at ends
      rw [succeeded] at ends
      exact ⟨ends.paths_eq.1, ends.paths_eq.2, fun php => ends.text_written,
        ends.unchanged_of_none⟩

/-- One source and no artifacts. The only stage refuses every tree for the same cause. -/
def refusingCompiler (diagnostic : Diagnostic) : Compiler Memory :=
  let empty : Memory :=
    { roots := ⟨"/s", "/o", "/p"⟩
      printed := FileTable.ofEntries [("/s/a.zep", ⟨"[]", .code 0⟩)] }
  { files := (empty.put "/parser" "").put "/s/a.zep" ""
    options := { parser := some "/parser" }
    pipeline := [{ name := "refusing", compile := fun _ => throw diagnostic }] }

/-- A stage can report a missing source, a missing parser or a failed parser. The tree
that was printed for it stays all the same. -/
theorem compileFile_not_atomic_of_refusal :
    let run (diagnostic : Diagnostic) :=
      Compiler.compileFile "a.zep" (refusingCompiler diagnostic)
    let unsourced := run (.missingSource "/s/a.zep")
    let parserless := run (.missingParser "/parser")
    let unparsed := run (.failedParser "/s/a.zep" (.code 1))
    (EStateM.outcome unsourced = .error (.missingSource "/s/a.zep") ∧
      (refusingCompiler (.missingSource "/s/a.zep")).files.text? "/o/_s_a.zep.js" = none ∧
      (EStateM.final unsourced).files.text? "/o/_s_a.zep.js" = some "[]") ∧
    (EStateM.outcome parserless = .error (.missingParser "/parser") ∧
      (refusingCompiler (.missingParser "/parser")).files.text? "/o/_s_a.zep.js" = none ∧
      (EStateM.final parserless).files.text? "/o/_s_a.zep.js" = some "[]") ∧
    EStateM.outcome unparsed = .error (.failedParser "/s/a.zep" (.code 1)) ∧
      (EStateM.final unparsed).files.text? "/o/_s_a.zep.js" = some "[]" := by
  decide +kernel

end ZephirPhp
