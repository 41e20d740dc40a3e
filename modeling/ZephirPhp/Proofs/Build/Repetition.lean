import ZephirPhp.Proofs.Build.Atomicity

/-! # Calls that are made again

A call that succeeded leaves a PHP file and a tree. Made again at once, it finds nothing
to do exactly if that tree does not look old. The times decide: a tree that was just
printed is dated one tick later than the clock was, and only a file that is dated later
still makes it look old. As long as all files get their times from the clock there is no
such file.
-/

namespace ZephirPhp

namespace Memory

/-- The file is dated later than what is stored next. -/
def Ahead (memory : Memory) (path : String) : Prop :=
  ∃ file, memory.files.get? path = some file ∧ memory.clock + 1 < file.time

theorem Timely.not_ahead {memory : Memory} (timely : memory.Timely) (path : String) :
    ¬memory.Ahead path := by
  rintro ⟨file, found, late⟩
  have early := timely path file found
  omega

theorem not_ahead_iff (memory : Memory) (path : String) :
    ¬memory.Ahead path ↔
      ∀ file, memory.files.get? path = some file → file.time ≤ memory.clock + 1 := by
  simp only [Ahead, not_exists, not_and, Nat.not_lt]

end Memory

/-! ## Nothing to do -/

/-- All that a call on a source needs is there, and its artifacts are fresh. -/
structure Memory.Settled (source parser : String) (memory : Memory) : Prop where
  parserThere : memory.files.contains parser = true
  sourceThere : memory.files.contains source = true
  current : (Freshness.load memory source parser).needsParse = false
  outputThere : memory.files.contains (memory.roots.outputPath source) = true

section Endings

variable {compiler : Compiler Memory} {source parser : String} {compiled : CompiledFile}
  {after : Memory}

theorem Ends.settled_of_none (ends : Ends compiler source parser (.ok compiled) after)
    (there : compiler.files.files.contains parser = true) (idle : compiled.php = none) :
    compiler.files.Settled source parser := by
  cases ends with
  | fresh present current output =>
      refine ⟨there, ?_, current, output⟩
      rw [FileTable.contains, present, Option.isSome_some]
  | compiled present parses needed found translated same => cases idle

/-- The tree that a call compiled is as new as anything, unless it has just been printed
and the source or the parser is dated ahead. -/
theorem Parses.current_iff {parsed : Bool} {middle : Memory} {tree : StoredFile}
    (parses : Parses compiler source parser parsed middle)
    (found : middle.files.get? (compiler.files.roots.treePath source) = some tree) :
    ((∀ file, compiler.files.files.get? source = some file → file.time ≤ tree.time) ∧
      (Path.place parser ≠ Path.place (compiler.files.roots.treePath source) →
        ∀ file, compiler.files.files.get? parser = some file → file.time ≤ tree.time)) ↔
      (parsed = true → ¬compiler.files.Ahead source ∧
        (Path.place parser ≠ Path.place (compiler.files.roots.treePath source) →
          ¬compiler.files.Ahead parser)) := by
  cases parses with
  | kept current =>
      rcases (Freshness.needsParse_eq_false_iff _ _ _).mp current with
        ⟨_, sameTree, sourceOlder, parserOlder⟩
      cases found.symm.trans sameTree
      simp only [Bool.false_eq_true, false_implies, iff_true]
      exact ⟨sourceOlder, fun _ => parserOlder⟩
  | printed outdated success same =>
      rw [same.files, Memory.get?_put_self] at found
      cases found
      simp only [Memory.not_ahead_iff, true_implies]

/-- The parser is still there and as old as it was, unless it lies where the tree does,
and then it is as old as the tree. -/
theorem Memory.SameBut.parser_older_iff {memory : Memory} {tree : StoredFile}
    (same : memory.SameBut source after)
    (apart : Path.place parser ≠ Path.place (memory.roots.outputPath source))
    (found : after.files.get? (memory.roots.treePath source) = some tree) :
    (∀ file, after.files.get? parser = some file → file.time ≤ tree.time) ↔
      (Path.place parser ≠ Path.place (memory.roots.treePath source) →
        ∀ file, memory.files.get? parser = some file → file.time ≤ tree.time) := by
  by_cases isTree : Path.place parser = Path.place (memory.roots.treePath source)
  · rw [FileTable.get?_congr after.files isTree, found]
    simp [isTree]
  · rw [same.files parser (not_or.mpr ⟨isTree, apart⟩)]
    simp only [ne_eq, isTree, not_false_eq_true, true_implies]

theorem Memory.SameBut.parser_there {memory : Memory} {tree : StoredFile}
    (same : memory.SameBut source after) (there : memory.files.contains parser = true)
    (apart : Path.place parser ≠ Path.place (memory.roots.outputPath source))
    (found : after.files.get? (memory.roots.treePath source) = some tree) :
    after.files.contains parser = true := by
  by_cases isTree : Path.place parser = Path.place (memory.roots.treePath source)
  · rw [FileTable.contains, FileTable.get?_congr after.files isTree, found,
      Option.isSome_some]
  · rwa [FileTable.contains, same.files parser (not_or.mpr ⟨isTree, apart⟩)]

/-- What a call left is settled, unless it has parsed and the source or the parser is
dated ahead. -/
theorem Ends.settled_iff (ends : Ends compiler source parser (.ok compiled) after)
    (there : compiler.files.files.contains parser = true)
    (apart : Path.place parser ≠ Path.place (compiler.files.roots.outputPath source)) :
    after.Settled source parser ↔
      (compiled.parsed = true → ¬compiler.files.Ahead source ∧
        (Path.place parser ≠ Path.place (compiler.files.roots.treePath source) →
          ¬compiler.files.Ahead parser)) := by
  have unchanged := ends.sameBut
  cases ends with
  | fresh present current output =>
      simp only [Bool.false_eq_true, false_implies, iff_true]
      refine ⟨there, ?_, current, output⟩
      rw [FileTable.contains, present, Option.isSome_some]
  | @compiled _ middle _ _ tree php present parses needed found translated same =>
      have roots := unchanged.roots
      have treeAfter : after.files.get? (compiler.files.roots.treePath source) =
          some tree := by
        rw [same.files, Memory.get?_put_of_ne _ _
          (Roots.place_treePath_ne_outputPath _ _ _),
          found]
      have older : (Freshness.load after source parser).needsParse = false ↔ _ :=
        Freshness.needsParse_eq_false_iff after source parser
      simp only [roots, treeAfter, Option.some.injEq, exists_eq_left',
        unchanged.source_eq,
        unchanged.parser_older_iff apart treeAfter, parses.current_iff found] at older
      rw [← older]
      refine ⟨fun settled => settled.current, fun current => ⟨?_, ?_, current, ?_⟩⟩
      · exact unchanged.parser_there there apart treeAfter
      · rw [FileTable.contains, unchanged.source_eq, present, Option.isSome_some]
      · rw [roots, FileTable.contains, same.files, Memory.get?_put_self,
          Option.isSome_some]

end Endings

namespace Compiler

theorem parser_there_of_ok {before after : Compiler Memory} {path : String}
    {compiled : CompiledFile} (done : compileFile path before = .ok compiled after) :
    before.files.files.contains before.parserFile = true := by
  by_contra absent
  rw [compileFile_eq before path before.parserFile rfl, if_neg absent] at done
  cases done

theorem compileFile_ok {before after : Compiler Memory} {path : String}
    {compiled : CompiledFile} (done : compileFile path before = .ok compiled after) :
    before.SameSetup after ∧
      Ends before (before.sourceFile path) before.parserFile (.ok compiled)
        after.files := by
  rw [compileFile_of_present before path (parser_there_of_ok done)] at done
  exact compileSource_ok done

/-- A call leaves everything as it is exactly if there is nothing to do. -/
theorem compileFile_eq_self_iff (compiler : Compiler Memory) (path : String) :
    compileFile path compiler =
        .ok ⟨compiler.sourceFile path,
          compiler.files.roots.outputPath (compiler.sourceFile path), false, none⟩
            compiler ↔
      compiler.files.Settled (compiler.sourceFile path) compiler.parserFile := by
  constructor
  · intro done
    exact (compileFile_ok done).2.settled_of_none (parser_there_of_ok done) rfl
  · intro settled
    rw [compileFile_of_present compiler path settled.parserThere,
      compileSource_eq compiler path compiler.parserFile (compiler.sourceFile path) rfl,
      if_pos settled.sourceThere, settled.current, if_neg Bool.false_ne_true,
      if_pos settled.outputThere]

end Compiler

/-- A call that succeeded can be made again at once: it names the same files, has nothing
to do and leaves everything as it is, exactly if the first one did not parse, or if
neither the source nor the parser is dated ahead. A parser that lies where the tree does
was dated anew. Where no file is later than the clock, none is after the call, and none is
dated ahead. -/
theorem compileFile_again_iff {before after : Compiler Memory} {path : String}
    {compiled : CompiledFile} (apart : Path.place before.parserFile ≠
      Path.place (before.files.roots.outputPath (before.sourceFile path)))
    (done : Compiler.compileFile path before = .ok compiled after) :
    (Compiler.compileFile path after =
      .ok { compiled with parsed := false, php := none } after ↔
      (compiled.parsed = true → ¬before.files.Ahead (before.sourceFile path) ∧
        (Path.place before.parserFile ≠
            Path.place (before.files.roots.treePath (before.sourceFile path)) →
          ¬before.files.Ahead before.parserFile))) ∧
    (before.files.Timely →
      after.files.Timely ∧ ∀ file, ¬before.files.Ahead file) := by
  rcases Compiler.compileFile_ok done with ⟨setup, ends⟩
  have roots := ends.sameBut.roots
  have source : after.sourceFile path = before.sourceFile path := by
    rw [Compiler.sourceFile, Compiler.sourceFile, roots]
  have parser : after.parserFile = before.parserFile := by
    rw [Compiler.parserFile, Compiler.parserFile, roots, setup.options]
  have settled := ends.settled_iff (Compiler.parser_there_of_ok done) apart
  have again := Compiler.compileFile_eq_self_iff after path
  rw [source, parser, roots, settled] at again
  rw [ends.paths_eq.1, ends.paths_eq.2]
  exact ⟨again, fun timely => ⟨ends.timely timely, timely.not_ahead⟩⟩

/-- The first of three sources, which has no artifacts yet. -/
theorem compileFile_again_of_new :
    ∃ compiled after, Compiler.compileFile "a.zep" mixedCompiler = .ok compiled after ∧
      compiled.parsed = true ∧ compiled.php.isSome = true ∧
      Compiler.compileFile "a.zep" after =
        .ok { compiled with parsed := false, php := none } after := by
  have apart : Path.place mixedCompiler.parserFile ≠
      Path.place (mixedCompiler.files.roots.outputPath
        (mixedCompiler.sourceFile "a.zep")) := by
    decide +kernel
  have timely : mixedCompiler.files.Timely := by
    refine Memory.Timely.put (.put (.put (.put ?_ _ _) _ _) _ _) _ _
    rintro path file ⟨⟩
  have succeeds : ((EStateM.outcome (Compiler.compileFile "a.zep" mixedCompiler)).map
      fun compiled => compiled.parsed && compiled.php.isSome).toOption = some true := by
    decide +kernel
  cases done : Compiler.compileFile "a.zep" mixedCompiler with
  | error diagnostic after =>
      rw [done] at succeeds
      cases succeeds
  | ok compiled after =>
      rw [done] at succeeds
      have made := Bool.and_eq_true_iff.mp (Option.some.inj succeeds)
      rcases compileFile_again_iff apart done with ⟨again, clocked⟩
      have early := (clocked timely).2
      exact ⟨compiled, after, rfl, made.1, made.2,
        again.mpr fun _ => ⟨early _, fun _ => early _⟩⟩

/-- A source and a parser with times of their own, at clock two. -/
def datedCompiler (sourceTime parserTime : Nat) : Compiler Memory :=
  { files :=
      { roots := ⟨"/s", "/o", "/p"⟩
        files :=
          FileTable.ofEntries
            [("/parser", ⟨"", parserTime⟩), ("/s/a.zep", ⟨"", sourceTime⟩)]
        printed := FileTable.ofEntries [("/s/a.zep", ⟨"[]", .code 0⟩)]
        clock := 2 }
    options := { parser := some "/parser" } }

/-- If the source or the parser is dated ahead, the second call parses and compiles
again. -/
theorem compileFile_not_again_of_ahead :
    let twice (compiler : Compiler Memory) :=
      let first := Compiler.compileFile "a.zep" compiler
      let second := Compiler.compileFile "a.zep" (EStateM.final first)
      (EStateM.outcome first, EStateM.outcome second,
        (EStateM.final second).files.files.get? "/o/_s_a.zep.js")
    let parsed : Except Diagnostic CompiledFile :=
      .ok ⟨"/s/a.zep", "/o/_s_a.zep.php", true, some "<?php\n"⟩
    let idle : Except Diagnostic CompiledFile :=
      .ok ⟨"/s/a.zep", "/o/_s_a.zep.php", false, none⟩
    twice (datedCompiler 2 1) = (parsed, idle, some ⟨"[]", 3⟩) ∧
    twice (datedCompiler 100 1) = (parsed, parsed, some ⟨"[]", 5⟩) ∧
    twice (datedCompiler 2 100) = (parsed, parsed, some ⟨"[]", 5⟩) := by
  decide +kernel

end ZephirPhp
