import Mathlib.Data.List.Nodup
import ZephirPhp.Proofs.Build.History
import ZephirPhp.Proofs.Build.Listing
import ZephirPhp.Proofs.Runs

/-! # Files that do not influence each other

A build of a directory passes one state from source to source: the clock, the files and
the journal. What a call makes of its source depends on little of that state, namely on
the source, its two artifacts and the parser, and it changes no file but these artifacts.
Where no two sources share artifacts, the calls can thus be made in any order, and each
gives what it would have given alone.
-/

namespace ZephirPhp

namespace Memory

/-- The text of a file, if it is there. -/
def text? (memory : Memory) (path : String) : Option String :=
  (memory.files.get? path).map (·.text)

/-- Which operations fail does not change with time. -/
def Steady (memory : Memory) : Prop :=
  ∀ time other operation, memory.fails time operation = memory.fails other operation

/-- Two memories that a call on a source cannot tell apart, once it has read the times:
the same operations fail, the parser prints the same, and the watched files have the same
texts. -/
structure Alike (watched : String → Prop) (left right : Memory) : Prop where
  printed : right.printed = left.printed
  fails : ∀ time other operation, left.fails time operation = right.fails other operation
  texts : ∀ path, watched path → left.text? path = right.text? path

variable {memory left right : Memory} {watched : String → Prop} {path text : String}

theorem text?_of_get?_eq {other : Memory}
    (same : memory.files.get? path = other.files.get? path) :
    memory.text? path = other.text? path := by
  rw [text?, text?, same]

theorem text?_put (memory : Memory) (path text other : String) :
    (memory.put path text).text? other =
      if Path.place other = Path.place path then some text else memory.text? other := by
  split
  · rename_i same
    rw [text?, FileTable.get?_congr _ same, get?_put_self]
    rfl
  · rename_i different
    exact text?_of_get?_eq (get?_put_of_ne memory text different)

theorem text?_delete (memory : Memory) (path other : String) :
    (memory.delete path).text? other =
      if Path.place other = Path.place path then none else memory.text? other := by
  split
  · rename_i same
    rw [text?, FileTable.get?_congr _ same, get?_delete_self]
    rfl
  · rename_i different
    exact text?_of_get?_eq (get?_delete_of_ne memory different)

namespace Alike

theorem logged (alike : Alike watched left right) (events otherEvents : List FileEvent) :
    Alike watched { left with events } { right with events := otherEvents } :=
  ⟨alike.printed, alike.fails, alike.texts⟩

theorem put (alike : Alike watched left right) (path text : String) :
    Alike watched (left.put path text) (right.put path text) where
  printed := alike.printed
  fails := alike.fails
  texts other member := by rw [text?_put, text?_put, alike.texts other member]

theorem delete (alike : Alike watched left right) (path : String) :
    Alike watched (left.delete path) (right.delete path) where
  printed := alike.printed
  fails := alike.fails
  texts other member := by rw [text?_delete, text?_delete, alike.texts other member]

theorem printedFor (alike : Alike watched left right) (arguments : List String) :
    right.printedFor arguments = left.printedFor arguments := by
  cases arguments with
  | nil => rfl
  | cons source rest => rw [Memory.printedFor, Memory.printedFor, alike.printed]

end Alike

/-! ## Calls on memories that are alike -/

theorem perform_coupled {α : Type} {action : FileAction Memory α}
    (operation : FileOperation) (event : FileEvent)
    (coupled : EStateM.Coupled Eq (Alike watched) action action) :
    EStateM.Coupled Eq (Alike watched) (perform operation event action)
      (perform operation event action) := by
  intro left right alike
  simp only [perform, alike.fails left.events.length right.events.length operation]
  split
  · exact .error (alike.logged _ _)
  · exact coupled _ _ (alike.logged _ _)

theorem read_coupled (member : watched path) :
    EStateM.Coupled Eq (Alike watched) (FileSystem.read path : FileAction Memory String)
      (FileSystem.read path) := by
  refine perform_coupled .read (.read path) fun left right alike => ?_
  have same := alike.texts path member
  rw [text?, text?] at same
  cases found : left.files.get? path with
  | none =>
      cases other : right.files.get? path with
      | none => exact .error alike
      | some file => simp [found, other] at same
  | some file =>
      cases other : right.files.get? path with
      | none => simp [found, other] at same
      | some otherFile => exact .ok (by simpa [found, other] using same) alike

theorem write_coupled (path text : String) :
    EStateM.Coupled Eq (Alike watched)
      (FileSystem.write path text : FileAction Memory Unit)
      (FileSystem.write path text) :=
  perform_coupled .write (.write path) fun _ _ alike => .ok rfl (alike.put path text)

theorem remove_coupled (path : String) :
    EStateM.Coupled Eq (Alike watched) (FileSystem.remove path : FileAction Memory Unit)
      (FileSystem.remove path) :=
  perform_coupled .remove (.remove path) fun _ _ alike => .ok rfl (alike.delete path)

theorem run_coupled (command : String) (arguments : List String) (target : String) :
    EStateM.Coupled Eq (Alike watched)
      (FileSystem.run command arguments target : FileAction Memory ExitStatus)
      (FileSystem.run command arguments target) := by
  refine perform_coupled .run (.run command arguments target) fun left right alike => ?_
  rw [alike.printedFor arguments]
  exact .ok rfl (alike.put target _)

end Memory

/-- Two memories that agree on all that a call on a source looks at. -/
structure Memory.AgreeOn (source parser : String) (left right : Memory) : Prop where
  roots : right.roots = left.roots
  printed : right.printed = left.printed
  fails : ∀ time other operation, left.fails time operation = right.fails other operation
  files : ∀ path ∈ [source, left.roots.treePath source,
    left.roots.outputPath source, parser],
    right.files.get? path = left.files.get? path

namespace Memory.AgreeOn

variable {left right : Memory} {source parser : String}

theorem alike (agree : AgreeOn source parser left right) :
    left.Alike (left.roots.IsArtifact source) right where
  printed := agree.printed
  fails := agree.fails
  texts path member := by
    refine text?_of_get?_eq ?_
    rcases member with same | same
    · rw [FileTable.get?_congr _ same, FileTable.get?_congr right.files same]
      exact (agree.files _ (by simp)).symm
    · rw [FileTable.get?_congr _ same, FileTable.get?_congr right.files same]
      exact (agree.files _ (by simp)).symm

theorem load_eq (agree : AgreeOn source parser left right) :
    Freshness.load right source parser = Freshness.load left source parser := by
  have time {path : String} (member : path ∈ [source, left.roots.treePath source,
      left.roots.outputPath source, parser]) :
      FileSystem.modificationTime? right path =
        FileSystem.modificationTime? left path := by
    change (right.files.get? path).map _ = (left.files.get? path).map _
    rw [agree.files path member]
  have resolve (name : String) :
      FileSystem.resolve right .output name = FileSystem.resolve left .output name := by
    change Path.join right.roots.output name = Path.join left.roots.output name
    rw [agree.roots]
  simp only [Freshness.load, resolve]
  congr 1
  · exact time (by simp)
  · exact time (List.mem_cons_of_mem _ List.mem_cons_self)
  · exact time (List.mem_cons_of_mem _ (List.mem_cons_of_mem _ List.mem_cons_self))
  · exact time (by simp)

end Memory.AgreeOn

namespace Compiler

/-- Two compilers with the standard stages whose files are alike. -/
structure Alike (setting : Setting) (watched : String → Prop)
    (left right : Compiler Memory) :
    Prop where
  leftStages : left.pipeline = Pipeline.standard setting
  rightStages : right.pipeline = Pipeline.standard setting
  files : left.files.Alike watched right.files

variable {α : Type} {setting : Setting} {watched : String → Prop} {freshness : Freshness}

theorem onFiles_coupled {action : FileAction Memory α}
    (coupled : EStateM.Coupled Eq (Memory.Alike watched) action action) :
    EStateM.Coupled Eq (Alike setting watched) (onFiles action) (onFiles action) := by
  intro left right alike
  have ended := coupled left.files right.files alike.files
  simp only [onFiles]
  generalize action left.files = run at ended ⊢
  generalize action right.files = otherRun at ended ⊢
  cases ended with
  | ok value related => exact .ok value ⟨alike.leftStages, alike.rightStages, related⟩
  | error related => exact .error ⟨alike.leftStages, alike.rightStages, related⟩

theorem ofExcept_coupled (result : Except Diagnostic α) :
    EStateM.Coupled Eq (Alike setting watched) (ofExcept result) (ofExcept result) := by
  cases result with
  | ok value => exact .pure rfl
  | error diagnostic => exact .throw diagnostic

/-- What the standard stages make of nodes depends neither on the journal nor on whether
they are prepared. -/
theorem compileNodes_coupled (nodes : List Node) :
    EStateM.Coupled Eq (Alike setting watched) (compileNodes nodes)
      (compileNodes nodes) := by
  intro left right alike
  have leftEnds := compileNodes_ends left nodes
  have rightEnds := compileNodes_ends right nodes
  rw [result_standard alike.leftStages] at leftEnds
  rw [result_standard alike.rightStages] at rightEnds
  have after : Alike setting watched (EStateM.final (compileNodes nodes left))
      (EStateM.final (compileNodes nodes right)) :=
    ⟨leftEnds.setup.pipeline.trans alike.leftStages,
      rightEnds.setup.pipeline.trans alike.rightStages,
      leftEnds.files ▸ rightEnds.files ▸ alike.files⟩
  exact .of_outcome_eq (leftEnds.outcome.trans rightEnds.outcome.symm) after

theorem parseSource_coupled (freshness : Freshness) (parser : String) :
    EStateM.Coupled Eq (Alike setting watched) (parseSource freshness parser)
      (parseSource freshness parser) := by
  refine .bind (onFiles_coupled (Memory.run_coupled _ _ _)) ?_
  rintro status _ rfl
  split
  · exact .bind (onFiles_coupled (Memory.remove_coupled _)) fun _ _ _ => .throw _
  · exact .pure rfl

theorem compileTree_coupled (member : watched freshness.treePath) :
    EStateM.Coupled Eq (Alike setting watched) (compileTree freshness)
      (compileTree freshness) := by
  rw [compileTree_eq]
  refine .bind (onFiles_coupled (Memory.read_coupled member)) ?_
  rintro text _ rfl
  refine .bind (ofExcept_coupled _) ?_
  rintro nodes _ rfl
  refine .bind (compileNodes_coupled nodes) ?_
  rintro php _ rfl
  exact .bind (onFiles_coupled (Memory.write_coupled _ _)) fun _ _ _ => .pure rfl

/-- A call on a source gives the same and leaves the same artifacts in compilers that
agree on the source. The times are compared once, at the start, where they are equal. -/
theorem compileSource_endAlike {left right : Compiler Memory}
    {path source parser : String}
    (leftStages : left.pipeline = Pipeline.standard setting)
    (rightStages : right.pipeline = Pipeline.standard setting)
    (resolved : left.sourceFile path = source)
    (agree : left.files.AgreeOn source parser right.files) :
    EStateM.EndAlike Eq (Alike setting (left.files.roots.IsArtifact source))
      (compileSource path parser left) (compileSource path parser right) := by
  have start : Alike setting (left.files.roots.IsArtifact source) left right :=
    ⟨leftStages, rightStages, agree.alike⟩
  have compiled : EStateM.Coupled Eq (Alike setting (left.files.roots.IsArtifact source))
      (compileTree (Freshness.load left.files source parser))
      (compileTree (Freshness.load left.files source parser)) :=
    compileTree_coupled (.inl (by rw [Freshness.load_treePath]))
  have contains {file : String}
      (member : file ∈ [source, left.files.roots.treePath source,
      left.files.roots.outputPath source, parser]) :
      right.files.files.contains file = left.files.files.contains file := by
    rw [FileTable.contains, FileTable.contains, agree.files file member]
  have resolvedRight : right.sourceFile path = source := by
    rw [sourceFile, agree.roots, ← resolved, sourceFile]
  rw [compileSource_eq left path parser source resolved,
    compileSource_eq right path parser source resolvedRight, agree.load_eq, agree.roots,
    contains (by simp), contains (by simp)]
  split
  · split
    · refine EStateM.Coupled.bind (parseSource_coupled _ parser)
        (fun _ _ _ => ?_) _ _ start
      refine .bind compiled ?_
      rintro php _ rfl
      exact .pure rfl
    · split
      · exact .ok rfl start
      · refine EStateM.Coupled.bind compiled ?_ _ _ start
        rintro php _ rfl
        exact .pure rfl
  · exact .error start

end Compiler

/-! ## Call after call -/

namespace Compiler

variable {setting : Setting} {before after compiler : Compiler Memory}
  {path parser : String}

/-- Each listed source has artifacts of its own, and the parser is none of them. -/
structure Separated (compiler : Compiler Memory) : Prop where
  distinct : (compiler.listing.map fun path =>
    Freshness.baseName (compiler.sourceFile path)).Nodup
  parserApart : ∀ path ∈ compiler.listing,
    ¬compiler.files.roots.IsArtifact (compiler.sourceFile path) compiler.parserFile

/-- The state of a build that is through with some sources. The artifacts of these are as
each source alone would have left them, and all other files are as they were. -/
structure Reached (before : Compiler Memory) (finished : List String)
    (compiler : Compiler Memory) : Prop where
  setup : before.SameSetup compiler
  roots : compiler.files.roots = before.files.roots
  printed : compiler.files.printed = before.files.printed
  fails : compiler.files.fails = before.files.fails
  made : ∀ path ∈ finished, ∀ file,
    before.files.roots.IsArtifact (before.sourceFile path) file →
      compiler.files.text? file =
        (EStateM.final (compileSource path before.parserFile before)).files.text? file
  untouched : ∀ file,
    (∀ path ∈ finished, ¬before.files.roots.IsArtifact (before.sourceFile path) file) →
      compiler.files.files.get? file = before.files.files.get? file

theorem Separated.isArtifact_unique (separated : before.Separated) {other file : String}
    (listed : path ∈ before.listing) (otherListed : other ∈ before.listing)
    (artifact : before.files.roots.IsArtifact (before.sourceFile path) file)
    (shared : before.files.roots.IsArtifact (before.sourceFile other) file) :
    path = other := by
  refine List.inj_on_of_nodup_map separated.distinct listed otherListed ?_
  exact before.files.roots.baseName_eq_of_isArtifact artifact shared

/-- What lies at a source, at its artifacts and at the parser is no artifact of another
source. -/
theorem Separated.apart (separated : before.Separated) {other file : String}
    (listed : path ∈ before.listing) (otherListed : other ∈ before.listing)
    (different : other ≠ path)
    (member : file ∈ [before.sourceFile path,
      before.files.roots.treePath (before.sourceFile path),
      before.files.roots.outputPath (before.sourceFile path), before.parserFile]) :
    ¬before.files.roots.IsArtifact (before.sourceFile other) file := by
  have own : before.files.roots.IsArtifact (before.sourceFile path) file →
      ¬before.files.roots.IsArtifact (before.sourceFile other) file :=
        fun artifact shared =>
    different (separated.isArtifact_unique otherListed listed shared artifact)
  simp only [List.mem_cons, List.not_mem_nil, or_false] at member
  rcases member with rfl | tree | output | rfl
  · have isSource := Path.extension?_join before.files.roots.input
      (extension?_of_mem_listing path listed)
    exact before.files.roots.not_isArtifact_of_source (before.sourceFile other) isSource
  · exact own (.inl (congrArg Path.place tree))
  · exact own (.inr (congrArg Path.place output))
  · exact separated.parserApart other otherListed

namespace Reached

variable {finished : List String}

theorem start (before : Compiler Memory) : before.Reached [] before :=
  ⟨.refl before, rfl, rfl, rfl, by simp, fun _ _ => rfl⟩

/-- A source that is still to come is as it was at the start. -/
theorem agreeOn (reached : before.Reached finished compiler)
    (steady : before.files.Steady) (separated : before.Separated)
    (listed : path ∈ before.listing)
    (others : ∀ other ∈ finished, other ∈ before.listing ∧ other ≠ path) :
    before.files.AgreeOn (before.sourceFile path) before.parserFile compiler.files where
  roots := reached.roots
  printed := reached.printed
  fails time other operation := by rw [reached.fails, steady time other operation]
  files file member := reached.untouched file fun other finished =>
    separated.apart listed (others other finished).1 (others other finished).2 member

/-- The next call gives what it would have given at the start. -/
theorem next (reached : before.Reached finished compiler)
    (standard : before.pipeline = Pipeline.standard setting)
    (steady : before.files.Steady) (separated : before.Separated)
    (listed : path ∈ before.listing)
    (others : ∀ other ∈ finished, other ∈ before.listing ∧ other ≠ path) :
    EStateM.outcome (compileSource path before.parserFile compiler) =
        EStateM.outcome (compileSource path before.parserFile before) ∧
      before.Reached (finished ++ [path])
        (EStateM.final (compileSource path before.parserFile compiler)) := by
  have stages : compiler.pipeline = Pipeline.standard setting :=
    reached.setup.pipeline.trans standard
  have ended := compileSource_endAlike standard stages rfl
    (reached.agreeOn steady separated listed others)
  rcases compileSource_ends compiler path before.parserFile with ⟨setup, ends⟩
  have same := ends.sameBut
  have looked : compiler.sourceFile path = before.sourceFile path := by
    rw [sourceFile, reached.roots, sourceFile]
  rw [looked] at same
  have unchanged {file : String}
      (other : ¬before.files.roots.IsArtifact (before.sourceFile path) file) :=
    same.files file (reached.roots ▸ other)
  refine ⟨ended.outcome_eq.symm, reached.setup.trans setup,
    same.roots.trans reached.roots,
    same.printed.trans reached.printed, same.fails.trans reached.fails, ?_, ?_⟩
  · intro other member file artifact
    rcases List.mem_append.mp member with member | member
    · have apart : ¬before.files.roots.IsArtifact (before.sourceFile path) file := by
        intro shared
        exact (others other member).2
          (separated.isArtifact_unique (others other member).1 listed artifact shared)
      rw [Memory.text?_of_get?_eq (unchanged apart)]
      exact reached.made other member file artifact
    · cases List.mem_singleton.mp member
      exact (ended.final.files.texts file artifact).symm
  · intro file apart
    rw [unchanged (apart path (by simp))]
    exact reached.untouched file fun other member => apart other (by simp [member])

/-- Two builds that are through with the same sources have left the same texts. -/
theorem text?_eq {other : Compiler Memory} {otherFinished : List String}
    (reached : before.Reached finished compiler)
    (otherReached : before.Reached otherFinished other)
    (same : ∀ path, path ∈ finished ↔ path ∈ otherFinished) (file : String) :
    compiler.files.text? file = other.files.text? file := by
  by_cases artifact : ∃ path ∈ finished,
      before.files.roots.IsArtifact (before.sourceFile path) file
  · rcases artifact with ⟨path, member, artifact⟩
    rw [reached.made path member file artifact,
      otherReached.made path ((same path).mp member) file artifact]
  · have apart : ∀ path ∈ finished,
        ¬before.files.roots.IsArtifact (before.sourceFile path) file :=
      fun path member shared => artifact ⟨path, member, shared⟩
    refine Memory.text?_of_get?_eq ?_
    rw [reached.untouched file apart,
      otherReached.untouched file fun path member => apart path ((same path).mpr member)]

end Reached

/-- What a call on a file returns from this state. -/
def alone (compiler : Compiler Memory) (path : String) : Except Diagnostic CompiledFile :=
  EStateM.outcome (compileFile path compiler)

/-- How a failure on a path is noted. -/
def failureOf? (path : String) :
    Except Diagnostic CompiledFile → Option (String × Diagnostic)
  | .ok _ => none
  | .error diagnostic => some (path, diagnostic)

namespace Reached

variable {finished : List String} {keepGoing : Bool} {report result : BuildReport}

/-- The sources of which some are through are all listed, and none is met twice. -/
theorem others (separated : before.Separated) {rest : List String}
    (whole : (finished ++ path :: rest).Perm before.listing) :
    path ∈ before.listing ∧ ∀ other ∈ finished, other ∈ before.listing ∧
      other ≠ path := by
  have nodup : (finished ++ path :: rest).Nodup :=
    whole.nodup_iff.mpr (List.Nodup.of_map _ separated.distinct)
  refine ⟨whole.mem_iff.mp (by simp), fun other member =>
    ⟨whole.mem_iff.mp (by simp [member]), ?_⟩⟩
  rintro rfl
  exact (List.nodup_append.mp nodup).2.2 other member other List.mem_cons_self rfl

/-- Source after source, a build of many notes what each gives alone. -/
theorem compileSources (reached : before.Reached finished compiler)
    (standard : before.pipeline = Pipeline.standard setting)
    (steady : before.files.Steady) (separated : before.Separated)
    (present : before.files.files.contains before.parserFile = true)
    (rest : List String) (whole : (finished ++ rest).Perm before.listing)
    (done : compileSources keepGoing before.parserFile rest report compiler =
      .ok result after) :
    result.compiled = report.compiled ++
      rest.filterMap (fun path => (before.alone path).toOption) ∧
      result.failures =
        report.failures ++
          rest.filterMap (fun path => failureOf? path (before.alone path)) ∧
      before.Reached (finished ++ rest) after := by
  induction rest generalizing finished report compiler with
  | nil =>
      cases done
      simpa using reached
  | cons path rest induction =>
      rcases others separated whole with ⟨listed, apart⟩
      rcases reached.next standard steady separated listed apart with ⟨same, later⟩
      rw [← compileFile_of_present before path present, ← alone] at same
      have wholeLater : (finished ++ [path] ++ rest).Perm before.listing := by
        simpa using whole
      rcases compileSources_cons_ok done with
        ⟨compiled, middle, called, continued⟩ | ⟨diagnostic, middle, called, continued⟩
      · rw [called] at same later
        rcases induction later wholeLater continued with ⟨made, failed, final⟩
        simp only [EStateM.outcome] at same
        refine ⟨?_, ?_, by simpa using final⟩
        · simp [made, ← same, Except.toOption]
        · simp [failed, ← same, failureOf?]
      · rw [called] at same later
        rcases induction later wholeLater continued with ⟨made, failed, final⟩
        simp only [EStateM.outcome] at same
        refine ⟨?_, ?_, by simpa using final⟩
        · simp [made, ← same, Except.toOption]
        · simp [failed, ← same, failureOf?]

/-- Calls on single files, one after the other. -/
theorem applyAll (reached : before.Reached finished compiler)
    (standard : before.pipeline = Pipeline.standard setting)
    (steady : before.files.Steady) (separated : before.Separated)
    (present : before.files.files.contains before.parserFile = true)
    (rest : List String) (whole : (finished ++ rest).Perm before.listing) :
    before.Reached (finished ++ rest) (Event.applyAll (rest.map .compile) compiler) := by
  induction rest generalizing finished compiler with
  | nil => simpa [Event.applyAll] using reached
  | cons path rest induction =>
      rcases others separated whole with ⟨listed, apart⟩
      have later := (reached.next standard steady separated listed apart).2
      have parser : compiler.parserFile = before.parserFile := by
        rw [parserFile, parserFile, reached.roots, reached.setup.options]
      have found : compiler.files.files.contains compiler.parserFile = true := by
        rw [parser, FileTable.contains,
          reached.untouched before.parserFile fun other member =>
          separated.parserApart other (apart other member).1]
        exact present
      have called : Event.apply (.compile path) compiler =
          EStateM.final (compileSource path before.parserFile compiler) := by
        rw [← parser, ← compileFile_of_present compiler path found]
        rw [Event.apply]
        cases compileFile path compiler <;> rfl
      rw [← called] at later
      have wholeLater : (finished ++ [path] ++ rest).Perm before.listing := by
        simpa using whole
      have final := induction later wholeLater
      rw [List.append_assoc] at final
      exact final

end Reached

theorem sources_eq (compiler : Compiler Memory)
    (lists : compiler.files.fails compiler.files.events.length .list = false) :
    sources compiler = .ok compiler.listing compiler := by
  simp only [sources, EStateM.bind_apply, EStateM.get_apply, FileSystem.list, lists]
  rfl

end Compiler

/-- A build of a directory lists its sources and notes for each of them, in their order,
what a call on that file alone returns from the state before the build. The texts that it
leaves are those that calls on the single files leave, in whatever order they are made. -/
theorem compileAll_independent {setting : Setting} {keepGoing : Bool}
    {before after : Compiler Memory} {report : BuildReport}
    (standard : before.pipeline = Pipeline.standard setting)
    (steady : before.files.Steady) (separated : before.Separated)
    (done : Compiler.compileAll keepGoing before = .ok report after) :
    Compiler.sources before = .ok before.listing before ∧
    report.compiled = before.listing.filterMap
      (fun path => (before.alone path).toOption) ∧
    report.failures =
      before.listing.filterMap
        (fun path => Compiler.failureOf? path (before.alone path)) ∧
    ∀ order : List String, order.Perm before.listing → ∀ file,
      (Event.applyAll (order.map .compile) before).files.text? file =
        after.files.text? file := by
  rw [Compiler.compileAll_eq before before.parserFile rfl] at done
  split at done
  · rename_i present
    split at done
    · cases done
    · rename_i lists
      rcases (Compiler.Reached.start before).compileSources standard steady
        separated present
        before.listing (.refl _) done with ⟨compiled, failures, final⟩
      refine ⟨Compiler.sources_eq before (by simpa using lists), by simpa using compiled,
        by simpa using failures, ?_⟩
      intro order permuted file
      have reached :=
        (Compiler.Reached.start before).applyAll standard steady separated present
          order permuted
      exact reached.text?_eq final (fun path => permuted.mem_iff) file
  · cases done

/-- Three sources. The parser fails on the second of them. -/
def mixedCompiler : Compiler Memory :=
  let empty : Memory :=
    { roots := ⟨"/s", "/o", "/p"⟩
      printed := FileTable.ofEntries
        [("/s/a.zep", ⟨"[]", .code 0⟩), ("/s/b.zep", ⟨"[", .code 1⟩),
          ("/s/c.zep", ⟨"[\x7b\"type\":\"namespace\",\"name\":\"A\"\x7d]", .code 0⟩)] }
  let stored :=
    (((empty.put "/parser" "").put "/s/a.zep" "").put "/s/b.zep" "").put "/s/c.zep" ""
  Compiler.standard stored { parser := some "/parser" }

/-- The failure of the second source does not show in the others, whichever comes
first. -/
theorem compileAll_independent_of_failure :
    ∃ report after, Compiler.compileAll true mixedCompiler = .ok report after ∧
      report.compiled.map (·.source) = ["/s/a.zep", "/s/c.zep"] ∧
      report.failures = [("/s/b.zep", .failedParser "/s/b.zep" (.code 1))] ∧
      ∀ file, (Event.applyAll
        ([.compile "/s/b.zep", .compile "/s/c.zep", .compile "/s/a.zep"])
        mixedCompiler).files.text? file = after.files.text? file := by
  have standard : mixedCompiler.pipeline = Pipeline.standard {} := rfl
  have steady : mixedCompiler.files.Steady := fun _ _ _ => rfl
  have listing : mixedCompiler.listing = ["/s/a.zep", "/s/b.zep", "/s/c.zep"] := by
    decide +kernel
  have separated : mixedCompiler.Separated := ⟨by decide +kernel, by decide +kernel⟩
  rcases Compiler.compileAll_total standard (by decide +kernel)
    (by rintro operation ⟨_, ⟨⟩⟩) with ⟨report, after, done⟩
  rcases compileAll_independent standard steady separated done with
    ⟨_, compiled, failures, texts⟩
  rw [listing] at compiled failures texts
  have same := texts ["/s/b.zep", "/s/c.zep", "/s/a.zep"]
    (@List.perm_append_comm _ ["/s/b.zep", "/s/c.zep"] ["/s/a.zep"])
  simp only [List.map_cons, List.map_nil] at same
  refine ⟨report, after, done, ?_, ?_, same⟩
  · rw [compiled]
    decide +kernel
  · rw [failures]
    decide +kernel

end ZephirPhp
