import ZephirPhp.Proofs.Build.Artifacts
import ZephirPhp.Proofs.Build.Translation
import ZephirPhp.Proofs.Runs

/-! # What a call does to its files

A call of the compiler on one source can end at many places: the source is missing, the
parser does not start or fails, what it printed cannot be removed or read, the stages
refuse the tree, or the PHP file cannot be written. `Ends` lists these places for any
stages, each with what the call found and with the files that it left. Whatever is
proved about calls starts from that list.
-/

namespace ZephirPhp

namespace Memory

/-- Two memories that differ at most in their logs. -/
structure SameFiles (left right : Memory) : Prop where
  roots : right.roots = left.roots
  files : right.files = left.files
  clock : right.clock = left.clock
  printed : right.printed = left.printed
  fails : right.fails = left.fails

/-- An operation that fails at some time. -/
def Fails (memory : Memory) (operation : FileOperation) : Prop :=
  ∃ time, memory.fails time operation = true

namespace SameFiles

variable {left middle right : Memory}

theorem refl (memory : Memory) : memory.SameFiles memory :=
  ⟨rfl, rfl, rfl, rfl, rfl⟩

theorem logged (memory : Memory) (events : List FileEvent) :
    memory.SameFiles { memory with events } :=
  ⟨rfl, rfl, rfl, rfl, rfl⟩

theorem trans (first : left.SameFiles middle) (second : middle.SameFiles right) :
    left.SameFiles right :=
  ⟨second.roots.trans first.roots, second.files.trans first.files,
    second.clock.trans first.clock, second.printed.trans first.printed,
    second.fails.trans first.fails⟩

theorem put (same : left.SameFiles right) (path text : String) :
    (left.put path text).SameFiles (right.put path text) :=
  ⟨same.roots, by simp only [Memory.put, same.files, same.clock],
    by simp only [Memory.put, same.clock], same.printed, same.fails⟩

theorem delete (same : left.SameFiles right) (path : String) :
    (left.delete path).SameFiles (right.delete path) :=
  ⟨same.roots, by simp only [Memory.delete, same.files], same.clock,
    same.printed, same.fails⟩

theorem printedFor (same : left.SameFiles right) (arguments : List String) :
    right.printedFor arguments = left.printedFor arguments := by
  simp only [Memory.printedFor, same.printed]

theorem fails_iff (same : left.SameFiles right) (operation : FileOperation) :
    right.Fails operation ↔ left.Fails operation := by
  rw [Fails, Fails, same.fails]

end SameFiles

/-! ## Operations on files -/

@[simp] theorem get?_put_self (memory : Memory) (path text : String) :
    (memory.put path text).files.get? path = some ⟨text, memory.clock + 1⟩ := by
  simp [put]

theorem get?_put_of_ne (memory : Memory) {path other : String} (text : String)
    (different : Path.place other ≠ Path.place path) :
    (memory.put path text).files.get? other = memory.files.get? other :=
  FileTable.get?_insert_of_ne memory.files _ different

@[simp] theorem get?_delete_self (memory : Memory) (path : String) :
    (memory.delete path).files.get? path = none := by
  simp [delete]

theorem get?_delete_of_ne (memory : Memory) {path other : String}
    (different : Path.place other ≠ Path.place path) :
    (memory.delete path).files.get? other = memory.files.get? other :=
  FileTable.get?_erase_of_ne memory.files different

theorem present_eq (memory : Memory) (path : String) :
    FileSystem.present memory path = memory.files.contains path := rfl

section Operations

variable {α : Type} {memory after : Memory} {path text target : String}
  {arguments : List String} {diagnostic : Diagnostic} {status : ExitStatus}

theorem perform_ok {operation : FileOperation} {event : FileEvent}
    {action : FileAction Memory α} {value : α}
    (done : perform operation event action memory = .ok value after) :
    ∃ logged, memory.SameFiles logged ∧ action logged = .ok value after := by
  simp only [perform] at done
  split at done
  · cases done
  · exact ⟨_, .logged memory _, done⟩

/-- An operation that fails before it has an effect. -/
structure BreaksAt (memory : Memory) (operation : FileOperation) (diagnostic : Diagnostic)
    (after : Memory) : Prop where
  broken : memory.Fails operation
  reason : ∃ reason, diagnostic = .io reason
  same : memory.SameFiles after

theorem perform_error {operation : FileOperation} {event : FileEvent}
    {action : FileAction Memory α}
    (done : perform operation event action memory = .error diagnostic after) :
    memory.BreaksAt operation diagnostic after ∨
      ∃ logged, memory.SameFiles logged ∧ action logged = .error diagnostic after := by
  simp only [perform] at done
  split at done
  · rename_i broken
    cases done
    exact .inl ⟨⟨_, broken⟩, ⟨_, rfl⟩, .logged memory _⟩
  · exact .inr ⟨_, .logged memory _, done⟩

theorem read_ok (done : FileSystem.read path memory = .ok text after) :
    memory.SameFiles after ∧ ∃ file, memory.files.get? path = some file ∧
      file.text = text := by
  rcases perform_ok done with ⟨logged, same, found⟩
  split at found
  · rename_i file present
    cases found
    rw [same.files] at present
    exact ⟨same, file, present, rfl⟩
  · cases found

theorem read_error {file : StoredFile} (present : memory.files.get? path = some file)
    (done : FileSystem.read path memory = .error diagnostic after) :
    memory.BreaksAt .read diagnostic after := by
  rcases perform_error done with broken | ⟨logged, same, missed⟩
  · exact broken
  · rw [same.files, present] at missed
    cases missed

theorem write_ok (done : FileSystem.write path text memory = .ok () after) :
    (memory.put path text).SameFiles after := by
  rcases perform_ok done with ⟨logged, same, written⟩
  cases written
  exact same.put path text

theorem write_error (done : FileSystem.write path text memory = .error diagnostic after) :
    memory.BreaksAt .write diagnostic after := by
  rcases perform_error done with broken | ⟨logged, same, written⟩
  · exact broken
  · cases written

theorem remove_ok (done : FileSystem.remove path memory = .ok () after) :
    (memory.delete path).SameFiles after := by
  rcases perform_ok done with ⟨logged, same, removed⟩
  cases removed
  exact same.delete path

theorem remove_error (done : FileSystem.remove path memory = .error diagnostic after) :
    memory.BreaksAt .remove diagnostic after := by
  rcases perform_error done with broken | ⟨logged, same, removed⟩
  · exact broken
  · cases removed

theorem run_ok (done : FileSystem.run path arguments target memory = .ok status after) :
    status = (memory.printedFor arguments).status ∧
      (memory.put target (memory.printedFor arguments).text).SameFiles after := by
  rcases perform_ok done with ⟨logged, same, ran⟩
  rw [same.printedFor arguments] at ran
  cases ran
  exact ⟨rfl, same.put target _⟩

theorem run_error
    (done : FileSystem.run path arguments target memory = .error diagnostic after) :
    memory.BreaksAt .run diagnostic after := by
  rcases perform_error done with broken | ⟨logged, same, ran⟩
  · exact broken
  · cases ran

end Operations

end Memory

namespace Freshness

theorem outputTime_isNone_load (memory : Memory) (source parser : String) :
    (load memory source parser).outputTime.isNone =
      !memory.files.contains (memory.roots.outputPath source) := by
  have time : (load memory source parser).outputTime =
      (memory.files.get? (memory.roots.outputPath source)).map (·.time) := by
    rw [← load_outputPath memory source parser]
    rfl
  rw [time, FileTable.contains]
  cases memory.files.get? (memory.roots.outputPath source) <;> rfl

/-- A tree is fresh exactly if it is there and neither the source nor the parser is
newer. -/
theorem needsParse_eq_false_iff (memory : Memory) (source parser : String) :
    (load memory source parser).needsParse = false ↔
      ∃ tree, memory.files.get? (memory.roots.treePath source) = some tree ∧
        (∀ file, memory.files.get? source = some file → file.time ≤ tree.time) ∧
        ∀ file, memory.files.get? parser = some file → file.time ≤ tree.time := by
  have notBefore (time : Nat) (path : String) :
      isBefore time ((memory.files.get? path).map (·.time)) = false ↔
        ∀ file, memory.files.get? path = some file → file.time ≤ time := by
    cases memory.files.get? path <;> simp [isBefore]
  have treeTime : (load memory source parser).treeTime =
      (memory.files.get? (memory.roots.treePath source)).map (·.time) := by
    rw [← load_treePath memory source parser]
    rfl
  have sourceTime : (load memory source parser).sourceTime =
      (memory.files.get? source).map (·.time) := rfl
  have parserTime : (load memory source parser).parserTime =
      (memory.files.get? parser).map (·.time) := rfl
  rw [needsParse, treeTime, sourceTime, parserTime]
  cases memory.files.get? (memory.roots.treePath source) with
  | none => simp
  | some tree => simp [notBefore]

end Freshness

/-! ## Stages -/

/-- The text that a unit is at the end of the pipeline. -/
def CompilationUnit.php : CompilationUnit → Except Diagnostic String
  | .source text => .ok text
  | unit => .error (.unexpectedUnit "output" unit.form)

/-- What the stages make of nodes. They are prepared first, unless they are. -/
def Pipeline.run (pipeline : Pipeline) (prepared : Bool) (nodes : List Node) :
    Recording CompilationUnit := do
  if !prepared then
    pipeline.prepare
  pipeline.compile (.ir nodes)

namespace Compiler

variable {α : Type} {before middle after : Compiler Memory} {diagnostic : Diagnostic}

/-- What a call leaves as it is: the options and the stages. -/
structure SameSetup (left right : Compiler Memory) : Prop where
  options : right.options = left.options
  pipeline : right.pipeline = left.pipeline

theorem SameSetup.refl (compiler : Compiler Memory) : compiler.SameSetup compiler :=
  ⟨rfl, rfl⟩

theorem SameSetup.trans {left middle right : Compiler Memory}
    (first : left.SameSetup middle) (second : middle.SameSetup right) :
    left.SameSetup right :=
  ⟨second.options.trans first.options, second.pipeline.trans first.pipeline⟩

/-- The PHP text that the stages, as they stand, make of nodes. -/
def result (compiler : Compiler Memory) (nodes : List Node) :
    Except Diagnostic String := do
  let unit ← EStateM.outcome
      (compiler.pipeline.run compiler.prepared nodes compiler.journal)
  unit.php

/-- The PHP text that the stages, as they stand, make of the syntax tree in a file. -/
def translation (compiler : Compiler Memory) (path text : String) :
    Except Diagnostic String := do
  compiler.result (← Node.ofText path text)

/-- Nothing but the files has moved. -/
def SameStages (before after : Compiler Memory) : Prop :=
  after = { before with files := after.files }

namespace SameStages

theorem trans (first : before.SameStages middle) (second : middle.SameStages after) :
    before.SameStages after := by
  rw [SameStages] at first
  rw [SameStages, second, first]

theorem setup (same : before.SameStages after) : before.SameSetup after := by
  rw [same]
  exact ⟨rfl, rfl⟩

theorem translation_eq (same : before.SameStages after) (path text : String) :
    after.translation path text = before.translation path text := by
  rw [same]
  rfl

end SameStages

theorem onFiles_ok {action : FileAction Memory α} {value : α}
    (done : onFiles action before = .ok value after) :
    before.SameStages after ∧ action before.files = .ok value after.files := by
  simp only [onFiles] at done
  split at done
  · rename_i worked
    cases done
    exact ⟨rfl, worked⟩
  · cases done

theorem onFiles_error {action : FileAction Memory α}
    (done : onFiles action before = .error diagnostic after) :
    before.SameStages after ∧ action before.files = .error diagnostic after.files := by
  simp only [onFiles] at done
  split at done
  · cases done
  · rename_i failed
    cases done
    exact ⟨rfl, failed⟩

theorem prepare_of_prepared (prepared : before.prepared = true) :
    prepare before = .ok () before := by
  simp [prepare, EStateM.bind_apply, prepared]

theorem prepare_of_unprepared (unprepared : before.prepared = false) :
    prepare before =
      match before.pipeline.prepare before.journal with
      | .ok _ journal => .ok () { before with prepared := true, journal }
      | .error diagnostic journal => .error diagnostic { before with journal } := by
  simp only [prepare, EStateM.bind_apply, EStateM.get_apply, unprepared, Bool.not_false,
    if_true, onJournal]
  cases before.pipeline.prepare before.journal <;> rfl

theorem ofExcept_eq_ok_iff (result : Except Diagnostic α) (value : α) :
    ofExcept result before = .ok value after ↔ result = .ok value ∧ before = after := by
  cases result with
  | ok found => simp [ofExcept]
  | error diagnostic => simp [ofExcept]

theorem ofExcept_eq_error_iff (result : Except Diagnostic α) :
    ofExcept result before = .error diagnostic after ↔
      result = .error diagnostic ∧ before = after := by
  cases result with
  | ok found => simp [ofExcept]
  | error diagnostic => simp [ofExcept]

/-- What the stages make of nodes, once they are prepared. -/
def compileNodes (nodes : List Node) : Build Memory String := do
  prepare
  let unit ← onJournal ((← get).pipeline.compileAndReset (.ir nodes))
  sourceText unit

/-- How stages end: with their result, whatever they are, and the files as they were. -/
structure StagesEnd (compiler : Compiler Memory) (result : Except Diagnostic String)
    (run : EStateM.Result Diagnostic (Compiler Memory) String) : Prop where
  outcome : EStateM.outcome run = result
  setup : compiler.SameSetup (EStateM.final run)
  files : (EStateM.final run).files = compiler.files

theorem compileAndReset_ends (compiler : Compiler Memory) (nodes : List Node) :
    compiler.StagesEnd
      (EStateM.outcome (compiler.pipeline.compile (.ir nodes) compiler.journal)
        >>= (·.php))
      ((do
        let unit ← onJournal ((← get).pipeline.compileAndReset (.ir nodes))
        sourceText unit : Build Memory String) compiler) := by
  constructor
  all_goals
    simp only [EStateM.bind_apply, EStateM.get_apply, onJournal, Pipeline.compileAndReset]
    cases compiler.pipeline.compile (.ir nodes) compiler.journal with
    | error diagnostic journal => first | rfl | exact ⟨rfl, rfl⟩
    | ok unit journal => cases unit <;> first | rfl | exact ⟨rfl, rfl⟩

theorem compileNodes_ends (compiler : Compiler Memory) (nodes : List Node) :
    compiler.StagesEnd (compiler.result nodes) (compileNodes nodes compiler) := by
  rw [compileNodes, EStateM.bind_apply, result, Pipeline.run]
  cases prepared : compiler.prepared with
  | true =>
      rw [prepare_of_prepared prepared]
      exact compileAndReset_ends compiler nodes
  | false =>
      rw [prepare_of_unprepared prepared]
      simp only [Bool.not_false, if_true, EStateM.bind_apply]
      cases compiler.pipeline.prepare compiler.journal with
      | error diagnostic journal => exact ⟨rfl, ⟨rfl, rfl⟩, rfl⟩
      | ok _ journal =>
          have ends :=
            compileAndReset_ends { compiler with prepared := true, journal } nodes
          exact ⟨ends.outcome, ⟨ends.setup.options, ends.setup.pipeline⟩, ends.files⟩

theorem compileNodes_ok {nodes : List Node} {php : String}
    (done : compileNodes nodes before = .ok php after) :
    before.SameSetup after ∧ after.files = before.files ∧
      before.result nodes = .ok php := by
  have ends := compileNodes_ends before nodes
  rw [done] at ends
  exact ⟨ends.setup, ends.files, ends.outcome.symm⟩

theorem compileNodes_error {nodes : List Node}
    (done : compileNodes nodes before = .error diagnostic after) :
    before.SameSetup after ∧ after.files = before.files ∧
      before.result nodes = .error diagnostic := by
  have ends := compileNodes_ends before nodes
  rw [done] at ends
  exact ⟨ends.setup, ends.files, ends.outcome.symm⟩

/-- The standard stages give the translation, prepared or not. -/
theorem result_standard {setting : Setting} {compiler : Compiler Memory}
    (standard : compiler.pipeline = Pipeline.standard setting) (nodes : List Node) :
    compiler.result nodes = translateNodes setting nodes := by
  rw [result, Pipeline.run, standard]
  have compiled : EStateM.outcome ((Pipeline.standard setting).compile (.ir nodes)
      compiler.journal) >>= (·.php) = translateNodes setting nodes := by
    rcases Pipeline.compile_standard setting nodes compiler.journal with ⟨after, ends⟩
    rw [ends]
    cases translateNodes setting nodes <;> rfl
  cases compiler.prepared with
  | true => exact compiled
  | false =>
      simp only [Bool.not_false, if_true, EStateM.bind_apply, Pipeline.prepare_standard]
      exact compiled

theorem translation_standard {setting : Setting} {compiler : Compiler Memory}
    (standard : compiler.pipeline = Pipeline.standard setting) (path text : String) :
    compiler.translation path text = translate setting path text := by
  rw [translation, translate]
  exact bind_congr fun nodes => result_standard standard nodes

/-- The stages, as they stand, refuse the tree that lies at a path. -/
def Refuses (compiler : Compiler Memory) (memory : Memory) (tree : String)
    (diagnostic : Diagnostic) : Prop :=
  ∃ file, memory.files.get? tree = some file ∧
    compiler.translation tree file.text = .error diagnostic

/-! ## Parts of a call -/

section Tree

variable {freshness : Freshness} {php : String}

theorem compileTree_eq (freshness : Freshness) :
    compileTree freshness = (do
      let text ← onFiles (FileSystem.read freshness.treePath)
      let nodes ← ofExcept (Node.ofText freshness.treePath text)
      let php ← compileNodes nodes
      onFiles (FileSystem.write freshness.outputPath php)
      return php : Build Memory String) := by
  simp only [compileTree, compileNodes, bind_assoc]

theorem compileTree_ok (done : compileTree freshness before = .ok php after) :
    before.SameSetup after ∧
      (before.files.put freshness.outputPath php).SameFiles after.files ∧
      ∃ file, before.files.files.get? freshness.treePath = some file ∧
        before.translation freshness.treePath file.text = .ok php := by
  simp only [compileTree_eq, EStateM.bind_eq_ok_iff, ofExcept_eq_ok_iff] at done
  rcases done with ⟨text, middle, readDone, nodes, _, ⟨decoded, rfl⟩, result, translated,
    compiled, _, written, writeDone, ended⟩
  cases ended
  rcases onFiles_ok readDone with ⟨readStages, readFiles⟩
  rcases Memory.read_ok readFiles with ⟨readSame, file, found, rfl⟩
  rcases onFiles_ok writeDone with ⟨writeStages, writeFiles⟩
  rcases compileNodes_ok compiled with ⟨setup, files, result⟩
  have writeSame := Memory.write_ok writeFiles
  rw [files] at writeSame
  refine ⟨(readStages.setup.trans setup).trans writeStages.setup,
    (readSame.put _ _).trans writeSame, file, found, ?_⟩
  rw [← readStages.translation_eq, translation, decoded, Except.ok_bind, result]

/-- A tree that is there stays beside the old PHP file. -/
theorem compileTree_error {tree : StoredFile}
    (present : before.files.files.get? freshness.treePath = some tree)
    (done : compileTree freshness before = .error diagnostic after) :
    before.SameSetup after ∧ before.files.SameFiles after.files ∧
      ((before.files.Fails .read ∨ before.files.Fails .write) ∧
          (∃ reason, diagnostic = .io reason) ∨
        before.Refuses before.files freshness.treePath diagnostic) := by
  simp only [compileTree_eq, EStateM.bind_eq_error_iff, ofExcept_eq_ok_iff,
    ofExcept_eq_error_iff] at done
  rcases done with readDone | ⟨text, middle, readDone, rest⟩
  · rcases onFiles_error readDone with ⟨stages, files⟩
    have breaks := Memory.read_error present files
    exact ⟨stages.setup, breaks.same, .inl ⟨.inl breaks.broken, breaks.reason⟩⟩
  · rcases onFiles_ok readDone with ⟨readStages, readFiles⟩
    rcases Memory.read_ok readFiles with ⟨readSame, file, found, rfl⟩
    rcases rest with ⟨malformed, rfl⟩ | ⟨nodes, _, ⟨decoded, rfl⟩, rest⟩
    · refine ⟨readStages.setup, readSame, .inr ⟨file, found, ?_⟩⟩
      rw [translation, malformed, Except.error_bind]
    · rcases rest with refused | ⟨php, _, compiled, writeDone | ⟨_, _, _, impossible⟩⟩
      · rcases compileNodes_error refused with ⟨setup, files, result⟩
        refine ⟨readStages.setup.trans setup, files ▸ readSame, .inr ⟨file, found, ?_⟩⟩
        rw [← readStages.translation_eq, translation, decoded, Except.ok_bind, result]
      · rcases compileNodes_ok compiled with ⟨setup, files, _⟩
        rcases onFiles_error writeDone with ⟨writeStages, writeFiles⟩
        have breaks := Memory.write_error writeFiles
        rw [files] at breaks
        exact ⟨(readStages.setup.trans setup).trans writeStages.setup,
          readSame.trans breaks.same,
          .inl ⟨.inr ((readSame.fails_iff .write).mp breaks.broken), breaks.reason⟩⟩
      · cases impossible

end Tree

section Source

variable {freshness : Freshness} {parser : String}

theorem parseSource_ok (done : parseSource freshness parser before = .ok () after) :
    before.SameStages after ∧
      (before.files.printedFor [freshness.source]).status.success = true ∧
      (before.files.put freshness.treePath
        (before.files.printedFor [freshness.source]).text).SameFiles after.files := by
  rw [parseSource, EStateM.bind_eq_ok_iff] at done
  rcases done with ⟨status, middle, ran, checked⟩
  rcases onFiles_ok ran with ⟨stages, files⟩
  rcases Memory.run_ok files with ⟨rfl, same⟩
  split at checked
  · rw [EStateM.bind_eq_ok_iff] at checked
    rcases checked with ⟨_, _, _, impossible⟩
    cases impossible
  · rename_i success
    cases checked
    exact ⟨stages, by simpa using success, same⟩

/-- A parser that does not start leaves everything, and one that fails leaves no tree,
unless the tree that it printed cannot be removed. -/
theorem parseSource_error
    (done : parseSource freshness parser before = .error diagnostic after) :
    before.SameStages after ∧
      (before.files.BreaksAt .run diagnostic after.files ∨
        (before.files.printedFor [freshness.source]).status.success = false ∧
          ((before.files.put freshness.treePath
              (before.files.printedFor [freshness.source]).text).BreaksAt .remove
                diagnostic after.files ∨
          ((before.files.put freshness.treePath
              (before.files.printedFor [freshness.source]).text).delete
                freshness.treePath).SameFiles after.files ∧
            diagnostic = .failedParser freshness.source
              (before.files.printedFor [freshness.source]).status)) := by
  rw [parseSource, EStateM.bind_eq_error_iff] at done
  rcases done with failed | ⟨status, middle, ran, checked⟩
  · rcases onFiles_error failed with ⟨stages, files⟩
    exact ⟨stages, .inl (Memory.run_error files)⟩
  · rcases onFiles_ok ran with ⟨stages, files⟩
    rcases Memory.run_ok files with ⟨rfl, same⟩
    split at checked
    · rename_i failure
      have failure : (before.files.printedFor [freshness.source]).status.success =
          false := by
        simpa using failure
      rw [EStateM.bind_eq_error_iff] at checked
      rcases checked with kept | ⟨_, last, removed, thrown⟩
      · rcases onFiles_error kept with ⟨keptStages, keptFiles⟩
        have breaks := Memory.remove_error keptFiles
        exact ⟨stages.trans keptStages, .inr ⟨failure, .inl
          ⟨(same.fails_iff .remove).mp breaks.broken, breaks.reason,
            same.trans breaks.same⟩⟩⟩
      · rcases onFiles_ok removed with ⟨removedStages, removedFiles⟩
        cases thrown
        exact ⟨stages.trans removedStages, .inr ⟨failure,
          .inr ⟨(same.delete _).trans (Memory.remove_ok removedFiles), rfl⟩⟩⟩
    · cases checked

end Source

end Compiler

/-! ## Whole calls -/

section Calls

variable (compiler : Compiler Memory) (source parser : String)

/-- How the tree came about that a call compiles. The flag says whether the parser has
run. -/
inductive Parses : Bool → Memory → Prop
  | kept (current : (Freshness.load compiler.files source parser).needsParse = false) :
      Parses false compiler.files
  | printed {after : Memory}
      (outdated : (Freshness.load compiler.files source parser).needsParse = true)
      (success : (compiler.files.printedFor [source]).status.success = true)
      (same : (compiler.files.put (compiler.files.roots.treePath source)
        (compiler.files.printedFor [source]).text).SameFiles after) :
      Parses true after

/-- Where a call on a source can end, and which files it leaves there. -/
inductive Ends : Except Diagnostic CompiledFile → Memory → Prop
  | missing (absent : compiler.files.files.get? source = none) :
      Ends (.error (.missingSource source)) compiler.files
  /-- The parser does not start. -/
  | unstarted {after : Memory} {reason : String}
      (broken : compiler.files.Fails .run)
      (same : compiler.files.SameFiles after) :
      Ends (.error (.io reason)) after
  /-- The parser fails, and what it printed is removed. -/
  | unparsed {after : Memory}
      (failure : (compiler.files.printedFor [source]).status.success = false)
      (same : ((compiler.files.put (compiler.files.roots.treePath source)
        (compiler.files.printedFor [source]).text).delete
          (compiler.files.roots.treePath source)).SameFiles after) :
      Ends (.error (.failedParser source (compiler.files.printedFor [source]).status))
        after
  /-- The parser fails, and what it printed stays. -/
  | leftover {after : Memory} {reason : String}
      (failure : (compiler.files.printedFor [source]).status.success = false)
      (broken : compiler.files.Fails .remove)
      (same : (compiler.files.put (compiler.files.roots.treePath source)
        (compiler.files.printedFor [source]).text).SameFiles after) :
      Ends (.error (.io reason)) after
  /-- The tree is fresh and there is a PHP file. -/
  | fresh {file : StoredFile}
      (present : compiler.files.files.get? source = some file)
      (current : (Freshness.load compiler.files source parser).needsParse = false)
      (output :
        compiler.files.files.contains (compiler.files.roots.outputPath source) = true) :
      Ends (.ok ⟨source, compiler.files.roots.outputPath source, false, none⟩)
        compiler.files
  /-- The tree does not become a PHP file. -/
  | uncompiled {parsed : Bool} {middle after : Memory} {diagnostic : Diagnostic}
      (parses : Parses compiler source parser parsed middle)
      (cause : (compiler.files.Fails .read ∨ compiler.files.Fails .write) ∧
          (∃ reason, diagnostic = .io reason) ∨
        compiler.Refuses middle (compiler.files.roots.treePath source) diagnostic)
      (same : middle.SameFiles after) :
      Ends (.error diagnostic) after
  | compiled {parsed : Bool} {middle after : Memory} {file tree : StoredFile}
      {php : String}
      (present : compiler.files.files.get? source = some file)
      (parses : Parses compiler source parser parsed middle)
      (needed : parsed = false →
        compiler.files.files.contains (compiler.files.roots.outputPath source) = false)
      (found : middle.files.get? (compiler.files.roots.treePath source) = some tree)
      (translated :
        compiler.translation (compiler.files.roots.treePath source) tree.text = .ok php)
      (same : (middle.put (compiler.files.roots.outputPath source) php).SameFiles after) :
      Ends (.ok ⟨source, compiler.files.roots.outputPath source, parsed, some php⟩) after

end Calls

namespace Parses

variable {compiler : Compiler Memory} {source parser : String} {parsed : Bool}
  {middle : Memory}

theorem tree (parses : Parses compiler source parser parsed middle) :
    ∃ file, middle.files.get? (compiler.files.roots.treePath source) = some file := by
  cases parses with
  | kept current =>
      rcases (Freshness.needsParse_eq_false_iff _ _ _).mp current with ⟨tree, found, _⟩
      exact ⟨tree, found⟩
  | printed outdated success same =>
      rw [same.files, Memory.get?_put_self]
      exact ⟨_, rfl⟩

theorem fails_iff (parses : Parses compiler source parser parsed middle)
    (operation : FileOperation) :
    middle.Fails operation ↔ compiler.files.Fails operation := by
  cases parses with
  | kept current => rfl
  | printed outdated success same => exact same.fails_iff operation

end Parses

namespace Compiler

variable {before after : Compiler Memory} {source path parser : String}

/-- The path of the parser. -/
def parserFile (compiler : Compiler Memory) : String :=
  Path.join compiler.files.roots.system compiler.options.parserPath

/-- The file at which a path is looked up. -/
def sourceFile (compiler : Compiler Memory) (path : String) : String :=
  Path.join compiler.files.roots.input path

/-- A call parses if it must, then compiles if it must. -/
theorem compileSource_eq (compiler : Compiler Memory) (path parser source : String)
    (resolved : compiler.sourceFile path = source) :
    compileSource path parser compiler =
      if compiler.files.files.contains source then
        if (Freshness.load compiler.files source parser).needsParse then
          (do
            parseSource (Freshness.load compiler.files source parser) parser
            let php ← compileTree (Freshness.load compiler.files source parser)
            return ⟨source, compiler.files.roots.outputPath source, true, some php⟩ :
            Build Memory CompiledFile) compiler
        else if compiler.files.files.contains
          (compiler.files.roots.outputPath source) then
          .ok ⟨source, compiler.files.roots.outputPath source, false, none⟩ compiler
        else
          (do
            let php ← compileTree (Freshness.load compiler.files source parser)
            return ⟨source, compiler.files.roots.outputPath source, false, some php⟩ :
            Build Memory CompiledFile) compiler
      else
        .error (.missingSource source) compiler := by
  have looked : FileSystem.resolve compiler.files .input path = source := resolved
  simp only [compileSource, EStateM.bind_apply, EStateM.get_apply, EStateM.ite_apply,
    EStateM.throw_apply, EStateM.pure_apply, looked, Freshness.load_outputPath,
    Memory.present_eq]
  cases compiler.files.files.contains source with
  | false => rfl
  | true =>
      have missing := Freshness.outputTime_isNone_load compiler.files source parser
      simp only [Freshness.needsCompile, missing]
      cases (Freshness.load compiler.files source parser).needsParse with
      | true => rfl
      | false =>
          cases compiler.files.files.contains (compiler.files.roots.outputPath source) <;>
            rfl

/-- A call that compiles ends in the tree or with the PHP file. -/
theorem compileTree_ends {middle : Compiler Memory} {parsed : Bool} {file : StoredFile}
    (present : before.files.files.get? source = some file)
    (parses : Parses before source parser parsed middle.files)
    (needed : parsed = false →
      before.files.files.contains (before.files.roots.outputPath source) = false)
    (stages : before.SameStages middle) :
    let run := (do
      let php ← compileTree (Freshness.load before.files source parser)
      return ⟨source, before.files.roots.outputPath source, parsed, some php⟩ :
      Build Memory CompiledFile) middle
    before.SameSetup (EStateM.final run) ∧
      Ends before source parser (EStateM.outcome run) (EStateM.final run).files := by
  intro run
  have unfolded : run = _ := EStateM.bind_apply _ _ middle
  rw [unfolded]
  cases called : compileTree (Freshness.load before.files source parser) middle with
  | error diagnostic final =>
      rcases parses.tree with ⟨tree, found⟩
      rw [← Freshness.load_treePath before.files source parser] at found
      rcases compileTree_error found called with ⟨setup, same, cause⟩
      simp only [Refuses, stages.translation_eq, Freshness.load_treePath,
        parses.fails_iff]
        at cause
      exact ⟨stages.setup.trans setup, .uncompiled parses cause same⟩
  | ok php final =>
      rcases compileTree_ok called with ⟨setup, same, tree, found, translated⟩
      simp only [stages.translation_eq, Freshness.load_treePath,
        Freshness.load_outputPath]
        at same found translated
      exact ⟨stages.setup.trans setup,
        .compiled present parses needed found translated same⟩

theorem compileSource_ends (before : Compiler Memory) (path parser : String) :
    before.SameSetup (EStateM.final (compileSource path parser before)) ∧
      Ends before (before.sourceFile path) parser
        (EStateM.outcome (compileSource path parser before))
        (EStateM.final (compileSource path parser before)).files := by
  rw [compileSource_eq before path parser (before.sourceFile path) rfl]
  generalize before.sourceFile path = source
  split
  · rename_i present
    rcases Option.isSome_iff_exists.mp present with ⟨file, found⟩
    split
    · rename_i outdated
      rw [EStateM.bind_apply]
      cases parsed : parseSource (Freshness.load before.files source parser)
        parser before with
      | error diagnostic middle =>
          have ending := parseSource_error parsed
          simp only [Freshness.load_source, Freshness.load_treePath] at ending
          rcases ending with ⟨stages, breaks | ⟨failure, breaks | ⟨same, rfl⟩⟩⟩
          · rcases breaks with ⟨broken, ⟨reason, rfl⟩, same⟩
            exact ⟨stages.setup, .unstarted broken same⟩
          · rcases breaks with ⟨broken, ⟨reason, rfl⟩, same⟩
            exact ⟨stages.setup, .leftover failure broken same⟩
          · exact ⟨stages.setup, .unparsed failure same⟩
      | ok _ middle =>
          rcases parseSource_ok parsed with ⟨stages, success, same⟩
          simp only [Freshness.load_source, Freshness.load_treePath] at success same
          exact compileTree_ends found (.printed outdated success same) (by simp) stages
    · rename_i current
      have current := Bool.not_eq_true _ ▸ current
      split
      · rename_i output
        exact ⟨.refl before, .fresh found current output⟩
      · rename_i missing
        exact compileTree_ends found (.kept current) (fun _ => by simpa using missing) rfl
  · rename_i absent
    exact ⟨.refl before, .missing (by simpa [FileTable.contains] using absent)⟩

theorem compileSource_ok {compiled : CompiledFile}
    (done : compileSource path parser before = .ok compiled after) :
    before.SameSetup after ∧
      Ends before (before.sourceFile path) parser (.ok compiled) after.files := by
  have ends := compileSource_ends before path parser
  rwa [done] at ends

theorem compileSource_error {diagnostic : Diagnostic}
    (done : compileSource path parser before = .error diagnostic after) :
    before.SameSetup after ∧
      Ends before (before.sourceFile path) parser (.error diagnostic) after.files := by
  have ends := compileSource_ends before path parser
  rwa [done] at ends

theorem findParser_eq {σ : Type} [FileSystem σ] (compiler : Compiler σ)
    (parser : String)
    (resolved : FileSystem.resolve compiler.files .system compiler.options.parserPath =
      parser) :
    findParser compiler =
      if FileSystem.present compiler.files parser then .ok parser compiler
      else .error (.missingParser parser) compiler := by
  simp only [findParser, EStateM.bind_apply, EStateM.get_apply, EStateM.ite_apply,
    EStateM.throw_apply, EStateM.pure_apply, resolved]

/-- A call on a file needs the parser. -/
theorem compileFile_eq (compiler : Compiler Memory) (path parser : String)
    (resolved : compiler.parserFile = parser) :
    compileFile path compiler =
      if compiler.files.files.contains parser then compileSource path parser compiler
      else .error (.missingParser parser) compiler := by
  rw [compileFile, EStateM.bind_apply, findParser_eq compiler parser resolved,
    Memory.present_eq]
  cases compiler.files.files.contains parser <;> rfl

theorem compileFile_of_present (compiler : Compiler Memory) (path : String)
    (present : compiler.files.files.contains compiler.parserFile = true) :
    compileFile path compiler = compileSource path compiler.parserFile compiler := by
  rw [compileFile_eq compiler path compiler.parserFile rfl, if_pos present]

theorem compileFile_of_absent (compiler : Compiler Memory) (path : String)
    (absent : compiler.files.files.contains compiler.parserFile = false) :
    compileFile path compiler = .error (.missingParser compiler.parserFile) compiler := by
  rw [compileFile_eq compiler path compiler.parserFile rfl, absent,
    if_neg Bool.false_ne_true]

end Compiler

/-! ## What a call leaves alone -/

/-- Two memories that differ at most in the artifacts of a source, and in their clocks and
logs. -/
structure Memory.SameBut (source : String) (left right : Memory) : Prop where
  roots : right.roots = left.roots
  printed : right.printed = left.printed
  fails : right.fails = left.fails
  files : ∀ path, ¬left.roots.IsArtifact source path →
    right.files.get? path = left.files.get? path

namespace Memory.SameBut

variable {left middle right : Memory} {source : String}

theorem of_sameFiles (same : left.SameFiles right) : left.SameBut source right :=
  ⟨same.roots, same.printed, same.fails, fun _ _ => by rw [same.files]⟩

theorem trans (first : left.SameBut source middle)
    (second : middle.SameBut source right) :
    left.SameBut source right where
  roots := second.roots.trans first.roots
  printed := second.printed.trans first.printed
  fails := second.fails.trans first.fails
  files path other :=
    (second.files path (first.roots ▸ other)).trans (first.files path other)

theorem put_tree (memory : Memory) (source text : String) :
    memory.SameBut source (memory.put (memory.roots.treePath source) text) :=
  ⟨rfl, rfl, rfl, fun _ other => memory.get?_put_of_ne text fun same => other (.inl same)⟩

theorem put_output (memory : Memory) (source text : String) :
    memory.SameBut source (memory.put (memory.roots.outputPath source) text) :=
  ⟨rfl, rfl, rfl, fun _ other => memory.get?_put_of_ne text fun same => other (.inr same)⟩

theorem delete_tree (memory : Memory) (source : String) :
    memory.SameBut source (memory.delete (memory.roots.treePath source)) :=
  ⟨rfl, rfl, rfl, fun _ other => memory.get?_delete_of_ne fun same => other (.inl same)⟩

theorem printedFor (same : left.SameBut source right) (arguments : List String) :
    right.printedFor arguments = left.printedFor arguments := by
  simp only [Memory.printedFor, same.printed]

theorem source_eq (same : left.SameBut source right) :
    right.files.get? source = left.files.get? source :=
  same.files source (left.roots.not_isArtifact_self source)

end Memory.SameBut

section Frame

variable {compiler : Compiler Memory} {source parser : String} {after : Memory}

theorem Parses.sameBut {parsed : Bool}
    (parses : Parses compiler source parser parsed after) :
    compiler.files.SameBut source after := by
  cases parses with
  | kept current => exact .of_sameFiles (.refl _)
  | printed outdated success same =>
      exact (Memory.SameBut.put_tree compiler.files source _).trans (.of_sameFiles same)

theorem Ends.sameBut {result : Except Diagnostic CompiledFile}
    (ends : Ends compiler source parser result after) :
    compiler.files.SameBut source after := by
  cases ends with
  | missing absent => exact .of_sameFiles (.refl _)
  | unstarted broken same => exact .of_sameFiles same
  | unparsed failure same =>
      exact ((Memory.SameBut.put_tree compiler.files source _).trans
        (.delete_tree _ source)).trans (.of_sameFiles same)
  | leftover failure broken same =>
      exact (Memory.SameBut.put_tree compiler.files source _).trans (.of_sameFiles same)
  | fresh present current output => exact .of_sameFiles (.refl _)
  | uncompiled parses cause same => exact parses.sameBut.trans (.of_sameFiles same)
  | @compiled _ middle _ _ _ php present parses needed found translated same =>
      have written := Memory.SameBut.put_output middle source php
      rw [parses.sameBut.roots] at written
      exact (parses.sameBut.trans written).trans (.of_sameFiles same)

end Frame

end ZephirPhp
