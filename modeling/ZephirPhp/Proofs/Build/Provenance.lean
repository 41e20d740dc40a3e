import Mathlib.Data.List.Induction
import ZephirPhp.Proofs.Build.Independence

/-! # Where a syntax tree comes from

The parser prints into the file of the tree even if it fails, and the file is newer than
the source from then on. So a call must remove it again before it ends. Between two calls
each tree is then what the parser printed, without a failure, when it was last run on the
source, however sources, the parser and its answers change and whichever operations
fail on the way. The only exception would be a removal that fails.
-/

namespace ZephirPhp

namespace Memory

/-- Since a time, the parser was run on a source, and not just tried to be. -/
def RanOn (memory : Memory) (since : Nat) (source : String) : Prop :=
  ∃ time command target, since ≤ time ∧
    memory.events[time]? = some (.run command [source] target) ∧
    memory.fails time .run = false

/-- What calls on sources leave as it is. -/
structure Frame (sources : Set String) (before after : Memory) : Prop where
  roots : after.roots = before.roots
  printed : after.printed = before.printed
  fails : after.fails = before.fails
  events : before.events <+: after.events
  timely : before.Timely → after.Timely
  files : ∀ path, (∀ source ∈ sources, ¬before.roots.IsArtifact source path) →
    after.files.get? path = before.files.get? path
  paths : ∀ path ∈ after.files.paths,
    path ∈ before.files.paths ∨ ∃ source ∈ sources, before.roots.IsArtifact source path

/-- The parser was not run on a source, and the tree of the source is as it was. -/
structure Idle (source : String) (before after : Memory) : Prop where
  notRun : ¬after.RanOn before.events.length source
  tree : after.files.get? (before.roots.treePath source) =
    before.files.get? (before.roots.treePath source)

/-- The parser was run on a source. If there is a tree, it is what was printed, and the
parser did not fail. -/
structure Parsed (source : String) (before after : Memory) : Prop where
  ran : after.RanOn before.events.length source
  tree : ∀ tree, after.files.get? (before.roots.treePath source) = some tree →
    (before.printedFor [source]).status.success = true ∧
      tree.text = (before.printedFor [source]).text

/-- What calls can do to a source. -/
structure Passes (sources : Set String) (source : String) (before after : Memory) :
    Prop where
  frame : before.Frame sources after
  tree : before.Idle source after ∨ before.Parsed source after

variable {sources : Set String} {source : String} {before middle after memory : Memory}

theorem RanOn.mono (ran : middle.RanOn before.events.length source)
    (fails : after.fails = middle.fails) (events : middle.events <+: after.events) :
    after.RanOn before.events.length source := by
  rcases ran with ⟨time, command, target, since, found, effective⟩
  rcases events with ⟨later, whole⟩
  refine ⟨time, command, target, since, ?_, by rw [fails, effective]⟩
  rw [← whole, List.getElem?_append_left (List.getElem?_eq_some_iff.mp found).1, found]

theorem RanOn.split (ran : after.RanOn before.events.length source)
    (fails : after.fails = middle.fails) (events : middle.events <+: after.events) :
    middle.RanOn before.events.length source ∨
      after.RanOn middle.events.length source := by
  rcases ran with ⟨time, command, target, since, found, effective⟩
  by_cases early : time < middle.events.length
  · rcases events with ⟨later, whole⟩
    rw [← whole, List.getElem?_append_left early] at found
    exact .inl ⟨time, command, target, since, found, by rw [← fails, effective]⟩
  · exact .inr ⟨time, command, target, Nat.le_of_not_lt early, found, effective⟩

theorem not_ranOn_self (memory : Memory) (source : String) :
    ¬memory.RanOn memory.events.length source := by
  rintro ⟨time, command, target, since, found, _⟩
  rw [List.getElem?_eq_none since] at found
  cases found

namespace Frame

theorem refl (sources : Set String) (memory : Memory) : memory.Frame sources memory :=
  ⟨rfl, rfl, rfl, List.prefix_rfl, id, fun _ _ => rfl, fun _ member => .inl member⟩

theorem trans (first : before.Frame sources middle)
    (second : middle.Frame sources after) :
    before.Frame sources after where
  roots := second.roots.trans first.roots
  printed := second.printed.trans first.printed
  fails := second.fails.trans first.fails
  events := first.events.trans second.events
  timely timely := second.timely (first.timely timely)
  files path apart :=
    (second.files path (first.roots ▸ apart)).trans (first.files path apart)
  paths path member := by
    rcases second.paths path member with earlier | artifact
    · exact first.paths path earlier
    · exact .inr (first.roots ▸ artifact)

theorem logged (memory : Memory) (event : FileEvent) :
    memory.Frame sources { memory with events := memory.events ++ [event] } :=
  ⟨rfl, rfl, rfl, List.prefix_append _ _, id, fun _ _ => rfl, fun _ member => .inl member⟩

theorem put (memory : Memory) {path : String} (text : String) (member : source ∈ sources)
    (artifact : memory.roots.IsArtifact source path) :
    memory.Frame sources (memory.put path text) where
  roots := rfl
  printed := rfl
  fails := rfl
  events := List.prefix_rfl
  timely timely := timely.put path text
  files other apart := memory.get?_put_of_ne text fun same =>
    apart source member (by rwa [Roots.IsArtifact, same])
  paths other stored := by
    rcases memory.files.mem_paths_of_insert stored with earlier | rfl
    · exact .inl earlier
    · exact .inr ⟨source, member, artifact⟩

theorem delete (memory : Memory) {path : String} (member : source ∈ sources)
    (artifact : memory.roots.IsArtifact source path) :
    memory.Frame sources (memory.delete path) where
  roots := rfl
  printed := rfl
  fails := rfl
  events := List.prefix_rfl
  timely timely := timely.delete path
  files other apart := memory.get?_delete_of_ne fun same =>
    apart source member (by rwa [Roots.IsArtifact, same])
  paths other stored := .inl (memory.files.mem_paths_of_erase stored)

theorem printedFor (frame : before.Frame sources after) (arguments : List String) :
    after.printedFor arguments = before.printedFor arguments := by
  simp only [Memory.printedFor, frame.printed]

end Frame

namespace Passes

theorem refl (sources : Set String) (source : String) (memory : Memory) :
    memory.Passes sources source memory :=
  ⟨.refl sources memory, .inl ⟨memory.not_ranOn_self source, rfl⟩⟩

/-- A run that is followed by others is the last one unless one of them is. -/
theorem trans (first : before.Passes sources source middle)
    (second : middle.Passes sources source after) :
    before.Passes sources source after := by
  refine ⟨first.frame.trans second.frame, ?_⟩
  have roots := first.frame.roots
  have printed := first.frame.printedFor [source]
  rcases second.tree with ⟨notRun, kept⟩ | ⟨ran, tree⟩
  · rw [roots] at kept
    rcases first.tree with ⟨notRunBefore, keptBefore⟩ | ⟨ranBefore, treeBefore⟩
    · refine .inl ⟨fun ran => ?_, kept.trans keptBefore⟩
      rcases ran.split second.frame.fails second.frame.events with early | late
      · exact notRunBefore early
      · exact notRun late
    · refine .inr ⟨ranBefore.mono second.frame.fails second.frame.events, ?_⟩
      rw [kept]
      exact treeBefore
  · rw [roots, printed] at tree
    rcases ran with ⟨time, command, target, since, found, effective⟩
    exact .inr ⟨⟨time, command, target, first.frame.events.length_le.trans since, found,
      effective⟩, tree⟩

/-- An event that is no run on the source, or a run that is broken. -/
theorem logged (memory : Memory) (event : FileEvent)
    (quiet : ∀ command target, event = .run command [source] target →
      memory.fails memory.events.length .run = true) :
    memory.Passes sources source { memory with events := memory.events ++ [event] } := by
  refine ⟨.logged memory event, .inl ⟨?_, rfl⟩⟩
  rintro ⟨time, command, target, since, found, effective⟩
  rw [List.getElem?_append_right since, List.getElem?_singleton] at found
  split at found
  · rename_i last
    have now : time = memory.events.length := by omega
    have broken := quiet command target (Option.some.inj found)
    rw [← now] at broken
    cases broken.symm.trans effective
  · cases found

theorem put (memory : Memory) {other path : String} (text : String)
    (member : other ∈ sources) (artifact : memory.roots.IsArtifact other path)
    (different : Path.place (memory.roots.treePath source) ≠ Path.place path) :
    memory.Passes sources source (memory.put path text) where
  frame := .put memory text member artifact
  tree := .inl ⟨memory.not_ranOn_self source, memory.get?_put_of_ne text different⟩

theorem delete (memory : Memory) {other path : String} (member : other ∈ sources)
    (artifact : memory.roots.IsArtifact other path)
    (different : Path.place (memory.roots.treePath source) ≠ Path.place path) :
    memory.Passes sources source (memory.delete path) where
  frame := .delete memory member artifact
  tree := .inl ⟨memory.not_ranOn_self source, memory.get?_delete_of_ne different⟩

end Passes

/-! ## Operations on files -/

theorem perform_passes {α : Type} {operation : FileOperation} {event : FileEvent}
    {action : FileAction Memory α} (memory : Memory)
    (quiet : ∀ command target, event = .run command [source] target →
      memory.fails memory.events.length .run = true)
    (acts : ∀ logged : Memory, logged.roots = memory.roots →
      logged.Passes sources source (EStateM.final (action logged))) :
    memory.Passes sources source
      (EStateM.final (perform operation event action memory)) := by
  have start : memory.Passes sources source
      { memory with events := memory.events ++ [event] } := .logged memory event quiet
  simp only [perform]
  split
  · exact start
  · exact start.trans (acts _ rfl)

theorem read_passes (memory : Memory) (path : String) :
    memory.Passes sources source (EStateM.final (FileSystem.read path memory)) := by
  refine perform_passes memory (fun _ _ impossible => by cases impossible)
    fun logged _ => ?_
  cases logged.files.get? path <;> exact .refl sources source logged

theorem write_passes (memory : Memory) {other path : String} (text : String)
    (member : other ∈ sources) (artifact : memory.roots.IsArtifact other path)
    (different : Path.place (memory.roots.treePath source) ≠ Path.place path) :
    memory.Passes sources source (EStateM.final (FileSystem.write path text memory)) := by
  refine perform_passes memory (fun _ _ impossible => by cases impossible)
    fun logged roots => ?_
  exact .put logged text member (roots ▸ artifact) (roots ▸ different)

theorem remove_passes (memory : Memory) {other path : String} (member : other ∈ sources)
    (artifact : memory.roots.IsArtifact other path)
    (different : Path.place (memory.roots.treePath source) ≠ Path.place path) :
    memory.Passes sources source (EStateM.final (FileSystem.remove path memory)) := by
  refine perform_passes memory (fun _ _ impossible => by cases impossible)
    fun logged roots => ?_
  exact .delete logged member (roots ▸ artifact) (roots ▸ different)

/-- A run on another source. -/
theorem run_passes (memory : Memory) {other target : String} (command : String)
    (member : other ∈ sources) (artifact : memory.roots.IsArtifact other target)
    (different : other ≠ source)
    (elsewhere : Path.place (memory.roots.treePath source) ≠ Path.place target) :
    memory.Passes sources source
      (EStateM.final (FileSystem.run command [other] target memory)) := by
  refine perform_passes memory (fun _ _ same => ?_) fun logged roots => ?_
  · cases same
    exact absurd rfl different
  · exact .put logged _ member (roots ▸ artifact) (roots ▸ elsewhere)

/-- A run on the source itself. What is printed is in the tree, even after a failure. -/
theorem run_own (memory : Memory) (command : String) (member : source ∈ sources) :
    (∃ diagnostic after,
      FileSystem.run command [source] (memory.roots.treePath source) memory =
        .error diagnostic after ∧ memory.Passes sources source after) ∨
    ∃ after,
      FileSystem.run command [source] (memory.roots.treePath source) memory =
        .ok (memory.printedFor [source]).status after ∧
      memory.Frame sources after ∧ after.RanOn memory.events.length source ∧
      (after.files.get? (memory.roots.treePath source)).map (·.text) =
        some (memory.printedFor [source]).text := by
  simp only [FileSystem.run, perform]
  split
  · rename_i broken
    exact .inl ⟨_, _, rfl, .logged memory _ fun _ _ _ => broken⟩
  · rename_i effective
    refine .inr ⟨_, rfl,
      (Frame.logged memory _).trans (.put _ _ member (.inl rfl)), ?_, ?_⟩
    · refine ⟨memory.events.length, command, memory.roots.treePath source,
        Nat.le_refl _, ?_,
        (Bool.not_eq_true _).mp effective⟩
      simp [put]
    · rw [get?_put_self]
      rfl

theorem remove_own (memory : Memory) (member : source ∈ sources)
    (removes : memory.fails memory.events.length .remove = false) :
    ∃ after, FileSystem.remove (memory.roots.treePath source) memory = .ok () after ∧
      memory.Frame sources after ∧
      after.files.get? (memory.roots.treePath source) = none := by
  refine ⟨_, by simp only [FileSystem.remove, perform, removes]; rfl,
    (Frame.logged memory (.remove (memory.roots.treePath source))).trans
      (.delete _ member (.inl rfl)),
    get?_delete_self _ _⟩

end Memory

namespace Compiler

/-! ## Calls -/

/-- What calls can do to a source. They do not change the options. -/
structure Passes (sources : Set String) (source : String)
    (before after : Compiler Memory) :
    Prop where
  options : after.options = before.options
  files : before.files.Passes sources source after.files

variable {α : Type} {sources : Set String} {source path parser : String}
  {before middle after : Compiler Memory} {freshness : Freshness}

theorem Passes.refl (sources : Set String) (source : String)
    (compiler : Compiler Memory) :
    compiler.Passes sources source compiler :=
  ⟨rfl, .refl sources source compiler.files⟩

theorem Passes.trans (first : before.Passes sources source middle)
    (second : middle.Passes sources source after) : before.Passes sources source after :=
  ⟨second.options.trans first.options, first.files.trans second.files⟩

theorem onFiles_passes {action : FileAction Memory α} (compiler : Compiler Memory)
    (passes : compiler.files.Passes sources source
      (EStateM.final (action compiler.files))) :
    compiler.Passes sources source (EStateM.final (onFiles action compiler)) := by
  simp only [onFiles]
  cases ran : action compiler.files with
  | ok value files => exact ⟨rfl, by rwa [ran] at passes⟩
  | error diagnostic files => exact ⟨rfl, by rwa [ran] at passes⟩

/-- A compiler on which calls are made: removals do not fail. -/
structure Ready (roots : Roots) (compiler : Compiler Memory) : Prop where
  roots : compiler.files.roots = roots
  removes : ∀ time, compiler.files.fails time .remove = false

/-- Calls on a compiler that is ready. -/
def Leads (roots : Roots) (sources : Set String) (source : String)
    (before after : Compiler Memory) : Prop :=
  before.Ready roots → before.Passes sources source after

variable {roots : Roots}

theorem Passes.ready (passes : before.Passes sources source after)
    (ready : before.Ready roots) :
    after.Ready roots where
  roots := passes.files.frame.roots.trans ready.roots
  removes := by
    rw [passes.files.frame.fails]
    exact ready.removes

theorem Leads.refl (compiler : Compiler Memory) :
    compiler.Leads roots sources source compiler :=
  fun _ => .refl sources source compiler

theorem Leads.trans (first : before.Leads roots sources source middle)
    (second : middle.Leads roots sources source after) :
    before.Leads roots sources source after := by
  intro ready
  have led := first ready
  exact led.trans (second (led.ready ready))

theorem pure_leads (value : α) :
    EStateM.Moves (Leads roots sources source) (pure value : Build Memory α) :=
  fun compiler => .refl compiler

theorem throw_leads (diagnostic : Diagnostic) :
    EStateM.Moves (Leads roots sources source) (throw diagnostic : Build Memory α) :=
  fun compiler => .refl compiler

theorem ofExcept_leads (result : Except Diagnostic α) :
    EStateM.Moves (Leads roots sources source) (ofExcept result : Build Memory α) := by
  cases result with
  | ok value => exact pure_leads value
  | error diagnostic => exact throw_leads diagnostic

/-- Whatever the stages are, they leave the files alone. -/
theorem compileNodes_leads (nodes : List Node) :
    EStateM.Moves (Leads roots sources source) (compileNodes nodes) := by
  intro compiler _
  have ends := compileNodes_ends compiler nodes
  refine ⟨ends.setup.options, ?_⟩
  rw [ends.files]
  exact .refl sources source compiler.files

theorem compileTree_leads {other : String} (member : other ∈ sources)
    (artifact : freshness.outputPath = roots.outputPath other) :
    EStateM.Moves (Leads roots sources source) (compileTree freshness) := by
  rw [compileTree_eq]
  refine .bind Leads.trans
    (fun compiler _ => onFiles_passes compiler (Memory.read_passes _ _)) fun text => ?_
  refine .bind Leads.trans (ofExcept_leads _) fun nodes => ?_
  refine .bind Leads.trans (compileNodes_leads nodes) fun php => ?_
  refine .bind Leads.trans (fun compiler ready => ?_) fun _ => pure_leads php
  refine onFiles_passes compiler (Memory.write_passes _ php member (.inr ?_) ?_)
  · rw [ready.roots, artifact]
  · rw [ready.roots, artifact]
    exact roots.place_treePath_ne_outputPath source other

/-- Parsing another source leaves the tree alone. -/
theorem parseSource_leads_other (member : freshness.source ∈ sources)
    (artifact : freshness.treePath = roots.treePath freshness.source)
    (different : freshness.source ≠ source)
    (elsewhere : Path.place (roots.treePath source) ≠
      Path.place (roots.treePath freshness.source)) (parser : String) :
    EStateM.Moves (Leads roots sources source) (parseSource freshness parser) := by
  refine .bind Leads.trans (fun compiler ready => ?_) fun status => ?_
  · refine onFiles_passes compiler
      (Memory.run_passes _ parser member (.inl ?_) different ?_)
    · rw [ready.roots, artifact]
    · rw [ready.roots, artifact]
      exact elsewhere
  · split
    · refine .bind Leads.trans (fun compiler ready => ?_) fun _ => throw_leads _
      refine onFiles_passes compiler (Memory.remove_passes _ member (.inl ?_) ?_)
      · rw [ready.roots, artifact]
      · rw [ready.roots, artifact]
        exact elsewhere
    · exact pure_leads ()

/-- Parsing the source itself leaves what was printed, or after a failure no tree. In
between the two steps of a failure the tree cannot be told from a good one. -/
theorem parseSource_leads_own (member : freshness.source ∈ sources)
    (artifact : freshness.treePath = roots.treePath freshness.source) (parser : String) :
    EStateM.Moves (Leads roots sources freshness.source)
      (parseSource freshness parser) := by
  intro compiler ready
  rw [parseSource, artifact, ← ready.roots, EStateM.bind_apply, onFiles]
  rcases compiler.files.run_own parser member with
    ⟨diagnostic, files, broken, passes⟩ | ⟨files, ran, frame, effective, printed⟩
  · rw [broken]
    exact ⟨rfl, passes⟩
  · rw [ran]
    dsimp only
    split
    · rename_i failure
      have removes : files.fails files.events.length .remove = false := by
        rw [frame.fails]
        exact ready.removes _
      rcases files.remove_own member removes with ⟨after, removed, removedFrame, missing⟩
      rw [frame.roots] at removed missing
      rw [EStateM.bind_apply, onFiles, removed]
      refine ⟨rfl, frame.trans removedFrame, .inr ⟨?_, ?_⟩⟩
      · exact effective.mono removedFrame.fails removedFrame.events
      · intro tree found
        cases missing.symm.trans found
    · rename_i success
      refine ⟨rfl, frame,
        .inr ⟨effective, fun tree found => ⟨by simpa using success, ?_⟩⟩⟩
      change files.files.get? _ = _ at found
      rw [found] at printed
      exact Option.some.inj printed

theorem parseSource_leads (separate : Separate roots parser sources)
    (member : source ∈ sources) (looked : freshness.source ∈ sources)
    (artifact : freshness.treePath = roots.treePath freshness.source) (command : String) :
    EStateM.Moves (Leads roots sources source) (parseSource freshness command) := by
  by_cases same : freshness.source = source
  · subst same
    exact parseSource_leads_own looked artifact command
  · refine parseSource_leads_other looked artifact same (fun shared => ?_) command
    exact (separate.untouched_artifact member looked same (.inl rfl)).artifact
      (.inl shared)

theorem compileSource_passes (separate : Separate roots parser sources)
    (member : source ∈ sources) (path command : String) (compiler : Compiler Memory)
    (ready : compiler.Ready roots)
    (known : compiler.files.files.get? (compiler.sourceFile path) ≠ none →
      compiler.sourceFile path ∈ sources) :
    compiler.Passes sources source
      (EStateM.final (compileSource path command compiler)) := by
  rw [compileSource_eq compiler path command (compiler.sourceFile path) rfl]
  split
  · rename_i present
    have looked : compiler.sourceFile path ∈ sources :=
      known (Option.isSome_iff_ne_none.mp present)
    have compiled : EStateM.Moves (Leads roots sources source)
        (compileTree (Freshness.load compiler.files (compiler.sourceFile path)
          command)) :=
      compileTree_leads looked (by rw [Freshness.load_outputPath, ready.roots])
    split
    · refine (.bind Leads.trans ?_ fun _ => ?_ :
        EStateM.Moves (Leads roots sources source) _) compiler ready
      · exact parseSource_leads separate member looked
          (by rw [Freshness.load_treePath, Freshness.load_source, ready.roots]) command
      · exact .bind Leads.trans compiled fun php => pure_leads _
    · split
      · exact .refl sources source compiler
      · exact (.bind Leads.trans compiled fun php => pure_leads _ :
          EStateM.Moves (Leads roots sources source) _) compiler ready
  · exact .refl sources source compiler

/-! ## Calls on a whole directory -/

/-- What a build of the directory takes for a source is one: a source below the input root
that is found again from there, as it is spelt then, and the parser if it looks like a
source. From an absolute root nothing is spelt anew. -/
structure Complete (roots : Roots) (parser : String) (sources : Set String) : Prop where
  again : ∀ path ∈ sources, ∀ other ∈ sources,
    Path.place roots.input <+: Path.place path →
      Path.place (Path.join roots.input path) = Path.place other →
        Path.join roots.input path ∈ sources
  parser : Path.extension? parser = some sourceExtension → parser ∈ sources

/-- Every file with the extension of a source is a source. -/
def Stocked (sources : Set String) (compiler : Compiler Memory) : Prop :=
  ∀ path ∈ compiler.files.files.paths, Path.extension? path = some sourceExtension →
    path ∈ sources

theorem Passes.stocked (passes : before.Passes sources source after)
    (stocked : before.Stocked sources) : after.Stocked sources := by
  intro path stored isSource
  rcases passes.files.frame.paths path stored with earlier | ⟨other, _, artifact⟩
  · exact stocked path earlier isSource
  · exact absurd artifact (before.files.roots.not_isArtifact_of_source other isSource)

/-- A listed source is looked up under a source. -/
theorem Stocked.known {compiler : Compiler Memory} (stocked : compiler.Stocked sources)
    (complete : Complete compiler.files.roots parser sources)
    (member : path ∈ sources)
    (below : (Path.place compiler.files.roots.input).isPrefixOf (Path.place path) = true)
    (isSource : Path.extension? path = some sourceExtension)
    (found : compiler.files.files.get? (compiler.sourceFile path) ≠ none) :
    compiler.sourceFile path ∈ sources := by
  rcases compiler.files.files.exists_mem_paths_of_get? found with ⟨stored, isStored, same⟩
  refine complete.again path member stored (stocked stored isStored ?_) ?_ same.symm
  · rw [Path.extension?_congr same]
    exact Path.extension?_join compiler.files.roots.input isSource
  · exact List.isPrefixOf_iff_prefix.mp below

theorem compileSources_passes (separate : Separate roots parser sources)
    (complete : Complete roots parser sources) (member : source ∈ sources)
    (keepGoing : Bool) (command : String) (paths : List String)
    (listed : ∀ path ∈ paths, path ∈ sources ∧
      (Path.place roots.input).isPrefixOf (Path.place path) = true ∧
      Path.extension? path = some sourceExtension) (report : BuildReport)
    (compiler : Compiler Memory) (ready : compiler.Ready roots)
    (stocked : compiler.Stocked sources) :
    compiler.Passes sources source
      (EStateM.final (compileSources keepGoing command paths report compiler)) := by
  induction paths generalizing report compiler with
  | nil => exact .refl sources source compiler
  | cons path rest induction =>
      rcases List.forall_mem_cons.mp listed with ⟨⟨isMember, below, isSource⟩, others⟩
      have called := compileSource_passes separate member path command compiler ready
        (stocked.known (ready.roots ▸ complete) isMember (ready.roots ▸ below) isSource)
      cases ended : compileSource path command compiler with
      | ok compiled middle =>
          rw [ended] at called
          simp only [compileSources, ended]
          exact called.trans (induction others _ middle (called.ready ready)
            (called.stocked stocked))
      | error diagnostic middle =>
          rw [ended] at called
          simp only [compileSources, ended]
          split
          · exact called.trans (induction others _ middle (called.ready ready)
              (called.stocked stocked))
          · exact called

theorem compileFile_passes (separate : Separate roots parser sources)
    (member : source ∈ sources) (path : String) (compiler : Compiler Memory)
    (ready : compiler.Ready roots) (known : compiler.sourceFile path ∈ sources) :
    compiler.Passes sources source (EStateM.final (compileFile path compiler)) := by
  rw [compileFile_eq compiler path compiler.parserFile rfl]
  split
  · exact compileSource_passes separate member path _ compiler ready fun _ => known
  · exact .refl sources source compiler

theorem compileAll_passes (separate : Separate roots parser sources)
    (complete : Complete roots parser sources) (member : source ∈ sources)
    (keepGoing : Bool) (compiler : Compiler Memory) (ready : compiler.Ready roots)
    (stocked : compiler.Stocked sources) :
    compiler.Passes sources source (EStateM.final (compileAll keepGoing compiler)) := by
  rw [compileAll_eq compiler compiler.parserFile rfl]
  split
  · split
    · exact .refl sources source compiler
    · refine compileSources_passes separate complete member keepGoing _ _ ?_ _
        compiler ready
        stocked
      intro path listed
      rcases (compiler.mem_listing_iff path).mp listed with ⟨below, isSource⟩
      rcases List.mem_filter.mp below with ⟨stored, inside⟩
      exact ⟨stocked path stored isSource, ready.roots ▸ inside, isSource⟩
  · exact .refl sources source compiler

end Compiler

/-! ## Histories -/

/-- What can happen to the files and in the compiler. -/
inductive Occurrence where
  | put (path text : String)
  | delete (path : String)
  /-- From now on the parser prints this for a source, and ends so. -/
  | answer (source : String) (printed : Printed)
  /-- From now on other operations fail. -/
  | disturb (fails : Nat → FileOperation → Bool)
  | compile (path : String)
  | compileAll (keepGoing : Bool)

namespace Occurrence

/-- The compiler after an occurrence, whether or not a call succeeds. -/
def apply : Occurrence → Compiler Memory → Compiler Memory
  | .put path text, compiler => { compiler with files := compiler.files.put path text }
  | .delete path, compiler => { compiler with files := compiler.files.delete path }
  | .answer source printed, compiler =>
    { compiler with files :=
      { compiler.files with printed := compiler.files.printed.insert source printed } }
  | .disturb fails, compiler => { compiler with files := { compiler.files with fails } }
  | .compile path, compiler => EStateM.final (Compiler.compileFile path compiler)
  | .compileAll keepGoing, compiler =>
    EStateM.final (Compiler.compileAll keepGoing compiler)

/-- The compiler after a history. -/
def applyAll (history : List Occurrence) (compiler : Compiler Memory) : Compiler Memory :=
  history.foldl (fun compiler occurrence => occurrence.apply compiler) compiler

/-- Only sources and the parser are written, calls are made on sources, and removals do
not fail. -/
def Allowed (roots : Roots) (parser : String) (sources : Set String) : Occurrence → Prop
  | .put path _ => path ∈ sources ∨ path = parser
  | .disturb fails => ∀ time, fails time .remove = false
  | .compile path => Path.join roots.input path ∈ sources
  | .delete _ | .answer _ _ | .compileAll _ => True

/-- The parser is run on a source in the course of an occurrence. -/
def RunsOn (occurrence : Occurrence) (compiler : Compiler Memory) (source : String) :
    Prop :=
  (occurrence.apply compiler).files.RanOn compiler.files.events.length source

/-- The parser is not run on a source in the course of a history. -/
def NeverRunsOn (source : String) : Compiler Memory → List Occurrence → Prop
  | _, [] => True
  | compiler, occurrence :: rest =>
    ¬occurrence.RunsOn compiler source ∧
      NeverRunsOn source (occurrence.apply compiler) rest

theorem applyAll_append (history later : List Occurrence) (compiler : Compiler Memory) :
    applyAll (history ++ later) compiler =
      applyAll later (applyAll history compiler) := by
  rw [applyAll, List.foldl_append]
  rfl

theorem neverRunsOn_append (source : String) (history later : List Occurrence)
    (compiler : Compiler Memory) :
    NeverRunsOn source compiler (history ++ later) ↔
      NeverRunsOn source compiler history ∧
        NeverRunsOn source (applyAll history compiler) later := by
  induction history generalizing compiler with
  | nil => simp [NeverRunsOn, applyAll]
  | cons occurrence rest induction =>
      simp only [List.cons_append, NeverRunsOn, induction, and_assoc]
      rfl

theorem not_runsOn_of_events {occurrence : Occurrence} {compiler : Compiler Memory}
    (events : (occurrence.apply compiler).files.events = compiler.files.events)
    (source : String) : ¬occurrence.RunsOn compiler source := by
  rw [RunsOn, ← events]
  exact Memory.not_ranOn_self _ source

end Occurrence

/-- The call in which the parser was last run on a source, and printed its tree. -/
structure Origin (start : Compiler Memory) (history : List Occurrence) (source : String)
    (tree : StoredFile) (earlier : List Occurrence) (call : Occurrence)
    (later : List Occurrence) : Prop where
  whole : history = earlier ++ call :: later
  ran : call.RunsOn (Occurrence.applyAll earlier start) source
  last : Occurrence.NeverRunsOn source
    (Occurrence.applyAll (earlier ++ [call]) start) later
  success : ((Occurrence.applyAll earlier start).files.printedFor
    [source]).status.success = true
  text : tree.text = ((Occurrence.applyAll earlier start).files.printedFor [source]).text

theorem Origin.extend {start : Compiler Memory}
    {history earlier later : List Occurrence} {source : String} {tree : StoredFile}
    {call occurrence : Occurrence}
    (origin : Origin start history source tree earlier call later)
    (notRun : ¬occurrence.RunsOn (Occurrence.applyAll history start) source) :
    Origin start (history ++ [occurrence]) source tree earlier call
      (later ++ [occurrence]) where
  whole := by rw [origin.whole, List.append_assoc, List.cons_append]
  ran := origin.ran
  last := by
    rw [Occurrence.neverRunsOn_append, ← Occurrence.applyAll_append, List.append_assoc,
      List.singleton_append, ← origin.whole]
    exact ⟨origin.last, notRun, trivial⟩
  success := origin.success
  text := origin.text

/-- A tree has an origin, and a source or a parser that was written since is newer. -/
def Traced (start : Compiler Memory) (history : List Occurrence) (source : String) :
    Prop :=
  ∀ tree, (Occurrence.applyAll history start).files.files.get?
      (start.files.roots.treePath source) = some tree →
    ∃ earlier call later, Origin start history source tree earlier call later ∧
      ∀ path, Path.place path ∈ [Path.place source, Path.place start.parserFile] →
        ∀ text, .put path text ∈ later → ∀ file,
          (Occurrence.applyAll history start).files.files.get? path = some file →
            tree.time < file.time

/-- The state that a history leads to. -/
structure Accounted (start : Compiler Memory) (sources : Set String)
    (history : List Occurrence) : Prop where
  options : (Occurrence.applyAll history start).options = start.options
  ready : (Occurrence.applyAll history start).Ready start.files.roots
  timely : (Occurrence.applyAll history start).files.Timely
  stocked : (Occurrence.applyAll history start).Stocked sources
  traced : ∀ source ∈ sources, Traced start history source

section Histories

variable {start : Compiler Memory} {sources : Set String} {history : List Occurrence}
  {occurrence : Occurrence} {source : String}

/-- An occurrence that neither runs the parser on a source nor brings a tree for it. -/
theorem Traced.keep (traced : Traced start history source)
    (timely : (Occurrence.applyAll history start).files.Timely)
    (notRun : ¬occurrence.RunsOn (Occurrence.applyAll history start) source)
    (trees : ∀ tree, (occurrence.apply
      (Occurrence.applyAll history start)).files.files.get?
        (start.files.roots.treePath source) = some tree →
      (Occurrence.applyAll history start).files.files.get?
        (start.files.roots.treePath source) = some tree)
    (files : ∀ path, Path.place path ∈ [Path.place source, Path.place start.parserFile] →
      ∀ file,
      (occurrence.apply (Occurrence.applyAll history start)).files.files.get? path =
        some file →
      (Occurrence.applyAll history start).files.files.get? path = some file ∧
          (∀ text, occurrence ≠ .put path text) ∨
        (Occurrence.applyAll history start).files.clock < file.time) :
    Traced start (history ++ [occurrence]) source := by
  intro tree found
  rw [Occurrence.applyAll_append] at found
  have foundBefore := trees tree found
  rcases traced tree foundBefore with ⟨earlier, call, later, origin, newer⟩
  refine ⟨earlier, call, later ++ [occurrence], origin.extend notRun, ?_⟩
  intro path member text written file stored
  rw [Occurrence.applyAll_append] at stored
  rcases files path member file stored with ⟨before, notWritten⟩ | recent
  · rcases List.mem_append.mp written with written | written
    · exact newer path member text written file before
    · exact absurd (List.mem_singleton.mp written).symm (notWritten text)
  · exact Nat.lt_of_le_of_lt (timely _ tree foundBefore) recent

theorem Traced.of_sameFiles (traced : Traced start history source)
    (timely : (Occurrence.applyAll history start).files.Timely)
    (notRun : ¬occurrence.RunsOn (Occurrence.applyAll history start) source)
    (same : ∀ path, (occurrence.apply
      (Occurrence.applyAll history start)).files.files.get? path =
      (Occurrence.applyAll history start).files.files.get? path)
    (notPut : ∀ path text, occurrence ≠ .put path text) :
    Traced start (history ++ [occurrence]) source := by
  refine traced.keep timely notRun (fun tree found => same _ ▸ found) ?_
  exact fun path _ file found => .inl ⟨same path ▸ found, notPut path⟩

theorem Traced.put (traced : Traced start history source)
    (timely : (Occurrence.applyAll history start).files.Timely) {path : String}
    (text : String)
    (notTree : Path.place (start.files.roots.treePath source) ≠ Path.place path) :
    Traced start (history ++ [.put path text]) source := by
  refine traced.keep timely (Occurrence.not_runsOn_of_events rfl source) ?_ ?_
  · intro tree found
    exact Memory.get?_put_of_ne _ text notTree ▸ found
  · intro other _ file found
    by_cases same : Path.place other = Path.place path
    · have stored := (FileTable.get?_congr _ same).symm.trans found
      cases (Memory.get?_put_self _ _ _).symm.trans stored
      exact .inr (Nat.lt_succ_self _)
    · refine .inl ⟨Memory.get?_put_of_ne _ text same ▸ found, ?_⟩
      rintro _ ⟨⟩
      exact same rfl

theorem Traced.delete (traced : Traced start history source)
    (timely : (Occurrence.applyAll history start).files.Timely) (path : String) :
    Traced start (history ++ [.delete path]) source := by
  have remains {other : String} {file : StoredFile}
      (found : ((Occurrence.applyAll history start).files.delete path).files.get? other =
        some file) : (Occurrence.applyAll history start).files.files.get? other =
          some file := by
    by_cases same : Path.place other = Path.place path
    · have stored := (FileTable.get?_congr _ same).symm.trans found
      cases (Memory.get?_delete_self _ _).symm.trans stored
    · exact Memory.get?_delete_of_ne _ same ▸ found
  refine traced.keep timely (Occurrence.not_runsOn_of_events rfl source) ?_ ?_
  · exact fun tree found => remains found
  · intro other _ file found
    exact .inl ⟨remains found, by rintro _ ⟨⟩⟩

/-- A call keeps the tree of a source or is itself where the new tree comes from. -/
theorem Traced.call (traced : Traced start history source)
    (timely : (Occurrence.applyAll history start).files.Timely)
    (roots : (Occurrence.applyAll history start).files.roots = start.files.roots)
    (notPut : ∀ path text, occurrence ≠ .put path text)
    (apart : ∀ path, Path.place path ∈ [Path.place source, Path.place start.parserFile] →
      ∀ other ∈ sources, ¬start.files.roots.IsArtifact other path)
    (passes : (Occurrence.applyAll history start).files.Passes sources source
      (occurrence.apply (Occurrence.applyAll history start)).files) :
    Traced start (history ++ [occurrence]) source := by
  have unmoved : ∀ path,
      Path.place path ∈ [Path.place source, Path.place start.parserFile] →
      (occurrence.apply (Occurrence.applyAll history start)).files.files.get? path =
        (Occurrence.applyAll history start).files.files.get? path := by
    intro path member
    refine passes.frame.files path ?_
    rw [roots]
    exact apart path member
  rcases passes.tree with ⟨notRun, kept⟩ | ⟨ran, printed⟩
  · rw [roots] at kept
    refine traced.keep timely notRun (fun tree found => kept ▸ found) ?_
    exact fun path member file found => .inl ⟨unmoved path member ▸ found, notPut path⟩
  · intro tree found
    rw [Occurrence.applyAll_append] at found
    rw [roots] at printed
    rcases printed tree found with ⟨success, text⟩
    refine ⟨history, occurrence, [], ⟨rfl, ran, trivial, success, text⟩, ?_⟩
    intro path _ text impossible
    cases impossible

theorem Accounted.initial (empty : start.files.files = [])
    (removes : ∀ time, start.files.fails time .remove = false) :
    Accounted start sources [] where
  options := rfl
  ready := ⟨rfl, removes⟩
  timely path file found := by
    change start.files.files.get? path = some file at found
    rw [empty] at found
    cases found
  stocked path stored _ := by
    change path ∈ start.files.files.paths at stored
    rw [empty] at stored
    cases stored
  traced source _ tree found := by
    change start.files.files.get? _ = some tree at found
    rw [empty] at found
    cases found

/-- A call, from what it does to each source. -/
theorem Accounted.call (accounted : Accounted start sources history)
    (separate : Separate start.files.roots start.parserFile sources)
    (notPut : ∀ path text, occurrence ≠ .put path text)
    (passes : ∀ source ∈ sources,
      (Occurrence.applyAll history start).Passes sources source
      (occurrence.apply (Occurrence.applyAll history start)))
    (member : source ∈ sources) : Accounted start sources (history ++ [occurrence]) := by
  have whole : Occurrence.applyAll (history ++ [occurrence]) start =
      occurrence.apply (Occurrence.applyAll history start) :=
        Occurrence.applyAll_append _ _ _
  have passed := passes source member
  constructor
  · rw [whole, passed.options, accounted.options]
  · rw [whole]
    exact passed.ready accounted.ready
  · rw [whole]
    exact passed.files.frame.timely accounted.timely
  · rw [whole]
    exact passed.stocked accounted.stocked
  · intro source member
    refine (accounted.traced source member).call accounted.timely
      accounted.ready.roots notPut ?_
      (passes source member).files
    intro path listed other otherMember
    simp only [List.mem_cons, List.not_mem_nil, or_false] at listed
    rw [Roots.IsArtifact]
    rcases listed with same | same
    · rw [same]
      exact separate.sourceApart source member other otherMember
    · rw [same]
      exact separate.parserApart other otherMember

/-- One occurrence. -/
theorem Accounted.apply (accounted : Accounted start sources history)
    (separate : Separate start.files.roots start.parserFile sources)
    (complete : Compiler.Complete start.files.roots start.parserFile sources)
    (allowed : occurrence.Allowed start.files.roots start.parserFile sources)
    (member : source ∈ sources) : Accounted start sources (history ++ [occurrence]) := by
  have whole : Occurrence.applyAll (history ++ [occurrence]) start =
      occurrence.apply (Occurrence.applyAll history start) :=
        Occurrence.applyAll_append _ _ _
  have ready := accounted.ready
  cases occurrence with
  | put path text =>
      refine ⟨whole ▸ accounted.options, whole ▸ ⟨ready.roots, ready.removes⟩,
        whole ▸ accounted.timely.put path text, ?_, ?_⟩
      · rw [whole]
        intro other stored isSource
        rcases FileTable.mem_paths_of_insert _ stored with earlier | rfl
        · exact accounted.stocked other earlier isSource
        · rcases allowed with isMember | rfl
          · exact isMember
          · exact complete.parser isSource
      · intro other otherMember
        refine (accounted.traced other otherMember).put accounted.timely text
          fun same => ?_
        rcases allowed with isMember | rfl
        · exact separate.sourceApart path isMember other otherMember (.inl same.symm)
        · exact separate.parserApart other otherMember (.inl same.symm)
  | delete path =>
      refine ⟨whole ▸ accounted.options, whole ▸ ⟨ready.roots, ready.removes⟩,
        whole ▸ accounted.timely.delete path, ?_, fun other otherMember =>
          (accounted.traced other otherMember).delete accounted.timely path⟩
      rw [whole]
      intro other stored isSource
      exact accounted.stocked other (FileTable.mem_paths_of_erase _ stored) isSource
  | answer answered printed =>
      refine ⟨whole ▸ accounted.options, whole ▸ ⟨ready.roots, ready.removes⟩,
        whole ▸ accounted.timely, whole ▸ accounted.stocked, fun other otherMember => ?_⟩
      exact (accounted.traced other otherMember).of_sameFiles accounted.timely
        (Occurrence.not_runsOn_of_events rfl other) (fun _ => rfl) (by rintro _ _ ⟨⟩)
  | disturb fails =>
      refine ⟨whole ▸ accounted.options, whole ▸ ⟨ready.roots, allowed⟩,
        whole ▸ accounted.timely, whole ▸ accounted.stocked, fun other otherMember => ?_⟩
      exact (accounted.traced other otherMember).of_sameFiles accounted.timely
        (Occurrence.not_runsOn_of_events rfl other) (fun _ => rfl) (by rintro _ _ ⟨⟩)
  | compile path =>
      refine accounted.call separate (by rintro _ _ ⟨⟩)
        (fun other otherMember => ?_) member
      refine Compiler.compileFile_passes separate otherMember path _ ready ?_
      rw [Compiler.sourceFile, ready.roots]
      exact allowed
  | compileAll keepGoing =>
      refine accounted.call separate (by rintro _ _ ⟨⟩)
        (fun other otherMember => ?_) member
      exact Compiler.compileAll_passes separate complete otherMember keepGoing _ ready
        accounted.stocked

/-- One occurrence after the other. -/
theorem Accounted.applyAll (empty : start.files.files = [])
    (removes : ∀ time, start.files.fails time .remove = false)
    (separate : Separate start.files.roots start.parserFile sources)
    (complete : Compiler.Complete start.files.roots start.parserFile sources)
    (member : source ∈ sources) (history : List Occurrence)
    (allowed : ∀ occurrence ∈ history,
      occurrence.Allowed start.files.roots start.parserFile sources) :
    Accounted start sources history := by
  induction history using List.reverseRecOn with
  | nil => exact .initial empty removes
  | append_singleton earlier occurrence induction =>
      have before := induction fun other otherMember =>
        allowed other (List.mem_append_left _ otherMember)
      exact before.apply separate complete (allowed occurrence (by simp)) member

end Histories

/-- Whenever a source and the parser are there and the source need not be parsed again,
its tree is what the parser printed, with exit code 0, when it was last run on the source;
and since then neither the source nor the parser was written, however they were spelt.
This holds after every history of the files and the compiler, whatever its stages are, in
which no two sources share their artifacts, nobody else writes an artifact and removals do
not fail. -/
theorem reusable_tree_of_last_parse {start : Compiler Memory} {sources : Set String}
    {history : List Occurrence} {source : String} (empty : start.files.files = [])
    (removes : ∀ time, start.files.fails time .remove = false)
    (separate : Separate start.files.roots start.parserFile sources)
    (complete : Compiler.Complete start.files.roots start.parserFile sources)
    (allowed : ∀ occurrence ∈ history,
      occurrence.Allowed start.files.roots start.parserFile sources)
    (member : source ∈ sources)
    (present : (Occurrence.applyAll history start).files.files.contains source = true)
    (installed : (Occurrence.applyAll history start).files.files.contains
      start.parserFile = true)
    (reusable : (Freshness.load (Occurrence.applyAll history start).files source
      start.parserFile).needsParse = false) :
    ∃ earlier call later, history = earlier ++ call :: later ∧
      call.RunsOn (Occurrence.applyAll earlier start) source ∧
      Occurrence.NeverRunsOn source
        (Occurrence.applyAll (earlier ++ [call]) start) later ∧
      (∀ path, Path.place path ∈ [Path.place source, Path.place start.parserFile] →
        ∀ text, .put path text ∉ later) ∧
      ((Occurrence.applyAll earlier start).files.printedFor [source]).status = .code 0 ∧
      (Occurrence.applyAll history start).files.text?
        (start.files.roots.treePath source) =
        some ((Occurrence.applyAll earlier start).files.printedFor [source]).text := by
  have accounted :=
    Accounted.applyAll empty removes separate complete member history allowed
  have roots := accounted.ready.roots
  rcases (Freshness.needsParse_eq_false_iff _ _ _).mp reusable with
    ⟨tree, treeFound, sourceOlder, parserOlder⟩
  rcases Option.isSome_iff_exists.mp present with ⟨file, fileFound⟩
  rcases Option.isSome_iff_exists.mp installed with ⟨parser, parserFound⟩
  have sourceTime := sourceOlder file fileFound
  have parserTime := parserOlder parser parserFound
  rw [roots] at treeFound
  rcases accounted.traced source member tree treeFound with
    ⟨earlier, call, later, origin, newer⟩
  refine ⟨earlier, call, later, origin.whole, origin.ran, origin.last, ?_,
    by simpa [ExitStatus.success] using origin.success, ?_⟩
  · intro path watched text written
    have late := newer path watched text written
    simp only [List.mem_cons, List.not_mem_nil, or_false] at watched
    rcases watched with same | same
    · have stored := late file ((FileTable.get?_congr _ same).trans fileFound)
      omega
    · have stored := late parser ((FileTable.get?_congr _ same).trans parserFound)
      omega
  · rw [Memory.text?, treeFound, ← origin.text]
    rfl

def troubledStart : Compiler Memory :=
  Compiler.standard { roots := sampleRoots } sampleOptions

/-- The parser fails in the first call. In the second one the PHP file cannot be
written. -/
def troubledHistory : List Occurrence :=
  [.put "/parser" "", .put "src/a.zep" "", .answer "src/a.zep" ⟨"[", .code 1⟩,
    .compile "a.zep", .answer "src/a.zep" ⟨"[]", .code 0⟩,
    .disturb fun _ operation => operation == .write, .compile "a.zep"]

/-- What the failing parser printed is gone, and the tree of the second call is kept
although the call failed. -/
theorem reusable_tree_after_failures :
    ∃ earlier call later, troubledHistory = earlier ++ call :: later ∧
      call.RunsOn (Occurrence.applyAll earlier troubledStart) "src/a.zep" ∧
      (Occurrence.applyAll troubledHistory troubledStart).files.text?
          (sampleRoots.treePath "src/a.zep") =
        some ((Occurrence.applyAll earlier troubledStart).files.printedFor
          ["src/a.zep"]).text := by
  have parser : troubledStart.parserFile = "/parser" := by decide +kernel
  have complete : Compiler.Complete troubledStart.files.roots troubledStart.parserFile
      {"src/a.zep"} := by
    constructor
    · rintro path rfl other rfl _ same
      exact absurd same (by decide +kernel)
    · intro isSource
      exact absurd isSource (by decide +kernel)
  have allowed : ∀ occurrence ∈ troubledHistory,
      occurrence.Allowed troubledStart.files.roots troubledStart.parserFile
        {"src/a.zep"} := by
    rw [parser]
    simp only [troubledHistory, List.forall_mem_cons]
    exact ⟨.inr rfl, .inl rfl, trivial, sample_path, trivial, fun _ => rfl, sample_path,
      List.forall_mem_nil _⟩
  have reused := @reusable_tree_of_last_parse troubledStart {"src/a.zep"} troubledHistory
    "src/a.zep" rfl (fun _ => rfl) sample_separate complete allowed
    rfl (by decide +kernel) (by decide +kernel) (by decide +kernel)
  rcases reused with ⟨earlier, call, later, whole, ran, _, _, _, text⟩
  exact ⟨earlier, call, later, whole, ran, text⟩

end ZephirPhp
