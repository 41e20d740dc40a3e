import Mathlib.Data.Set.Basic
import ZephirPhp.Proofs.Build.Step

/-! # Histories of a project

Sources are edited and deleted, the parser is replaced, and in between the compiler is
called. Whether a call works is decided by the files alone, so an output can be trusted
only as far as the pair of syntax tree and PHP file says something about the source.
That is what `Coherent` states, and every event keeps it.

A call that fails after the parser leaves a new tree beside an old PHP file. The next
call takes both for fresh. Hence a call that succeeds has the right output exactly if
the tree of the source can be translated at all.
-/

namespace ZephirPhp

/-- What can happen in a project. -/
inductive Event where
  /-- A source is written, and from then on the parser prints `printed` for it. -/
  | edit (source text : String) (printed : Printed)
  | delete (source : String)
  | installParser (text : String)
  | compile (path : String)

namespace Event

/-- The source that an event is about. -/
def source? (roots : Roots) : Event → Option String
  | .edit source _ _ => some source
  | .delete source => some source
  | .installParser _ => none
  | .compile path => some (Path.join roots.input path)

/-- The compiler after an event, whether or not a call of it succeeds. -/
def apply : Event → Compiler Memory → Compiler Memory
  | .edit source text printed, compiler =>
    { compiler with files :=
      { compiler.files.put source text with
        printed := compiler.files.printed.insert source printed } }
  | .delete source, compiler => { compiler with files := compiler.files.delete source }
  | .installParser text, compiler =>
    let parser := Path.join compiler.files.roots.system compiler.options.parserPath
    { compiler with files := compiler.files.put parser text }
  | .compile path, compiler =>
    match Compiler.compileFile path compiler with
    | .ok _ after => after
    | .error _ after => after

/-- The compiler after a history. -/
def applyAll (history : List Event) (compiler : Compiler Memory) : Compiler Memory :=
  history.foldl (fun compiler event => event.apply compiler) compiler

/-- The compiler after a history that begins without files. -/
def run (history : List Event) (roots : Roots) (options : Options) : Compiler Memory :=
  applyAll history (Compiler.standard { roots } options)

end Event

/-- No two sources share their artifacts, and neither a source nor the parser lies where
an artifact of a source does. -/
structure Separate (roots : Roots) (parser : String) (sources : Set String) : Prop where
  distinct : ∀ left ∈ sources, ∀ right ∈ sources,
    Freshness.baseName left = Freshness.baseName right → left = right
  sourceApart : ∀ source ∈ sources, ∀ other ∈ sources, ¬roots.IsArtifact other source
  parserApart : ∀ source ∈ sources, ¬roots.IsArtifact source parser

/-- A path that leads neither to a source nor to one of its artifacts. -/
structure Untouched (roots : Roots) (source path : String) : Prop where
  self : Path.place source ≠ Path.place path
  artifact : ¬roots.IsArtifact source path

namespace Separate

variable {roots : Roots} {parser source other : String} {sources : Set String}

theorem untouched_artifact (separate : Separate roots parser sources) {path : String}
    (member : source ∈ sources) (otherMember : other ∈ sources)
    (different : other ≠ source) (artifact : roots.IsArtifact source path) :
    Untouched roots other path := by
  constructor
  · intro same
    have own : roots.IsArtifact source other := by
      rwa [Roots.IsArtifact, same]
    exact separate.sourceApart other otherMember source member own
  · intro shared
    exact different (separate.distinct other otherMember source member
      (roots.baseName_eq_of_isArtifact shared artifact))

end Separate

/-- What the artifacts of a source say about it. A tree that is not older than the source
is what the parser prints, and beside a tree that can be translated lies its
translation. -/
structure Coherent (setting : Setting) (memory : Memory) (source : String) : Prop where
  tree : ∀ tree file,
    memory.files.get? (memory.roots.treePath source) = some tree →
    memory.files.get? source = some file → file.time ≤ tree.time →
    (memory.printedFor [source]).status.success = true ∧
      tree.text = (memory.printedFor [source]).text
  output : ∀ tree output php,
    memory.files.get? (memory.roots.treePath source) = some tree →
    memory.files.get? (memory.roots.outputPath source) = some output →
    translate setting (memory.roots.treePath source) tree.text = .ok php →
    output.text = php

/-- No file is newer than the clock. -/
def Memory.Timely (memory : Memory) : Prop :=
  ∀ path file, memory.files.get? path = some file → file.time ≤ memory.clock

namespace Memory

variable {memory after : Memory}

theorem Timely.put (timely : memory.Timely) (path text : String) :
    (memory.put path text).Timely := by
  intro other file found
  by_cases same : Path.place other = Path.place path
  · rw [FileTable.get?_congr _ same, get?_put_self] at found
    cases found
    exact Nat.le_refl _
  · rw [get?_put_of_ne memory text same] at found
    exact Nat.le_succ_of_le (timely other file found)

theorem Timely.delete (timely : memory.Timely) (path : String) :
    (memory.delete path).Timely := by
  intro other file found
  by_cases same : Path.place other = Path.place path
  · rw [FileTable.get?_congr _ same, get?_delete_self] at found
    cases found
  · rw [get?_delete_of_ne memory same] at found
    exact timely other file found

theorem Timely.sameFiles (timely : memory.Timely) (same : memory.SameFiles after) :
    after.Timely := by
  intro path file found
  rw [same.files] at found
  rw [same.clock]
  exact timely path file found

end Memory

namespace Coherent

variable {setting : Setting} {memory after : Memory} {source path text php : String}

/-- Coherence looks at three files and at what is printed for the source. -/
theorem congr (coherent : Coherent setting memory source)
    (roots : after.roots = memory.roots)
    (file : after.files.get? source = memory.files.get? source)
    (tree : after.files.get? (memory.roots.treePath source) =
      memory.files.get? (memory.roots.treePath source))
    (output : after.files.get? (memory.roots.outputPath source) =
      memory.files.get? (memory.roots.outputPath source))
    (printed : after.printedFor [source] = memory.printedFor [source]) :
    Coherent setting after source := by
  constructor
  · rw [roots, tree, file, printed]
    exact coherent.tree
  · rw [roots, tree, output]
    exact coherent.output

theorem sameFiles (coherent : Coherent setting memory source)
    (same : memory.SameFiles after) : Coherent setting after source :=
  coherent.congr same.roots (by rw [same.files]) (by rw [same.files]) (by rw [same.files])
    (same.printedFor _)

theorem put_untouched (coherent : Coherent setting memory source) (text : String)
    (untouched : Untouched memory.roots source path) :
    Coherent setting (memory.put path text) source :=
  coherent.congr rfl (Memory.get?_put_of_ne memory text untouched.self)
    (Memory.get?_put_of_ne memory text fun same => untouched.artifact (.inl same.symm))
    (Memory.get?_put_of_ne memory text fun same =>
      untouched.artifact (.inr same.symm)) rfl

theorem delete_untouched (coherent : Coherent setting memory source)
    (untouched : Untouched memory.roots source path) :
    Coherent setting (memory.delete path) source :=
  coherent.congr rfl (Memory.get?_delete_of_ne memory untouched.self)
    (Memory.get?_delete_of_ne memory fun same => untouched.artifact (.inl same.symm))
    (Memory.get?_delete_of_ne memory fun same => untouched.artifact (.inr same.symm)) rfl

/-- A source that is written is newer than its tree, so nothing has to hold of the
tree. -/
theorem put_source (coherent : Coherent setting memory source) (timely : memory.Timely)
    (text : String) (printed : FileTable Printed)
    (same : Path.place source = Path.place path)
    (apart : ¬memory.roots.IsArtifact source path) :
    Coherent setting { memory.put path text with printed } source := by
  have treeBefore := Memory.get?_put_of_ne memory text fun same => apart (.inl same.symm)
  have outputBefore := Memory.get?_put_of_ne memory text fun same =>
    apart (.inr same.symm)
  constructor
  · intro tree file treeFound fileFound notOlder
    have fileFound : (memory.put path text).files.get? source = some file := fileFound
    rw [FileTable.get?_congr _ same, Memory.get?_put_self] at fileFound
    cases fileFound
    exact absurd (timely _ tree (treeBefore ▸ treeFound)) (Nat.not_le.mpr notOlder)
  · intro tree output php treeFound outputFound translated
    exact coherent.output tree output php (treeBefore ▸ treeFound)
      (outputBefore ▸ outputFound) translated

theorem delete_source (coherent : Coherent setting memory source)
    (same : Path.place source = Path.place path)
    (apart : ¬memory.roots.IsArtifact source path) :
    Coherent setting (memory.delete path) source := by
  have treeBefore := Memory.get?_delete_of_ne memory fun same => apart (.inl same.symm)
  have outputBefore := Memory.get?_delete_of_ne memory fun same => apart (.inr same.symm)
  constructor
  · intro tree file _ fileFound
    rw [FileTable.get?_congr _ same, Memory.get?_delete_self] at fileFound
    cases fileFound
  · intro tree output php treeFound outputFound translated
    exact coherent.output tree output php (treeBefore ▸ treeFound)
      (outputBefore ▸ outputFound) translated

/-- Writing the translation of the tree. -/
theorem put_output (coherent : Coherent setting memory source) {file : StoredFile}
    (tree : memory.files.get? (memory.roots.treePath source) = some file)
    (translated : translate setting (memory.roots.treePath source) file.text = .ok php) :
    Coherent setting (memory.put (memory.roots.outputPath source) php) source := by
  have treeAfter := Memory.get?_put_of_ne memory php
    (memory.roots.place_treePath_ne_outputPath source source)
  have fileAfter :=
    Memory.get?_put_of_ne memory php (memory.roots.place_ne_outputPath source)
  constructor
  · intro treeFile sourceFile treeFound sourceFound
    exact coherent.tree treeFile sourceFile (treeAfter ▸ treeFound)
      (fileAfter ▸ sourceFound)
  · intro treeFile output other treeFound outputFound translatedAgain
    have sameTree := (treeAfter ▸ treeFound).symm.trans tree
    cases sameTree
    have sameResult := translated.symm.trans translatedAgain
    cases sameResult
    cases (Memory.get?_put_self _ _ _).symm.trans outputFound
    rfl

/-- A new tree and its translation. -/
theorem put_tree_output
    (success : (memory.printedFor [source]).status.success = true)
    (translated : translate setting (memory.roots.treePath source)
      (memory.printedFor [source]).text = .ok php) :
    Coherent setting
      ((memory.put (memory.roots.treePath source) (memory.printedFor [source]).text).put
        (memory.roots.outputPath source) php) source := by
  have treeAfter := Memory.get?_put_of_ne
    (memory.put (memory.roots.treePath source) (memory.printedFor [source]).text) php
    (memory.roots.place_treePath_ne_outputPath source source)
  rw [Memory.get?_put_self] at treeAfter
  constructor
  · intro tree file treeFound _ _
    cases treeAfter.symm.trans treeFound
    exact ⟨success, rfl⟩
  · intro tree output other treeFound outputFound translatedAgain
    cases treeAfter.symm.trans treeFound
    cases translated.symm.trans translatedAgain
    cases (Memory.get?_put_self _ _ _).symm.trans outputFound
    rfl

/-- A new tree that cannot be translated. -/
theorem put_tree_of_error {diagnostic : Diagnostic}
    (success : (memory.printedFor [source]).status.success = true)
    (refused : translate setting (memory.roots.treePath source)
      (memory.printedFor [source]).text = .error diagnostic) :
    Coherent setting
      (memory.put (memory.roots.treePath source) (memory.printedFor [source]).text)
        source := by
  constructor
  · intro tree file treeFound _ _
    cases (Memory.get?_put_self _ _ _).symm.trans treeFound
    exact ⟨success, rfl⟩
  · intro tree output php treeFound _ translated
    cases (Memory.get?_put_self _ _ _).symm.trans treeFound
    cases refused.symm.trans translated

/-- Nothing has to hold without a tree. -/
theorem delete_tree (setting : Setting) (memory : Memory) (source : String) :
    Coherent setting (memory.delete (memory.roots.treePath source)) source := by
  constructor
  · intro tree file treeFound
    cases (Memory.get?_delete_self _ _).symm.trans treeFound
  · intro tree output php treeFound
    cases (Memory.get?_delete_self _ _).symm.trans treeFound

end Coherent

/-! ## What every event keeps -/

/-- The state that a project is in at any time, if files can always be read and
written. -/
structure Consistent (setting : Setting) (roots : Roots) (sources : Set String)
    (memory : Memory) : Prop where
  roots : memory.roots = roots
  reliable : ∀ operation, ¬memory.Fails operation
  timely : memory.Timely
  coherent : ∀ source ∈ sources, Coherent setting memory source

section Keeping

variable {setting : Setting} {roots : Roots} {sources : Set String}
  {memory after : Memory}
  {source parser : String}

/-- Two paths may lead to the same source, of which one is written and the other
compiled. -/
theorem Consistent.edit (consistent : Consistent setting roots sources memory)
    (separate : Separate roots parser sources) (member : source ∈ sources)
    (text : String) (printed : Printed) :
    Consistent setting roots sources
      { memory.put source text with
        printed := memory.printed.insert source printed } where
  roots := consistent.roots
  reliable := consistent.reliable
  timely := consistent.timely.put source text
  coherent other otherMember := by
    have before := consistent.coherent other otherMember
    have apart := separate.sourceApart source member other otherMember
    rw [← consistent.roots] at apart
    by_cases same : Path.place other = Path.place source
    · exact before.put_source consistent.timely text _ same apart
    · refine (before.put_untouched text ⟨same, apart⟩).congr rfl rfl rfl rfl ?_
      simp [Memory.printedFor, Memory.put, FileTable.get?_insert_of_ne _ _ same]

theorem Consistent.delete (consistent : Consistent setting roots sources memory)
    (separate : Separate roots parser sources) (member : source ∈ sources) :
    Consistent setting roots sources (memory.delete source) where
  roots := consistent.roots
  reliable := consistent.reliable
  timely := consistent.timely.delete source
  coherent other otherMember := by
    have before := consistent.coherent other otherMember
    have apart := separate.sourceApart source member other otherMember
    rw [← consistent.roots] at apart
    by_cases same : Path.place other = Path.place source
    · exact before.delete_source same apart
    · exact before.delete_untouched ⟨same, apart⟩

/-- The parser may itself be one of the sources. -/
theorem Consistent.installParser (consistent : Consistent setting roots sources memory)
    (separate : Separate roots parser sources) (text : String) :
    Consistent setting roots sources (memory.put parser text) where
  roots := consistent.roots
  reliable := consistent.reliable
  timely := consistent.timely.put parser text
  coherent other otherMember := by
    have before := consistent.coherent other otherMember
    have apart := separate.parserApart other otherMember
    rw [← consistent.roots] at apart
    by_cases same : Path.place other = Path.place parser
    · exact before.put_source consistent.timely text _ same apart
    · exact before.put_untouched text ⟨same, apart⟩

/-- Artifacts of other sources are no concern of a source. -/
theorem Consistent.of_own (consistent : Consistent setting roots sources memory)
    (separate : Separate roots parser sources) (member : source ∈ sources)
    (same : memory.SameBut source after) (timely : after.Timely)
    (own : Coherent setting after source) : Consistent setting roots sources after where
  roots := same.roots.trans consistent.roots
  reliable operation broken :=
    consistent.reliable operation (by rwa [Memory.Fails, same.fails] at broken)
  timely := timely
  coherent other otherMember := by
    by_cases equal : other = source
    · rw [equal]
      exact own
    · have unmoved {path : String}
          (apart : roots.IsArtifact source path → Untouched roots other path → False) :
          after.files.get? path = memory.files.get? path := by
        refine same.files path fun artifact => ?_
        rw [consistent.roots] at artifact
        exact apart artifact
          (separate.untouched_artifact member otherMember equal artifact)
      refine (consistent.coherent other otherMember).congr same.roots ?_ ?_ ?_
        (same.printedFor _)
      · exact unmoved fun _ untouched => untouched.self rfl
      · rw [consistent.roots]
        exact unmoved fun _ untouched => untouched.artifact (.inl rfl)
      · rw [consistent.roots]
        exact unmoved fun _ untouched => untouched.artifact (.inr rfl)

end Keeping

section Calls

variable {setting : Setting} {compiler : Compiler Memory} {source parser : String}
  {result : Except Diagnostic CompiledFile} {after : Memory}

theorem Parses.timely {parsed : Bool}
    (parses : Parses compiler source parser parsed after)
    (timely : compiler.files.Timely) : after.Timely := by
  cases parses with
  | kept current => exact timely
  | printed outdated success same => exact (timely.put _ _).sameFiles same

theorem Ends.timely (ends : Ends compiler source parser result after)
    (timely : compiler.files.Timely) : after.Timely := by
  cases ends with
  | missing absent => exact timely
  | unstarted broken same => exact timely.sameFiles same
  | unparsed failure same => exact ((timely.put _ _).delete _).sameFiles same
  | leftover failure broken same => exact (timely.put _ _).sameFiles same
  | fresh present current output => exact timely
  | uncompiled parses cause same => exact (parses.timely timely).sameFiles same
  | compiled present parses needed found translated same =>
      exact ((parses.timely timely).put _ _).sameFiles same

/-- If the files work, a call keeps what the artifacts of its source say. -/
theorem Ends.coherent (ends : Ends compiler source parser result after)
    (standard : compiler.pipeline = Pipeline.standard setting)
    (reliable : ∀ operation, ¬compiler.files.Fails operation)
    (coherent : Coherent setting compiler.files source) :
    Coherent setting after source := by
  cases ends with
  | missing absent => exact coherent
  | unstarted broken same => exact absurd broken (reliable .run)
  | unparsed failure same => exact (Coherent.delete_tree setting _ source).sameFiles same
  | leftover failure broken same => exact absurd broken (reliable .remove)
  | fresh present current output => exact coherent
  | uncompiled parses cause same =>
      rcases cause with ⟨broken, _⟩ | ⟨tree, found, refused⟩
      · exact absurd broken (not_or.mpr ⟨reliable .read, reliable .write⟩)
      · cases parses with
        | kept current => exact coherent.sameFiles same
        | printed outdated success printed =>
            rw [printed.files, Memory.get?_put_self] at found
            cases found
            rw [Compiler.translation_standard standard] at refused
            -- The new tree stays beside the PHP file of the old one. Coherence has
            -- nothing to say about that file, as the new tree has no translation.
            exact (Coherent.put_tree_of_error success refused).sameFiles
              (printed.trans same)
  | compiled present parses needed found translated same =>
      rw [Compiler.translation_standard standard] at translated
      cases parses with
      | kept current => exact (coherent.put_output found translated).sameFiles same
      | printed outdated success printed =>
          rw [printed.files, Memory.get?_put_self] at found
          cases found
          exact (Coherent.put_tree_output success translated).sameFiles
            ((printed.put _ _).trans same)

end Calls

/-- A compiler in the course of a history. -/
structure Running (options : Options) (roots : Roots) (sources : Set String)
    (compiler : Compiler Memory) : Prop where
  setup : compiler.options = options
  pipeline : compiler.pipeline = Pipeline.standard options.setting
  files : Consistent options.setting roots sources compiler.files

section Runs

variable {options : Options} {roots : Roots} {sources : Set String}
  {compiler : Compiler Memory}

theorem Running.compile
    (separate : Separate roots (Path.join roots.system options.parserPath) sources)
    (running : Running options roots sources compiler) {path : String}
    (member : Path.join roots.input path ∈ sources) :
    Running options roots sources ((Event.compile path).apply compiler) := by
  have member : compiler.sourceFile path ∈ sources := by
    rwa [Compiler.sourceFile, running.files.roots]
  have called : (Event.compile path).apply compiler =
      EStateM.final (Compiler.compileFile path compiler) := by
    rw [Event.apply]
    cases Compiler.compileFile path compiler <;> rfl
  rw [called]
  cases present : compiler.files.files.contains compiler.parserFile with
  | false =>
      rw [Compiler.compileFile_of_absent compiler path present]
      exact running
  | true =>
      rw [Compiler.compileFile_of_present compiler path present]
      rcases Compiler.compileSource_ends compiler path compiler.parserFile with
        ⟨setup, ends⟩
      refine ⟨setup.options.trans running.setup, setup.pipeline.trans running.pipeline,
        running.files.of_own separate member ends.sameBut
          (ends.timely running.files.timely) ?_⟩
      exact ends.coherent running.pipeline running.files.reliable
        (running.files.coherent _ member)

theorem Running.apply
    (separate : Separate roots (Path.join roots.system options.parserPath) sources)
    (running : Running options roots sources compiler) (event : Event)
    (about : ∀ source, event.source? roots = some source → source ∈ sources) :
    Running options roots sources (event.apply compiler) := by
  cases event with
  | edit source text printed =>
      exact ⟨running.setup, running.pipeline,
        running.files.edit separate (about source rfl) text printed⟩
  | delete source =>
      exact ⟨running.setup, running.pipeline,
        running.files.delete separate (about source rfl)⟩
  | installParser text =>
      refine ⟨running.setup, running.pipeline, ?_⟩
      rw [Event.apply, running.setup, running.files.roots]
      exact running.files.installParser separate text
  | compile path => exact running.compile separate (about _ rfl)

theorem Running.applyAll
    (separate : Separate roots (Path.join roots.system options.parserPath) sources)
    (running : Running options roots sources compiler) (history : List Event)
    (about : ∀ event ∈ history, ∀ source, event.source? roots = some source →
      source ∈ sources) :
    Running options roots sources (Event.applyAll history compiler) := by
  induction history generalizing compiler with
  | nil => exact running
  | cons event rest induction =>
      exact induction (running.apply separate event (about event List.mem_cons_self))
        fun later member => about later (List.mem_cons_of_mem event member)

/-- Without files everything is consistent. -/
theorem Running.initial (options : Options) (roots : Roots) (sources : Set String) :
    Running options roots sources (Compiler.standard { roots } options) := by
  refine ⟨rfl, rfl, rfl, ?_, ?_, ?_⟩
  · rintro operation ⟨time, broken⟩
    cases broken
  · intro path file found
    cases found
  · intro source _
    constructor
    · intro tree file found
      cases found
    · intro tree output php found
      cases found

end Runs

/-! ## What a successful call leaves -/

/-- Coherence before a call that succeeds says what the PHP file holds after it. -/
theorem Ends.output {setting : Setting} {compiler : Compiler Memory}
    {source parser : String} {compiled : CompiledFile} {after : Memory}
    (ends : Ends compiler source parser (.ok compiled) after)
    (standard : compiler.pipeline = Pipeline.standard setting)
    (coherent : Coherent setting compiler.files source) :
    compiled.source = source ∧ compiled.output = compiler.files.roots.outputPath source ∧
      (compiler.files.printedFor [source]).status.success = true ∧
      ∃ output, after.files.get? compiled.output = some output ∧
        (∀ php, translate setting (compiler.files.roots.treePath source)
            (compiler.files.printedFor [source]).text = .ok php → output.text = php) ∧
        (∀ diagnostic, translate setting (compiler.files.roots.treePath source)
            (compiler.files.printedFor [source]).text = .error diagnostic →
          compiled.php = none ∧ after.files = compiler.files.files) := by
  cases ends with
  | fresh present current contained =>
      -- Nothing is read or written: only coherence tells what the PHP file holds.
      rcases (Freshness.needsParse_eq_false_iff _ _ _).mp current with
        ⟨tree, treeFound, notOlder, _⟩
      rcases Option.isSome_iff_exists.mp contained with ⟨output, outputFound⟩
      rcases coherent.tree tree _ treeFound present (notOlder _ present) with
        ⟨success, text⟩
      rw [← text]
      dsimp only
      refine ⟨rfl, rfl, success, output, outputFound, ?_, fun _ _ => ⟨rfl, rfl⟩⟩
      exact fun php translated =>
        coherent.output tree output php treeFound outputFound translated
  | @compiled _ middle _ _ tree php present parses needed found translated same =>
      rw [Compiler.translation_standard standard] at translated
      have printed : (compiler.files.printedFor [source]).status.success = true ∧
          tree.text = (compiler.files.printedFor [source]).text := by
        cases parses with
        | kept current =>
            rcases (Freshness.needsParse_eq_false_iff _ _ _).mp current with
              ⟨_, treeFound, notOlder, _⟩
            cases found.symm.trans treeFound
            exact coherent.tree tree _ treeFound present (notOlder _ present)
        | printed outdated success printed =>
            rw [printed.files, Memory.get?_put_self] at found
            cases found
            exact ⟨success, rfl⟩
      rw [same.files, Memory.get?_put_self, ← printed.2, translated]
      dsimp only
      refine ⟨rfl, rfl, printed.1, _, rfl, ?_, ?_⟩
      · rintro _ ⟨⟩
        rfl
      · rintro _ ⟨⟩

/-- After any history, a call that succeeds leaves the translation of what the parser
prints for the source exactly if that can be translated. Otherwise the call changed no
file. -/
theorem compileFile_current_iff (roots : Roots) (options : Options) (sources : Set String)
    (history : List Event) (path : String) (compiled : CompiledFile)
    (after : Compiler Memory)
    (separate : Separate roots (Path.join roots.system options.parserPath) sources)
    (about : ∀ event ∈ history, ∀ source, event.source? roots = some source →
      source ∈ sources)
    (member : Path.join roots.input path ∈ sources)
    (done : Compiler.compileFile path (Event.run history roots options) =
      .ok compiled after) :
    let printed := (Event.run history roots options).files.printedFor
      [Path.join roots.input path]
    let translation := translate options.setting
      (roots.treePath (Path.join roots.input path)) printed.text
    compiled.source = Path.join roots.input path ∧
      compiled.output = roots.outputPath (Path.join roots.input path) ∧
      printed.status.success = true ∧
      ∃ file, after.files.files.get? compiled.output = some file ∧
        (translation = .ok file.text ↔ ∃ php, translation = .ok php) ∧
        ((∃ diagnostic, translation = .error diagnostic) →
          compiled.php = none ∧
            after.files.files = (Event.run history roots options).files.files) := by
  have running : Running options roots sources (Event.run history roots options) :=
    (Running.initial options roots sources).applyAll separate history about
  generalize Event.run history roots options = before at running done ⊢
  cases present : before.files.files.contains before.parserFile with
  | false =>
      rw [Compiler.compileFile_of_absent before path present] at done
      cases done
  | true =>
      rw [Compiler.compileFile_of_present before path present] at done
      have ends := (Compiler.compileSource_ok done).2
      have coherent := running.files.coherent _ member
      rw [Compiler.sourceFile, running.files.roots] at ends
      rcases ends.output running.pipeline coherent with
        ⟨sourceEq, outputEq, success, output, found, translated, refused⟩
      rw [running.files.roots] at outputEq translated refused
      refine ⟨sourceEq, outputEq, success, output, found, ?_, ?_⟩
      · constructor
        · intro equal
          exact ⟨_, equal⟩
        · rintro ⟨php, equal⟩
          rw [translated php equal]
          exact equal
      · rintro ⟨diagnostic, equal⟩
        exact refused diagnostic equal

section Sample

def sampleRoots : Roots := ⟨"src", "out", "bin"⟩

def sampleOptions : Options := { parser := some "/parser" }

/-- The only source is given a tree or, without one, compiled. -/
def sampleHistory (steps : List (Option String)) : List Event :=
  .installParser "" :: steps.map fun
    | some tree => .edit "src/a.zep" "" ⟨tree, .code 0⟩
    | none => .compile "a.zep"

theorem sample_path : Path.join sampleRoots.input "a.zep" = "src/a.zep" := by
  decide +kernel

theorem sample_separate :
    Separate sampleRoots (Path.join sampleRoots.system sampleOptions.parserPath)
      {"src/a.zep"} := by
  constructor
  · rintro left rfl right rfl _
    rfl
  · rintro source rfl other rfl
    decide +kernel
  · rintro source rfl
    decide +kernel

theorem sample_about (steps : List (Option String)) :
    ∀ event ∈ sampleHistory steps, ∀ source, event.source? sampleRoots = some source →
      source ∈ ({"src/a.zep"} : Set String) := by
  intro event member source found
  simp only [sampleHistory, List.mem_cons, List.mem_map] at member
  rcases member with rfl | ⟨tree | _, _, rfl⟩
  · cases found
  · cases found
    exact sample_path
  · cases found
    rfl

/-- The compiler after these steps. -/
def sampleCompiler (steps : List (Option String)) : Compiler Memory :=
  Event.run (sampleHistory steps) sampleRoots sampleOptions

/-- Whether one more call succeeds. -/
def sampleSucceeds (steps : List (Option String)) : Bool :=
  match Compiler.compileFile "a.zep" (sampleCompiler steps) with
  | .ok _ _ => true
  | .error _ _ => false

/-- What becomes of the tree that is now printed for the source. -/
def sampleTranslation (steps : List (Option String)) : Except Diagnostic String :=
  translate sampleOptions.setting
    (sampleRoots.treePath (Path.join sampleRoots.input "a.zep"))
    ((sampleCompiler steps).files.printedFor [Path.join sampleRoots.input "a.zep"]).text

theorem sample_done {steps : List (Option String)}
    (succeeds : sampleSucceeds steps = true) :
    ∃ compiled after,
      Compiler.compileFile "a.zep" (sampleCompiler steps) = .ok compiled after := by
  rw [sampleSucceeds] at succeeds
  split at succeeds
  · rename_i compiled after done
    exact ⟨compiled, after, done⟩
  · cases succeeds

/-- A source whose first tree is refused and whose second is not. -/
theorem compileFile_current_iff_after_refusal :
    ∃ compiled after,
      Compiler.compileFile "a.zep" (sampleCompiler [some "null", none, some "[]"]) =
        .ok compiled after ∧
      ∃ file, after.files.files.get? compiled.output = some file ∧
        sampleTranslation [some "null", none, some "[]"] = .ok file.text := by
  have succeeds : sampleSucceeds [some "null", none, some "[]"] = true := by
    decide +kernel
  have translated : (sampleTranslation [some "null", none, some "[]"]).toBool = true := by
    decide +kernel
  rcases sample_done succeeds with ⟨compiled, after, done⟩
  rcases compileFile_current_iff sampleRoots sampleOptions {"src/a.zep"}
    (sampleHistory [some "null", none, some "[]"]) "a.zep" compiled after sample_separate
    (sample_about _) sample_path done with ⟨_, _, _, file, found, current, _⟩
  refine ⟨compiled, after, done, file, found, current.mpr ?_⟩
  change ∃ php, sampleTranslation [some "null", none, some "[]"] = .ok php
  cases translation : sampleTranslation [some "null", none, some "[]"] with
  | error diagnostic =>
      rw [translation] at translated
      cases translated
  | ok php => exact ⟨php, rfl⟩

/-- A call that succeeds need not leave the translation: the second tree is refused, and
the next call takes the PHP file of the first one for fresh. -/
theorem compileFile_not_current :
    ¬∀ (roots : Roots) (options : Options) (sources : Set String) (history : List Event)
      (path : String) (compiled : CompiledFile) (after : Compiler Memory),
      Separate roots (Path.join roots.system options.parserPath) sources →
      (∀ event ∈ history, ∀ source, event.source? roots = some source →
        source ∈ sources) →
      Path.join roots.input path ∈ sources →
      Compiler.compileFile path (Event.run history roots options) = .ok compiled after →
      ∃ file, after.files.files.get? (roots.outputPath (Path.join roots.input path)) =
          some file ∧
        translate options.setting (roots.treePath (Path.join roots.input path))
          ((Event.run history roots options).files.printedFor
            [Path.join roots.input path]).text = .ok file.text := by
  intro always
  have succeeds : sampleSucceeds [some "[]", none, some "null", none] = true := by
    decide +kernel
  have refused : (sampleTranslation [some "[]", none, some "null", none]).toBool =
      false := by
    decide +kernel
  rcases sample_done succeeds with ⟨compiled, after, done⟩
  rcases always sampleRoots sampleOptions {"src/a.zep"}
    (sampleHistory [some "[]", none, some "null", none]) "a.zep" compiled after
    sample_separate
    (sample_about _) sample_path done with ⟨file, _, translated⟩
  change sampleTranslation [some "[]", none, some "null", none] =
    .ok file.text at translated
  rw [translated] at refused
  cases refused

end Sample

end ZephirPhp
