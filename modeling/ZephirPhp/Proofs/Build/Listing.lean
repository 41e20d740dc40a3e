import ZephirPhp.Proofs.Build.Directory
import ZephirPhp.Proofs.Program.Complaints

/-! # Listed sources that are not found

A build of a directory lists its sources as paths that begin with the input root, and
then looks for each of them as seen from that root. From an absolute root, or from one
that names no directory, this leads back to the listed file. From any other it leads to
where the root stands twice.
-/

namespace ZephirPhp

/-! ## Causes of failure -/

/-- A translation fails only because of the tree. -/
theorem translate_blames (setting : Setting) (path text : String) :
    BlamesTree (translate setting path text) := by
  refine .bind (Node.ofText_blames path text) fun nodes => ?_
  intro diagnostic failed
  rw [translateNodes] at failed
  cases decoded : Program.ofNodes nodes with
  | error fault =>
      rw [decoded] at failed
      cases failed
      exact ofNodes_blames nodes _ decoded
  | ok source =>
      rw [decoded, Except.ok_bind] at failed
      cases processed : source.process Phase.standard with
      | error fault =>
          rw [processed] at failed
          cases failed
          exact Program.process_blames Phase.standard source _ processed
      | ok program =>
          rw [processed, Except.ok_bind] at failed
          have wellFormed : program.WellFormed :=
            Program.process_wellFormed Phase.standard source
              (ofNodes_wellFormed nodes source decoded) program processed
          exact program.toPhp_blames setting wellFormed diagnostic failed

theorem Diagnostic.isConfinedToUnit_of_isOfTree {diagnostic : Diagnostic}
    (ofTree : diagnostic.isOfTree = true) : diagnostic.isConfinedToUnit = true := by
  cases diagnostic <;> first | rfl | cases ofTree

section Calls

variable {setting : Setting} {compiler : Compiler Memory} {source parser : String}
  {diagnostic : Diagnostic} {after : Memory}

theorem Compiler.Refuses.isOfTree
    (standard : compiler.pipeline = Pipeline.standard setting) {memory : Memory}
    {tree : String} (refuses : compiler.Refuses memory tree diagnostic) :
    diagnostic.isOfTree = true := by
  rcases refuses with ⟨file, _, refused⟩
  rw [Compiler.translation_standard standard] at refused
  exact translate_blames setting tree file.text _ refused

/-- Only a source that is not there is reported as missing. -/
theorem Ends.absent_of_missingSource
    (standard : compiler.pipeline = Pipeline.standard setting) {other : String}
    (ends : Ends compiler source parser (.error (.missingSource other)) after) :
    other = source ∧ compiler.files.files.get? source = none := by
  cases ends with
  | missing absent => exact ⟨rfl, absent⟩
  | uncompiled parses cause same =>
      rcases cause with ⟨_, reason, impossible⟩ | refuses
      · cases impossible
      · cases refuses.isOfTree standard

/-- If the files work, whatever stops a call is confined to its source. -/
theorem Ends.isConfinedToUnit (standard : compiler.pipeline = Pipeline.standard setting)
    (reliable : ∀ operation, ¬compiler.files.Fails operation)
    (ends : Ends compiler source parser (.error diagnostic) after) :
    diagnostic.isConfinedToUnit = true := by
  cases ends with
  | missing absent => rfl
  | unstarted broken same => exact absurd broken (reliable .run)
  | unparsed failure same => rfl
  | leftover failure broken same => exact absurd broken (reliable .remove)
  | uncompiled parses cause same =>
      rcases cause with ⟨broken | broken, _⟩ | refuses
      · exact absurd broken (reliable .read)
      · exact absurd broken (reliable .write)
      · exact Diagnostic.isConfinedToUnit_of_isOfTree (refuses.isOfTree standard)

end Calls

/-! ## What a build leaves of the sources -/

/-- Two memories with the same sources. -/
structure Memory.SameSources (left right : Memory) : Prop where
  roots : right.roots = left.roots
  fails : right.fails = left.fails
  sources : ∀ path, Path.extension? path = some Compiler.sourceExtension →
    right.files.get? path = left.files.get? path

theorem Memory.SameBut.sameSources {left right : Memory} {source : String}
    (same : left.SameBut source right) : left.SameSources right :=
  ⟨same.roots, same.fails, fun path isSource =>
    same.files path (left.roots.not_isArtifact_of_source source isSource)⟩

namespace Compiler

/-- What a call leaves as it is: the stages and the sources. -/
structure Keeps (before after : Compiler Memory) : Prop where
  pipeline : after.pipeline = before.pipeline
  sources : before.files.SameSources after.files

/-- There is no file at the path under which a source is looked up. -/
def Misses (compiler : Compiler Memory) (path source : String) : Prop :=
  source = compiler.sourceFile path ∧ compiler.files.files.get? source = none

variable {before after middle : Compiler Memory} {setting : Setting}
  {path parser : String}
  {keepGoing : Bool} {report final : BuildReport} {diagnostic : Diagnostic}

theorem Keeps.misses_iff (keeps : before.Keeps middle)
    (isSource : Path.extension? path = some sourceExtension) (source : String) :
    middle.Misses path source ↔ before.Misses path source := by
  rw [Misses, Misses, sourceFile, sourceFile, keeps.sources.roots]
  refine and_congr_right ?_
  rintro rfl
  rw [keeps.sources.sources _ (Path.extension?_join before.files.roots.input isSource)]

theorem Keeps.reliable (keeps : before.Keeps middle)
    (reliable : ∀ operation, ¬before.files.Fails operation) (operation : FileOperation) :
    ¬middle.files.Fails operation := by
  rw [Memory.Fails, keeps.sources.fails]
  exact reliable operation

theorem compileSource_keeps_of_ok {compiled : CompiledFile}
    (done : compileSource path parser before = .ok compiled after) :
    before.Keeps after := by
  rcases compileSource_ok done with ⟨setup, ends⟩
  exact ⟨setup.pipeline, ends.sameBut.sameSources⟩

theorem compileSource_keeps_of_error
    (done : compileSource path parser before = .error diagnostic after) :
    before.Keeps after := by
  rcases compileSource_error done with ⟨setup, ends⟩
  exact ⟨setup.pipeline, ends.sameBut.sameSources⟩

theorem compileSource_of_absent (compiler : Compiler Memory) (path parser : String)
    (absent : compiler.files.files.get? (compiler.sourceFile path) = none) :
    compileSource path parser compiler =
      .error (.missingSource (compiler.sourceFile path)) compiler := by
  rw [compileSource_eq compiler path parser _ rfl, FileTable.contains, absent]
  rfl

theorem not_misses_of_ok {compiled : CompiledFile} {source : String}
    (done : compileSource path parser before = .ok compiled after) :
    ¬before.Misses path source := by
  rintro ⟨rfl, missing⟩
  rw [compileSource_of_absent before path parser missing] at done
  cases done

/-- A call reports a missing source exactly if there is no file at the path that it
looks up. -/
theorem compileSource_missing_iff
    (standard : before.pipeline = Pipeline.standard setting)
    (done : compileSource path parser before = .error diagnostic after)
    (source : String) :
    diagnostic = .missingSource source ↔ before.Misses path source := by
  constructor
  · rintro rfl
    rcases (compileSource_error done).2.absent_of_missingSource standard with
      ⟨rfl, absent⟩
    exact ⟨rfl, absent⟩
  · rintro ⟨rfl, missing⟩
    rw [compileSource_of_absent before path parser missing] at done
    cases done
    rfl

/-! ## Many sources -/

/-- A build of many sources notes a missing source for each path that misses one, and
for no other. No call moves a source, so it does not matter which calls came before. -/
theorem missing_mem_failures_iff (paths : List String)
    (isSource : ∀ path ∈ paths, Path.extension? path = some sourceExtension)
    (standard : before.pipeline = Pipeline.standard setting)
    (done : compileSources keepGoing parser paths report before = .ok final after)
    (path source : String) :
    (path, .missingSource source) ∈ final.failures ↔
      (path, .missingSource source) ∈ report.failures ∨
        path ∈ paths ∧ before.Misses path source := by
  induction paths generalizing report before with
  | nil =>
      cases done
      simp
  | cons first rest induction =>
      have restIsSource := (List.forall_mem_cons.mp isSource).2
      have unmoved {middle : Compiler Memory} (keeps : before.Keeps middle) :
          path ∈ rest ∧ middle.Misses path source ↔ path ∈ rest ∧
          before.Misses path source :=
        and_congr_right fun member => keeps.misses_iff (restIsSource path member) source
      rcases compileSources_cons_ok done with
        ⟨compiled, middle, called, later⟩ | ⟨diagnostic, middle, called, later⟩
      · have keeps := compileSource_keeps_of_ok called
        have found : ¬(path = first ∧ before.Misses path source) := by
          rintro ⟨rfl, misses⟩
          exact not_misses_of_ok called misses
        rw [induction restIsSource (keeps.pipeline.trans standard) later, unmoved keeps,
          List.mem_cons, or_and_right, or_iff_right found]
      · have keeps := compileSource_keeps_of_error called
        have noted : (path, Diagnostic.missingSource source) ∈ [(first, diagnostic)] ↔
            path = first ∧ before.Misses path source := by
          rw [List.mem_singleton, Prod.mk.injEq]
          refine and_congr_right ?_
          rintro rfl
          rw [eq_comm]
          exact compileSource_missing_iff standard called source
        rw [induction restIsSource (keeps.pipeline.trans standard) later, unmoved keeps,
          List.mem_append, noted, List.mem_cons, or_and_right, or_assoc]

theorem compileSources_cons_error {rest : List String}
    (done : compileSources keepGoing parser (path :: rest) report before =
      .error diagnostic after) :
    (∃ compiled middle, compileSource path parser before = .ok compiled middle ∧
        compileSources keepGoing parser rest
          { report with compiled := report.compiled ++ [compiled] } middle =
            .error diagnostic after) ∨
      (∃ noted middle, compileSource path parser before = .error noted middle ∧
        compileSources keepGoing parser rest
          { report with failures := report.failures ++ [(path, noted)] } middle =
            .error diagnostic after) ∨
      compileSource path parser before = .error diagnostic after ∧
        (keepGoing && diagnostic.isConfinedToUnit) = false := by
  simp only [compileSources] at done
  split at done
  · rename_i compiled middle called
    exact .inl ⟨compiled, middle, called, done⟩
  · rename_i noted middle called
    split at done
    · exact .inr (.inl ⟨noted, middle, called, done⟩)
    · rename_i stopped
      cases done
      exact .inr (.inr ⟨called, by simpa using stopped⟩)

/-- A build that ends with a missing source does not keep going, and one of its paths
misses that source. -/
theorem misses_of_compileSources (paths : List String) {source : String}
    (isSource : ∀ path ∈ paths, Path.extension? path = some sourceExtension)
    (standard : before.pipeline = Pipeline.standard setting)
    (done : compileSources keepGoing parser paths report before =
      .error (.missingSource source) after) :
    keepGoing = false ∧ ∃ path ∈ paths, before.Misses path source := by
  induction paths generalizing report before with
  | nil => cases done
  | cons first rest induction =>
      have restIsSource := (List.forall_mem_cons.mp isSource).2
      have later {middle : Compiler Memory} {report : BuildReport}
          (keeps : before.Keeps middle)
          (done : compileSources keepGoing parser rest report middle =
            .error (.missingSource source) after) :
          keepGoing = false ∧ ∃ path ∈ first :: rest, before.Misses path source := by
        rcases induction restIsSource (keeps.pipeline.trans standard) done with
          ⟨stops, path, member, misses⟩
        exact ⟨stops, path, List.mem_cons_of_mem first member,
          (keeps.misses_iff (restIsSource path member) source).mp misses⟩
      rcases compileSources_cons_error done with
        ⟨compiled, middle, called, rest⟩ | ⟨noted, middle, called,
          rest⟩ | ⟨called, stopped⟩
      · exact later (compileSource_keeps_of_ok called) rest
      · exact later (compileSource_keeps_of_error called) rest
      · refine ⟨by simpa [Diagnostic.isConfinedToUnit] using stopped, first,
          List.mem_cons_self, ?_⟩
        exact (compileSource_missing_iff standard called source).mp rfl

/-- A build that does not keep going notes nothing. -/
theorem failures_of_not_keepGoing (paths : List String)
    (done : compileSources false parser paths report before = .ok final after) :
    final.failures = report.failures := by
  induction paths generalizing report before with
  | nil =>
      cases done
      rfl
  | cons path rest induction =>
      simp only [compileSources] at done
      split at done
      · have kept := induction done
        exact kept
      · cases done

/-- If the files work, a build that keeps going reaches its end. -/
theorem compileSources_total (paths : List String)
    (standard : before.pipeline = Pipeline.standard setting)
    (reliable : ∀ operation, ¬before.files.Fails operation) :
    ∃ final after, compileSources true parser paths report before = .ok final after := by
  induction paths generalizing report before with
  | nil => exact ⟨report, before, rfl⟩
  | cons path rest induction =>
      simp only [compileSources]
      cases called : compileSource path parser before with
      | ok compiled middle =>
          have keeps := compileSource_keeps_of_ok called
          exact induction (keeps.pipeline.trans standard) (keeps.reliable reliable)
      | error diagnostic middle =>
          have keeps := compileSource_keeps_of_error called
          have confined :=
            (compileSource_error called).2.isConfinedToUnit standard reliable
          simp only [confined, Bool.and_self, if_true]
          exact induction (keeps.pipeline.trans standard) (keeps.reliable reliable)

/-! ## Directories -/

/-- The sources in the order in which they are compiled. -/
def listing (compiler : Compiler Memory) : List String :=
  (compiler.files.below compiler.files.roots.input).filter fun path =>
    Path.extension? path == some sourceExtension

theorem mem_listing_iff (compiler : Compiler Memory) (path : String) :
    path ∈ compiler.listing ↔ compiler.Listed path := by
  simp [listing, Listed]

theorem extension?_of_mem_listing {compiler : Compiler Memory} :
    ∀ path ∈ compiler.listing, Path.extension? path = some sourceExtension :=
  fun path member => ((compiler.mem_listing_iff path).mp member).2

theorem compileAll_eq (compiler : Compiler Memory) (parser : String)
    (resolved : Path.join compiler.files.roots.system compiler.options.parserPath =
      parser) :
    compileAll keepGoing compiler =
      if compiler.files.files.contains parser then
        if compiler.files.fails compiler.files.events.length .list then
          .error (Memory.broken .list) compiler
        else
          compileSources keepGoing parser compiler.listing {} compiler
      else
        .error (.missingParser parser) compiler := by
  rw [compileAll, EStateM.bind_apply, findParser_eq compiler parser resolved,
    Memory.present_eq]
  cases compiler.files.files.contains parser with
  | false => rfl
  | true =>
      simp only [if_true, EStateM.bind_apply, sources, EStateM.get_apply, FileSystem.list]
      cases compiler.files.fails compiler.files.events.length .list <;> rfl

/-- A listed source that is looked up where no file is. -/
def Lost (compiler : Compiler Memory) (path source : String) : Prop :=
  compiler.Listed path ∧ compiler.Misses path source

/-- From an absolute root, or from one that names nothing, a listed path is found
again. -/
theorem Lost.root_named {compiler : Compiler Memory} {path source : String}
    (lost : compiler.Lost path source) :
    Path.isAbsolute compiler.files.roots.input = false ∧
      Path.names compiler.files.roots.input ≠ [] := by
  rcases lost with ⟨⟨below, _⟩, rfl, missing⟩
  rcases List.mem_filter.mp below with ⟨member, inside⟩
  have found := FileTable.get?_ne_none_of_mem_paths compiler.files.files member
  rw [← Bool.not_eq_true, ← not_or]
  intro harmless
  have same := Path.place_join_of_below harmless (List.isPrefixOf_iff_prefix.mp inside)
  rw [sourceFile, FileTable.get?_congr compiler.files.files same] at missing
  exact found missing

theorem missing_mem_failures_iff_lost
    (standard : before.pipeline = Pipeline.standard setting)
    (done : compileAll keepGoing before = .ok report after) (path source : String) :
    (path, .missingSource source) ∈ report.failures ↔ before.Lost path source := by
  rcases compileAll_ok done with ⟨parser, paths, listing, compiled⟩
  have isSource : ∀ path ∈ paths, Path.extension? path = some sourceExtension :=
    fun path member => ((listing path).mp member).2
  rw [missing_mem_failures_iff paths isSource standard compiled, listing path]
  simp [Lost]

theorem not_lost_of_not_keepGoing (standard : before.pipeline = Pipeline.standard setting)
    (done : compileAll false before = .ok report after) (path source : String) :
    ¬before.Lost path source := by
  rw [← missing_mem_failures_iff_lost standard done]
  rcases compileAll_ok done with ⟨parser, paths, _, compiled⟩
  rw [failures_of_not_keepGoing paths compiled]
  exact List.not_mem_nil

theorem lost_of_compileAll {source : String}
    (standard : before.pipeline = Pipeline.standard setting)
    (done : compileAll keepGoing before = .error (.missingSource source) after) :
    keepGoing = false ∧ ∃ path, before.Lost path source := by
  rw [compileAll_eq before _ rfl] at done
  split at done
  · split at done
    · cases done
    · rcases misses_of_compileSources before.listing extension?_of_mem_listing
        standard done with
        ⟨stops, path, member, misses⟩
      exact ⟨stops, path, (before.mem_listing_iff path).mp member, misses⟩
  · cases done

theorem compileAll_total (standard : before.pipeline = Pipeline.standard setting)
    (present : before.files.files.contains
      (Path.join before.files.roots.system before.options.parserPath) = true)
    (reliable : ∀ operation, ¬before.files.Fails operation) :
    ∃ report after, compileAll true before = .ok report after := by
  have lists : before.files.fails before.files.events.length .list = false := by
    rw [Bool.eq_false_iff]
    exact fun broken => reliable .list ⟨_, broken⟩
  rw [compileAll_eq before _ rfl, present, lists]
  exact compileSources_total before.listing standard reliable

end Compiler

/-- A build of a directory notes a missing source for each listed source that is lost, and
for no other; and it ends with a missing source only if one is lost. From an absolute
input root, or from one that names nothing, no source is lost. -/
theorem missingSource_iff_lost {setting : Setting} {before : Compiler Memory}
    (standard : before.pipeline = Pipeline.standard setting) :
    (∀ keepGoing report after, Compiler.compileAll keepGoing before = .ok report after →
      ∀ path source, (path, .missingSource source) ∈ report.failures ↔
        before.Lost path source) ∧
    (∀ report after, Compiler.compileAll false before = .ok report after →
      ∀ path source, ¬before.Lost path source) ∧
    (∀ keepGoing source after,
      Compiler.compileAll keepGoing before = .error (.missingSource source) after →
      keepGoing = false ∧ ∃ path, before.Lost path source) ∧
    (before.files.files.contains
        (Path.join before.files.roots.system before.options.parserPath) = true →
      (∀ operation, ¬before.files.Fails operation) →
      ∃ report after, Compiler.compileAll true before = .ok report after) ∧
    ∀ path source, before.Lost path source →
      Path.isAbsolute before.files.roots.input = false ∧
        Path.names before.files.roots.input ≠ [] := by
  refine ⟨?_, ?_, ?_, Compiler.compileAll_total standard, ?_⟩
  · intro keepGoing report after done
    exact Compiler.missing_mem_failures_iff_lost standard done
  · intro report after done
    exact Compiler.not_lost_of_not_keepGoing standard done
  · intro keepGoing source after done
    exact Compiler.lost_of_compileAll standard done
  · intro path source lost
    exact lost.root_named

/-- One source below an input root, and the parser. -/
def singleCompiler (root source : String) : Compiler Memory :=
  let empty : Memory := { roots := ⟨root, "/o", "/p"⟩ }
  Compiler.standard ((empty.put "/parser" "").put source "") { parser := some "/parser" }

-- From the current directory the listed path leads back to its file.
example :
    (singleCompiler "." "./a.zep").Listed "./a.zep" ∧
    (singleCompiler "." "./a.zep").sourceFile "./a.zep" = "././a.zep" ∧
    (singleCompiler "." "./a.zep").files.files.contains "././a.zep" = true := by
  decide +kernel

/-- From a relative root the only source is lost, and a build that keeps going says so. -/
theorem missingSource_of_relative_root :
    ∃ report after,
      Compiler.compileAll true (singleCompiler "src" "src/a.zep") = .ok report after ∧
      ("src/a.zep", .missingSource "src/src/a.zep") ∈ report.failures := by
  have standard : (singleCompiler "src" "src/a.zep").pipeline = Pipeline.standard {} :=
    rfl
  rcases missingSource_iff_lost standard with ⟨noted, _, _, ends, _⟩
  rcases ends (by decide +kernel) (by rintro operation ⟨_, ⟨⟩⟩) with ⟨report, after, done⟩
  refine ⟨report, after, done, (noted true report after done _ _).mpr ?_⟩
  exact ⟨by decide +kernel, by decide +kernel, by decide +kernel⟩

/-- A source that is listed, and stored under the path of the listing, is not found. -/
theorem listed_source_not_found :
    (singleCompiler "src" "src/a.zep").Listed "src/a.zep" ∧
    (singleCompiler "src" "src/a.zep").files.files.contains "src/a.zep" = true ∧
    Compiler.compileAll false (singleCompiler "src" "src/a.zep") =
      .error (.missingSource "src/src/a.zep") (singleCompiler "src" "src/a.zep") := by
  exact ⟨by decide +kernel, by decide +kernel, rfl⟩

end ZephirPhp
