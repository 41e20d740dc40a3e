import ZephirPhp.Proofs.Build.Step

/-! # Building a directory

Artifacts are found by the flattened paths of their sources. Two sources whose paths
differ only in what flattening does not show share their artifacts, and then the second
of them is never compiled. Without such a pair, a build that starts without artifacts
and reports no failure leaves the translation of every source.
-/

namespace ZephirPhp

/-- A source without artifacts. -/
structure Unmade (memory : Memory) (source : String) : Prop where
  tree : memory.files.get? (memory.roots.treePath source) = none
  output : memory.files.get? (memory.roots.outputPath source) = none

/-- A source whose artifacts are its own. -/
def Made (setting : Setting) (memory : Memory) (source : String) : Prop :=
  ∃ tree output,
    memory.files.get? (memory.roots.treePath source) = some tree ∧
    memory.files.get? (memory.roots.outputPath source) = some output ∧
    tree.text = (memory.printedFor [source]).text ∧
    translate setting (memory.roots.treePath source) tree.text = .ok output.text

/-- What a build leaves as it is: the roots and what the parser prints. -/
structure Memory.SameInputs (left right : Memory) : Prop where
  roots : right.roots = left.roots
  printed : right.printed = left.printed

theorem Memory.SameInputs.trans {left middle right : Memory}
    (first : left.SameInputs middle) (second : middle.SameInputs right) :
    left.SameInputs right :=
  ⟨second.roots.trans first.roots, second.printed.trans first.printed⟩

namespace Memory.SameBut

variable {setting : Setting} {memory after : Memory} {source other : String}

theorem sameInputs (same : memory.SameBut source after) : memory.SameInputs after :=
  ⟨same.roots, same.printed⟩

theorem get?_treePath (same : memory.SameBut source after)
    (different : ¬Path.SameShape other source) :
    after.files.get? (after.roots.treePath other) =
      memory.files.get? (memory.roots.treePath other) := by
  rw [same.roots]
  refine same.files _ ?_
  rintro (tree | output)
  · exact different ((memory.roots.place_treePath_eq_iff other source).mp tree)
  · exact memory.roots.place_treePath_ne_outputPath other source output

theorem get?_outputPath (same : memory.SameBut source after)
    (different : ¬Path.SameShape other source) :
    after.files.get? (after.roots.outputPath other) =
      memory.files.get? (memory.roots.outputPath other) := by
  rw [same.roots]
  refine same.files _ ?_
  rintro (tree | output)
  · exact memory.roots.place_treePath_ne_outputPath source other tree.symm
  · exact different ((memory.roots.place_outputPath_eq_iff other source).mp output)

theorem unmade (same : memory.SameBut source after)
    (different : ¬Path.SameShape other source) (unmade : Unmade memory other) :
    Unmade after other :=
  ⟨(same.get?_treePath different).trans unmade.tree,
    (same.get?_outputPath different).trans unmade.output⟩

theorem made (same : memory.SameBut source after)
    (different : ¬Path.SameShape other source) (made : Made setting memory other) :
    Made setting after other := by
  rcases made with ⟨tree, output, treeFound, outputFound, text, translated⟩
  refine ⟨tree, output, (same.get?_treePath different).trans treeFound,
    (same.get?_outputPath different).trans outputFound, ?_, ?_⟩
  · rw [text, same.printedFor]
  · rwa [same.roots]

end Memory.SameBut

/-- A call that succeeds makes the artifacts of its source, unless it finds artifacts that
are not the source's own. -/
theorem Ends.made {setting : Setting} {compiler : Compiler Memory}
    {source parser : String} {compiled : CompiledFile} {after : Memory}
    (ends : Ends compiler source parser (.ok compiled) after)
    (standard : compiler.pipeline = Pipeline.standard setting)
    (own : Unmade compiler.files source ∨ Made setting compiler.files source) :
    Made setting after source := by
  have unchanged := ends.sameBut
  cases ends with
  | fresh present current contained =>
      rcases (Freshness.needsParse_eq_false_iff _ _ _).mp current with
        ⟨tree, treeFound, _⟩
      rcases own with unmade | made
      · cases unmade.tree.symm.trans treeFound
      · exact made
  | @compiled _ middle _ _ tree php present parses needed found translated same =>
      rw [Compiler.translation_standard standard] at translated
      have printed : tree.text = (compiler.files.printedFor [source]).text := by
        cases parses with
        | kept current =>
            rcases own with unmade | ⟨_, output, _, outputFound, _⟩
            · cases unmade.tree.symm.trans found
            · have missing := needed rfl
              rw [FileTable.contains, outputFound] at missing
              cases missing
        | printed outdated success printed =>
            rw [printed.files, Memory.get?_put_self] at found
            cases found
            rfl
      have treeFound := Memory.get?_put_of_ne middle php
        (compiler.files.roots.place_treePath_ne_outputPath source source)
      rw [found] at treeFound
      rw [Made, unchanged.roots, same.files, unchanged.printedFor]
      exact ⟨tree, _, treeFound, Memory.get?_put_self _ _ _, printed, translated⟩

/-! ## Many sources -/

namespace Compiler

variable {before after : Compiler Memory} {keepGoing : Bool} {parser : String}
  {report final : BuildReport}

theorem compileSources_cons_ok {path : String} {rest : List String}
    (done : compileSources keepGoing parser (path :: rest) report before =
      .ok final after) :
    (∃ compiled middle, compileSource path parser before = .ok compiled middle ∧
        compileSources keepGoing parser rest
          { report with compiled := report.compiled ++ [compiled] } middle =
            .ok final after) ∨
      ∃ diagnostic middle, compileSource path parser before = .error diagnostic middle ∧
        compileSources keepGoing parser rest
          { report with failures := report.failures ++ [(path, diagnostic)] } middle =
            .ok final after := by
  simp only [compileSources] at done
  split at done
  · rename_i compiled middle called
    exact .inl ⟨compiled, middle, called, done⟩
  · rename_i diagnostic middle called
    split at done
    · exact .inr ⟨diagnostic, middle, called, done⟩
    · cases done

/-- A failure that is noted stays noted. -/
theorem failures_of_compileSources (paths : List String)
    (done : compileSources keepGoing parser paths report before = .ok final after)
    (clean : final.failures = []) : report.failures = [] := by
  induction paths generalizing report before with
  | nil =>
      cases done
      exact clean
  | cons path rest induction =>
      rcases compileSources_cons_ok done with ⟨_, _, _, later⟩ | ⟨_, _, _, later⟩
      · have kept := induction later
        exact kept
      · exact absurd (induction later) (by simp)

/-- One source after the other is made. What keeps a source from being spoilt by a later
one is that their paths have different shapes. -/
theorem made_of_compileSources {setting : Setting} (sources : List String)
    (distinct : ∀ left ∈ sources, ∀ right ∈ sources, Path.SameShape left right →
      left = right)
    (paths : List String)
    (listed : ∀ path ∈ paths, Path.join before.files.roots.input path ∈ sources)
    (standard : before.pipeline = Pipeline.standard setting)
    (own : ∀ source ∈ sources, Unmade before.files source ∨
      Made setting before.files source)
    (done : compileSources keepGoing parser paths report before = .ok final after)
    (clean : final.failures = []) :
    before.files.SameInputs after.files ∧
      (∀ source ∈ sources, Made setting before.files source →
        Made setting after.files source) ∧
      ∀ path ∈ paths, Made setting after.files
        (Path.join before.files.roots.input path) := by
  induction paths generalizing report before with
  | nil =>
      cases done
      exact ⟨⟨rfl, rfl⟩, fun _ _ made => made, by simp⟩
  | cons path rest induction =>
      rcases compileSources_cons_ok done with
        ⟨compiled, middle, called, later⟩ | ⟨_, _, _, later⟩
      · rcases compileSource_ok called with ⟨setup, ends⟩
        have member := listed path List.mem_cons_self
        have inputs := ends.sameBut.sameInputs
        have made := ends.made standard (own _ member)
        -- A path may be listed twice, so the source built here may be made already.
        have kept : ∀ source ∈ sources, Made setting before.files source →
            Made setting middle.files source := by
          intro source sourceMember madeBefore
          by_cases alike : Path.SameShape source (Path.join before.files.roots.input path)
          · rw [distinct source sourceMember _ member alike]
            exact made
          · exact ends.sameBut.made alike madeBefore
        have ownAfter : ∀ source ∈ sources,
            Unmade middle.files source ∨ Made setting middle.files source := by
          intro source sourceMember
          by_cases alike : Path.SameShape source (Path.join before.files.roots.input path)
          · rw [distinct source sourceMember _ member alike]
            exact .inr made
          · rcases own source sourceMember with unmade | madeBefore
            · exact .inl (ends.sameBut.unmade alike unmade)
            · exact .inr (kept source sourceMember madeBefore)
        have listedAfter : ∀ later ∈ rest,
            Path.join middle.files.roots.input later ∈ sources := by
          rw [inputs.roots]
          exact fun later laterMember =>
            listed later (List.mem_cons_of_mem path laterMember)
        rcases induction listedAfter (setup.pipeline.trans standard) ownAfter later with
          ⟨laterInputs, laterKept, laterMade⟩
        rw [inputs.roots] at laterMade
        refine ⟨inputs.trans laterInputs,
          fun source sourceMember madeBefore =>
            laterKept source sourceMember (kept source sourceMember madeBefore), ?_⟩
        intro other otherMember
        rcases List.mem_cons.mp otherMember with rfl | otherMember
        · exact laterKept _ member made
        · exact laterMade other otherMember
      · exact absurd (failures_of_compileSources rest later clean) (by simp)

/-- A file that a build of the whole directory compiles. -/
def Listed (compiler : Compiler Memory) (path : String) : Prop :=
  path ∈ compiler.files.below compiler.files.roots.input ∧
    Path.extension? path = some sourceExtension

instance (compiler :
    Compiler Memory) (path : String) : Decidable (compiler.Listed path) :=
  inferInstanceAs (Decidable (_ ∧ _))

theorem compileAll_ok (done : compileAll keepGoing before = .ok report after) :
    ∃ parser paths, (∀ path, path ∈ paths ↔ before.Listed path) ∧
      compileSources keepGoing parser paths {} before = .ok report after := by
  rw [compileAll, EStateM.bind_eq_ok_iff] at done
  rcases done with ⟨parser, middle, found, rest⟩
  rw [findParser_eq before _ rfl] at found
  split at found
  · cases found
    rw [EStateM.bind_eq_ok_iff] at rest
    rcases rest with ⟨paths, middle, listing, compiled⟩
    simp only [sources, EStateM.bind_eq_ok_iff, EStateM.get_apply,
      ofExcept_eq_ok_iff] at listing
    rcases listing with ⟨_, _, same, all, _, ⟨listed, rfl⟩, ended⟩
    cases same
    cases ended
    refine ⟨_, _, ?_, compiled⟩
    have all : all = before.files.below before.files.roots.input := by
      simp only [FileSystem.list] at listed
      split at listed
      · cases listed
      · cases listed
        rfl
    intro path
    simp [Listed, all]
  · cases found

/-- The output root holds no file. -/
def OutputEmpty (compiler : Compiler Memory) : Prop :=
  ∀ name, Path.isAbsolute name = false →
    compiler.files.files.get? (Path.join compiler.files.roots.output name) = none

theorem OutputEmpty.unmade (empty : before.OutputEmpty) (source : String) :
    Unmade before.files source := by
  have undivided (ending : String) (flat : '/' ∉ ending.toList) :
      '/' ∉ (Freshness.baseName source ++ ending).toList := by
    simpa using ⟨Freshness.slash_not_mem_baseName source, flat⟩
  exact ⟨empty _ (Path.isAbsolute_of_undivided (undivided ".js" (by decide))),
    empty _ (Path.isAbsolute_of_undivided (undivided ".php" (by decide)))⟩

end Compiler

/-- Two sources share an artifact exactly if their paths have the same shape. Where no
two listed sources do, a build of the directory without artifacts and without failures
leaves for each of them what is printed for it, and its translation. -/
theorem artifacts_shared_iff_and_own :
    (∀ (memory : Memory) (parser left right : String),
      ((Freshness.load memory left parser).treePath =
          (Freshness.load memory right parser).treePath ↔ Path.SameShape left right) ∧
      ((Freshness.load memory left parser).outputPath =
          (Freshness.load memory right parser).outputPath ↔ Path.SameShape left right) ∧
      (Freshness.load memory left parser).treePath ≠
        (Freshness.load memory right parser).outputPath) ∧
    ∀ (setting : Setting) (keepGoing : Bool) (before after : Compiler Memory)
      (report : BuildReport),
      before.pipeline = Pipeline.standard setting → before.OutputEmpty →
      (∀ left right, before.Listed left → before.Listed right →
        Path.SameShape (Path.join before.files.roots.input left)
            (Path.join before.files.roots.input right) →
          Path.join before.files.roots.input left =
            Path.join before.files.roots.input right) →
      Compiler.compileAll keepGoing before = .ok report after → report.isSuccess = true →
      ∀ path, before.Listed path →
        ∃ tree output,
          after.files.files.get? (before.files.roots.treePath
            (Path.join before.files.roots.input path)) = some tree ∧
          after.files.files.get? (before.files.roots.outputPath
            (Path.join before.files.roots.input path)) = some output ∧
          tree.text =
            (before.files.printedFor [Path.join before.files.roots.input path]).text ∧
          translate setting (before.files.roots.treePath
            (Path.join before.files.roots.input path)) tree.text = .ok output.text := by
  constructor
  · intro memory parser left right
    simp only [Freshness.load_treePath, Freshness.load_outputPath]
    exact ⟨memory.roots.treePath_eq_iff left right,
      memory.roots.outputPath_eq_iff left right,
      memory.roots.treePath_ne_outputPath left right⟩
  intro setting keepGoing before after report standard empty distinct done
    success path listed
  rcases Compiler.compileAll_ok done with ⟨parser, paths, listing, compiled⟩
  have clean : report.failures = [] := by simpa [BuildReport.isSuccess] using success
  have apart : ∀ left ∈ paths.map (Path.join before.files.roots.input),
      ∀ right ∈ paths.map (Path.join before.files.roots.input),
      Path.SameShape left right → left = right := by
    intro left leftMember right rightMember alike
    rcases List.mem_map.mp leftMember with ⟨leftPath, leftListed, rfl⟩
    rcases List.mem_map.mp rightMember with ⟨rightPath, rightListed, rfl⟩
    exact distinct leftPath rightPath ((listing leftPath).mp leftListed)
      ((listing rightPath).mp rightListed) alike
  rcases Compiler.made_of_compileSources
    (paths.map (Path.join before.files.roots.input)) apart
    paths (fun path member => List.mem_map_of_mem member) standard
    (fun source _ => .inl (empty.unmade source)) compiled clean with ⟨inputs, _, made⟩
  rcases made path ((listing path).mpr listed) with
    ⟨tree, output, treeFound, outputFound, text, translated⟩
  rw [inputs.roots] at treeFound outputFound translated
  rw [Memory.printedFor, inputs.printed] at text
  exact ⟨tree, output, treeFound, outputFound, text, translated⟩

section Pair

/-- Two sources: nothing is in the first, and a namespace in the second. -/
def pairMemory (first second : String) : Memory :=
  let empty : Memory :=
    { roots := ⟨"/s", "/o", "/p"⟩
      printed := FileTable.ofEntries
        [(first, ⟨"[]", .code 0⟩),
          (second, ⟨"[\x7b\"type\":\"namespace\",\"name\":\"A\"\x7d]", .code 0⟩)] }
  ((empty.put "/parser" "").put first "").put second ""

def pairCompiler (first second : String) : Compiler Memory :=
  Compiler.standard (pairMemory first second) { parser := some "/parser" }

/-- The texts of the two PHP files after a build without failures. -/
def pairOutputs (first second : String) : Option (Option String × Option String) :=
  match Compiler.compileAll false (pairCompiler first second) with
  | .ok report after =>
    let text (source : String) :=
      (after.files.files.get? ((pairMemory first second).roots.outputPath source)).map
        (·.text)
    if report.isSuccess then some (text first, text second) else none
  | .error _ _ => none

theorem exists_of_pairOutputs {first second : String}
    {texts : Option String × Option String}
    (outputs : pairOutputs first second = some texts) :
    ∃ report after,
      Compiler.compileAll false (pairCompiler first second) = .ok report after ∧
      report.isSuccess = true ∧
      (after.files.files.get? ((pairMemory first second).roots.outputPath second)).map
        (·.text) = texts.2 := by
  rw [pairOutputs] at outputs
  split at outputs
  · rename_i report after done
    dsimp only at outputs
    split at outputs
    · rename_i success
      cases outputs
      exact ⟨report, after, done, success, rfl⟩
    · cases outputs
  · cases outputs

theorem pairCompiler_outputEmpty {first second : String}
    (firstElsewhere : (Path.place first)[1]? ≠ some (.normal "o"))
    (secondElsewhere : (Path.place second)[1]? ≠ some (.normal "o")) :
    (pairCompiler first second).OutputEmpty := by
  intro name relative
  have inside : (Path.place (Path.join "/o" name))[1]? = some (.normal "o") := by
    rw [Path.place_join relative (by decide)]
    rfl
  have apart : ∀ path : String, (Path.place path)[1]? ≠ some (.normal "o") →
      Path.place (Path.join "/o" name) ≠ Path.place path := by
    intro path elsewhere equal
    exact elsewhere (equal ▸ inside)
  change (pairMemory first second).files.get? (Path.join "/o" name) = none
  rw [pairMemory, Memory.get?_put_of_ne _ _ (apart _ secondElsewhere),
    Memory.get?_put_of_ne _ _ (apart _ firstElsewhere),
    Memory.get?_put_of_ne _ _ (apart _ (by decide))]
  rfl

theorem artifacts_own_of_two_sources :
    ∃ report after,
      Compiler.compileAll false (pairCompiler "/s/a.zep" "/s/b.zep") = .ok report after ∧
      report.isSuccess = true ∧
      ∃ tree output,
        after.files.files.get?
          ((pairMemory "/s/a.zep" "/s/b.zep").roots.treePath "/s/b.zep") = some tree ∧
        after.files.files.get?
          ((pairMemory "/s/a.zep" "/s/b.zep").roots.outputPath "/s/b.zep") = some output ∧
        tree.text = ((pairMemory "/s/a.zep" "/s/b.zep").printedFor ["/s/b.zep"]).text ∧
        translate {} ((pairMemory "/s/a.zep" "/s/b.zep").roots.treePath "/s/b.zep")
          tree.text =
          .ok output.text := by
  have outputs : pairOutputs "/s/a.zep" "/s/b.zep" =
      some (some "<?php\n", some "<?php\n\nnamespace A;\n") := by
    decide +kernel
  rcases exists_of_pairOutputs outputs with ⟨report, after, done, success, _⟩
  refine ⟨report, after, done, success, ?_⟩
  have resolved : ∀ path ∈ ["/s/a.zep", "/s/b.zep"],
      Path.join (pairCompiler "/s/a.zep" "/s/b.zep").files.roots.input path = path := by
    decide +kernel
  have listing : ∀ path, (pairCompiler "/s/a.zep" "/s/b.zep").Listed path →
      path ∈ ["/s/a.zep", "/s/b.zep"] := by
    rintro path ⟨below, _⟩
    have paths : (pairMemory "/s/a.zep" "/s/b.zep").below "/s" =
        ["/s/a.zep", "/s/b.zep"] := by
      decide +kernel
    exact paths ▸ below
  have distinct : ∀ left ∈ ["/s/a.zep", "/s/b.zep"], ∀ right ∈ ["/s/a.zep", "/s/b.zep"],
      Path.flatten left = Path.flatten right → left = right := by
    decide +kernel
  have made := artifacts_shared_iff_and_own.2 {} false _ after report rfl
    (pairCompiler_outputEmpty (by decide) (by decide))
    (fun left right leftListed rightListed alike => by
      rw [resolved left (listing left leftListed),
        resolved right (listing right rightListed)] at alike ⊢
      exact distinct left (listing left leftListed) right (listing right rightListed)
        ((Path.flatten_eq_flatten_iff left right).mpr alike))
    done success "/s/b.zep" (by decide +kernel)
  rw [resolved "/s/b.zep" (by simp)] at made
  exact made

/-- Different sources may share their artifacts, and a build without failures may leave
for a source the translation of another one. -/
theorem artifacts_not_own :
    (¬∀ (memory : Memory) (parser left right : String), left ≠ right →
      (Freshness.load memory left parser).treePath ≠
          (Freshness.load memory right parser).treePath ∧
        (Freshness.load memory left parser).outputPath ≠
          (Freshness.load memory right parser).outputPath) ∧
    ¬∀ (setting : Setting) (keepGoing : Bool) (before after : Compiler Memory)
      (report : BuildReport),
      before.pipeline = Pipeline.standard setting → before.OutputEmpty →
      Compiler.compileAll keepGoing before = .ok report after → report.isSuccess = true →
      ∀ path, before.Listed path →
        ∃ output,
          after.files.files.get? (before.files.roots.outputPath
            (Path.join before.files.roots.input path)) = some output ∧
          translate setting
            (before.files.roots.treePath (Path.join before.files.roots.input path))
            (before.files.printedFor [Path.join before.files.roots.input path]).text =
              .ok output.text := by
  constructor
  · intro distinct
    have alike : Path.flatten "/s/a/b.zep" = Path.flatten "/s/a_b.zep" := by
      decide +kernel
    have shared := (pairMemory "" "").roots.treePath_eq_iff "/s/a/b.zep" "/s/a_b.zep"
    have different := distinct (pairMemory "" "") "" "/s/a/b.zep" "/s/a_b.zep" (by decide)
    simp only [Freshness.load_treePath] at different
    exact different.1 (shared.mpr ((Path.flatten_eq_flatten_iff _ _).mp alike))
  · intro own
    have outputs : pairOutputs "/s/a/b.zep" "/s/a_b.zep" =
        some (some "<?php\n", some "<?php\n") := by
      decide +kernel
    have expected : (translate {}
        ((pairMemory "/s/a/b.zep" "/s/a_b.zep").roots.treePath "/s/a_b.zep")
        ((pairMemory "/s/a/b.zep" "/s/a_b.zep").printedFor
          ["/s/a_b.zep"]).text).toOption =
          some "<?php\n\nnamespace A;\n" := by
      decide +kernel
    rcases exists_of_pairOutputs outputs with ⟨report, after, done, success, text⟩
    have resolved : Path.join (pairCompiler "/s/a/b.zep" "/s/a_b.zep").files.roots.input
        "/s/a_b.zep" = "/s/a_b.zep" := by
      decide +kernel
    have made := own {} false _ after report rfl
      (pairCompiler_outputEmpty (by decide) (by decide)) done success "/s/a_b.zep"
      (by decide +kernel)
    rw [resolved] at made
    rcases made with ⟨output, found, translated⟩
    change after.files.files.get?
      ((pairMemory "/s/a/b.zep" "/s/a_b.zep").roots.outputPath "/s/a_b.zep") =
        some output at found
    change translate {}
      ((pairMemory "/s/a/b.zep" "/s/a_b.zep").roots.treePath "/s/a_b.zep")
      ((pairMemory "/s/a/b.zep" "/s/a_b.zep").printedFor ["/s/a_b.zep"]).text =
        .ok output.text at translated
    rw [found] at text
    rw [translated] at expected
    simp only [Option.map_some, Option.some.injEq] at text
    simp only [Except.toOption, Option.some.injEq, text] at expected
    exact absurd expected (by decide)

end Pair

end ZephirPhp
