import Mathlib.Logic.Relation
import ZephirPhp.Proofs.Build.Provenance

/-! # When stages are prepared

Stages are to be prepared once, before their first unit. The compiler keeps one flag for
all its stages, while stages come and go between calls and a preparation can stop in the
middle. To see what follows, stages are watched: each notes in the log how its
preparations end and when it is given a unit. The log of a history then shows that only
stages that join after the preparation, and only preparations that failed, are cause for
an exception.
-/

namespace ZephirPhp

/-! ## Watched stages -/

/-- What a stage notes about itself, under its label. -/
inductive Note where
  | ready (label : String)
  | failed (label : String)
  | given (label : String)
deriving DecidableEq

namespace Note

def line : Note → String
  | .ready label => "ready " ++ label
  | .failed label => "failed " ++ label
  | .given label => "given " ++ label

@[simp] theorem line_inj (left right : Note) : left.line = right.line ↔ left = right := by
  constructor
  · intro same
    rw [← String.toList_inj] at same
    cases left <;> cases right <;> simp_all [line, String.toList_inj]
  · rintro rfl
    rfl

end Note

/-- Notes how an action ends, and nothing else. -/
def Recording.noted {α : Type} (success failure : Note) (action : Recording α) :
    Recording α :=
  fun journal =>
    match action journal with
    | .ok value after => .ok value { after with log := journal.log ++ [success.line] }
    | .error diagnostic after =>
      .error diagnostic { after with log := journal.log ++ [failure.line] }

/-- A stage that does what another does and takes notes. -/
def Stage.watched (label : String) (stage : Stage) : Stage where
  name := label
  prepare := Recording.noted (.ready label) (.failed label) stage.prepare
  compile unit := Recording.noted (.given label) (.given label) (stage.compile unit)
  reset journal := { stage.reset journal with log := journal.log }

namespace Pipeline

/-- All stages take notes, each under its name. -/
def Watched (pipeline : Pipeline) : Prop :=
  ∀ stage ∈ pipeline, ∃ inner : Stage, stage = inner.watched stage.name

variable {pipeline : Pipeline}

/-- A preparation notes all stages as ready, or those before the first that fails. -/
theorem prepare_watched (watched : pipeline.Watched) (journal : Journal) :
    (∃ after, pipeline.prepare journal = .ok () after ∧
      after.log = journal.log ++ pipeline.names.map fun label =>
        (Note.ready label).line) ∨
    ∃ diagnostic after passed label rest,
      pipeline.prepare journal = .error diagnostic after ∧
      pipeline.names = passed ++ label :: rest ∧
      after.log = journal.log ++
        (passed.map (fun label => (Note.ready label).line) ++
          [(Note.failed label).line]) := by
  induction pipeline generalizing journal with
  | nil => exact .inl ⟨journal, rfl, by simp [names]⟩
  | cons stage rest induction =>
      rw [Watched, List.forall_mem_cons] at watched
      rcases watched with ⟨⟨inner, isWatched⟩, restWatched⟩
      rw [prepare, EStateM.bind_apply, isWatched]
      simp only [Stage.watched, Recording.noted]
      cases inner.prepare journal with
      | error diagnostic after =>
          exact .inr ⟨diagnostic, _, [], stage.name, names rest, rfl, rfl, rfl⟩
      | ok _ after =>
          rcases induction restWatched
              { after with log := journal.log ++ [(Note.ready stage.name).line] } with
            ⟨final, done, log⟩ | ⟨diagnostic, final, passed, label, more,
              failed, split, log⟩
          · exact .inl ⟨final, done, by simp [log, names]⟩
          · refine .inr ⟨diagnostic, final, stage.name :: passed, label, more,
              failed, ?_, ?_⟩
            · simp only [names] at split
              simp [names, split]
            · simp [log]

/-- A unit is noted by stages of the pipeline. -/
theorem compile_watched (watched : pipeline.Watched) (unit : CompilationUnit)
    (journal : Journal) :
    ∃ passed : List String, (∀ label ∈ passed, label ∈ pipeline.names) ∧
      (EStateM.final (pipeline.compile unit journal)).log =
        journal.log ++ passed.map fun label => (Note.given label).line := by
  induction pipeline generalizing unit journal with
  | nil => exact ⟨[], by simp, by simp [compile, EStateM.final]⟩
  | cons stage rest induction =>
      rw [Watched, List.forall_mem_cons] at watched
      rcases watched with ⟨⟨inner, isWatched⟩, restWatched⟩
      rw [compile, EStateM.bind_apply, isWatched]
      simp only [Stage.watched, Recording.noted]
      cases inner.compile unit journal with
      | error diagnostic after =>
          exact ⟨[stage.name], by simp [names], by simp [EStateM.final]⟩
      | ok result after =>
          rcases induction restWatched result
              { after with log := journal.log ++ [(Note.given stage.name).line] } with
            ⟨passed, members, log⟩
          refine ⟨stage.name :: passed, ?_, by simp [log]⟩
          rw [List.forall_mem_cons]
          exact ⟨List.mem_cons_self,
            fun label member => List.mem_cons_of_mem _ (members label member)⟩

theorem reset_watched (watched : pipeline.Watched) (journal : Journal) :
    (pipeline.reset journal).log = journal.log := by
  induction pipeline generalizing journal with
  | nil => rfl
  | cons stage rest induction =>
      rw [Watched, List.forall_mem_cons] at watched
      rcases watched with ⟨⟨inner, isWatched⟩, restWatched⟩
      rw [reset, List.foldl_cons, ← reset, induction restWatched, isWatched]
      rfl

end Pipeline

/-! ## What calls add to the log -/

/-- How far the stages of a compiler have come. -/
structure Progress where
  prepared : Bool
  log : List String

/-- What happens to stages in the course of calls. -/
inductive Round (names : List String) : Progress → Progress → Prop
  /-- A preparation stops at a stage that fails. -/
  | refused {log : List String} {passed rest : List String} {label : String}
      (split : names = passed ++ label :: rest) :
      Round names ⟨false, log⟩ ⟨false, log ++
        (passed.map (fun label => (Note.ready label).line) ++ [(Note.failed label).line])⟩
  | readied {log : List String} :
      Round names ⟨false, log⟩
        ⟨true, log ++ names.map fun label => (Note.ready label).line⟩
  | given {log : List String} {label : String} (member : label ∈ names) :
      Round names ⟨true, log⟩ ⟨true, log ++ [(Note.given label).line]⟩

/-- Rounds one after the other. -/
abbrev Rounds (names : List String) : Progress → Progress → Prop :=
  Relation.ReflTransGen (Round names)

theorem Rounds.given {names passed : List String} (log : List String)
    (members : ∀ label ∈ passed, label ∈ names) :
    Rounds names ⟨true, log⟩
      ⟨true, log ++ passed.map fun label => (Note.given label).line⟩ := by
  induction passed generalizing log with
  | nil => simpa using Relation.ReflTransGen.refl
  | cons label rest induction =>
      rw [List.forall_mem_cons] at members
      refine .head (.given members.1) ?_
      simpa using induction (log ++ [(Note.given label).line]) members.2

namespace Compiler

def progress (compiler : Compiler Memory) : Progress :=
  ⟨compiler.prepared, compiler.journal.log⟩

/-- What calls do to the stages, if these are watched. -/
structure Proceeds (before after : Compiler Memory) : Prop where
  pipeline : after.pipeline = before.pipeline
  rounds : before.pipeline.Watched →
    Rounds before.pipeline.names before.progress after.progress

variable {α : Type} {before middle after : Compiler Memory}

theorem Proceeds.refl (compiler : Compiler Memory) : compiler.Proceeds compiler :=
  ⟨rfl, fun _ => .refl⟩

theorem Proceeds.trans (first : before.Proceeds middle) (second : middle.Proceeds after) :
    before.Proceeds after where
  pipeline := second.pipeline.trans first.pipeline
  rounds watched := by
    have later := second.rounds
    rw [first.pipeline] at later
    exact (first.rounds watched).trans (later watched)

theorem onFiles_proceeds (action : FileAction Memory α) :
    EStateM.Moves Proceeds (onFiles action) := by
  intro compiler
  simp only [onFiles]
  cases action compiler.files with
  | ok value files => exact ⟨rfl, fun _ => .refl⟩
  | error diagnostic files => exact ⟨rfl, fun _ => .refl⟩

theorem ofExcept_proceeds (result : Except Diagnostic α) :
    EStateM.Moves Proceeds (ofExcept result : Build Memory α) := by
  cases result with
  | ok value => exact fun compiler => .refl compiler
  | error diagnostic => exact fun compiler => .refl compiler

/-- Once the stages are prepared, they are given the unit. -/
theorem compileAndReset_proceeds (unit : CompilationUnit) (compiler : Compiler Memory)
    (prepared : compiler.prepared = true) :
    compiler.Proceeds
      (EStateM.final ((do
        let unit ← onJournal ((← get).pipeline.compileAndReset unit)
        sourceText unit : Build Memory String) compiler)) := by
  have compiled (watched : compiler.pipeline.Watched) :
      Rounds compiler.pipeline.names compiler.progress ⟨true, (compiler.pipeline.reset
        (EStateM.final (compiler.pipeline.compile unit compiler.journal))).log⟩ := by
    rcases Pipeline.compile_watched watched unit compiler.journal with
      ⟨passed, members, log⟩
    rw [Pipeline.reset_watched watched, log, progress, prepared]
    exact Rounds.given _ members
  simp only [EStateM.bind_apply, EStateM.get_apply, onJournal, Pipeline.compileAndReset]
  cases called : compiler.pipeline.compile unit compiler.journal with
  | error diagnostic journal =>
      rw [called] at compiled
      exact ⟨rfl, fun watched => prepared ▸ compiled watched⟩
  | ok result journal =>
      rw [called] at compiled
      cases result <;> exact ⟨rfl, fun watched => prepared ▸ compiled watched⟩

/-- The stages that a call finds unprepared are prepared in one round. -/
theorem prepare_proceeds : EStateM.Moves Proceeds (prepare : Build Memory Unit) := by
  intro compiler
  cases prepared : compiler.prepared with
  | true =>
      rw [prepare_of_prepared prepared]
      exact .refl compiler
  | false =>
      have noted (watched : compiler.pipeline.Watched) :=
        Pipeline.prepare_watched watched compiler.journal
      rw [prepare_of_unprepared prepared]
      cases called : compiler.pipeline.prepare compiler.journal with
      | ok _ journal =>
          refine ⟨rfl, fun watched => ?_⟩
          rcases noted watched with ⟨_, ended, log⟩ | ⟨_, _, _, _, _, failed, _⟩
          · cases called.symm.trans ended
            simp only [progress, prepared, EStateM.final, log]
            exact .single .readied
          · cases called.symm.trans failed
      | error diagnostic journal =>
          refine ⟨rfl, fun watched => ?_⟩
          rcases noted watched with
            ⟨_, done, _⟩ | ⟨_, _, passed, label, rest, failed, split, log⟩
          · cases called.symm.trans done
          · cases called.symm.trans failed
            simp only [progress, prepared, EStateM.final, log]
            exact .single (.refused split)

theorem prepared_of_prepare (done : prepare before = .ok () after) :
    after.prepared = true := by
  cases prepared : before.prepared with
  | true =>
      rw [prepare_of_prepared prepared] at done
      cases done
      exact prepared
  | false =>
      rw [prepare_of_unprepared prepared] at done
      cases called : before.pipeline.prepare before.journal with
      | ok _ journal =>
          rw [called] at done
          cases done
          rfl
      | error diagnostic journal =>
          rw [called] at done
          cases done

theorem compileNodes_proceeds (nodes : List Node) :
    EStateM.Moves Proceeds (compileNodes nodes) := by
  intro compiler
  have first := prepare_proceeds compiler
  rw [compileNodes, EStateM.bind_apply]
  cases begun : prepare compiler with
  | ok _ middle =>
      rw [begun] at first
      exact first.trans (compileAndReset_proceeds (.ir nodes) middle
        (prepared_of_prepare begun))
  | error diagnostic middle =>
      rw [begun] at first
      exact first

theorem parseSource_proceeds (freshness : Freshness) (parser : String) :
    EStateM.Moves Proceeds (parseSource freshness parser) := by
  refine .bind .trans (onFiles_proceeds _) fun status => ?_
  split
  · exact .bind .trans (onFiles_proceeds _) fun _ compiler => .refl compiler
  · exact fun compiler => .refl compiler

theorem compileTree_proceeds (freshness : Freshness) :
    EStateM.Moves Proceeds (compileTree freshness) := by
  rw [compileTree_eq]
  refine .bind .trans (onFiles_proceeds _) fun text => ?_
  refine .bind .trans (ofExcept_proceeds _) fun nodes => ?_
  refine .bind .trans (compileNodes_proceeds nodes) fun php => ?_
  exact .bind .trans (onFiles_proceeds _) fun _ compiler => .refl compiler

theorem compileSource_proceeds (path parser : String) :
    EStateM.Moves Proceeds (compileSource path parser) := by
  intro compiler
  rw [compileSource_eq compiler path parser _ rfl]
  split
  · split
    · refine EStateM.Moves.bind .trans (parseSource_proceeds _ parser)
        (fun _ => ?_) compiler
      exact .bind .trans (compileTree_proceeds _) fun _ compiler => .refl compiler
    · split
      · exact .refl compiler
      · refine EStateM.Moves.bind .trans (compileTree_proceeds _) (fun _ => ?_) compiler
        exact fun compiler => .refl compiler
  · exact .refl compiler

theorem compileSources_proceeds (keepGoing : Bool) (parser : String) (paths : List String)
    (report : BuildReport) :
    EStateM.Moves Proceeds (compileSources keepGoing parser paths report) := by
  intro compiler
  induction paths generalizing report compiler with
  | nil => exact .refl compiler
  | cons path rest induction =>
      have first := compileSource_proceeds path parser compiler
      cases called : compileSource path parser compiler with
      | ok compiled middle =>
          rw [called] at first
          simp only [compileSources, called]
          exact first.trans (induction _ middle)
      | error diagnostic middle =>
          rw [called] at first
          simp only [compileSources, called]
          split
          · exact first.trans (induction _ middle)
          · exact first

theorem compileFile_proceeds (path : String) :
    EStateM.Moves Proceeds (compileFile path) := by
  intro compiler
  rw [compileFile_eq compiler path _ rfl]
  split
  · exact compileSource_proceeds path _ compiler
  · exact .refl compiler

theorem compileAll_proceeds (keepGoing : Bool) :
    EStateM.Moves Proceeds (compileAll keepGoing) := by
  intro compiler
  rw [compileAll_eq compiler _ rfl]
  split
  · split
    · exact .refl compiler
    · exact compileSources_proceeds keepGoing _ _ _ compiler
  · exact .refl compiler

end Compiler

theorem Occurrence.proceeds (occurrence : Occurrence) (compiler : Compiler Memory) :
    compiler.Proceeds (occurrence.apply compiler) := by
  cases occurrence with
  | compile path => exact Compiler.compileFile_proceeds path compiler
  | compileAll keepGoing => exact Compiler.compileAll_proceeds keepGoing compiler
  | _ => exact ⟨rfl, fun _ => .refl⟩

/-! ## Laws of the log -/

/-- The stage is ready before it is given a unit. -/
def ReadyFirst (log : List String) (label : String) : Prop :=
  ∀ time : Nat, log[time]? = some (Note.given label).line →
    ∃ earlier < time, log[earlier]? = some (Note.ready label).line

/-- At a time a preparation of the stage ended. -/
def PreparedAt (log : List String) (label : String) (time : Nat) : Prop :=
  log[time]? = some (Note.ready label).line ∨ log[time]? = some (Note.failed label).line

/-- The stage is not prepared again once it is ready. -/
def ReadyOnce (log : List String) (label : String) : Prop :=
  ∀ first second : Nat, first < second → log[first]? = some (Note.ready label).line →
    ¬PreparedAt log label second

/-- Between two times a stage other than this one failed. -/
def OtherFailed (log : List String) (label : String) (first second : Nat) : Prop :=
  ∃ time other, first < time ∧ time < second ∧ other ≠ label ∧
    log[time]? = some (Note.failed other).line

theorem getElem?_append_eq_some_iff {log lines : List String} {line : String}
    {time : Nat} :
    (log ++ lines)[time]? = some line ↔
      log[time]? = some line ∨
        log.length ≤ time ∧ lines[time - log.length]? = some line := by
  rw [List.getElem?_append]
  split
  · rename_i early
    simp [Nat.not_le.mpr early]
  · rename_i late
    simp [Nat.not_lt.mp late]

theorem preparedAt_append_iff {log lines : List String} {label : String} {time : Nat} :
    PreparedAt (log ++ lines) label time ↔
      PreparedAt log label time ∨
        log.length ≤ time ∧ PreparedAt lines label (time - log.length) := by
  simp only [PreparedAt, getElem?_append_eq_some_iff]
  rw [or_or_or_comm, and_or_left]

theorem PreparedAt.lt_length {log : List String} {label : String} {time : Nat}
    (prepared : PreparedAt log label time) : time < log.length := by
  rcases prepared with found | found
  · exact (List.getElem?_eq_some_iff.mp found).1
  · exact (List.getElem?_eq_some_iff.mp found).1

theorem OtherFailed.append {log : List String} {label : String} {first second last : Nat}
    (failed : OtherFailed log label first second) (later : second ≤ last)
    (lines : List String) : OtherFailed (log ++ lines) label first last := by
  rcases failed with ⟨time, other, since, earlier, different, found⟩
  exact ⟨time, other, since, earlier.trans_le later, different,
    getElem?_append_eq_some_iff.mpr (.inl found)⟩

/-- What holds of the stages of a pipeline if some have joined late. -/
structure Covered (names : List String) (late : String → Prop) (progress : Progress) :
    Prop where
  ready : progress.prepared = true →
    ∀ label ∈ names, (Note.ready label).line ∈ progress.log ∨ late label
  unready : ∀ label, late label →
    progress.prepared = true ∧ (Note.ready label).line ∉ progress.log
  given : ∀ label, (Note.given label).line ∈ progress.log →
    progress.prepared = true ∧ ((Note.ready label).line ∈ progress.log ∨ late label)
  ordered : ∀ (time earlier : Nat) label other,
    progress.log[time]? = some (Note.given label).line →
    progress.log[earlier]? = some (Note.ready other).line → earlier < time

namespace Covered

variable {names : List String} {late : String → Prop} {before after : Progress}

/-- Nothing was given to stages that are not prepared, and none of them is late. -/
theorem of_preparation {log lines : List String} {prepared : Bool}
    (covered : Covered names late ⟨false, log⟩)
    (plain : ∀ label, (Note.given label).line ∉ lines)
    (ready : prepared = true → ∀ label ∈ names, (Note.ready label).line ∈ lines) :
    Covered names late ⟨prepared, log ++ lines⟩ := by
  have ungiven (label : String) : (Note.given label).line ∉ log ++ lines := by
    rw [List.mem_append, not_or]
    exact ⟨fun member => Bool.false_ne_true (covered.given label member).1, plain label⟩
  constructor
  · intro isPrepared label member
    exact .inl (List.mem_append_right log (ready isPrepared label member))
  · intro label isLate
    exact absurd (covered.unready label isLate).1 Bool.false_ne_true
  · intro label member
    exact absurd member (ungiven label)
  · intro time earlier label other found
    exact absurd (List.mem_of_getElem? found) (ungiven label)

theorem round (covered : Covered names late before) (round : Round names before after) :
    Covered names late after := by
  cases round with
  | refused split => exact covered.of_preparation (by simp) (by simp)
  | readied => exact covered.of_preparation (by simp) (by simp)
  | @given log label member =>
      constructor
      · intro prepared other otherMember
        simpa using covered.ready rfl other otherMember
      · intro other isLate
        simpa using covered.unready other isLate
      · intro other found
        rcases List.mem_append.mp found with found | found
        · simpa using covered.given other found
        · cases (Note.line_inj _ _).mp (List.mem_singleton.mp found)
          simpa using covered.ready rfl label member
      · intro time earlier other another found foundEarlier
        have within : earlier < log.length := by
          by_contra beyond
          rw [List.getElem?_append_right (by omega)] at foundEarlier
          have last := List.mem_singleton.mp (List.mem_of_getElem? foundEarlier)
          simp at last
        by_cases early : time < log.length
        · rw [List.getElem?_append_left early] at found
          rw [List.getElem?_append_left within] at foundEarlier
          exact covered.ordered time earlier other another found foundEarlier
        · omega

theorem rounds (covered : Covered names late before)
    (rounds : Rounds names before after) :
    Covered names late after := by
  induction rounds with
  | refl => exact covered
  | tail earlier last induction => exact induction.round last

/-- Stages come and go, and some join late. -/
theorem change {others : List String} {also : String → Prop} {progress : Progress}
    (covered : Covered names late progress) (still : ∀ label, late label → also label)
    (unready : ∀ label, also label →
      progress.prepared = true ∧ (Note.ready label).line ∉ progress.log)
    (joined : progress.prepared = true → ∀ label ∈ others,
      label ∈ names ∨ (Note.ready label).line ∈ progress.log ∨ also label) :
    Covered others also progress where
  ready prepared label member := by
    rcases joined prepared label member with known | known
    · exact (covered.ready prepared label known).imp_right (still label)
    · exact known
  unready := unready
  given label member :=
    ⟨(covered.given label member).1,
      (covered.given label member).2.imp_right (still label)⟩
  ordered := covered.ordered

/-- A stage is ready before its units exactly if it has none or did not join late. -/
theorem readyFirst_iff {progress : Progress} (covered : Covered names late progress)
    (label : String) :
    ReadyFirst progress.log label ↔
      ((Note.given label).line ∈ progress.log → ¬late label) := by
  constructor
  · intro first member isLate
    rcases List.mem_iff_getElem?.mp member with ⟨time, found⟩
    rcases first time found with ⟨earlier, _, foundReady⟩
    exact (covered.unready label isLate).2 (List.mem_of_getElem? foundReady)
  · intro punctual time found
    have member := List.mem_of_getElem? found
    have ready := (covered.given label member).2.resolve_right (punctual member)
    rcases List.mem_iff_getElem?.mp ready with ⟨earlier, foundReady⟩
    exact ⟨earlier, covered.ordered time earlier label label found foundReady, foundReady⟩

end Covered

/-- A log in which stages are prepared again only after a failure, and the failure of
another stage has the last word as long as the stages are not prepared. -/
structure Retried (progress : Progress) : Prop where
  between : ∀ (first second : Nat) label, first < second →
    progress.log[first]? = some (Note.ready label).line →
    PreparedAt progress.log label second →
    OtherFailed progress.log label first second
  failed : progress.prepared = false → ∀ (first : Nat) label,
    progress.log[first]? = some (Note.ready label).line →
    OtherFailed progress.log label first progress.log.length

namespace Retried

variable {names : List String} {before after : Progress}

/-- A preparation in which every stage has at most one turn. -/
theorem of_preparation {log lines labels : List String}
    (retried : Retried ⟨false, log⟩) (distinct : labels.Nodup)
    (turns : ∀ time label, PreparedAt lines label time → labels[time]? = some label)
    (first second : Nat) (label : String) (before : first < second)
    (ready : (log ++ lines)[first]? = some (Note.ready label).line)
    (again : PreparedAt (log ++ lines) label second) :
    OtherFailed (log ++ lines) label first second := by
  rcases getElem?_append_eq_some_iff.mp ready with ready | ⟨late, ready⟩
  · rcases preparedAt_append_iff.mp again with again | ⟨late, again⟩
    · exact (retried.between first second label before ready again).append
        (Nat.le_refl _) lines
    · exact (retried.failed rfl first label ready).append late lines
  · rcases preparedAt_append_iff.mp again with again | ⟨_, again⟩
    · have early := again.lt_length
      omega
    · -- Both would be the turn of the stage in this preparation.
      have firstTurn := turns _ label (.inl ready)
      have secondTurn := turns _ label again
      have within := (List.getElem?_eq_some_iff.mp secondTurn).1
      have earlier : first - log.length < second - log.length := by omega
      exact absurd (firstTurn.trans secondTurn.symm)
        (List.nodup_iff_getElem?_ne_getElem?.mp distinct _ _ earlier within)

theorem round (retried : Retried before) (distinct : names.Nodup)
    (round : Round names before after) : Retried after := by
  cases round with
  | @refused log passed rest label split =>
      have turnsDistinct : (passed ++ [label]).Nodup := by
        rw [split] at distinct
        exact distinct.sublist (by simp)
      constructor
      · refine retried.of_preparation turnsDistinct fun time other prepared => ?_
        simpa [PreparedAt, getElem?_append_eq_some_iff,
          List.getElem?_singleton] using prepared
      · intro _ first other ready
        rcases getElem?_append_eq_some_iff.mp ready with ready | ⟨late, ready⟩
        · exact (retried.failed rfl first other ready).append (by simp) _
        · -- The stage had its turn in this preparation, which another one ended.
          have turn : passed[first - log.length]? = some other := by
            simpa [getElem?_append_eq_some_iff, List.getElem?_singleton] using ready
          have within := (List.getElem?_eq_some_iff.mp turn).1
          have different : label ≠ other := by
            rintro rfl
            exact (List.nodup_append.mp turnsDistinct).2.2 label
              (List.mem_of_getElem? turn)
              label List.mem_cons_self rfl
          refine ⟨log.length + passed.length, label, by omega, by simp, different, ?_⟩
          simp
  | readied =>
      constructor
      · refine retried.of_preparation distinct fun time other prepared => ?_
        simpa [PreparedAt] using prepared
      · intro impossible
        cases impossible
  | @given log label member =>
      constructor
      · intro first second other before ready again
        have again : PreparedAt log other second := by
          simpa [PreparedAt, getElem?_append_eq_some_iff,
            List.getElem?_singleton] using again
        have within := again.lt_length
        rw [List.getElem?_append_left (by omega)] at ready
        exact (retried.between first second other before ready again).append
          (Nat.le_refl _) _
      · intro impossible
        cases impossible

theorem rounds (retried : Retried before) (distinct : names.Nodup)
    (rounds : Rounds names before after) : Retried after := by
  induction rounds with
  | refl => exact retried
  | tail earlier last induction => exact induction.round distinct last

end Retried

/-! ## Histories -/

/-- What can happen to a compiler whose stages come and go. A label stands for one
stage. -/
inductive DriverCall where
  | happens (occurrence : Occurrence)
  | addStage (label : String)
  | removeStage (index : Nat)

namespace DriverCall

/-- The compiler after a call, whether or not it succeeds. A stage that is in the pipeline
cannot be added again; one that was removed can. -/
def apply (stages : String → Stage) : DriverCall → Compiler Memory → Compiler Memory
  | .happens occurrence, compiler => occurrence.apply compiler
  | .addStage label, compiler =>
    if label ∈ compiler.pipeline.names then compiler
    else { compiler with pipeline :=
      compiler.pipeline.add ((stages label).watched label) }
  | .removeStage index, compiler =>
    match compiler.pipeline.remove index with
    | .ok (_, pipeline) => { compiler with pipeline }
    | .error _ => compiler

/-- The compiler after a history. -/
def applyAll (stages : String → Stage) (history : List DriverCall)
    (compiler : Compiler Memory) : Compiler Memory :=
  history.foldl (fun compiler call => call.apply stages compiler) compiler

@[simp] theorem applyAll_concat (stages : String → Stage) (history : List DriverCall)
    (call : DriverCall) (compiler : Compiler Memory) :
    applyAll stages (history ++ [call]) compiler =
      call.apply stages (applyAll stages history compiler) := by
  simp [applyAll]

end DriverCall

/-- A compiler without stages. -/
def Compiler.bare (files : Memory) (options : Options) : Compiler Memory :=
  { files, options, pipeline := [] }

/-- A stage that was not ready was added to a pipeline that was prepared. -/
def JoinedLate (stages : String → Stage) (start : Compiler Memory)
    (history : List DriverCall) (label : String) : Prop :=
  ∃ earlier later, history = earlier ++ .addStage label :: later ∧
    (DriverCall.applyAll stages earlier start).prepared = true ∧
    (Note.ready label).line ∉ (DriverCall.applyAll stages earlier start).journal.log

theorem joinedLate_concat_iff {stages : String → Stage} {start : Compiler Memory}
    {history : List DriverCall} {call : DriverCall} {label : String} :
    JoinedLate stages start (history ++ [call]) label ↔
      JoinedLate stages start history label ∨
        call = .addStage label ∧
          (DriverCall.applyAll stages history start).prepared = true ∧
          (Note.ready label).line ∉
            (DriverCall.applyAll stages history start).journal.log := by
  constructor
  · rintro ⟨earlier, later, whole, prepared, unready⟩
    rcases List.eq_nil_or_concat later with rfl | ⟨between, last, rfl⟩
    · rcases List.append_inj' whole rfl with ⟨rfl, same⟩
      exact .inr ⟨List.singleton_inj.mp same, prepared, unready⟩
    · rw [List.concat_eq_append, ← List.cons_append, ← List.append_assoc] at whole
      exact .inl ⟨earlier, between, (List.append_inj' whole rfl).1, prepared, unready⟩
  · rintro (⟨earlier, later, rfl, late⟩ | ⟨rfl, late⟩)
    · exact ⟨earlier, later ++ [call], by simp, late⟩
    · exact ⟨history, [], rfl, late⟩

/-- What is known of the stages after a history. -/
structure Recorded (stages : String → Stage) (start : Compiler Memory)
    (history : List DriverCall) : Prop where
  watched : (DriverCall.applyAll stages history start).pipeline.Watched
  distinct : (DriverCall.applyAll stages history start).pipeline.names.Nodup
  covered : Covered (DriverCall.applyAll stages history start).pipeline.names
    (JoinedLate stages start history) (DriverCall.applyAll stages history start).progress
  retried : Retried (DriverCall.applyAll stages history start).progress

namespace Recorded

variable {stages : String → Stage} {start : Compiler Memory} {history : List DriverCall}

theorem initial (stages : String → Stage) (files : Memory) (options : Options) :
    Recorded stages (.bare files options) [] where
  watched := List.forall_mem_nil _
  distinct := List.nodup_nil
  covered :=
    { ready := fun impossible => by cases impossible
      unready := by
        rintro label ⟨earlier, later, impossible, _⟩
        simp at impossible
      given := fun label impossible => by cases impossible
      ordered := fun time earlier label other impossible => by cases impossible }
  retried :=
    { between := fun first second label _ impossible => by cases impossible
      failed := fun _ first label impossible => by cases impossible }

/-- Only additions of stages can be late. -/
theorem joinedLate_concat_eq {call : DriverCall}
    (other : ∀ label, call ≠ .addStage label) :
    JoinedLate stages start (history ++ [call]) = JoinedLate stages start history := by
  funext label
  simp [joinedLate_concat_iff, other]

theorem of_reached {compiler : Compiler Memory}
    (reached : DriverCall.applyAll stages history start = compiler)
    (watched : compiler.pipeline.Watched) (distinct : compiler.pipeline.names.Nodup)
    (covered : Covered compiler.pipeline.names (JoinedLate stages start history)
      compiler.progress)
    (retried : Retried compiler.progress) : Recorded stages start history := by
  subst reached
  exact ⟨watched, distinct, covered, retried⟩

theorem happens (recorded : Recorded stages start history) (occurrence : Occurrence) :
    Recorded stages start (history ++ [.happens occurrence]) := by
  have proceeds := occurrence.proceeds (DriverCall.applyAll stages history start)
  have rounds := proceeds.rounds recorded.watched
  refine of_reached (DriverCall.applyAll_concat _ _ _ _) ?_ ?_ ?_
    (recorded.retried.rounds recorded.distinct rounds)
  · rw [DriverCall.apply, proceeds.pipeline]
    exact recorded.watched
  · rw [DriverCall.apply, proceeds.pipeline]
    exact recorded.distinct
  · rw [DriverCall.apply, proceeds.pipeline, joinedLate_concat_eq (by simp)]
    exact recorded.covered.rounds rounds

theorem addStage (recorded : Recorded stages start history) (label : String) :
    Recorded stages start (history ++ [.addStage label]) := by
  have still (other : String) (late : JoinedLate stages start history other) :
      JoinedLate stages start (history ++ [.addStage label]) other :=
    joinedLate_concat_iff.mpr (.inl late)
  have unready (other : String)
      (late : JoinedLate stages start (history ++ [.addStage label]) other) :
      (DriverCall.applyAll stages history start).prepared = true ∧
        (Note.ready other).line ∉
        (DriverCall.applyAll stages history start).journal.log := by
    rcases joinedLate_concat_iff.mp late with late | ⟨_, late⟩
    · exact recorded.covered.unready other late
    · exact late
  by_cases present : label ∈ (DriverCall.applyAll stages history start).pipeline.names
  · have same : DriverCall.applyAll stages (history ++ [.addStage label]) start =
        DriverCall.applyAll stages history start := by
      rw [DriverCall.applyAll_concat, DriverCall.apply, if_pos present]
    exact of_reached same recorded.watched recorded.distinct
      (recorded.covered.change still unready fun _ other member => .inl member)
      recorded.retried
  · have added : DriverCall.applyAll stages (history ++ [.addStage label]) start =
        { DriverCall.applyAll stages history start with
          pipeline :=
            (DriverCall.applyAll stages history start).pipeline.add
              ((stages label).watched label) } := by
      rw [DriverCall.applyAll_concat, DriverCall.apply, if_neg present]
    have names : ((DriverCall.applyAll stages history start).pipeline.add
        ((stages label).watched label)).names =
        (DriverCall.applyAll stages history start).pipeline.names ++ [label] := by
      simp [Pipeline.names, Pipeline.add, Stage.watched]
    refine of_reached added ?_ ?_ ?_ recorded.retried
    · intro other member
      rcases List.mem_append.mp member with member | member
      · exact recorded.watched other member
      · cases List.mem_singleton.mp member
        exact ⟨stages label, rfl⟩
    · rw [names]
      exact List.nodup_append.mpr ⟨recorded.distinct, List.nodup_singleton label, by
        rintro other member _ last rfl
        exact present (List.mem_singleton.mp last ▸ member)⟩
    · rw [names]
      refine recorded.covered.change still unready fun prepared other member => ?_
      rcases List.mem_append.mp member with member | member
      · exact .inl member
      · -- A stage that joins is ready, or it joins late.
        cases List.mem_singleton.mp member
        by_cases ready : (Note.ready label).line ∈
          (DriverCall.applyAll stages history start).journal.log
        · exact .inr (.inl ready)
        · exact .inr (.inr (joinedLate_concat_iff.mpr (.inr ⟨rfl, prepared, ready⟩)))

theorem removeStage (recorded : Recorded stages start history) (index : Nat) :
    Recorded stages start (history ++ [.removeStage index]) := by
  have late : JoinedLate stages start (history ++ [.removeStage index]) =
      JoinedLate stages start history :=
    joinedLate_concat_eq (by simp)
  have fewer : ∃ pipeline,
      DriverCall.applyAll stages (history ++ [.removeStage index]) start =
      { DriverCall.applyAll stages history start with pipeline } ∧
      pipeline.Sublist (DriverCall.applyAll stages history start).pipeline := by
    rw [DriverCall.applyAll_concat, DriverCall.apply, Pipeline.remove]
    cases (DriverCall.applyAll stages history start).pipeline[index]? with
    | none => exact ⟨_, rfl, .refl _⟩
    | some stage => exact ⟨_, rfl, List.eraseIdx_sublist _ _⟩
  rcases fewer with ⟨pipeline, removed, sublist⟩
  have names : pipeline.names.Sublist
      (DriverCall.applyAll stages history start).pipeline.names :=
    sublist.map _
  refine of_reached removed
    (fun stage member => recorded.watched stage (sublist.subset member))
    (recorded.distinct.sublist names) ?_ recorded.retried
  rw [late]
  exact recorded.covered.change (fun _ => id) recorded.covered.unready
    fun _ label member => .inl (names.subset member)

theorem applyAll (stages : String → Stage) (files : Memory) (options : Options)
    (history : List DriverCall) : Recorded stages (.bare files options) history := by
  induction history using List.reverseRecOn with
  | nil => exact initial stages files options
  | append_singleton history call recorded =>
      cases call with
      | happens occurrence => exact recorded.happens occurrence
      | addStage label => exact recorded.addStage label
      | removeStage index => exact recorded.removeStage index

end Recorded

/-- In every history a stage is ready before it is given a unit, unless it joined late: it
was added, not being ready, when the pipeline had been prepared. Such a stage never
becomes ready. And a stage that is ready is prepared again only if another one has failed
in between, so that the preparation is repeated from its start. -/
theorem stages_prepared_first_and_once (stages : String → Stage) (files : Memory)
    (options : Options) (history : List DriverCall) (label : String) :
    let log := (DriverCall.applyAll stages history (.bare files options)).journal.log
    (ReadyFirst log label ↔
      ((Note.given label).line ∈ log →
        ¬JoinedLate stages (.bare files options) history label)) ∧
    (JoinedLate stages (.bare files options) history label →
      (Note.ready label).line ∉ log) ∧
    ∀ first second, first < second → log[first]? = some (Note.ready label).line →
      PreparedAt log label second → OtherFailed log label first second := by
  have recorded := Recorded.applyAll stages files options history
  exact ⟨recorded.covered.readyFirst_iff label,
    fun late => (recorded.covered.unready label late).2,
    fun first second => recorded.retried.between first second label⟩

/-- A source that the parser can parse. -/
def parsableSource : List DriverCall :=
  [.happens (.put "/parser" ""), .happens (.put "src/a.zep" ""),
    .happens (.answer "src/a.zep" ⟨"[]", .code 0⟩)]

/-- The standard stages, one that cannot be prepared, and others that leave units
alone. -/
def sampleStages : String → Stage
  | "compact" => .compact
  | "process" => .process
  | "emit-code" => .emitCode {}
  | "broken" =>
    { name := "broken", prepare := throw .globalsNotInitialized, compile := pure }
  | label => { name := label, compile := pure }

/-- A stage joins between two calls. -/
def lateHistory : List DriverCall :=
  parsableSource ++ [.addStage "compact", .addStage "process", .addStage "emit-code",
    .happens (.compile "a.zep"), .addStage "late", .happens (.put "src/a.zep" ""),
    .happens (.compile "a.zep")]

/-- The second of two stages cannot be prepared, in two calls. -/
def brokenHistory : List DriverCall :=
  parsableSource ++ [.addStage "first", .addStage "broken", .happens (.compile "a.zep"),
    .happens (.compile "a.zep")]

/-- Stages are given units although they are not ready, and are prepared although they
are. -/
theorem stages_not_always_prepared_first_and_once :
    (¬∀ stages files options history label,
      ReadyFirst (DriverCall.applyAll stages history (.bare files options)).journal.log
        label) ∧
    ¬∀ stages files options history label,
      ReadyOnce (DriverCall.applyAll stages history (.bare files options)).journal.log
        label := by
  have lateLog : (DriverCall.applyAll sampleStages lateHistory
      (.bare { roots := sampleRoots } sampleOptions)).journal.log =
      ["ready compact", "ready process", "ready emit-code", "given compact",
        "given process",
        "given emit-code", "given compact", "given process", "given emit-code",
        "given late"] := by
    decide +kernel
  have brokenLog : (DriverCall.applyAll sampleStages brokenHistory
      (.bare { roots := sampleRoots } sampleOptions)).journal.log =
      ["ready first", "failed broken", "ready first", "failed broken"] := by
    decide +kernel
  constructor
  · intro always
    have first :=
      always sampleStages { roots := sampleRoots } sampleOptions lateHistory "late"
    rw [lateLog] at first
    rcases first 9 (by decide) with ⟨earlier, before, found⟩
    revert earlier
    decide
  · intro always
    have once :=
      always sampleStages { roots := sampleRoots } sampleOptions brokenHistory "first"
    rw [brokenLog] at once
    exact once 0 2 (by decide) (by decide) (.inl (by decide))

end ZephirPhp
