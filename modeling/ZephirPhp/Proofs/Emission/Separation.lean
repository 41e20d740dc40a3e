import ZephirPhp.Proofs.Emission.Isolation

/-! # Programs from their bodies

Whether a program becomes PHP is settled by its bodies, each alone, and by what is left
without them. The code of each body alone stands in the file.
-/

namespace ZephirPhp

variable {α β : Type}

/-- The definitions with scopes of their own in an entry. -/
def Entry.bodies : Entry → List Body
  | .classDefinition definition => definition.methods.map (.method false)
  | .interfaceDefinition definition => definition.methods.map (.method true)
  | .functionDefinition definition => [.function definition]
  | _ => []

/-- The entry without these definitions, if anything is left of it. -/
def Entry.withoutBodies? : Entry → Option Entry
  | .classDefinition definition =>
    some (.classDefinition { definition with methods := [] })
  | .interfaceDefinition definition =>
    some (.interfaceDefinition { definition with methods := [] })
  | .functionDefinition _ => none
  | entry => some entry

def Program.bodies (program : Program) : List Body :=
  program.entries.flatMap Entry.bodies

def Program.withoutBodies (program : Program) : Program :=
  ⟨program.entries.filterMap Entry.withoutBodies?⟩

/-! ## Programs with bodies -/

section

variable {setting : Setting}

/-- From one level to another, an emission that succeeds keeps the bodies that are written
and writes these. -/
def Emission.Carries (setting : Setting) (before after : Nat) (bodies : List Body)
    (emission : Emission α) : Prop :=
  ∀ earlier : List Body, Leads
    (fun page => page.AtLevel before ∧ ∀ body ∈ earlier, body.Written setting page)
    (fun _ page =>
      page.AtLevel after ∧ ∀ body ∈ earlier ++ bodies, body.Written setting page)
    emission

namespace Emission.Carries

variable {before middle after level : Nat} {bodies others : List Body}

theorem silent {emission : Emission α} (shifts : Shifts before after emission)
    (growing : Growing emission) : Carries setting before after [] emission := by
  intro earlier emitter value final ended start
  rw [List.append_nil]
  have grows := growing emitter.page emitter value final ended (.refl _)
  exact ⟨shifts emitter value final ended start.1, fun body member =>
    (start.2 body member).grow grows⟩

theorem ofLocal {emission : Emission α} (shifts : Shifts before after emission)
    (isLocal : Local emission) : Carries setting before after [] emission :=
  silent shifts (.ofLocal isLocal)

theorem bind {first : Emission α} {next : α → Emission β}
    (start : Carries setting before middle bodies first)
    (rest : ∀ value, Carries setting middle after others (next value)) :
    Carries setting before after (bodies ++ others) (first >>= next) := by
  intro earlier
  rw [← List.append_assoc]
  exact (start earlier).bind fun value => rest value (earlier ++ bodies)

theorem bind_silent {first : Emission α} {next : α → Emission β}
    (start : Carries setting before middle [] first)
    (rest : ∀ value, Carries setting middle after bodies (next value)) :
    Carries setting before after bodies (first >>= next) :=
  start.bind rest

theorem bind_last {first : Emission α} {next : α → Emission β}
    (start : Carries setting before middle bodies first)
    (rest : ∀ value, Carries setting middle after [] (next value)) :
    Carries setting before after bodies (first >>= next) := by
  rw [← List.append_nil bodies]
  exact start.bind rest

theorem forM {values : List α} {act : α → Emission Unit} {bodiesOf : α → List Body}
    (each : ∀ value ∈ values, Carries setting level level (bodiesOf value) (act value)) :
    Carries setting level level (values.flatMap bodiesOf) (values.forM act) := by
  induction values with
  | nil => exact ofLocal (.pure ()) (.pure ())
  | cons value rest induction =>
      have others := induction fun later member =>
        each later (List.mem_cons_of_mem value member)
      exact (each value List.mem_cons_self).bind fun _ => others

/-- Something that is done or left out. -/
theorem optional {condition : Bool} {first : Emission Unit} {next : Unit → Emission β}
    (start : Carries setting level level [] first)
    (rest : Carries setting level after bodies (next ())) :
    Carries setting level after bodies
      (if condition then first >>= next else next ()) := by
  split
  · exact start.bind_silent fun _ => rest
  · exact rest

theorem blankLine : Carries setting level level [] (Emission.onPage (·.blankLine)) :=
  silent .blankLine (.onPage Page.growsTo_blankLine)

/-- A class or an interface with its docblock. -/
theorem definition (docblock : Option String) (header : String) (braceOnNewLine : Bool)
    {members : Emission Unit}
    (inside : Carries setting (level + 1) (level + 1) bodies members) :
    Carries setting level level bodies (do
      Emission.docblock docblock
      Emission.onPage (·.openBlock header braceOnNewLine)
      members
      Emission.onPage (·.closeBlock "")) := by
  apply bind_silent (.ofLocal (.docblock docblock) (.docblock docblock))
  intro _
  apply bind_silent (.ofLocal (.openBlock header braceOnNewLine)
    (.onPage (.openBlock _ _)))
  intro _
  exact inside.bind_last fun _ => .ofLocal (.closeBlock "") (.onPage (.closeBlock ""))

theorem body (body : Body) :
    Carries setting body.level body.level [body] (body.emit setting) := by
  intro earlier emitter value final ended start
  have grows :=
    Growing.ofLocal (body.emit_local setting) emitter.page emitter value final ended
      (.refl _)
  refine ⟨body.emit_shifts setting body.level emitter value final ended start.1, ?_⟩
  rw [List.forall_mem_append, List.forall_mem_singleton]
  exact ⟨fun other member => (start.2 other member).grow grows,
    Body.written_of_emit start.1 ended⟩

end Emission.Carries

theorem emitMethods_carries (inInterface : Bool) (methods : List Method) :
    Emission.Carries setting 1 1 (methods.map (.method inInterface))
      (emitMethods setting inInterface methods) := by
  induction methods with
  | nil => exact .ofLocal (.pure ()) (.pure ())
  | cons method rest induction =>
      have first : Emission.Carries setting 1 1 [.method inInterface method]
          (emitMethod setting inInterface method) := .body (.method inInterface method)
      cases rest with
      | nil => exact first
      | cons next others =>
          exact first.bind fun _ => .bind_silent .blankLine fun _ => induction

theorem emitConstant_local (constant : Constant) :
    Emission.Local (emitConstant setting constant) := by
  apply (Emission.Local.docblock constant.docblock).bind
  intro _
  exact (renderExpr_detached setting constant.value).toLocal.bind fun code => .line _

theorem emitProperty_local (property : Property) :
    Emission.Local (emitProperty setting property) := by
  apply (Emission.Local.docblock property.docblock).bind
  intro _
  cases property.default with
  | none => exact .line _
  | some default =>
      exact (renderExpr_detached setting default).toLocal.bind fun code => .line _

theorem emitMembers_carries (inInterface : Bool) (constants : List Constant)
    (properties : List Property) (methods : List Method) :
    Emission.Carries setting 1 1 (methods.map (.method inInterface))
      (emitMembers setting inInterface constants properties methods) := by
  apply Emission.Carries.bind_silent (.ofLocal
    (.forM fun constant _ => emitConstant_shifts setting constant)
    (.forM emitConstant_local))
  intro _
  apply Emission.Carries.optional .blankLine
  apply Emission.Carries.bind_silent (.ofLocal
    (.forM fun property _ => emitProperty_shifts setting property)
    (.forM emitProperty_local))
  intro _
  apply Emission.Carries.optional .blankLine
  exact emitMethods_carries inInterface methods

theorem emitEntry_carries (entry : Entry) :
    Emission.Carries setting 0 0 entry.bodies (emitEntry setting entry) := by
  cases entry with
  | comment location text => exact .ofLocal (.comment text) (.comment text)
  | namespaceName location name =>
      exact .bind_silent (.ofLocal (.line _) (.line _)) fun _ => .blankLine
  | imports location imported => exact .ofLocal (.lines _) (.lines _)
  | classDefinition definition =>
      have members : Emission.Carries setting 1 1
          (definition.methods.map (.method false)) _ :=
        emitMembers_carries false definition.constants definition.properties
          definition.methods
      exact .bind_last (.definition definition.docblock definition.head _ members)
        fun _ => .blankLine
  | interfaceDefinition definition =>
      have members : Emission.Carries setting 1 1
          (definition.methods.map (.method true)) _ :=
        emitMembers_carries true definition.constants [] definition.methods
      exact .bind_last (.definition definition.docblock definition.head _ members)
        fun _ => .blankLine
  | functionDefinition definition =>
      exact .bind_last (.body (.function definition)) fun _ => .blankLine
  | statement included =>
      exact .ofLocal (emitStmt_shifts setting 0 included)
        (emitStmt_local setting included)

theorem emitProgram_carries (program : Program) :
    Emission.Carries setting 0 0 program.bodies (emitProgram setting program) := by
  apply Emission.Carries.bind_silent (.ofLocal (.line _) (.line _))
  intro _
  apply Emission.Carries.bind_silent .blankLine
  intro _
  exact .forM fun entry _ => emitEntry_carries entry

/-! ## Programs without bodies -/

namespace Emission

/-- From the given level the emission succeeds. The level and the scope are as before. -/
def Passes (level : Nat) (emission : Emission Unit) : Prop :=
  ∀ emitter : Emitter, emitter.page.AtLevel level → ∃ final : Emitter,
    emission emitter = .ok () final ∧ final.scope = emitter.scope ∧
    final.page.AtLevel level

namespace Passes

variable {level : Nat}

theorem pure : Passes level (Pure.pure ()) :=
  fun emitter start => ⟨emitter, rfl, rfl, start⟩

theorem bind {first next : Emission Unit} (start : Passes level first)
    (rest : Passes level next) :
    Passes level (do first; next) := by
  intro emitter atLevel
  rcases start emitter atLevel with ⟨middle, ended, sameScope, middleLevel⟩
  rcases rest middle middleLevel with ⟨final, endedLater, sameLater, finalLevel⟩
  refine ⟨final, ?_, sameLater.trans sameScope, finalLevel⟩
  rw [EStateM.bind_apply, ended]
  exact endedLater

theorem blankLine : Passes level (Emission.onPage (·.blankLine)) :=
  fun _ start => ⟨_, rfl, rfl, start.blankLine⟩

/-- A body that can be written alone can be written anywhere at its level. -/
theorem body {body : Body} (standsAlone : body.StandsAlone setting) :
    Passes body.level (body.emit setting) := by
  rcases standsAlone with ⟨lines, alone⟩
  intro emitter start
  have placed := body.emit_eq_alone setting start
  rw [Body.lines] at alone
  cases run : body.emit setting (.atLevel body.level) with
  | error diagnostic last =>
      rw [run] at alone
      cases alone
  | ok value last =>
      rw [run] at placed
      exact ⟨_, placed, rfl,
        body.emit_shifts setting body.level emitter () _ placed start⟩

end Passes

/-- From emitters abreast, both emissions succeed and end abreast or both have the same
fault. -/
def Matches (before after : Nat) (left right : Emission Unit) : Prop :=
  ∀ emitter other, Emitter.Abreast before emitter other →
    Except.Alike Eq (Emitter.Abreast after) (ended (left emitter)) (ended (right other))

namespace Matches

variable {before middle after level : Nat} {left right : Emission Unit}

theorem bind {next otherNext : Emission Unit} (start : Matches before middle left right)
    (rest : Matches middle after next otherNext) :
    Matches before after (do left; next) (do right; otherNext) := by
  intro emitter other abreast
  rw [ended_bind, ended_bind]
  exact (start emitter other abreast).bind rest

theorem pass_left {first : Emission Unit} (passes : Passes before first)
    (rest : Matches before after left right) :
    Matches before after (do first; left) right := by
  intro emitter other abreast
  rcases passes emitter abreast.left with ⟨final, ended, sameScope, finalLevel⟩
  rw [ended_bind, (ended_eq_ok_iff _ _).mpr ended]
  exact rest final other ⟨sameScope.trans abreast.scope, finalLevel, abreast.right⟩

theorem pass_right {first : Emission Unit} (passes : Passes before first)
    (rest : Matches before after left right) :
    Matches before after left (do first; right) := by
  intro emitter other abreast
  rcases passes other abreast.right with ⟨final, ended, sameScope, finalLevel⟩
  rw [ended_bind, (ended_eq_ok_iff _ _).mpr ended]
  exact rest emitter final ⟨abreast.scope.trans sameScope.symm, abreast.left, finalLevel⟩

theorem pure : Matches level level (Pure.pure ()) (Pure.pure ()) :=
  fun _ _ abreast => .ok abreast

/-- An emission looks at the scope and at the level only. -/
theorem ofLocal {emission : Emission Unit} (shifts : Shifts before after emission)
    (isLocal : Local emission) : Matches before after emission emission := by
  intro emitter other abreast
  have left := isLocal emitter.page.lines emitter.warnings
    { Emitter.atLevel before with scope := emitter.scope }
  have right := isLocal other.page.lines other.warnings
    { Emitter.atLevel before with scope := other.scope }
  -- Both runs are the run of one new emitter, after what each side has written.
  rw [Emitter.after_atLevel abreast.left] at left
  rw [Emitter.after_atLevel abreast.right, ← abreast.scope] at right
  rw [left, right, ended_ending, ended_ending]
  cases run : emission { Emitter.atLevel before with scope := emitter.scope } with
  | error diagnostic final => exact .error rfl
  | ok value final =>
      have finalLevel := shifts _ value final run ⟨rfl, rfl⟩
      exact .ok ⟨rfl, ⟨finalLevel.depth, finalLevel.pending⟩, finalLevel.depth,
        finalLevel.pending⟩

theorem blankLine :
    Matches level level (Emission.onPage (·.blankLine)) (Emission.onPage (·.blankLine)) :=
  fun _ _ abreast => .ok ⟨abreast.scope, abreast.left.blankLine, abreast.right.blankLine⟩

theorem left_only (passes : Passes level left) :
    Matches level level left (Pure.pure ()) := by
  intro emitter other abreast
  rcases passes emitter abreast.left with ⟨final, ended, sameScope, finalLevel⟩
  rw [(ended_eq_ok_iff _ _).mpr ended]
  exact .ok ⟨sameScope.trans abreast.scope, finalLevel, abreast.right⟩

/-- Something that is done or left out on either side. -/
theorem optional {condition other : Bool} {first : Emission Unit}
    (passes : Passes before first) (rest : Matches before after left right) :
    Matches before after (if condition then do first; left else left)
      (if other then do first; right else right) := by
  cases condition <;> cases other
  · exact rest
  · exact pass_right passes rest
  · exact pass_left passes rest
  · exact pass_left passes (pass_right passes rest)

/-- A class or an interface with its docblock. -/
theorem definition (docblock : Option String) (header : String) (braceOnNewLine : Bool)
    (inside : Matches (level + 1) (level + 1) left right) :
    Matches level level
      (do
        Emission.docblock docblock
        Emission.onPage (·.openBlock header braceOnNewLine)
        left
        Emission.onPage (·.closeBlock ""))
      (do
        Emission.docblock docblock
        Emission.onPage (·.openBlock header braceOnNewLine)
        right
        Emission.onPage (·.closeBlock "")) := by
  apply (ofLocal (.docblock docblock) (.docblock docblock)).bind
  apply (ofLocal (.openBlock header braceOnNewLine) (.onPage (.openBlock _ _))).bind
  exact inside.bind (ofLocal (.closeBlock "") (.onPage (.closeBlock "")))

end Matches

end Emission

theorem emitMethods_passes {inInterface : Bool} {methods : List Method}
    (alone : ∀ method ∈ methods, (Body.method inInterface method).StandsAlone setting) :
    Emission.Passes 1 (emitMethods setting inInterface methods) := by
  induction methods with
  | nil => exact .pure
  | cons method rest induction =>
      rw [List.forall_mem_cons] at alone
      have first : Emission.Passes 1 (emitMethod setting inInterface method) :=
        .body alone.1
      cases rest with
      | nil => exact first
      | cons next later => exact first.bind (.bind .blankLine (induction alone.2))

/-- Without methods there may be fewer blank lines between the groups of members. -/
theorem emitMembers_matches {inInterface : Bool} (constants : List Constant)
    (properties : List Property) {methods : List Method}
    (alone : ∀ method ∈ methods, (Body.method inInterface method).StandsAlone setting) :
    Emission.Matches 1 1 (emitMembers setting inInterface constants properties methods)
      (emitMembers setting inInterface constants properties []) := by
  apply Emission.Matches.bind (.ofLocal
    (.forM fun constant _ => emitConstant_shifts setting constant)
    (.forM emitConstant_local))
  apply Emission.Matches.optional .blankLine
  apply Emission.Matches.bind (.ofLocal
    (.forM fun property _ => emitProperty_shifts setting property)
    (.forM emitProperty_local))
  apply Emission.Matches.optional .blankLine
  exact .left_only (emitMethods_passes alone)

theorem emitEntry_matches {entry rest : Entry} (left : entry.withoutBodies? = some rest)
    (alone : ∀ body ∈ entry.bodies, body.StandsAlone setting) :
    Emission.Matches 0 0 (emitEntry setting entry) (emitEntry setting rest) := by
  cases entry with
  | classDefinition definition =>
      cases left
      have members := emitMembers_matches definition.constants definition.properties
        (List.forall_mem_map.mp alone)
      exact .bind (.definition definition.docblock definition.head _ members) .blankLine
  | interfaceDefinition definition =>
      cases left
      have members :=
        emitMembers_matches definition.constants [] (List.forall_mem_map.mp alone)
      exact .bind (.definition definition.docblock definition.head _ members) .blankLine
  | functionDefinition definition => cases left
  | comment location text =>
      cases left
      exact .ofLocal (.comment text) (.comment text)
  | namespaceName location name =>
      cases left
      exact .bind (.ofLocal (.line _) (.line _)) .blankLine
  | imports location imported =>
      cases left
      exact .ofLocal (.lines _) (.lines _)
  | statement included =>
      cases left
      exact .ofLocal (emitStmt_shifts setting 0 included)
        (emitStmt_local setting included)

theorem emitEntry_passes {entry : Entry} (nothing : entry.withoutBodies? = none)
    (alone : ∀ body ∈ entry.bodies, body.StandsAlone setting) :
    Emission.Passes 0 (emitEntry setting entry) := by
  cases entry with
  | functionDefinition definition =>
      have passes : Emission.Passes 0 (emitFunction setting definition) :=
        .body (alone (.function definition) List.mem_cons_self)
      exact passes.bind .blankLine
  | _ => cases nothing

theorem forM_emitEntry_matches {entries : List Entry}
    (alone : ∀ entry ∈ entries, ∀ body ∈ entry.bodies, body.StandsAlone setting) :
    Emission.Matches 0 0 (entries.forM (emitEntry setting))
      ((entries.filterMap Entry.withoutBodies?).forM (emitEntry setting)) := by
  induction entries with
  | nil => exact .pure
  | cons entry rest induction =>
      rw [List.forall_mem_cons] at alone
      have later := induction alone.2
      cases left : entry.withoutBodies? with
      | none =>
          rw [List.filterMap_cons_none left]
          exact .pass_left (emitEntry_passes left alone.1) later
      | some other =>
          rw [List.filterMap_cons_some left]
          exact .bind (emitEntry_matches left alone.1) later

theorem emitProgram_matches {program : Program}
    (alone : ∀ body ∈ program.bodies, body.StandsAlone setting) :
    Emission.Matches 0 0 (emitProgram setting program)
      (emitProgram setting program.withoutBodies) := by
  have each : ∀ entry ∈ program.entries, ∀ body ∈ entry.bodies,
      body.StandsAlone setting :=
    fun entry member body inside =>
      alone body (List.mem_flatMap.mpr ⟨entry, member, inside⟩)
  exact .bind (.ofLocal (.line _) (.line _))
    (.bind .blankLine (forM_emitEntry_matches each))

/-- If every body stands alone, a program has the faults that it has without them. -/
theorem toPhp_eq_error_iff {program : Program}
    (alone : ∀ body ∈ program.bodies, body.StandsAlone setting)
    (diagnostic : Diagnostic) :
    (program.toPhp setting).1 = .error diagnostic ↔
      (program.withoutBodies.toPhp setting).1 = .error diagnostic := by
  have abreast : Emitter.Abreast 0 {} {} := ⟨rfl, .empty, .empty⟩
  have ended := emitProgram_matches alone {} {} abreast
  rw [Program.toPhp, Program.toPhp]
  generalize emitProgram setting program {} = run at ended ⊢
  generalize emitProgram setting program.withoutBodies {} = otherRun at ended ⊢
  cases run <;> cases otherRun <;> cases ended <;> simp_all

end

/-- From any two emitters at a level, whatever their scopes and whatever is written, a
method or a function has the same outcome, adds the same lines and leaves the scope as it
was, also after a fault. So each body of a file has the code that it has alone, and if all
bodies stand alone, a program has the faults that it has without them. -/
theorem bodies_isolated (setting : Setting) :
    (∀ (body : Body) (level : Nat) (left right : Emitter),
      left.page.AtLevel level → right.page.AtLevel level →
        EStateM.outcome (body.emit setting left) =
          EStateM.outcome (body.emit setting right) ∧
          ∃ lines warnings,
            left.Extended lines warnings (EStateM.final (body.emit setting left)) ∧
              right.Extended lines warnings (EStateM.final (body.emit setting right))) ∧
    ∀ program : Program,
      (∀ final, emitProgram setting program {} = .ok () final →
        ∀ body ∈ program.bodies, body.Written setting final.page) ∧
      ((∀ body ∈ program.bodies, body.StandsAlone setting) → ∀ diagnostic,
        ((program.toPhp setting).1 = .error diagnostic ↔
          (program.withoutBodies.toPhp setting).1 = .error diagnostic)) := by
  constructor
  · intro body level left right leftLevel rightLevel
    rw [body.emit_eq_alone setting leftLevel, body.emit_eq_alone setting rightLevel,
      Emission.outcome_ending, Emission.outcome_ending, Emission.final_ending,
      Emission.final_ending]
    exact ⟨rfl, _, _, Emitter.extended_followedBy left _,
      Emitter.extended_followedBy right _⟩
  · intro program
    refine ⟨fun final ended => ?_, toPhp_eq_error_iff⟩
    exact (emitProgram_carries program [] {} () final ended ⟨.empty, by simp⟩).2

/-- Two functions with one variable each, which have the same name. -/
def neighbours : Program where
  entries := [
    .functionDefinition {
      name := "f", parameters := [⟨"x", none, false⟩], docblock := none
      location := .unknown
      statements := [.echo .unknown [.atom .unknown (.variable "x")]] },
    .functionDefinition {
      name := "g", parameters := [], docblock := none, location := .unknown
      statements := [.declare .unknown [⟨"x", some (.atom .unknown .emptyArray)⟩]] }]

/-- The variable is known to the first emitter, and still it is missing in the
function. -/
theorem bodies_isolated_of_neighbours :
    let knowing : Emitter :=
      { scope := Scope.ofNames .unknown ["x"], page := { lines := [.code 0 "<?php"] } }
    let run := (Body.function borrowing).emit {}
    EStateM.outcome (run {}) = .error (.undeclaredVariable "x" .unknown) ∧
      EStateM.outcome (run knowing) = .error (.undeclaredVariable "x" .unknown) ∧
      (EStateM.final (run knowing)).scope = knowing.scope ∧
      (∀ body ∈ neighbours.bodies, body.StandsAlone {}) ∧
      ∀ diagnostic, (neighbours.toPhp {}).1 = .error diagnostic ↔
        (neighbours.withoutBodies.toPhp {}).1 = .error diagnostic := by
  intro knowing run
  have refused : EStateM.outcome (run {}) = .error (.undeclaredVariable "x" .unknown) :=
    rfl
  rcases bodies_isolated {} with ⟨bodies, programs⟩
  rcases bodies (.function borrowing) 0 knowing {} ⟨rfl, rfl⟩ ⟨rfl, rfl⟩ with
    ⟨same, lines, warnings, extended, _⟩
  have emitted : emitProgram {} neighbours {} =
      .ok () (EStateM.final (emitProgram {} neighbours {})) := rfl
  have alone : ∀ body ∈ neighbours.bodies, body.StandsAlone {} := by
    intro body member
    rcases (programs neighbours).1 _ emitted body member with ⟨lines, alone, _⟩
    exact ⟨lines, alone⟩
  exact ⟨refused, same.trans refused, extended.scope, alone,
    (programs neighbours).2 alone⟩

end ZephirPhp
