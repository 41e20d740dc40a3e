import Mathlib.Data.List.Induction
import ZephirPhp.Proofs.Emission.Layouts
import ZephirPhp.Proofs.Program.Processing

/-! # Emission of accessors

The methods that shortcuts ask for can always be emitted, and what they leave behind is on
the page only. What is written after them depends on the page in no way that decides about
a fault, so a program has the faults and the warnings that it has without them.
-/

namespace ZephirPhp

variable {α β : Type}

open Text (isVisible isVisibleCharacter)

/-! ## Pages that may differ -/

namespace Page

/-- Something is written on the page. -/
def Marked (page : Page) : Prop :=
  page.ofKind isVisibleCharacter ≠ []

variable {page : Page}

theorem noBlank (character : Char) (blank : Text.isBlank character = true) :
    isVisibleCharacter character = false :=
  Text.isVisibleCharacter_of_isBlank blank

theorem Marked.line (marked : page.Marked) (text : String) : (page.line text).Marked := by
  rw [Marked, ofKind_line noBlank]
  exact List.append_ne_nil_of_left_ne_nil marked _

theorem Marked.openBlock (marked : page.Marked) (header : String)
    (braceOnNewLine : Bool) :
    (page.openBlock header braceOnNewLine).Marked := by
  rw [Marked, ofKind_openBlock noBlank]
  exact List.append_ne_nil_of_left_ne_nil marked _

theorem Marked.flush (marked : page.Marked) : page.flush.Marked := by
  rwa [Marked, ofKind_flush noBlank]

theorem Marked.blankLine (marked : page.Marked) : page.blankLine.Marked := by
  rwa [Marked, ofKind_blankLine noBlank]

theorem Marked.unindent (marked : page.Marked) : page.unindent.Marked :=
  marked

theorem Marked.closeBlock (marked : page.Marked) (suffix : String) :
    (page.closeBlock suffix).Marked := by
  rw [Page.closeBlock]
  exact marked.flush.unindent.line _

end Page

/-- For faults and warnings it is enough to know of a text whether it is visible, and of
two pages that something is written on them. -/
theorem likeness_marked (first second : Layout) :
    Likeness first second (fun left right => isVisible left = isVisible right)
      fun page other => page.Marked ∧ other.Marked where
  refl _ := rfl
  append start rest := by rw [Text.isVisible_append, Text.isVisible_append, start, rest]
  visible alike := alike
  line start _ := ⟨start.1.line _, start.2.line _⟩
  flush start := ⟨start.1.flush, start.2.flush⟩
  indent start := start
  unindent start := start
  blankLine start := ⟨start.1.blankLine, start.2.blankLine⟩
  openBody start _ := ⟨start.1.openBlock _ _, start.2.openBlock _ _⟩
  begin {front _ _} visible _ _ := by
    have marked (rest : String) : (Page.empty.line (front ++ rest)).Marked := by
      rw [Page.Marked, Page.ofKind_line Page.noBlank, Text.ofKind_append]
      exact List.append_ne_nil_of_right_ne_nil _
        (List.append_ne_nil_of_left_ne_nil ((Text.isVisible_iff _).mp visible) _)
    exact ⟨marked _, marked _⟩
  content alike := by
    have visible {page : Page} {layout : Layout} (marked : page.Marked) :
        isVisible (page.content layout) = true := by
      rwa [Text.isVisible_iff, Page.ofKind_content Page.noBlank]
    rw [visible alike.1, visible alike.2]

/-! ## Accessors -/

namespace Emission

/-- From the given scope the emission succeeds. It warns of nothing and keeps what is on
the page. -/
def WritesIn (scope : Scope) (emission : Emission Unit) : Prop :=
  ∀ emitter : Emitter, emitter.scope = scope → ∃ final : Emitter,
    emission emitter = .ok () final ∧ final.warnings = emitter.warnings ∧
      (emitter.page.Marked → final.page.Marked)

/-- The emission succeeds and changes nothing but the page, from which nothing
vanishes. -/
def Writes (emission : Emission Unit) : Prop :=
  ∀ emitter : Emitter, ∃ page : Page, emission emitter = .ok () { emitter with page } ∧
    (emitter.page.Marked → page.Marked)

theorem Writes.onPage {change : Page → Page}
    (keeps : ∀ page, page.Marked → (change page).Marked) :
    Writes (Emission.onPage change) :=
  fun emitter => ⟨change emitter.page, rfl, keeps emitter.page⟩

theorem Writes.bind {first next : Emission Unit} (start : Writes first)
    (rest : Writes next) :
    Writes (do
      first
      next) := by
  intro emitter
  rcases start emitter with ⟨middle, started, startMarked⟩
  rcases rest { emitter with page := middle } with ⟨page, continued, restMarked⟩
  refine ⟨page, ?_, fun marked => restMarked (startMarked marked)⟩
  rw [EStateM.bind_apply, started]
  exact continued

end Emission

section

variable (setting : Setting)

/-- A parameter without a default is rendered as it stands. -/
theorem renderParameters_of_plain {parameters : List Parameter}
    (plain : ∀ parameter ∈ parameters, parameter.default = none) :
    ∃ codes, renderParameters setting parameters = pure codes := by
  induction parameters with
  | nil => exact ⟨[], rfl⟩
  | cons parameter rest induction =>
      rw [List.forall_mem_cons] at plain
      rcases induction plain.2 with ⟨codes, rendered⟩
      rcases parameter with ⟨name, default, byReference⟩
      cases plain.1
      exact ⟨parameterCode byReference name none ::
        codes, by rw [renderParameters, rendered]; rfl⟩

/-- A body is written if its one statement is. -/
theorem emitBody_singleton_writes {head : String} {statement : Stmt} {scope : Scope}
    (written : Emission.WritesIn scope (emitStmt setting statement)) :
    Emission.WritesIn scope (emitBody setting head [statement]) := by
  intro emitter same
  rcases written { emitter with
      page := emitter.page.openBlock head setting.layout.braceOnNewLine } same with
    ⟨final, ended, warnings, marked⟩
  refine ⟨{ final with page := final.page.closeBlock "" }, ?_, warnings,
    fun start => (marked (start.openBlock _ _)).closeBlock _⟩
  rw [emitBody, emitBlock, emitBlock, bind_pure]
  simp only [EStateM.bind_apply, Emission.onPage, EStateM.modify_apply, ended]

/-- An accessor is written if its statement is. -/
theorem emitMethod_accessor_writes {shortcut : Shortcut} {name : String}
    {parameters : List Parameter} {statement : Stmt}
    (plain : ∀ parameter ∈ parameters, parameter.default = none)
    (written : Emission.WritesIn (accessor shortcut name parameters statement).scope
      (emitStmt setting statement)) :
    Emission.Writes (emitMethod setting false
      (accessor shortcut name parameters statement)) := by
  intro emitter
  rcases renderParameters_of_plain setting plain with ⟨codes, rendered⟩
  have emitted : emitMethod setting false (accessor shortcut name parameters statement) =
      Emission.withScope (accessor shortcut name parameters statement).scope
        (emitBody setting ((accessor shortcut name parameters statement).head false codes)
          [statement]) := by
    have sameParameters : (accessor shortcut name parameters statement).parameters =
        parameters :=
      rfl
    rw [emitMethod, sameParameters, rendered]
    rfl
  rcases emitBody_singleton_writes setting written { emitter with
      scope := (accessor shortcut name parameters statement).scope } rfl with
    ⟨final, ended, warnings, marked⟩
  refine ⟨final.page, ?_, marked⟩
  rw [emitted, Emission.withScope, ended]
  simp only [warnings]

theorem emitStmt_read_writes (property : Property) (location : Location) (scope : Scope) :
    Emission.WritesIn scope
      (emitStmt setting (.returnValue location (some (property.read location)))) := by
  intro emitter _
  exact ⟨_, rfl, rfl, fun marked => marked.line _⟩

/-- An assignment without steps into an array is written once its variable is found and
its two sides have code. -/
theorem emitStmt_assign_writes {form : AssignmentForm}
    {operator : Option AssignmentOperator} {target : String} {property : Option String}
    {value : Option Expr} {location place : Location} {code : CompiledAssignment}
    {emitter bound : Emitter}
    (found : Emission.bind form.binding target place emitter = .ok () bound)
    (sides : compileSides setting form operator target property value place [] =
      pure code) :
    emitStmt setting (.assign location
      [⟨form, operator, target, property, [], value, place⟩])
        emitter = .ok () { bound with page := bound.page.line code.code } := by
  have compiled : compileAssignment setting
      ⟨form, operator, target, property, [], value, place⟩ emitter = .ok code bound := by
    rw [compileAssignment_sides, ite_self, renderExprs, pure_bind, sides,
      EStateM.bind_apply, found]
    rfl
  rw [emitStmt, compileAssignments, compileAssignments]
  simp only [EStateM.bind_apply, compiled]
  rfl

theorem emitStmt_write_writes (property : Property) (location : Location)
    (parameter : String) :
    Emission.WritesIn (Scope.ofNames location ["this", parameter])
      (emitStmt setting (property.write location parameter)) := by
  intro emitter same
  have binds : emitter.scope.Binds ["this", parameter] :=
    same ▸ Scope.ofNames_binds location _
  rcases binds.update List.mem_cons_self location with ⟨changed, updated, _⟩
  have found : Emission.bind .update "this" location emitter =
      .ok () { emitter with scope := changed } := by
    simp only [Emission.bind, EStateM.bind_apply, EStateM.get_apply, updated]
    rfl
  have shown : (Text.trim ("$" ++ parameter)).isEmpty = false := by
    rw [Text.isEmpty_trim, Text.isVisible_left rfl]
    rfl
  have sides : ∃ code, compileSides setting .objectProperty (some .assign) "this"
      (some property.name) (some (.atom location (.variable parameter))) location [] =
      pure code := by
    simp only [compileSides, renderExpr, pure_bind, Atom.code, Expr.compiled, shown,
      Bool.and_false]
    exact ⟨_, rfl⟩
  rcases sides with ⟨code, sides⟩
  exact ⟨_, emitStmt_assign_writes setting found sides, rfl, fun marked => marked.line _⟩

/-- Every accessor can be emitted, wherever it stands. -/
theorem Method.IsAccessor.writes {method : Method} (isAccessor : method.IsAccessor) :
    Emission.Writes (emitMethod setting false method) := by
  rcases isAccessor with ⟨property, shortcut, found⟩
  rw [Property.accessor?] at found
  split at found
  · cases found
    exact emitMethod_accessor_writes setting (by simp)
      (emitStmt_read_writes setting property _ _)
  · cases found
    exact emitMethod_accessor_writes setting (by simp)
      (emitStmt_read_writes setting property _ _)
  · cases found
    exact emitMethod_accessor_writes setting (by simp)
      (emitStmt_write_writes setting property _ _)
  · cases found

end

/-! ## Programs with accessors -/

/-- Two emitters that differ in what is written on their pages. -/
abbrev Emitter.Beside : Emitter → Emitter → Prop :=
  Emitter.Alike fun page other => page.Marked ∧ other.Marked

namespace Emission.Writes

variable {values : α → β → Prop} {more : Emission Unit} {left : Emission α}
  {right : Emission β}

/-- What only writes may go first on one side. -/
theorem first_left (writes : Writes more)
    (rest : EStateM.Coupled values Emitter.Beside left right) :
    EStateM.Coupled values Emitter.Beside
      (do
        more
        left) right := by
  intro emitter other beside
  rcases writes emitter with ⟨page, done, marked⟩
  rw [EStateM.bind_apply, done]
  exact rest _ _ ⟨beside.scope, beside.warnings, marked beside.page.1, beside.page.2⟩

theorem first_right (writes : Writes more)
    (rest : EStateM.Coupled values Emitter.Beside left right) :
    EStateM.Coupled values Emitter.Beside left
      (do
        more
        right) := by
  intro emitter other beside
  rcases writes other with ⟨page, done, marked⟩
  rw [EStateM.bind_apply, done]
  exact rest _ _ ⟨beside.scope, beside.warnings, beside.page.1, marked beside.page.2⟩

/-- What only writes may go last on one side. -/
theorem last_right {first second : Emission Unit} (writes : Writes more)
    (start : EStateM.Coupled Eq Emitter.Beside first second) :
    EStateM.Coupled Eq Emitter.Beside first
      (do
        second
        more) := by
  intro emitter other beside
  have ended := start emitter other beside
  rw [EStateM.bind_apply]
  generalize first emitter = run at ended ⊢
  generalize second other = otherRun at ended ⊢
  cases ended with
  | error after => exact .error after
  | ok value after =>
      rename_i final
      rcases writes final with ⟨page, done, marked⟩
      change EStateM.EndAlike Eq Emitter.Beside _ (more final)
      rw [done]
      exact .ok rfl ⟨after.scope, after.warnings, after.page.1, marked after.page.2⟩

theorem blankLine : Writes (Emission.onPage (·.blankLine)) :=
  .onPage fun _ marked => marked.blankLine

/-- A blank line may be left out on either side. -/
theorem optional {condition other : Bool} {next : Unit → Emission α}
    {otherNext : Unit → Emission β}
    (rest : EStateM.Coupled values Emitter.Beside (next ()) (otherNext ())) :
    EStateM.Coupled values Emitter.Beside
      (if condition then Emission.onPage (·.blankLine) >>= next else next ())
      (if other then Emission.onPage (·.blankLine) >>= otherNext else otherNext ()) := by
  cases condition <;> cases other
  · exact rest
  · exact blankLine.first_right rest
  · exact blankLine.first_left rest
  · exact blankLine.first_left (blankLine.first_right rest)

end Emission.Writes

section

variable (setting : Setting)

theorem emitMethods_cons_cons (inInterface : Bool) (first second : Method)
    (rest : List Method) :
    emitMethods setting inInterface (first :: second :: rest) = (do
      emitMethod setting inInterface first
      Emission.onPage (·.blankLine)
      emitMethods setting inInterface (second :: rest)) := rfl

theorem emitMethods_concat (inInterface : Bool) (first : Method) (rest : List Method)
    (last : Method) :
    emitMethods setting inInterface (first :: rest ++ [last]) = (do
      emitMethods setting inInterface (first :: rest)
      Emission.onPage (·.blankLine)
      emitMethod setting inInterface last) := by
  induction rest generalizing first with
  | nil => rfl
  | cons second others induction =>
      rw [List.cons_append, List.cons_append, emitMethods_cons_cons, ← List.cons_append,
        induction second, emitMethods_cons_cons]
      simp only [bind_assoc]

theorem emitMethods_beside (methods : List Method) {added : List Method}
    (accessors : ∀ method ∈ added, method.IsAccessor) :
    EStateM.Coupled Eq Emitter.Beside (emitMethods setting false methods)
      (emitMethods setting false (methods ++ added)) := by
  -- The accessors come last, so the last one of them is taken off first.
  induction added using List.reverseRecOn with
  | nil =>
      rw [List.append_nil]
      exact emitMethods_alike (likeness_marked _ _) rfl false methods
  | append_singleton earlier last induction =>
      rw [List.forall_mem_append, List.forall_mem_singleton] at accessors
      have start := induction accessors.1
      have writes := accessors.2.writes setting
      rw [← List.append_assoc]
      cases all : methods ++ earlier with
      | nil =>
          rw [all] at start
          exact writes.last_right start
      | cons first rest =>
          rw [all] at start
          rw [emitMethods_concat]
          exact (Emission.Writes.blankLine.bind writes).last_right start

/-- The blank lines between groups of members may differ, since there are more methods. -/
theorem emitMembers_beside (constants : List Constant) (properties : List Property)
    (methods : List Method) {added : List Method}
    (accessors : ∀ method ∈ added, method.IsAccessor) :
    EStateM.Coupled Eq Emitter.Beside
      (emitMembers setting false constants properties methods)
      (emitMembers setting false constants
        (properties.map fun property => { property with shortcuts := [] })
          (methods ++ added)) := by
  have likeness := likeness_marked setting.layout setting.layout
  have emitted : EStateM.Coupled Eq Emitter.Beside
      (properties.forM (emitProperty setting))
      ((properties.map
        fun property => ({ property with shortcuts := [] } : Property)).forM
        (emitProperty setting)) := by
    induction properties with
    | nil => exact .pure rfl
    | cons property rest induction =>
        exact (emitProperty_alike likeness rfl property).bind fun _ _ _ => induction
  refine .bind (Emission.forM_alike fun constant _ =>
    emitConstant_alike likeness rfl constant) fun _ _ _ => ?_
  refine Emission.Writes.optional ?_
  refine emitted.bind fun _ _ _ => ?_
  exact Emission.Writes.optional (emitMethods_beside setting methods accessors)

theorem emitClass_beside {definition expanded : ClassDefinition}
    (expansion : definition.expandShortcuts = .ok expanded) :
    EStateM.Coupled Eq Emitter.Beside (emitClass setting definition)
      (emitClass setting expanded) := by
  have likeness := likeness_marked setting.layout setting.layout
  rcases (Except.bind_eq_ok_iff _ _ _).mp expansion with ⟨methods, extension, same⟩
  cases same
  rcases addAccessors_appends _ _ _ extension with ⟨added, rfl, accessors⟩
  refine .bind (likeness.emitDocblock definition.docblock) fun _ _ _ => ?_
  exact body_alike likeness (likeness.refl _)
    (emitMembers_beside setting definition.constants definition.properties
      definition.methods
      accessors)

theorem emitEntry_beside {entry expanded : Entry}
    (expansion : entry.expandShortcuts = .ok expanded) :
    EStateM.Coupled Eq Emitter.Beside (emitEntry setting entry)
      (emitEntry setting expanded) := by
  have likeness := likeness_marked setting.layout setting.layout
  cases entry with
  | classDefinition definition =>
      rcases (Except.bind_eq_ok_iff _ _ _).mp expansion with ⟨changed, change, same⟩
      cases same
      exact (emitClass_beside setting change).bind fun _ _ _ => likeness.emitBlankLine
  | _ =>
      cases expansion
      exact emitEntry_alike likeness rfl _

theorem forM_emitEntry_beside {entries expanded : List Entry}
    (expansions : entries.mapM Entry.expandShortcuts = .ok expanded) :
    EStateM.Coupled Eq Emitter.Beside (entries.forM (emitEntry setting))
      (expanded.forM (emitEntry setting)) := by
  induction entries generalizing expanded with
  | nil =>
      cases expansions
      exact .pure rfl
  | cons entry rest induction =>
      rw [List.mapM_cons, Except.bind_eq_ok_iff] at expansions
      rcases expansions with ⟨first, expansion, remaining⟩
      rcases (Except.bind_eq_ok_iff _ _ _).mp remaining with ⟨others, later, same⟩
      cases same
      exact (emitEntry_beside setting expansion).bind fun _ _ _ => induction later

theorem emitProgram_beside {program expanded : Program}
    (expansion : program.inlineShortcuts = .ok expanded) :
    EStateM.EndAlike Eq Emitter.Beside (emitProgram setting program {})
      (emitProgram setting expanded {}) := by
  rcases (Except.bind_eq_ok_iff _ _ _).mp expansion with ⟨entries, expansions, same⟩
  cases same
  exact emitProgram_alike (likeness_marked setting.layout setting.layout)
    (forM_emitEntry_beside setting expansions)

end

/-- Expanding shortcuts does not change whether a program becomes PHP, nor the fault if it
does not, nor the warnings. -/
theorem inlineShortcuts_keeps_outcome (setting : Setting) {program expanded : Program}
    (expansion : Phase.inlineShortcuts.run program = .ok expanded) :
    ((∃ php, (expanded.toPhp setting).1 = .ok php) ↔
      ∃ php, (program.toPhp setting).1 = .ok php) ∧
      (∀ diagnostic, (expanded.toPhp setting).1 = .error diagnostic ↔
        (program.toPhp setting).1 = .error diagnostic) ∧
      (expanded.toPhp setting).2 = (program.toPhp setting).2 := by
  have ended := emitProgram_beside setting expansion
  rw [Program.toPhp, Program.toPhp]
  generalize emitProgram setting program {} = run at ended ⊢
  generalize emitProgram setting expanded {} = otherRun at ended ⊢
  cases ended with
  | ok value after => simp [after.warnings]
  | error after => simp [after.warnings]

/-- A class with a property that can be read and written, before a function with a
fault. -/
def exposed : Program where
  entries := [
    .classDefinition {
      name := "C", isAbstract := false, isFinal := false, parent := none, interfaces := []
      docblock := none, constants := [], methods := [], location := .unknown
      properties :=
        [⟨[], "p", none, [⟨"get", .unknown⟩, ⟨"set", .unknown⟩], none, .unknown⟩] },
    .functionDefinition borrowing]

def exposedMethods : Program where
  entries := [
    .classDefinition {
      name := "C", isAbstract := false, isFinal := false, parent := none, interfaces := []
      docblock := none, constants := [], location := .unknown
      properties := [⟨[], "p", none, [], none, .unknown⟩]
      methods := [
        ⟨["public"], "getP", [], some [.returnValue .unknown
          (some (.property .unknown (.atom .unknown (.variable "this")) "p"))],
            none, .unknown⟩,
        ⟨["public"], "setP", [⟨"__p_p__", none, false⟩], some [.assign .unknown
          [⟨.objectProperty, some .assign, "this", some "p", [],
            some (.atom .unknown (.variable "__p_p__")), .unknown⟩]], none, .unknown⟩] },
    .functionDefinition borrowing]

/-- The fault is the one of the function, with the methods before it and without them. -/
theorem inlineShortcuts_keeps_outcome_of_exposed :
    Phase.inlineShortcuts.run exposed = .ok exposedMethods ∧
      (exposed.toPhp {}).1 = .error (.undeclaredVariable "x" .unknown) ∧
      (exposedMethods.toPhp {}).1 = .error (.undeclaredVariable "x" .unknown) := by
  have expansion : Phase.inlineShortcuts.run exposed = .ok exposedMethods := rfl
  have refused : (exposed.toPhp {}).1 = .error (.undeclaredVariable "x" .unknown) := rfl
  exact ⟨expansion, refused,
    ((inlineShortcuts_keeps_outcome {} expansion).2.1 _).mpr refused⟩

end ZephirPhp
