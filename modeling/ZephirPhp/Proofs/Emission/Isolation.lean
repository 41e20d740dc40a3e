import ZephirPhp.Proofs.Emission.Levels
import ZephirPhp.Proofs.Emission.Showing
import ZephirPhp.Proofs.Runs

/-! # Bodies apart from each other

A method or a function is written in a scope of its own. It does not see the scope around
it, which comes back afterwards, and it only adds lines to those that are there. So it has
one outcome, the one that it has alone. A program has the faults that it has without its
bodies, and those that its bodies have alone.
-/

namespace ZephirPhp

variable {α β : Type}

/-! ## Emissions that do not see the scope -/

namespace Emission

theorem outcome_ending (change : Emitter → Emitter)
    (run : EStateM.Result Diagnostic Emitter α) :
    EStateM.outcome (ending change run) = EStateM.outcome run := by
  cases run <;> rfl

theorem final_ending (change : Emitter → Emitter)
    (run : EStateM.Result Diagnostic Emitter α) :
    EStateM.final (ending change run) = change (EStateM.final run) := by
  cases run <;> rfl

/-- An emission that does the same in every scope and leaves the scope alone. -/
def Blind (emission : Emission α) : Prop :=
  ∀ scope emitter, emission { emitter with scope } =
    ending (fun final => { final with scope }) (emission emitter)

namespace Blind

theorem bind {first : Emission α} {next : α → Emission β} (start : Blind first)
    (rest : ∀ value, Blind (next value)) : Blind (first >>= next) := by
  intro scope emitter
  rw [EStateM.bind_apply, EStateM.bind_apply, start]
  cases first emitter with
  | error diagnostic final => rfl
  | ok value final => exact rest value scope final

theorem onPage (change : Page → Page) : Blind (Emission.onPage change) :=
  fun _ _ => rfl

theorem docblock (text : Option String) : Blind (Emission.docblock text) := by
  cases text with
  | none => exact fun _ _ => rfl
  | some text => exact onPage _

/-- The emission has the given scope, whatever the one around it is. -/
theorem withScope (inner : Scope) (emission : Emission α) :
    Blind (Emission.withScope inner emission) := by
  intro scope emitter
  rw [Emission.withScope, Emission.withScope]
  cases emission { emitter with scope := inner } with
  | error diagnostic final => rfl
  | ok value final => rfl

end Blind

namespace Local

theorem docblock (text : Option String) : Local (Emission.docblock text) := by
  cases text with
  | none => exact pure ()
  | some text => exact comment text

theorem withScope (scope : Scope) {emission : Emission α} (inside : Local emission) :
    Local (Emission.withScope scope emission) := by
  intro lines warnings emitter
  have placed := inside lines warnings { emitter with scope }
  change emission { Emitter.after lines warnings emitter with scope } = _ at placed
  rw [Emission.withScope, Emission.withScope, placed]
  cases emission { emitter with scope } with
  | error diagnostic final => rfl
  | ok value final => rfl

end Local

end Emission

/-! ## Emissions alone -/

namespace Emitter

/-- A new emitter at a level. -/
def atLevel (level : Nat) : Emitter where
  page := { depth := level }

/-- The emitter with the lines and the warnings of another one after its own. -/
def followedBy (emitter other : Emitter) : Emitter where
  scope := emitter.scope
  page := other.page.after emitter.page.lines
  warnings := emitter.warnings ++ other.warnings

/-- The second emitter has the scope of the first, and these lines and warnings more. -/
structure Extended (lines : List Line) (warnings : List Warning)
    (emitter extended : Emitter) :
    Prop where
  scope : extended.scope = emitter.scope
  lines : extended.page.lines = lines ++ emitter.page.lines
  warnings : extended.warnings = emitter.warnings ++ warnings

theorem extended_followedBy (emitter other : Emitter) :
    Extended other.page.lines other.warnings emitter (emitter.followedBy other) :=
  ⟨rfl, rfl, rfl⟩

/-- An emitter at a level differs from a new one in its scope and in what was there
before. -/
theorem after_atLevel {level : Nat} {emitter : Emitter}
    (start : emitter.page.AtLevel level) :
    Emitter.after emitter.page.lines emitter.warnings
      { atLevel level with scope := emitter.scope } = emitter := by
  rcases emitter with ⟨scope, ⟨depth, pending, lines⟩, warnings⟩
  rcases start with ⟨rfl, rfl⟩
  simp [Emitter.after, Page.after, atLevel]

/-- Two emitters at a level, in the same scope. -/
structure Abreast (level : Nat) (emitter other : Emitter) : Prop where
  scope : emitter.scope = other.scope
  left : emitter.page.AtLevel level
  right : other.page.AtLevel level

end Emitter

namespace Emission

/-- The last emitter of an emission that succeeds, or its fault. -/
def ended : EStateM.Result Diagnostic Emitter Unit → Except Diagnostic Emitter
  | .ok _ final => .ok final
  | .error diagnostic _ => .error diagnostic

theorem ended_eq_ok_iff (run : EStateM.Result Diagnostic Emitter Unit) (final : Emitter) :
    ended run = .ok final ↔ run = .ok () final := by
  cases run <;> simp [ended]

theorem ended_ending (change : Emitter → Emitter)
    (run : EStateM.Result Diagnostic Emitter Unit) :
    ended (ending change run) = change <$> ended run := by
  cases run <;> rfl

theorem ended_bind (first next : Emission Unit) (emitter : Emitter) :
    ended ((do first; next) emitter) =
      (ended (first emitter) >>= fun middle => ended (next middle)) := by
  rw [EStateM.bind_apply]
  cases first emitter <;> rfl

/-- At a level there is one run, and what is there already comes before it. -/
theorem Blind.eq_alone {emission : Emission α} (blind : Blind emission)
    (isLocal : Local emission) {level : Nat} {emitter : Emitter}
    (start : emitter.page.AtLevel level) :
    emission emitter = ending emitter.followedBy (emission (.atLevel level)) := by
  have placed := isLocal emitter.page.lines emitter.warnings
    { Emitter.atLevel level with scope := emitter.scope }
  rw [Emitter.after_atLevel start, blind emitter.scope (.atLevel level)] at placed
  rw [placed]
  cases emission (.atLevel level) <;> rfl

end Emission

/-! ## Bodies -/

theorem emitBody_local (setting : Setting) (head : String) (statements : List Stmt) :
    Emission.Local (emitBody setting head statements) := by
  apply (Emission.Local.onPage (.openBlock _ _)).bind
  intro _
  apply (emitBlock_local setting statements).bind
  intro _
  exact .onPage (.closeBlock "")

/-- A definition that has a scope of its own. -/
inductive Body where
  | method (inInterface : Bool) (definition : Method)
  | function (definition : FunctionDefinition)

namespace Body

/-- Writes the definition. -/
def emit (setting : Setting) : Body → Emission Unit
  | .method inInterface definition => emitMethod setting inInterface definition
  | .function definition => emitFunction setting definition

/-- The level at which the definition stands in a file. -/
def level : Body → Nat
  | .method _ _ => 1
  | .function _ => 0

/-- The lines of the definition on a page of its own, the last one first. -/
def lines (setting : Setting) (body : Body) : Except Diagnostic (List Line) :=
  (·.page.lines) <$> Emission.ended (body.emit setting (.atLevel body.level))

/-- The definition can be written on a page of its own. -/
def StandsAlone (setting : Setting) (body : Body) : Prop :=
  ∃ lines, body.lines setting = .ok lines

variable (setting : Setting) (body : Body)

theorem emit_blind : Emission.Blind (body.emit setting) := by
  cases body with
  | method inInterface definition =>
      exact (Emission.Blind.docblock _).bind fun _ => .withScope _ _
  | function definition => exact (Emission.Blind.docblock _).bind fun _ => .withScope _ _

theorem emit_local : Emission.Local (body.emit setting) := by
  cases body with
  | method inInterface definition =>
      apply (Emission.Local.docblock definition.docblock).bind
      intro _
      apply Emission.Local.withScope
      apply (renderParameters_detached setting definition.parameters).toLocal.bind
      intro parameters
      dsimp only
      split
      · exact .line _
      · exact emitBody_local setting _ _
  | function definition =>
      apply (Emission.Local.docblock definition.docblock).bind
      intro _
      apply Emission.Local.withScope
      apply (renderParameters_detached setting definition.parameters).toLocal.bind
      intro parameters
      exact emitBody_local setting _ _

theorem emit_shifts (level : Nat) : Emission.Shifts level level (body.emit setting) := by
  cases body with
  | method inInterface definition =>
      exact emitMethod_shifts setting inInterface definition
  | function definition => exact emitFunction_shifts setting definition

theorem emit_eq_alone {level : Nat} {emitter : Emitter}
    (start : emitter.page.AtLevel level) :
    body.emit setting emitter =
      Emission.ending emitter.followedBy (body.emit setting (.atLevel level)) :=
  (body.emit_blind setting).eq_alone (body.emit_local setting) start

/-- The definition alone is on the page, its lines one after the other. -/
def Written (page : Page) : Prop :=
  ∃ lines, body.lines setting = .ok lines ∧ lines <:+: page.lines

variable {setting body}

theorem Written.grow {page grown : Page} (written : body.Written setting page)
    (grows : page.GrowsTo grown) : body.Written setting grown := by
  rcases written with ⟨lines, alone, placed⟩
  rcases grows with ⟨later, added⟩
  rw [Written, added]
  exact ⟨lines, alone, placed.trans (List.infix_append_right ..)⟩

theorem written_of_emit {emitter final : Emitter}
    (start : emitter.page.AtLevel body.level)
    (ended : body.emit setting emitter = .ok () final) :
    body.Written setting final.page := by
  rw [emit_eq_alone setting body start] at ended
  cases alone : body.emit setting (.atLevel body.level) with
  | error diagnostic last =>
      rw [alone] at ended
      cases ended
  | ok value last =>
      rw [alone] at ended
      cases ended
      refine ⟨last.page.lines, ?_, (List.prefix_append _ _).isInfix⟩
      rw [lines, alone]
      rfl

end Body

end ZephirPhp
