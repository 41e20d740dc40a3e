import ZephirPhp.Emission.Definition
import ZephirPhp.Proofs.Emission.Locality

/-! # What an emission does to the page

`Emission.Leads` says of an emission that succeeds what its result and its page are like,
given what its page was like at the start. There is one rule for each way in which
emissions are put together, so a property of pages is followed through the emission of a
program by saying what it means for a line and for a block.
-/

namespace ZephirPhp

variable {α β : Type}

namespace Emission

namespace Yields

variable {kind : α → Prop} {laterKind : β → Prop}

theorem bind_pure {first : Emission α} {change : α → β} (start : Yields kind first)
    (holds : ∀ value, kind value → laterKind (change value)) :
    Yields laterKind (first >>= fun value => Pure.pure (change value)) :=
  start.bind fun value known => .pure (holds value known)

/-- What holds of a result holds of what the result is made of. -/
theorem of_bind_pure {first : Emission α} {change : α → β}
    (yields : Yields laterKind (first >>= fun value => Pure.pure (change value))) :
    Yields (fun value => laterKind (change value)) first := by
  intro emitter value final ended
  apply yields emitter (change value) final
  rw [EStateM.bind_apply, ended]
  rfl

theorem map {first : Emission α} {change : α → β} (start : Yields kind first)
    (holds : ∀ value, kind value → laterKind (change value)) :
    Yields laterKind (change <$> first) := by
  rw [map_eq_pure_bind]
  exact start.bind_pure holds

theorem and {other : α → Prop} {emission : Emission α} (left : Yields kind emission)
    (right : Yields other emission) :
    Yields (fun value => kind value ∧ other value) emission :=
  fun emitter value final ended =>
    ⟨left emitter value final ended, right emitter value final ended⟩

theorem imp {other : α → Prop} {emission : Emission α} (yields : Yields kind emission)
    (implies : ∀ value, kind value → other value) : Yields other emission :=
  fun emitter value final ended => implies value (yields emitter value final ended)

theorem ofExcept {result : Except Diagnostic α} (ensures : Except.Ensures kind result) :
    Yields kind (Emission.ofExcept result) := by
  intro emitter value final ended
  cases result with
  | error diagnostic => cases ended
  | ok found =>
      cases ended
      exact ensures value rfl

end Yields

/-- From a page that satisfies `before`, success leads to a result and a page that satisfy
`after`. -/
def Leads (before : Page → Prop) (after : α → Page → Prop) (emission : Emission α) :
    Prop :=
  ∀ emitter value final, emission emitter = .ok value final →
    before emitter.page → after value final.page

namespace Leads

variable {before invariant : Page → Prop} {kind : α → Prop}

theorem pure {value : α} {after : α → Page → Prop}
    (holds : ∀ page, before page → after value page) :
    Leads before after (Pure.pure value) := by
  intro emitter found final ended start
  cases ended
  exact holds _ start

theorem bind {middle : α → Page → Prop} {after : β → Page → Prop} {first : Emission α}
    {next : α → Emission β} (start : Leads before middle first)
    (rest : ∀ value, Leads (middle value) after (next value)) :
    Leads before after (first >>= next) := by
  intro emitter result final ended holds
  rcases (EStateM.bind_eq_ok_iff first next emitter final result).mp ended with
    ⟨value, between, started, continued⟩
  exact rest value between result final continued
    (start emitter value between started holds)

/-- The next part may rely on what is known of the result of the first. -/
theorem bind_of {after : β → Page → Prop} {middle : Page → Prop} {first : Emission α}
    {next : α → Emission β}
    (start : Leads before (fun value page => kind value ∧ middle page) first)
    (rest : ∀ value, kind value → Leads middle after (next value)) :
    Leads before after (first >>= next) :=
  start.bind fun value emitter result final ended holds =>
    rest value holds.1 emitter result final ended holds.2

/-- An emission that leaves the page alone. -/
theorem ofDetached {emission : Emission α} (detached : Detached emission)
    (yields : Yields kind emission) :
    Leads invariant (fun value page => kind value ∧ invariant page) emission := by
  intro emitter value final ended holds
  refine ⟨yields emitter value final ended, ?_⟩
  rcases detached with ⟨answer, settled⟩
  rw [settled, Answer.emission] at ended
  split at ended
  · cases ended
    exact holds
  · cases ended

theorem onPage {change : Page → Page} {after : Page → Prop}
    (changes : ∀ page, before page → after (change page)) :
    Leads before (fun _ => after) (Emission.onPage change) := by
  intro emitter value final ended start
  cases ended
  exact changes _ start

theorem onScope (change : Scope → Scope) :
    Leads invariant (fun _ => invariant) (Emission.onScope change) := by
  intro emitter value final ended start
  cases ended
  exact start

/-- Looking up the variable of an assignment writes nothing. -/
theorem bindTarget (binding : Binding) (name : String) (location : Location) :
    Leads invariant (fun _ => invariant) (Emission.bind binding name location) := by
  cases binding with
  | none => exact pure fun _ holds => holds
  | write => exact onScope _
  | update =>
      intro emitter value final ended start
      rw [Emission.bind, EStateM.bind_apply, EStateM.get_apply] at ended
      cases updated : emitter.scope.update name location with
      | error diagnostic => simp [updated, Emission.ofExcept, EStateM.bind_apply] at ended
      | ok scope =>
          simp only [updated, Emission.ofExcept, pure_bind] at ended
          cases ended
          exact start

theorem withScope {after : α → Page → Prop} {scope : Scope} {emission : Emission α}
    (inside : Leads before after emission) :
    Leads before after (Emission.withScope scope emission) := by
  intro emitter value final ended start
  rw [Emission.withScope] at ended
  cases equal : emission { emitter with scope } with
  | ok found last =>
      rw [equal] at ended
      cases ended
      exact inside _ value last equal start
  | error diagnostic last =>
      rw [equal] at ended
      cases ended

/-- What is written on a page of its own, which is empty at first. -/
theorem onOwnPage {after : Page → Prop} {emission : Emission Unit}
    (writes : Leads (· = .empty) (fun _ => after) emission) :
    Yields after (Emission.onOwnPage emission) := by
  intro emitter page final ended
  rw [Emission.onOwnPage] at ended
  cases equal : emission { emitter with page := .empty } with
  | ok value last =>
      rw [equal] at ended
      cases ended
      exact writes _ () last equal rfl
  | error diagnostic last =>
      rw [equal] at ended
      cases ended

theorem forM {values : List α} {act : α → Emission Unit}
    (each : ∀ value ∈ values, Leads invariant (fun _ => invariant) (act value)) :
    Leads invariant (fun _ => invariant) (values.forM act) := by
  induction values with
  | nil => exact pure fun _ holds => holds
  | cons value rest induction =>
      have others := induction fun later member =>
        each later (List.mem_cons_of_mem value member)
      exact (each value List.mem_cons_self).bind fun _ => others

/-- The text of a file is that of a page to which the emission of the program leads. -/
theorem toPhp {setting : Setting} {program : Program} {php : String}
    {before after : Page → Prop}
    (leads : Leads before (fun _ => after) (emitProgram setting program))
    (start : before .empty) (written : (program.toPhp setting).1 = .ok php) :
    ∃ page : Page, after page ∧ page.finish setting.layout = php := by
  rw [Program.toPhp] at written
  cases ended : emitProgram setting program {} with
  | error diagnostic final =>
      rw [ended] at written
      cases written
  | ok value final =>
      rw [ended] at written
      exact ⟨final.page, leads {} value final ended start, Except.ok.inj written⟩

end Leads

/-- An emission that writes nothing: whatever is true of the page stays true. -/
def Quiet (emission : Emission α) : Prop :=
  ∀ invariant, Leads invariant (fun _ => invariant) emission

namespace Quiet

theorem pure (value : α) : Quiet (Pure.pure value) :=
  fun _ => Leads.pure fun _ holds => holds

theorem bind {first : Emission α} {next : α → Emission β} (start : Quiet first)
    (rest : ∀ value, Quiet (next value)) : Quiet (first >>= next) :=
  fun invariant => (start invariant).bind fun value => rest value invariant

theorem ofDetached {emission : Emission α} (detached : Detached emission) :
    Quiet emission :=
  fun _ emitter value final ended holds =>
    (Leads.ofDetached detached (.any emission) emitter value final ended holds).2

theorem onScope (change : Scope → Scope) : Quiet (Emission.onScope change) :=
  fun _ => Leads.onScope change

theorem bindTarget (binding : Binding) (name : String) (location : Location) :
    Quiet (Emission.bind binding name location) :=
  fun _ => Leads.bindTarget binding name location

/-- What is known of the result of a quiet emission is known beside what is true of the
page. -/
theorem yields {kind : α → Prop} {invariant : Page → Prop} {emission : Emission α}
    (quiet : Quiet emission) (yields : Yields kind emission) :
    Leads invariant (fun value page => kind value ∧ invariant page) emission :=
  fun emitter value final ended holds =>
    ⟨yields emitter value final ended, quiet invariant emitter value final ended holds⟩

end Quiet

end Emission

/-! ## What is rendered before it is written -/

theorem PseudoMethod.resolve_yields (receiver : Receiver) (name : String)
    (location : Location) :
    Emission.Yields (fun found => find? receiver name = some found)
      (Emission.ofExcept (resolve receiver name location)) := by
  apply Emission.Yields.ofExcept
  intro found done
  rw [resolve] at done
  split at done
  next listed located =>
    cases done
    exact located
  next => cases done

theorem declareOptional_quiet (name : Option String) (location : Location) :
    Emission.Quiet (declareOptional name location) := by
  cases name with
  | none => exact .pure ()
  | some name => exact .onScope _

section

variable (setting : Setting)

theorem renderCondition_quiet (condition : Expr) :
    Emission.Quiet (renderCondition setting condition) := by
  cases condition with
  | fetch location target source =>
      apply (Emission.Quiet.ofDetached (renderExpr_detached setting source)).bind
      intro code
      exact (Emission.Quiet.bindTarget .write target location).bind fun _ => .pure _
  | _ =>
      exact (Emission.Quiet.ofDetached (renderExpr_detached setting _)).bind
        fun code => .pure _

theorem compileAssignment_quiet (assignment : Assignment) :
    Emission.Quiet (compileAssignment setting assignment) := by
  rcases assignment with ⟨form, operator, target, property, index, value, location⟩
  rw [compileAssignment_sides]
  apply (Emission.Quiet.bindTarget form.binding target location).bind
  intro _
  apply (Emission.Quiet.ofDetached (renderExprs_detached setting _)).bind
  intro steps
  apply Emission.Quiet.ofDetached
  exact compileSides_detached fun expression _ => renderExpr_detached setting expression

theorem compileAssignments_quiet (assignments : List Assignment) :
    Emission.Quiet (compileAssignments setting assignments) := by
  induction assignments with
  | nil => exact .pure _
  | cons assignment rest induction =>
      apply (compileAssignment_quiet setting assignment).bind
      intro compiled
      exact induction.bind fun others => .pure _

end

end ZephirPhp
