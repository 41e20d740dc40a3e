import ZephirPhp.Proofs.Emission.Sites
import ZephirPhp.Proofs.Sequencing

/-! # Emissions with known faults

`Checked` says of an emission which names are bound before and after it and which faults
it can meet, in their order. A checked emission fails with its first fault, and succeeds
if it has none. Checked emissions are put together in the way in which emissions are.
-/

namespace ZephirPhp

/-! ## Scopes and the names in them -/

theorem Dictionary.contains_insert {α : Type} (dictionary : Dictionary α) (key : String)
    (value : α) (name : String) :
    (dictionary.insert key value).contains name = true ↔
      name = key ∨ dictionary.contains name = true := by
  by_cases same : name = key
  · subst same
    simp [contains]
  · simp [contains, get?_insert_of_ne dictionary value same, same]

namespace Scope

/-- The names of a scope are those of a list. -/
def Binds (scope : Scope) (names : List String) : Prop :=
  ∀ name, Dictionary.contains scope name = true ↔ name ∈ names

theorem empty_binds : empty.Binds [] := by
  intro name
  simp [empty, Dictionary.contains, Dictionary.get?]

namespace Binds

variable {scope : Scope} {names : List String}

theorem get?_eq_none (binds : scope.Binds names) {name : String}
    (unbound : name ∉ names) :
    Dictionary.get? scope name = none := by
  have missing := mt (binds name).mp unbound
  simpa [Dictionary.contains] using missing

theorem get?_eq_some (binds : scope.Binds names) {name : String} (bound : name ∈ names) :
    ∃ symbol, Dictionary.get? scope name = some symbol :=
  Option.isSome_iff_exists.mp ((binds name).mpr bound)

theorem insert (binds : scope.Binds names) (name : String) (symbol : Symbol) :
    Binds (Dictionary.insert name symbol scope) (name :: names) := by
  intro other
  rw [Dictionary.contains_insert, List.mem_cons, binds other]

/-- A name that is bound may be listed once more. -/
theorem cons (binds : scope.Binds names) {name : String} (bound : name ∈ names) :
    scope.Binds (name :: names) := by
  intro other
  rw [binds other, List.mem_cons]
  constructor
  · exact .inr
  · rintro (rfl | member)
    · exact bound
    · exact member

theorem declare (binds : scope.Binds names) (name : String) (location : Location) :
    (scope.declare name location).Binds (name :: names) := by
  rw [Scope.declare]
  split
  · rename_i symbol found
    exact binds.cons ((binds name).mp (by simp [Dictionary.contains, found]))
  · exact binds.insert name _

theorem write (binds : scope.Binds names) (name : String) (location : Location) :
    (scope.write name location).Binds (name :: names) := by
  rw [Scope.write]
  split <;> exact binds.insert name _

theorem update (binds : scope.Binds names) {name : String} (bound : name ∈ names)
    (location : Location) :
    ∃ changed, scope.update name location = .ok changed ∧ changed.Binds names := by
  rcases binds.get?_eq_some bound with ⟨symbol, found⟩
  refine ⟨_, by rw [Scope.update, found], fun other => ?_⟩
  rw [binds.insert name _ other, List.mem_cons, or_iff_right_of_imp]
  rintro rfl
  exact bound

theorem update_eq_error (binds : scope.Binds names) {name : String}
    (unbound : name ∉ names) (location : Location) :
    scope.update name location = .error (.undeclaredVariable name location) := by
  rw [Scope.update, binds.get?_eq_none unbound]

theorem declareAll (binds : scope.Binds names) (location : Location)
    (declared : List String) :
    Binds (declared.foldl (fun scope name => scope.declare name location) scope)
      (declared.reverse ++ names) := by
  induction declared generalizing scope names with
  | nil => exact binds
  | cons name rest induction =>
      rw [List.reverse_cons, List.append_assoc]
      exact induction (binds.declare name location)

end Binds

theorem binds_keys (scope : Scope) : scope.Binds (Dictionary.keys scope) := by
  intro name
  induction scope with
  | nil => exact empty_binds name
  | cons entry rest induction =>
      rw [Dictionary.contains] at induction ⊢
      rw [Dictionary.get?, Dictionary.keys, List.map_cons, List.mem_cons]
      split
      · rename_i same
        exact ⟨fun _ => .inl same, fun _ => rfl⟩
      · rename_i different
        exact induction.trans (or_iff_right different).symm

theorem ofNames_binds (location : Location) (names : List String) :
    (ofNames location names).Binds names := by
  intro name
  rw [ofNames, empty_binds.declareAll location names name]
  simp

end Scope

/-! ## Checked emissions -/

variable {α β : Type}

/-- An emission that starts with the names `before` bound fails with the first of some
faults. If there are none, it ends with the names `after` bound. -/
def Checked (before after : List String) (faults : List Diagnostic)
    (emission : Emission α) :
    Prop :=
  ∀ emitter : Emitter, emitter.scope.Binds before →
    match emission emitter with
    | .ok _ final => faults = [] ∧ final.scope.Binds after
    | .error diagnostic _ => faults.head? = some diagnostic

namespace Checked

variable {before middle after : List String} {faults laterFaults : List Diagnostic}

theorem pure (value : α) : Checked before before [] (Pure.pure value : Emission α) :=
  fun _ binds => ⟨rfl, binds⟩

/-- The next part may rely on what is known of every result of the first. -/
theorem bind_of_yields {kind : α → Prop} {first : Emission α} {next : α → Emission β}
    (start : Checked before middle faults first) (yields : Emission.Yields kind first)
    (rest : ∀ value, kind value → Checked middle after laterFaults (next value)) :
    Checked before after (faults ++ laterFaults) (first >>= next) := by
  intro emitter binds
  have started := start emitter binds
  rw [EStateM.bind_apply]
  cases ended : first emitter with
  | ok value final =>
      rw [ended] at started
      rcases started with ⟨rfl, finalBinds⟩
      exact rest value (yields emitter value final ended) final finalBinds
  | error diagnostic final =>
      rw [ended] at started
      have found : faults.head? = some diagnostic := started
      simp [List.head?_append, found]

theorem bind {first : Emission α} {next : α → Emission β}
    (start : Checked before middle faults first)
    (rest : ∀ value, Checked middle after laterFaults (next value)) :
    Checked before after (faults ++ laterFaults) (first >>= next) :=
  bind_of_yields start (.any first) fun value _ => rest value

theorem ofFaults {emission : Emission α} {sameFaults : List Diagnostic}
    (checked : Checked before after faults emission) (equal : faults = sameFaults) :
    Checked before after sameFaults emission :=
  equal ▸ checked

/-- The names after an emission may be listed in another way. -/
theorem rename {emission : Emission α} {sameNames : List String}
    (checked : Checked before after faults emission)
    (same : ∀ name, name ∈ after ↔ name ∈ sameNames) :
    Checked before sameNames faults emission := by
  intro emitter binds
  have ended := checked emitter binds
  split at ended
  · exact ⟨ended.1, fun name => (ended.2 name).trans (same name)⟩
  · exact ended

/-! ### Sequences -/

/-- A first part without faults. -/
theorem bind_silent {first : Emission α} {next : α → Emission β}
    (start : Checked before middle [] first)
    (rest : ∀ value, Checked middle after faults (next value)) :
    Checked before after faults (first >>= next) :=
  bind start rest

/-- A last part without faults. -/
theorem bind_last {first : Emission α} {next : α → Emission β}
    (start : Checked before middle faults first)
    (rest : ∀ value, Checked middle after [] (next value)) :
    Checked before after faults (first >>= next) :=
  (bind start rest).ofFaults (List.append_nil faults)

/-- A first part without faults that is left out on some condition. -/
theorem optional {condition : Prop} [Decidable condition] {first : Emission Unit}
    {next : Unit → Emission β} (start : Checked before before [] first)
    (rest : Checked before after faults (next ())) :
    Checked before after faults (if condition then first >>= next else next ()) := by
  split
  · exact bind_silent start fun _ => rest
  · exact rest

theorem bind_pure {first : Emission α} {change : α → β}
    (start : Checked before after faults first) :
    Checked before after faults (first >>= fun value => Pure.pure (change value)) :=
  bind_last start fun value => pure (change value)

/-- Making something of the result at the end has no faults. -/
theorem of_bind_pure {first : Emission α} {change : α → β}
    (checked : Checked before after faults
      (first >>= fun value => Pure.pure (change value))) :
    Checked before after faults first := by
  intro emitter binds
  have ended := checked emitter binds
  rw [EStateM.bind_apply] at ended
  cases equal : first emitter with
  | ok value final =>
      rw [equal] at ended
      exact ended
  | error diagnostic final =>
      rw [equal] at ended
      exact ended

theorem map {first : Emission α} {change : α → β}
    (start : Checked before after faults first) :
    Checked before after faults (change <$> first) := by
  rw [map_eq_pure_bind]
  exact start.bind_pure

theorem forM {values : List α} {act : α → Emission Unit} {faultsOf : α → List Diagnostic}
    (each : ∀ value ∈ values, Checked before before (faultsOf value) (act value)) :
    Checked before before (values.flatMap faultsOf) (values.forM act) := by
  induction values with
  | nil => exact pure ()
  | cons value rest induction =>
      rw [List.forM, List.flatMap_cons]
      apply (each value List.mem_cons_self).bind
      intro _
      exact induction fun later member => each later (List.mem_cons_of_mem value member)

/-! ### Sites -/

variable {setting : Setting} {sites laterSites : List Site}

theorem followed {first : Emission α} {next : α → Emission β}
    (start : Checked before middle (faultsAt setting sites) first)
    (rest : ∀ value, Checked middle after (faultsAt setting laterSites) (next value)) :
    Checked before after (faultsAt setting (sites ++ laterSites)) (first >>= next) :=
  (start.bind rest).ofFaults (faultsAt_append setting sites laterSites).symm

theorem regrouped {lastSites : List Site} {emission : Emission α}
    (checked : Checked before after
      (faultsAt setting (sites ++ (laterSites ++ lastSites)))
      emission) :
    Checked before after (faultsAt setting (sites ++ laterSites ++ lastSites))
      emission := by
  rwa [List.append_assoc]

/-- A site at the beginning. -/
theorem site_followed {site : Site} {first : Emission α} {next : α → Emission β}
    (start : Checked before middle (site.fault? setting).toList first)
    (rest : ∀ value, Checked middle after (faultsAt setting sites) (next value)) :
    Checked before after (faultsAt setting (site :: sites)) (first >>= next) :=
  (start.bind rest).ofFaults (faultsAt_cons setting site sites).symm

theorem site {site : Site} {emission : Emission α}
    (checked : Checked before after (site.fault? setting).toList emission) :
    Checked before after (faultsAt setting [site]) emission :=
  checked.ofFaults (by rw [faultsAt_cons, faultsAt_nil, List.append_nil])

/-! ### Steps without faults -/

theorem onPage (change : Page → Page) :
    Checked before before [] (Emission.onPage change) :=
  fun _ binds => ⟨rfl, binds⟩

theorem line (text : String) : Checked before before [] (Emission.line text) :=
  onPage _

theorem lines (texts : List String) :
    Checked before before [] (Emission.lines texts) := by
  have each : Checked before before (texts.flatMap fun _ => []) (Emission.lines texts) :=
    forM fun text _ => line text
  exact each.ofFaults (by simp)

theorem comment (text : String) : Checked before before [] (Emission.comment text) :=
  onPage _

theorem docblock (text : Option String) :
    Checked before before [] (Emission.docblock text) := by
  cases text with
  | none => exact pure ()
  | some text => exact comment text

theorem warn (warning : Warning) : Checked before before [] (Emission.warn warning) :=
  fun _ binds => ⟨rfl, binds⟩

theorem onScope {change : Scope → Scope}
    (changes : ∀ scope : Scope, scope.Binds before → (change scope).Binds after) :
    Checked before after [] (Emission.onScope change) :=
  fun emitter binds => ⟨rfl, changes emitter.scope binds⟩

theorem declare (name : String) (location : Location) :
    Checked before (name :: before) [] (Emission.onScope (·.declare name location)) :=
  onScope fun _ binds => binds.declare name location

theorem write (name : String) (location : Location) :
    Checked before (name :: before) [] (Emission.onScope (·.write name location)) :=
  onScope fun _ binds => binds.write name location

/-! ### Steps that may have a fault -/

theorem ofExcept (result : Except Diagnostic α) :
    Checked before before (match result with | .ok _ => [] | .error fault => [fault])
      (Emission.ofExcept result) := by
  intro emitter binds
  cases result with
  | ok value => exact ⟨rfl, binds⟩
  | error fault => rfl

/-- Looking up the variable of an assignment meets the fault of its target. -/
theorem bindTarget (setting : Setting) (assignment : Assignment) :
    Checked before (boundByForm assignment.form assignment.target ++ before)
      ((Site.target assignment before).fault? setting).toList
      (Emission.bind assignment.form.binding assignment.target assignment.location) := by
  rw [Site.fault?, boundByForm]
  cases assignment.form.binding with
  | none => exact pure ()
  | write => exact write _ _
  | update =>
      by_cases bound : assignment.target ∈ before
      · intro emitter binds
        rcases binds.update bound assignment.location with ⟨scope, updated, scopeBinds⟩
        simp only [Emission.bind, EStateM.bind_apply, EStateM.get_apply, updated, bound]
        exact ⟨rfl, scopeBinds⟩
      · intro emitter binds
        have missing := binds.update_eq_error bound assignment.location
        simp only [Emission.bind, EStateM.bind_apply, EStateM.get_apply, missing, bound]
        rfl

/-! ### Other scopes and pages -/

theorem get_bind {next : Emitter → Emission β}
    (rest : ∀ emitter : Emitter, emitter.scope.Binds before →
      Checked before after faults (next emitter)) :
    Checked before after faults (get >>= next) :=
  fun emitter binds => rest emitter binds emitter binds

theorem withScope {scope : Scope} {inside last : List String} {emission : Emission α}
    (binds : scope.Binds inside) (checked : Checked inside last faults emission) :
    Checked before before faults (Emission.withScope scope emission) := by
  intro emitter outside
  have ended := checked { emitter with scope } binds
  rw [Emission.withScope]
  cases equal : emission { emitter with scope } with
  | ok value final =>
      rw [equal] at ended
      exact ⟨ended.1, outside⟩
  | error diagnostic final =>
      rw [equal] at ended
      exact ended

theorem onOwnPage {emission : Emission Unit}
    (checked : Checked before after faults emission) :
    Checked before after faults (Emission.onOwnPage emission) := by
  intro emitter binds
  have ended := checked { emitter with page := .empty } binds
  rw [Emission.onOwnPage]
  cases equal : emission { emitter with page := .empty } with
  | ok value final =>
      rw [equal] at ended
      exact ended
  | error diagnostic final =>
      rw [equal] at ended
      exact ended

end Checked

end ZephirPhp
