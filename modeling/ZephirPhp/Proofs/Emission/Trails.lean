import ZephirPhp.Proofs.Emission.Refusal

/-! # The object in nested closures

A method that is not static knows its object as `this`. A closure knows the object if
the body around it does, while an arrow closure knows nothing but its parameter. So the
object is hidden from everything inside an arrow closure, until something binds the name
`this` again.
-/

namespace ZephirPhp

/-! ## Trails -/

/-- A closure around a place, with the names that are bound in its own body there. -/
structure Layer where
  isArrow : Bool
  names : List String

/-- The object is hidden by an arrow closure, if `this` is bound neither there nor further
in. The innermost closure comes first. -/
def Hidden (trail : List Layer) : Prop :=
  ∃ inner arrow outer, trail = inner ++ arrow :: outer ∧ arrow.isArrow = true ∧
    ∀ layer ∈ arrow :: inner, "this" ∉ layer.names

theorem not_hidden_nil : ¬ Hidden [] := by
  rintro ⟨inner, arrow, outer, split, _⟩
  cases inner <;> cases split

theorem hidden_cons_iff (layer : Layer) (outer : List Layer) :
    Hidden (layer :: outer) ↔
      "this" ∉ layer.names ∧ (layer.isArrow = true ∨ Hidden outer) := by
  constructor
  · rintro ⟨inner, arrow, others, split, isArrow, unbound⟩
    cases inner with
    | nil =>
        cases split
        exact ⟨unbound layer List.mem_cons_self, .inl isArrow⟩
    | cons first rest =>
        cases split
        rw [List.forall_mem_cons, List.forall_mem_cons] at unbound
        exact ⟨unbound.2.1, .inr ⟨rest, arrow, others, rfl, isArrow,
          List.forall_mem_cons.mpr ⟨unbound.1, unbound.2.2⟩⟩⟩
  · rintro ⟨own, isArrow | ⟨inner, arrow, others, rfl, isArrow, unbound⟩⟩
    · exact ⟨[], layer, outer, rfl, isArrow, List.forall_mem_singleton.mpr own⟩
    · refine ⟨layer :: inner, arrow, others, rfl, isArrow, ?_⟩
      rw [List.forall_mem_cons] at unbound ⊢
      exact ⟨unbound.1, List.forall_mem_cons.mpr ⟨own, unbound.2⟩⟩

theorem not_hidden_cons_iff (layer : Layer) (outer : List Layer) :
    ¬ Hidden (layer :: outer) ↔
      "this" ∈ layer.names ∨ (layer.isArrow = false ∧ ¬ Hidden outer) := by
  rw [hidden_cons_iff, not_and_or, not_not, not_or, Bool.not_eq_true]

/-- The trail after more names are bound in the innermost body. In the body of the method
itself nothing changes for the object. -/
def bindTrail (names : List String) : List Layer → List Layer
  | [] => []
  | layer :: outer => { layer with names := names ++ layer.names } :: outer

/-- The names that are bound at a place in a method, and the closures around the place. -/
structure Spot where
  bound : List String
  trail : List Layer
  this_bound_iff : "this" ∈ bound ↔ ¬ Hidden trail

namespace Opening

/-- The scope at the start of the body. -/
def scope (outer : Scope) : Opening → Scope
  | .closure location parameters => closureScope outer location parameters
  | .arrow location parameter => Scope.ofNames location [parameter]

def layer : Opening → Layer
  | .closure _ parameters => ⟨false, parameters⟩
  | .arrow _ parameter => ⟨true, [parameter]⟩

theorem scope_binds {outer : Scope} {names : List String} (binds : outer.Binds names)
    (opening : Opening) : (opening.scope outer).Binds (opening.bound names) := by
  cases opening with
  | closure location parameters => exact closureScope_binds binds location parameters
  | arrow location parameter => exact Scope.ofNames_binds location [parameter]

end Opening

namespace Spot

def bind (names : List String) (spot : Spot) : Spot where
  bound := names ++ spot.bound
  trail := bindTrail names spot.trail
  this_bound_iff := by
    rcases spot with ⟨bound, trail, known⟩
    dsimp only
    cases trail with
    | nil =>
        have there : "this" ∈ bound := known.mpr not_hidden_nil
        exact ⟨fun _ => not_hidden_nil, fun _ => List.mem_append_right names there⟩
    | cons layer outer =>
        rw [bindTrail, not_hidden_cons_iff, List.mem_append, List.mem_append, known,
          not_hidden_cons_iff, or_assoc]

def enter (opening : Opening) (spot : Spot) : Spot where
  bound := opening.bound spot.bound
  trail := opening.layer :: spot.trail
  this_bound_iff := by
    rw [not_hidden_cons_iff]
    cases opening with
    | closure location parameters =>
        rw [Opening.bound, Opening.layer, ← spot.this_bound_iff, boundInClosure]
        by_cases known : "this" ∈ spot.bound <;> simp [known]
    | arrow location parameter => simp [Opening.bound, Opening.layer]

/-- The start of a method that has an object. -/
def ofMethod (method : Method) (dynamic : method.isStatic = false) : Spot where
  bound := method.bound
  trail := []
  this_bound_iff := by simp [Method.bound, dynamic, not_hidden_nil]

end Spot

/-! ## Places -/

/-- A `let`, or the start of a closure. -/
inductive Place where
  | target (assignment : Assignment) (spot : Spot)
  | body (opening : Opening) (outside : Spot)

def Item.withPlaces (spot : Spot) : Item → List Place → List Place
  | .expr (.closure location parameters _), inside =>
    .body (.closure location (parameters.map (·.name))) spot :: inside
  | .expr (.arrow location name _), inside => .body (.arrow location name) spot :: inside
  | .assignment own, inside => .target own spot :: inside
  | _, inside => inside

namespace Survey

def places : Survey Spot Place where
  bind := Spot.bind
  enter := Spot.enter
  collect := Item.withPlaces

end Survey

/-- The places of a method that has an object. -/
def Method.places (method : Method) (dynamic : method.isStatic = false) : List Place :=
  Survey.places.ofMethod (.ofMethod method dynamic) method

/-! ## Targets -/

def Site.target? : Site → Option (Assignment × List String)
  | .target assignment bound => some (assignment, bound)
  | _ => none

def Place.target? : Place → Option (Assignment × List String)
  | .target assignment spot => some (assignment, spot.bound)
  | .body _ _ => none

/-- The places have the targets of the sites. -/
def SameTargets (sites : List Site) (places : List Place) : Prop :=
  sites.filterMap Site.target? = places.filterMap Place.target?

namespace SameTargets

theorem nil : SameTargets [] [] := rfl

theorem append {sites others : List Site} {places more : List Place}
    (first : SameTargets sites places) (second : SameTargets others more) :
    SameTargets (sites ++ others) (places ++ more) := by
  rw [SameTargets, List.filterMap_append, List.filterMap_append, first, second]

theorem target {sites : List Site} {places : List Place} (assignment : Assignment)
    (spot : Spot) (rest : SameTargets sites places) :
    SameTargets (.target assignment spot.bound :: sites)
      (.target assignment spot :: places) :=
  congrArg ((assignment, spot.bound) :: ·) rest

/-- The start of a closure is no site. -/
theorem body {sites : List Site} {places : List Place} (opening : Opening)
    (outside : Spot) (rest : SameTargets sites places) :
    SameTargets sites (.body opening outside :: places) :=
  rest

/-- The other sites are no places. -/
theorem site_append {sites : List Site} {places : List Place} {site : Site}
    (same : SameTargets sites places) (other : site.target? = none) :
    SameTargets (sites ++ [site]) places := by
  rw [SameTargets, List.filterMap_append, List.filterMap_cons_none other,
    List.filterMap_nil,
    List.append_nil, same]

end SameTargets

namespace Survey

/-- The two surveys bind the same names on their way. -/
theorem sites_alike_places :
    Alike sites places (fun bound spot => bound = spot.bound) SameTargets where
  nil := .nil
  append := .append
  bind names here := congrArg (names ++ ·) here
  enter opening here := congrArg opening.bound here
  collect {bound spot inside others} item here parts := by
    subst here
    cases item with
    | expr expression =>
        cases expression with
        | methodCall location receiver method arguments => exact parts.site_append rfl
        | closure location parameters body => exact parts.body _ spot
        | arrow location parameter body => exact parts.body _ spot
        | _ => exact parts
    | assignment own =>
        apply SameTargets.target own spot
        cases own.value with
        | none => exact (List.append_nil inside).symm ▸ parts
        | some value => exact parts.site_append rfl
    | _ => exact parts

end Survey

theorem Method.places_sameTargets (method : Method) (dynamic : method.isStatic = false) :
    SameTargets (Survey.sites.ofMethod method.bound method) (method.places dynamic) := by
  have start : method.bound = (Spot.ofMethod method dynamic).bound := rfl
  exact Survey.sites_alike_places.ofMethod start method

/-! ## Changes of the object -/

/-- A `let` of a part of the object. -/
def Assignment.ChangesObject (assignment : Assignment) : Prop :=
  assignment.form.binding = .update ∧ assignment.target = "this"

/-- Only the targets of `let`s are refused because a variable is not bound. -/
theorem Site.fault?_eq_undeclared_iff (setting : Setting) (site : Site)
    (location : Location) :
    site.fault? setting = some (.undeclaredVariable "this" location) ↔
      ∃ assignment bound, site.target? = some (assignment, bound) ∧
        assignment.ChangesObject ∧ "this" ∉ bound ∧ assignment.location = location := by
  constructor
  · intro fault
    cases site with
    | methodCall place receiver method =>
        rw [fault?] at fault
        split at fault
        · split at fault <;> cases fault
        · cases fault
    | functionCall place function arguments =>
        rw [fault?] at fault
        split at fault
        · cases fault
        · rename_i diagnostic refused
          cases fault
          rcases checkGlobals_error refused with ⟨name, equal⟩
          cases equal
    | target assignment bound =>
        rw [fault?] at fault
        split at fault
        · rename_i refused
          rw [Option.some.injEq, Diagnostic.undeclaredVariable.injEq] at fault
          rcases fault with ⟨object, same⟩
          exact ⟨assignment, bound, rfl, ⟨refused.1, object⟩, object ▸ refused.2, same⟩
        · cases fault
    | value expression =>
        rw [fault?] at fault
        split at fault <;> cases fault
  · rintro ⟨assignment, bound, target, ⟨changes, object⟩, unbound, rfl⟩
    cases site with
    | target found names =>
        cases target
        rw [fault?, if_pos ⟨changes, object ▸ unbound⟩, object]
    | _ => cases target

theorem Method.mem_faults_iff (setting : Setting) (method : Method)
    (dynamic : method.isStatic = false) (location : Location) :
    .undeclaredVariable "this" location ∈
        faultsAt setting (Survey.sites.ofMethod method.bound method) ↔
      ∃ assignment spot, .target assignment spot ∈ method.places dynamic ∧
        assignment.ChangesObject ∧ Hidden spot.trail ∧
          assignment.location = location := by
  have same := method.places_sameTargets dynamic
  rw [SameTargets] at same
  rw [faultsAt, List.mem_filterMap]
  constructor
  · rintro ⟨site, member, fault⟩
    rcases (site.fault?_eq_undeclared_iff setting location).mp fault with
      ⟨assignment, bound, target, changes, unbound, rfl⟩
    have found := List.mem_filterMap.mpr ⟨site, member, target⟩
    rw [same, List.mem_filterMap] at found
    rcases found with ⟨place, there, placed⟩
    cases place with
    | body opening outside => cases placed
    | target found spot =>
        cases placed
        exact ⟨assignment, spot, there, changes,
          not_not.mp (mt spot.this_bound_iff.mpr unbound), rfl⟩
  · rintro ⟨assignment, spot, member, changes, hidden, rfl⟩
    have found : (assignment, spot.bound) ∈
        (method.places dynamic).filterMap Place.target? :=
      List.mem_filterMap.mpr ⟨.target assignment spot, member, rfl⟩
    rw [← same, List.mem_filterMap] at found
    rcases found with ⟨site, there, target⟩
    refine ⟨site, there, (site.fault?_eq_undeclared_iff setting _).mpr
      ⟨assignment, spot.bound, target, changes, ?_, rfl⟩⟩
    exact fun known => spot.this_bound_iff.mp known hidden

/-- In a method that has an object, the scope of a closure lacks `this` exactly if an
arrow closure hides it. A change of the object is refused for that reason only, and
wherever it is hidden. -/
theorem object_hidden_iff (setting : Setting) (inInterface : Bool) {method : Method}
    (dynamic : method.isStatic = false) (complete : AllComplete method.assignments) :
    (∀ opening outside, .body opening outside ∈ method.places dynamic →
      ∀ outer : Scope, outer.Binds outside.bound →
        (Dictionary.contains (opening.scope outer) "this" = true ↔
          ¬ Hidden (opening.layer :: outside.trail))) ∧
    ∀ emitter : Emitter,
      (∀ location final, emitMethod setting inInterface method emitter =
          .error (.undeclaredVariable "this" location) final →
        ∃ assignment spot, .target assignment spot ∈ method.places dynamic ∧
          assignment.ChangesObject ∧ Hidden spot.trail ∧ assignment.location = location) ∧
      ∀ assignment spot, .target assignment spot ∈ method.places dynamic →
        assignment.ChangesObject → Hidden spot.trail →
          ∃ diagnostic final, emitMethod setting inInterface method emitter =
            .error diagnostic final := by
  refine ⟨fun opening outside _ outer binds => ?_, fun emitter => ⟨?_, ?_⟩⟩
  · rw [opening.scope_binds binds "this"]
    exact (outside.enter opening).this_bound_iff
  · intro location final refused
    have outcome := emitMethod_checked setting _ inInterface method complete emitter
      emitter.scope.binds_keys
    rw [refused] at outcome
    exact (method.mem_faults_iff setting dynamic location).mp
      (List.mem_of_mem_head? outcome)
  · intro assignment spot member changes hidden
    have outcome := emitMethod_checked setting _ inInterface method complete emitter
      emitter.scope.binds_keys
    have fault := (method.mem_faults_iff setting dynamic assignment.location).mpr
      ⟨assignment, spot, member, changes, hidden, rfl⟩
    cases ended : emitMethod setting inInterface method emitter with
    | ok nothing final =>
        rw [ended] at outcome
        rw [outcome.1] at fault
        cases fault
    | error diagnostic final => exact ⟨diagnostic, final, rfl⟩

/-- `let this->p = 1` -/
def changeOfObject : Assignment :=
  ⟨.objectProperty, some .assign, "this", some "p", [],
    some (.atom .unknown (.int "1")), .unknown⟩

/-- A closure that changes the object and then returns a closure. -/
def changing (result : Option Expr) : Expr :=
  .closure .unknown [] [.assign .unknown [changeOfObject], .returnValue .unknown result]

def methodReturning (result : Expr) : Method where
  visibility := ["public"]
  name := "m"
  parameters := []
  statements := some [.returnValue .unknown (some result)]
  docblock := none
  location := .unknown

/-- Of two changes, only the one inside the arrow closure is refused. -/
def sandwich : Method :=
  methodReturning (changing (some (.arrow .unknown "x" (changing none))))

theorem object_hidden_iff_of_sandwich :
    sandwich.isStatic = false ∧ AllComplete sandwich.assignments ∧
      (∀ outer : Scope, outer.Binds ["this"] →
        Dictionary.contains (closureScope outer .unknown []) "this" = true) ∧
      ∃ diagnostic final, emitMethod {} false sandwich {} = .error diagnostic final := by
  have complete : AllComplete sandwich.assignments := by
    have listed : sandwich.assignments = [changeOfObject, changeOfObject] := rfl
    have single : changeOfObject.IsComplete := ⟨rfl, rfl, fun _ => rfl⟩
    rw [listed, AllComplete.cons_iff, AllComplete.cons_iff]
    exact ⟨single, single, .nil⟩
  have dynamic : sandwich.isStatic = false := by decide
  rcases object_hidden_iff {} false dynamic complete with ⟨bodies, refusals⟩
  refine ⟨dynamic, complete, fun outer binds => ?_, ?_⟩
  · have outermost : Place.body (.closure .unknown []) (.ofMethod sandwich dynamic) ∈
        sandwich.places dynamic :=
      List.mem_cons_self
    apply (bodies _ _ outermost outer binds).mpr
    rw [not_hidden_cons_iff]
    exact .inr ⟨rfl, not_hidden_nil⟩
  · have hidden : Hidden [⟨false, []⟩, ⟨true, ["x"]⟩, ⟨false, []⟩] :=
      ⟨[⟨false, []⟩], ⟨true, ["x"]⟩, [⟨false, []⟩], rfl, rfl, by simp⟩
    exact (refusals {}).2 changeOfObject _
      (.tail _ (.tail _ (.tail _ (.tail _ (.head _)))))
      ⟨rfl, rfl⟩ hidden

/-- In a closure inside an arrow closure the object is not known. -/
theorem object_unknown_in_arrow :
    let method := methodReturning (.arrow .unknown "x" (changing none))
    method.isStatic = false ∧ ∃ final,
      emitMethod {} false method {} =
        .error (.undeclaredVariable "this" .unknown) final :=
  ⟨by decide, _, rfl⟩

end ZephirPhp
