import Mathlib.Data.List.Nodup
import ZephirPhp.Program.Phase
import ZephirPhp.Proofs.Program.Processing

/-! # Expanded shortcuts

Which shortcuts can be expanded, and into what. The methods of a class grow while its
properties are gone through, one after the other, and every accessor is compared with
the methods that are there by then. In the end this comes to the same as looking at the
names of all accessors at once: they have to differ from each other and from the methods
of the class.
-/

namespace ZephirPhp

/-! ## Accessors of a class -/

/-- The name of the method that a shortcut of a property asks for. -/
def Property.accessorName (property : Property) (shortcut : Shortcut) : String :=
  if shortcut.name = "toString" then "__toString"
  else shortcut.name ++ Text.capitalize property.name

/-- There are three shortcuts. -/
def Shortcut.IsKnown (shortcut : Shortcut) : Prop :=
  shortcut.name ∈ ["get", "set", "toString"]

instance (shortcut : Shortcut) : Decidable shortcut.IsKnown :=
  inferInstanceAs (Decidable (shortcut.name ∈ ["get", "set", "toString"]))

/-- The shortcuts of a property are known ones, and none is used twice. -/
structure Property.ShortcutsAllowed (property : Property) : Prop where
  distinct : (property.shortcuts.map (·.name)).Nodup
  known : ∀ shortcut ∈ property.shortcuts, shortcut.IsKnown

instance (property : Property) : Decidable property.ShortcutsAllowed :=
  decidable_of_iff ((property.shortcuts.map (·.name)).Nodup ∧
      ∀ shortcut ∈ property.shortcuts, shortcut.IsKnown)
    ⟨fun ⟨distinct, known⟩ => ⟨distinct, known⟩, fun ⟨distinct, known⟩ =>
      ⟨distinct, known⟩⟩

/-- The names of the accessors of some properties, in the order in which they are asked
for. -/
def accessorNames (properties : List Property) : List String :=
  properties.flatMap fun property => property.shortcuts.map property.accessorName

/-- The accessors of some properties, in the order in which they are asked for. -/
def accessorsOf (properties : List Property) : List Method :=
  properties.flatMap fun property => property.shortcuts.filterMap property.accessor?

namespace ClassDefinition

/-- The shortcuts of the class can be expanded. -/
structure Expandable (definition : ClassDefinition) : Prop where
  shortcuts : ∀ property ∈ definition.properties, property.ShortcutsAllowed
  distinct : (accessorNames definition.properties).Nodup
  fresh : (definition.methods.map (·.name)).Disjoint (accessorNames definition.properties)

instance (definition : ClassDefinition) : Decidable definition.Expandable :=
  decidable_of_iff ((∀ property ∈ definition.properties, property.ShortcutsAllowed) ∧
      (accessorNames definition.properties).Nodup ∧
      ∀ name ∈ definition.methods.map (·.name),
      name ∉ accessorNames definition.properties)
    ⟨fun ⟨shortcuts, distinct, fresh⟩ => ⟨shortcuts, distinct, fun _ => fresh _⟩,
      fun ⟨shortcuts, distinct, fresh⟩ => ⟨shortcuts, distinct, fun _ => @fresh _⟩⟩

/-- The class with its accessors as last methods and no shortcut left. -/
def withAccessors (definition : ClassDefinition) : ClassDefinition :=
  { definition with
    methods := definition.methods ++ accessorsOf definition.properties
    properties := definition.properties.map fun property =>
      { property with shortcuts := [] } }

end ClassDefinition

/-- The entry with its accessors, if it is a class. -/
def Entry.withAccessors : Entry → Entry
  | .classDefinition definition => .classDefinition definition.withAccessors
  | entry => entry

/-! ## Shortcuts of one property -/

namespace Property

variable (property : Property)

theorem accessor?_isSome_iff (shortcut : Shortcut) :
    (property.accessor? shortcut).isSome = true ↔ shortcut.IsKnown := by
  rw [accessor?, Shortcut.IsKnown]
  split <;> simp_all

theorem accessor?_name {shortcut : Shortcut} {method : Method}
    (found : property.accessor? shortcut = some method) :
    method.name = property.accessorName shortcut := by
  rw [accessor?] at found
  split at found
  case h_4 => cases found
  all_goals
    rename_i same
    cases found
    simp [accessor, accessorName, same]

theorem map_name_accessors {shortcuts : List Shortcut}
    (known : ∀ shortcut ∈ shortcuts, shortcut.IsKnown) :
    (shortcuts.filterMap property.accessor?).map (·.name) =
      shortcuts.map property.accessorName := by
  induction shortcuts with
  | nil => rfl
  | cons shortcut rest induction =>
      rw [List.forall_mem_cons] at known
      rcases Option.isSome_iff_exists.mp
        ((property.accessor?_isSome_iff shortcut).mpr known.1)
        with ⟨method, found⟩
      rw [List.filterMap_cons_some found, List.map_cons, List.map_cons, induction known.2,
        property.accessor?_name found]

/-- The pass over the shortcuts remembers those that it has seen. -/
theorem accessors_eq_ok_iff (seen : List String) (shortcuts : List Shortcut)
    (methods : List Method) :
    property.accessors seen shortcuts = .ok methods ↔
      (∀ shortcut ∈ shortcuts, shortcut.name ∉ seen ∧ shortcut.IsKnown) ∧
        (shortcuts.map (·.name)).Nodup ∧
          methods = shortcuts.filterMap property.accessor? := by
  induction shortcuts generalizing seen methods with
  | nil => simp [accessors, eq_comm]
  | cons shortcut rest induction =>
      rw [accessors, List.forall_mem_cons, List.map_cons, List.nodup_cons]
      have known := property.accessor?_isSome_iff shortcut
      by_cases repeated : shortcut.name ∈ seen
      · simp [repeated]
      · rw [if_neg (by simpa using repeated)]
        cases found : property.accessor? shortcut with
        | none =>
            rw [found, Option.isSome_none, Bool.false_eq_true, false_iff] at known
            simp only [known, and_false, false_and, reduceCtorEq]
        | some method =>
            rw [found, Option.isSome_some, eq_self, true_iff] at known
            simp only [Except.bind_eq_ok_iff, induction, List.filterMap_cons_some found,
              List.mem_cons, not_or, List.mem_map]
            constructor
            · rintro ⟨_, ⟨each, distinct, rfl⟩, same⟩
              cases same
              refine ⟨⟨⟨repeated, known⟩, fun other member => ?_⟩, ⟨?_, distinct⟩, rfl⟩
              · exact ⟨(each other member).1.2, (each other member).2⟩
              · rintro ⟨other, member, same⟩
                exact (each other member).1.1 same
            · rintro ⟨⟨_, each⟩, ⟨new, distinct⟩, rfl⟩
              refine ⟨_, ⟨fun other member => ?_, distinct, rfl⟩, rfl⟩
              exact ⟨⟨fun same => new ⟨other, member, same⟩, (each other member).1⟩,
                (each other member).2⟩

theorem accessors_nil_eq_ok_iff (methods : List Method) :
    property.accessors [] property.shortcuts = .ok methods ↔
      property.ShortcutsAllowed ∧
        methods = property.shortcuts.filterMap property.accessor? := by
  rw [accessors_eq_ok_iff]
  constructor
  · rintro ⟨known, distinct, same⟩
    exact ⟨⟨distinct, fun shortcut member => (known shortcut member).2⟩, same⟩
  · rintro ⟨allowed, same⟩
    exact ⟨fun shortcut member => ⟨List.not_mem_nil, allowed.known shortcut member⟩,
      allowed.distinct, same⟩

end Property

/-! ## Methods that are added -/

theorem addMethods_eq_ok_iff (methods added result : List Method) :
    addMethods methods added = .ok result ↔
      (added.map (·.name)).Nodup ∧ (methods.map (·.name)).Disjoint (added.map (·.name)) ∧
        result = methods ++ added := by
  induction added generalizing methods with
  | nil => simp [addMethods, eq_comm]
  | cons method rest induction =>
      rw [addMethods, List.map_cons, List.nodup_cons, List.disjoint_cons_right]
      by_cases clash : method.name ∈ methods.map (·.name)
      · rw [if_pos (by simpa using clash)]
        simp [clash]
      · rw [if_neg (by simpa using clash), induction, List.append_assoc,
          List.singleton_append,
          List.map_append, List.disjoint_append_left, List.map_singleton,
            List.singleton_disjoint]
        simp only [clash, not_false_eq_true, true_and]
        constructor
        · rintro ⟨distinct, ⟨fresh, new⟩, same⟩
          exact ⟨⟨new, distinct⟩, fresh, same⟩
        · rintro ⟨⟨new, distinct⟩, fresh, same⟩
          exact ⟨distinct, ⟨fresh, new⟩, same⟩

theorem accessorNames_cons (property : Property) (rest : List Property) :
    accessorNames (property :: rest) =
      property.shortcuts.map property.accessorName ++ accessorNames rest :=
  List.flatMap_cons

theorem accessorsOf_cons (property : Property) (rest : List Property) :
    accessorsOf (property :: rest) =
      property.shortcuts.filterMap property.accessor? ++ accessorsOf rest :=
  List.flatMap_cons

/-- Adding accessors property by property is adding them all at once. -/
theorem addAccessors_eq_ok_iff (methods : List Method) (properties : List Property)
    (result : List Method) :
    addAccessors methods properties = .ok result ↔
      (∀ property ∈ properties, property.ShortcutsAllowed) ∧
        (accessorNames properties).Nodup ∧
        (methods.map (·.name)).Disjoint (accessorNames properties) ∧
        result = methods ++ accessorsOf properties := by
  induction properties generalizing methods with
  | nil => simp [addAccessors, accessorNames, accessorsOf, eq_comm]
  | cons property rest induction =>
      simp only [addAccessors, Except.bind_eq_ok_iff, Property.accessors_nil_eq_ok_iff,
        addMethods_eq_ok_iff, induction, accessorNames_cons, accessorsOf_cons,
        List.nodup_append', List.disjoint_append_right, List.forall_mem_cons]
      constructor
      · rintro ⟨_, ⟨allowed, rfl⟩, _, ⟨distinct, fresh, rfl⟩, others, othersDistinct,
          othersFresh,
          rfl⟩
        rw [List.map_append, List.disjoint_append_left] at othersFresh
        rw [property.map_name_accessors allowed.known] at distinct fresh othersFresh
        exact ⟨⟨allowed, others⟩, ⟨distinct, othersDistinct, othersFresh.2⟩,
          ⟨fresh, othersFresh.1⟩, List.append_assoc _ _ _⟩
      · rintro ⟨⟨allowed, others⟩, ⟨distinct, othersDistinct, apart⟩,
          ⟨fresh, othersFresh⟩, rfl⟩
        rw [← property.map_name_accessors allowed.known] at distinct fresh apart
        refine ⟨_, ⟨allowed, rfl⟩, _, ⟨distinct, fresh, rfl⟩, others, othersDistinct, ?_,
          (List.append_assoc _ _ _).symm⟩
        rw [List.map_append, List.disjoint_append_left]
        exact ⟨othersFresh, apart⟩

/-- There is one accessor for each shortcut that is asked for, under its name. -/
theorem map_name_accessorsOf {properties : List Property}
    (allowed : ∀ property ∈ properties, property.ShortcutsAllowed) :
    (accessorsOf properties).map (·.name) = accessorNames properties := by
  induction properties with
  | nil => rfl
  | cons property rest induction =>
      rw [List.forall_mem_cons] at allowed
      rw [accessorsOf_cons, accessorNames_cons, List.map_append, induction allowed.2,
        property.map_name_accessors allowed.1.known]

/-! ## Classes and programs -/

theorem ClassDefinition.expandShortcuts_eq_ok_iff (definition result : ClassDefinition) :
    definition.expandShortcuts = .ok result ↔
      definition.Expandable ∧ result = definition.withAccessors := by
  simp only [expandShortcuts, Except.bind_eq_ok_iff, addAccessors_eq_ok_iff]
  constructor
  · rintro ⟨_, ⟨shortcuts, distinct, fresh, rfl⟩, same⟩
    cases same
    exact ⟨⟨shortcuts, distinct, fresh⟩, rfl⟩
  · rintro ⟨expandable, rfl⟩
    exact ⟨_, ⟨expandable.shortcuts, expandable.distinct, expandable.fresh, rfl⟩, rfl⟩

theorem Entry.expandShortcuts_eq_ok_iff (entry result : Entry) :
    entry.expandShortcuts = .ok result ↔
      (∀ definition, entry = .classDefinition definition → definition.Expandable) ∧
        result = entry.withAccessors := by
  cases entry with
  | classDefinition definition =>
      simp only [expandShortcuts, Except.bind_eq_ok_iff,
        ClassDefinition.expandShortcuts_eq_ok_iff, classDefinition.injEq, forall_eq']
      constructor
      · rintro ⟨_, ⟨expandable, rfl⟩, same⟩
        cases same
        exact ⟨expandable, rfl⟩
      · rintro ⟨expandable, rfl⟩
        exact ⟨_, ⟨expandable, rfl⟩, rfl⟩
  | _ => simp [expandShortcuts, withAccessors, eq_comm]

theorem mapM_expandShortcuts_eq_ok_iff (entries result : List Entry) :
    entries.mapM Entry.expandShortcuts = .ok result ↔
      (∀ definition, Entry.classDefinition definition ∈ entries → definition.Expandable) ∧
        result = entries.map Entry.withAccessors := by
  induction entries generalizing result with
  | nil => simp [pure, Except.pure, eq_comm]
  | cons entry rest induction =>
      simp only [List.mapM_cons, Except.bind_eq_ok_iff, Entry.expandShortcuts_eq_ok_iff,
        induction, List.mem_cons, List.map_cons]
      constructor
      · rintro ⟨_, ⟨first, rfl⟩, _, ⟨others, rfl⟩, same⟩
        cases same
        refine ⟨fun definition member => ?_, rfl⟩
        rcases member with same | member
        · exact first definition same.symm
        · exact others definition member
      · rintro ⟨each, rfl⟩
        exact ⟨_, ⟨fun definition same => each definition (.inl same.symm), rfl⟩, _,
          ⟨fun definition member => each definition (.inr member), rfl⟩, rfl⟩

theorem Program.inlineShortcuts_eq_ok_iff (program result : Program) :
    program.inlineShortcuts = .ok result ↔
      (∀ definition, Entry.classDefinition definition ∈ program.entries →
        definition.Expandable) ∧
        result = ⟨program.entries.map Entry.withAccessors⟩ := by
  simp only [inlineShortcuts, Except.bind_eq_ok_iff, mapM_expandShortcuts_eq_ok_iff]
  constructor
  · rintro ⟨_, ⟨each, rfl⟩, same⟩
    cases same
    exact ⟨each, rfl⟩
  · rintro ⟨each, rfl⟩
    exact ⟨_, ⟨each, rfl⟩, rfl⟩

/-- The phase succeeds exactly if the shortcuts of every class can be expanded. It gives
every class its accessors, one for each shortcut in the order of the properties and of
their shortcuts, and changes nothing else. -/
theorem inlineShortcuts_ok_iff_expandable (program result : Program) :
    (Phase.inlineShortcuts.run program = .ok result ↔
      (∀ definition, Entry.classDefinition definition ∈ program.entries →
        definition.Expandable) ∧
        result = ⟨program.entries.map Entry.withAccessors⟩) ∧
    ∀ definition, Entry.classDefinition definition ∈ program.entries →
      definition.Expandable →
      (accessorsOf definition.properties).map (·.name) =
        accessorNames definition.properties := by
  constructor
  · exact program.inlineShortcuts_eq_ok_iff result
  · intro definition _ expandable
    exact map_name_accessorsOf expandable.shortcuts

/-- A class with properties of the given names and shortcuts, and methods of the given
names. -/
def classWith (properties : List (String × List String)) (methods : List String) :
    ClassDefinition where
  name := "C"
  isAbstract := false
  isFinal := false
  parent := none
  interfaces := []
  docblock := none
  constants := []
  properties := properties.map fun property =>
    ⟨["protected"], property.1, none, property.2.map (⟨·, .unknown⟩), none, .unknown⟩
  methods := methods.map fun name => ⟨["public"], name, [], some [], none, .unknown⟩
  location := .unknown

/-- Two shortcuts of one property and two of another are expanded. The getters of two
properties are not, if their names differ in the first letter only. -/
theorem inlineShortcuts_ok_iff_expandable_of_four :
    let plain :=
  classWith [("name", ["get", "set"]), ("title", ["toString", "get"])] ["run"]
    let clashing := classWith [("name", ["get"]), ("Name", ["get"])] []
    Phase.inlineShortcuts.run ⟨[.classDefinition plain]⟩ =
        .ok ⟨[.classDefinition plain.withAccessors]⟩ ∧
      (accessorsOf plain.properties).map (·.name) =
        ["getName", "setName", "__toString", "getTitle"] ∧
      ∀ result, Phase.inlineShortcuts.run ⟨[.classDefinition clashing]⟩ ≠ .ok result := by
  intro plain clashing
  have expandable : plain.Expandable := by decide
  have outcome := inlineShortcuts_ok_iff_expandable ⟨[.classDefinition plain]⟩
    ⟨[.classDefinition plain.withAccessors]⟩
  refine ⟨outcome.1.mpr ⟨?_, rfl⟩, ?_, fun result done => ?_⟩
  · intro definition member
    cases List.mem_singleton.mp member
    exact expandable
  · rw [outcome.2 plain List.mem_cons_self expandable]
    decide
  · have each := ((inlineShortcuts_ok_iff_expandable _ result).1.mp done).1
    exact absurd (each clashing List.mem_cons_self) (by decide)

end ZephirPhp
