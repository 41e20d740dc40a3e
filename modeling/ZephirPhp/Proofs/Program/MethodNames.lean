import ZephirPhp.Proofs.Program.Expansion
import ZephirPhp.PseudoMethod

/-! # Names of methods to PHP

PHP ignores the case of ASCII letters in the names of methods. Accessors are compared
with methods and with each other in their very spelling, though, so two methods of a
class can come out as one to PHP. This happens to an accessor and a method, and to the
accessors of two properties for the same shortcut, and in no other way.
-/

namespace ZephirPhp

open PseudoMethod (sameName)

/-! ## Names without case -/

/-- A name with its ASCII letters in lower case. -/
def lowered (name : String) : List Char :=
  name.toList.map Char.toLower

theorem sameName_eq_false_iff (left right : String) :
    sameName left right = false ↔ lowered left ≠ lowered right := by
  rw [sameName, beq_eq_false_iff_ne]
  rfl

/-- No two of the methods are one to PHP. -/
def DeclaredOnce (methods : List Method) : Prop :=
  methods.Pairwise fun method other => sameName method.name other.name = false

instance (methods : List Method) : Decidable (DeclaredOnce methods) :=
  inferInstanceAs (Decidable (methods.Pairwise _))

theorem declaredOnce_iff (methods : List Method) :
    DeclaredOnce methods ↔ ((methods.map (·.name)).map lowered).Nodup := by
  simp only [DeclaredOnce, sameName_eq_false_iff, List.Nodup, List.pairwise_map]

/-! ## Accessors -/

/-- Accessors are one to PHP if their shortcuts are the same, and so are the parts of
their names that come from the property. -/
theorem lowered_accessorName_eq_iff (property other : Property)
    {shortcut second : Shortcut} (known : shortcut.IsKnown)
    (secondKnown : second.IsKnown) :
    lowered (property.accessorName shortcut) = lowered (other.accessorName second) ↔
      shortcut.name = second.name ∧ (shortcut.name = "toString" ∨
        lowered (Text.capitalize property.name) =
          lowered (Text.capitalize other.name)) := by
  simp only [Shortcut.IsKnown, List.mem_cons, List.not_mem_nil, or_false]
    at known secondKnown
  rcases known with first | first | first <;>
    rcases secondKnown with last | last | last <;>
    simp [Property.accessorName, first, last, lowered]

/-- The accessors of one property are never one to PHP. -/
theorem Property.ShortcutsAllowed.lowered_nodup {property : Property}
    (allowed : property.ShortcutsAllowed) :
    ((property.shortcuts.map property.accessorName).map lowered).Nodup := by
  have distinct := allowed.distinct
  rw [List.Nodup, List.pairwise_map] at distinct
  rw [List.map_map, List.Nodup, List.pairwise_map]
  refine distinct.imp_of_mem
    fun {shortcut second} member secondMember different same => ?_
  exact different ((lowered_accessorName_eq_iff property property
    (allowed.known shortcut member) (allowed.known second secondMember)).mp same).1

/-- The properties do not use one shortcut under names that are the same to PHP. -/
def Property.Distinguished (property other : Property) : Prop :=
  ∀ shortcut ∈ property.shortcuts, ∀ second ∈ other.shortcuts,
    shortcut.name = second.name →
    sameName (Text.capitalize property.name) (Text.capitalize other.name) = false

instance (property other : Property) : Decidable (property.Distinguished other) :=
  inferInstanceAs (Decidable (∀ shortcut ∈ property.shortcuts, ∀ second ∈ other.shortcuts,
    shortcut.name = second.name → _))

/-- Once names are not the same in their very spelling, two shortcuts `toString` are out
of the question. -/
theorem Property.distinguished_iff {property other : Property}
    (allowed : property.ShortcutsAllowed) (otherAllowed : other.ShortcutsAllowed)
    (disjoint : (property.shortcuts.map property.accessorName).Disjoint
      (other.shortcuts.map other.accessorName)) :
    property.Distinguished other ↔
      ((property.shortcuts.map property.accessorName).map lowered).Disjoint
        ((other.shortcuts.map other.accessorName).map lowered) := by
  have same {shortcut second : Shortcut} (member : shortcut ∈ property.shortcuts)
      (secondMember : second ∈ other.shortcuts) :=
    lowered_accessorName_eq_iff property other (allowed.known shortcut member)
      (otherAllowed.known second secondMember)
  rw [List.map_map, List.map_map]
  constructor
  · intro distinguished name here there
    rcases List.mem_map.mp here with ⟨shortcut, member, rfl⟩
    rcases List.mem_map.mp there with ⟨second, secondMember, equal⟩
    rcases (same member secondMember).mp equal.symm with
      ⟨sameShortcut, toString | samePart⟩
    · have spelled : property.accessorName shortcut = other.accessorName second := by
        rw [accessorName, accessorName, if_pos toString, if_pos (sameShortcut ▸ toString)]
      exact disjoint (List.mem_map_of_mem member)
        (spelled ▸ List.mem_map_of_mem secondMember)
    · exact (sameName_eq_false_iff _ _).mp
        (distinguished shortcut member second secondMember sameShortcut) samePart
  · intro apart shortcut member second secondMember sameShortcut
    rw [sameName_eq_false_iff]
    intro samePart
    have equal := (same member secondMember).mpr ⟨sameShortcut, .inr samePart⟩
    exact apart (List.mem_map_of_mem member)
      (List.mem_map.mpr ⟨second, secondMember, equal.symm⟩)

theorem lowered_accessorNames_nodup_iff {properties : List Property}
    (allowed : ∀ property ∈ properties, property.ShortcutsAllowed)
    (distinct : (accessorNames properties).Nodup) :
    ((accessorNames properties).map lowered).Nodup ↔
      properties.Pairwise Property.Distinguished := by
  have disjoint := (List.nodup_flatMap.mp distinct).2
  rw [accessorNames, List.map_flatMap, List.nodup_flatMap,
    and_iff_right fun property member => (allowed property member).lowered_nodup]
  constructor
  · intro apart
    refine (apart.and disjoint).imp_of_mem
      fun {property other} member otherMember both => ?_
    exact (Property.distinguished_iff (allowed property member)
      (allowed other otherMember)
      both.2).mpr both.1
  · intro distinguished
    refine (distinguished.and disjoint).imp_of_mem
      fun {property other} member otherMember both => ?_
    exact (Property.distinguished_iff (allowed property member)
      (allowed other otherMember)
      both.2).mp both.1

/-! ## Expanded classes -/

/-- The methods of an expanded class, if those of the class are declared once. -/
theorem ClassDefinition.Expandable.declaredOnce_withAccessors_iff
    {definition : ClassDefinition} (expandable : definition.Expandable)
    (once : DeclaredOnce definition.methods) :
    DeclaredOnce definition.withAccessors.methods ↔
      (∀ method ∈ definition.methods, ∀ name ∈ accessorNames definition.properties,
        sameName method.name name = false) ∧
      definition.properties.Pairwise Property.Distinguished := by
  rw [declaredOnce_iff] at once
  rw [declaredOnce_iff, withAccessors, List.map_append,
    map_name_accessorsOf expandable.shortcuts, List.map_append, List.nodup_append',
    and_iff_right once,
    lowered_accessorNames_nodup_iff expandable.shortcuts expandable.distinct,
    and_comm]
  refine and_congr_left fun _ => ?_
  simp only [sameName_eq_false_iff]
  constructor
  · intro disjoint method member name named same
    exact disjoint (List.mem_map_of_mem (List.mem_map_of_mem member))
      (List.mem_map.mpr ⟨name, named, same.symm⟩)
  · intro apart folded here there
    rw [List.map_map] at here
    rcases List.mem_map.mp here with ⟨method, member, rfl⟩
    rcases List.mem_map.mp there with ⟨name, named, same⟩
    exact apart method member name named same.symm

/-- Expanding shortcuts keeps the methods of a class apart to PHP exactly if no accessor
has the name of a method of the class up to case, and no two properties use one shortcut
under names that are the same up to case once their first letter is in upper case. -/
theorem inlineShortcuts_declaredOnce_iff {program result : Program} {index : Nat}
    {definition : ClassDefinition}
    (present : program.entries[index]? = some (.classDefinition definition))
    (once : DeclaredOnce definition.methods)
    (done : Phase.inlineShortcuts.run program = .ok result) :
    ∃ expanded, result.entries[index]? = some (.classDefinition expanded) ∧
      (DeclaredOnce expanded.methods ↔
        (∀ method ∈ definition.methods, ∀ name ∈ accessorNames definition.properties,
          sameName method.name name = false) ∧
        definition.properties.Pairwise Property.Distinguished) := by
  rcases (program.inlineShortcuts_eq_ok_iff result).mp done with ⟨expandable, rfl⟩
  refine ⟨definition.withAccessors, ?_, ?_⟩
  · rw [List.getElem?_map, present]
    rfl
  · have member := List.mem_of_getElem? present
    exact (expandable definition member).declaredOnce_withAccessors_iff once

/-- The getters of two properties come out as one method, since the first letter of one
has an upper case of two letters. -/
theorem inlineShortcuts_declaredOnce_iff_of_sharp :
    let sharp := classWith [("ßa", ["get"]), ("ssa", ["get"])] ["run"]
    ∃ expanded : ClassDefinition,
      Phase.inlineShortcuts.run ⟨[.classDefinition sharp]⟩ =
        .ok ⟨[.classDefinition expanded]⟩ ∧
        expanded.methods.map (·.name) = ["run", "getSSa", "getSsa"] ∧
        ¬ DeclaredOnce expanded.methods := by
  intro sharp
  have present : (⟨[.classDefinition sharp]⟩ : Program).entries[0]? =
      some (.classDefinition sharp) := rfl
  have done : Phase.inlineShortcuts.run ⟨[.classDefinition sharp]⟩ =
      .ok ⟨[.classDefinition sharp.withAccessors]⟩ := by rfl
  rcases inlineShortcuts_declaredOnce_iff present (by decide) done with
    ⟨expanded, found, once⟩
  have same : sharp.withAccessors = expanded := by simpa using found
  refine ⟨expanded, same ▸ done, same ▸ by decide, fun declared => ?_⟩
  exact absurd (once.mp declared).2 (by decide)

/-- A method `getname` and a property `name` with a getter. -/
theorem accessor_redeclares_method :
    let definition := classWith [("name", ["get"])] ["getname"]
    DeclaredOnce definition.methods ∧
      Phase.inlineShortcuts.run ⟨[.classDefinition definition]⟩ =
        .ok ⟨[.classDefinition definition.withAccessors]⟩ ∧
      definition.withAccessors.methods.map (·.name) = ["getname", "getName"] ∧
      ¬ DeclaredOnce definition.withAccessors.methods :=
  ⟨by decide, by rfl, by decide, by decide⟩

end ZephirPhp
