import ZephirPhp.Program.Phase
import ZephirPhp.Proofs.Program.Assignments
import ZephirPhp.Proofs.Sequencing

/-! # Phases keep programs well-formed

Attaching comments changes no assignment, and the accessors that shortcuts ask for have
complete assignments of their own.
-/

namespace ZephirPhp

open Survey (lets)

theorem PendingComment.release_wellFormed (pending : Option PendingComment) :
    ∀ entry ∈ PendingComment.release pending, entry.WellFormed := by
  cases pending with
  | none => exact fun entry member => nomatch member
  | some comment =>
      intro entry member
      rw [PendingComment.release, List.mem_singleton] at member
      subst member
      exact ⟨nofun, AllComplete.nil⟩

theorem attachComments_wellFormed (pending : Option PendingComment) (entries : List Entry)
    (wellFormed : ∀ entry ∈ entries, entry.WellFormed) :
    ∀ entry ∈ attachComments pending entries, entry.WellFormed := by
  induction entries generalizing pending with
  | nil => exact PendingComment.release_wellFormed pending
  | cons first rest induction =>
      have firstWellFormed := wellFormed first List.mem_cons_self
      have later : ∀ pending, ∀ entry ∈ attachComments pending rest, entry.WellFormed :=
        fun pending => induction pending fun entry member =>
          wellFormed entry (List.mem_cons_of_mem first member)
      have released := PendingComment.release_wellFormed pending
      have kept : ∀ entry ∈
          PendingComment.release pending ++ first :: attachComments none rest,
          entry.WellFormed :=
        List.forall_mem_append.mpr ⟨released, List.forall_mem_cons.mpr
          ⟨firstWellFormed, later none⟩⟩
      cases first with
      | comment location text =>
          exact List.forall_mem_append.mpr ⟨released, later (some ⟨location, text⟩)⟩
      | classDefinition definition =>
          simp only [attachComments]
          split
          · exact List.forall_mem_cons.mpr
              ⟨⟨nofun, firstWellFormed.assignments⟩, later none⟩
          · exact kept
      | interfaceDefinition definition =>
          simp only [attachComments]
          split
          · exact List.forall_mem_cons.mpr
              ⟨⟨nofun, firstWellFormed.assignments⟩, later none⟩
          · exact kept
      | namespaceName location name => exact kept
      | imports location imports => exact kept
      | functionDefinition definition => exact kept
      | statement statement => exact kept

/-! ## Accessors -/

/-- The method is made for a shortcut of a property. -/
def Method.IsAccessor (method : Method) : Prop :=
  ∃ (property : Property) (shortcut : Shortcut), property.accessor? shortcut = some method

theorem Property.accessors_areAccessors (property : Property) (seen : List String)
    (shortcuts : List Shortcut) :
    Except.Ensures (fun methods => ∀ method ∈ methods, method.IsAccessor)
      (property.accessors seen shortcuts) := by
  induction shortcuts generalizing seen with
  | nil => exact .ok (by simp)
  | cons shortcut rest induction =>
      rw [Property.accessors]
      split
      · exact .error _
      · split
        · exact .error _
        · rename_i method found
          refine .bind (induction (shortcut.name :: seen)) fun methods accessors => .ok ?_
          exact List.forall_mem_cons.mpr ⟨⟨property, shortcut, found⟩, accessors⟩

theorem addMethods_appends (methods added : List Method) :
    Except.Ensures (fun extended => extended = methods ++ added)
      (addMethods methods added) := by
  induction added generalizing methods with
  | nil => exact .ok (List.append_nil methods).symm
  | cons method rest induction =>
      rw [addMethods]
      split
      · exact .error _
      · rw [List.append_cons]
        exact induction (methods ++ [method])

/-- Nothing but accessors is added to the methods of a class, and they come last. -/
theorem addAccessors_appends (methods : List Method) (properties : List Property) :
    Except.Ensures (fun extended => ∃ added, extended = methods ++ added ∧
        ∀ method ∈ added, method.IsAccessor)
      (addAccessors methods properties) := by
  induction properties generalizing methods with
  | nil => exact .ok ⟨[], (List.append_nil methods).symm, by simp⟩
  | cons property rest induction =>
      refine .bind (property.accessors_areAccessors [] property.shortcuts)
        fun accessors areAccessors => ?_
      refine .bind (addMethods_appends methods accessors) ?_
      rintro _ rfl extended done
      rcases induction _ extended done with ⟨added, rfl, othersToo⟩
      exact ⟨accessors ++ added, List.append_assoc _ _ _,
        List.forall_mem_append.mpr ⟨areAccessors, othersToo⟩⟩

theorem Method.IsAccessor.complete {method : Method} (isAccessor : method.IsAccessor) :
    AllComplete (lets.ofMethod () method) := by
  rcases isAccessor with ⟨property, shortcut, found⟩
  rw [Property.accessor?] at found
  split at found
  · cases found
    exact .nil
  · cases found
    exact .nil
  · cases found
    exact List.forall_mem_singleton.mpr ⟨rfl, rfl, fun _ => rfl⟩
  · cases found

theorem ClassDefinition.expandShortcuts_complete (definition : ClassDefinition)
    (complete : AllComplete (Entry.classDefinition definition).assignments) :
    Except.Ensures
      (fun definition => AllComplete (Entry.classDefinition definition).assignments)
      definition.expandShortcuts := by
  rcases (AllComplete.members_iff _ _ _).mp complete with ⟨constants, properties, methods⟩
  refine .bind (addAccessors_appends definition.methods definition.properties) ?_
  rintro _ ⟨added, rfl, accessors⟩
  refine .ok ((AllComplete.members_iff _ _ _).mpr
    ⟨constants, ?_, List.forall_mem_append.mpr
    ⟨methods, fun method member => (accessors method member).complete⟩⟩)
  intro property member
  rcases List.mem_map.mp member with ⟨original, originalMember, rfl⟩
  exact properties original originalMember

theorem Entry.expandShortcuts_wellFormed (entry : Entry) (wellFormed : entry.WellFormed) :
    Except.Ensures Entry.WellFormed entry.expandShortcuts := by
  cases entry with
  | classDefinition definition =>
      exact .bind (definition.expandShortcuts_complete wellFormed.assignments)
        fun definition complete => .ok ⟨nofun, complete⟩
  | comment location text => exact .ok wellFormed
  | namespaceName location name => exact .ok wellFormed
  | imports location imports => exact .ok wellFormed
  | interfaceDefinition definition => exact .ok wellFormed
  | functionDefinition definition => exact .ok wellFormed
  | statement statement => exact .ok wellFormed

/-! ## Phases -/

theorem Phase.run_wellFormed (phase : Phase) (program : Program)
    (wellFormed : program.WellFormed) :
    Except.Ensures Program.WellFormed (phase.run program) := by
  rw [Program.wellFormed_iff] at wellFormed
  cases phase with
  | inlineComments =>
      refine .ok ?_
      rw [Program.wellFormed_iff]
      exact attachComments_wellFormed none program.entries wellFormed
  | inlineShortcuts =>
      refine .bind (.mapM fun entry member =>
        entry.expandShortcuts_wellFormed (wellFormed entry member))
          fun entries complete => .ok ?_
      rw [Program.wellFormed_iff]
      exact complete

theorem Program.process_wellFormed (phases : List Phase) (program : Program)
    (wellFormed : program.WellFormed) :
    Except.Ensures Program.WellFormed (program.process phases) := by
  induction phases generalizing program with
  | nil => exact .ok wellFormed
  | cons phase rest induction =>
      rw [Program.process, List.foldlM_cons]
      exact .bind (phase.run_wellFormed program wellFormed) fun next => induction next

end ZephirPhp
