import ZephirPhp.Pipeline.Stage
import ZephirPhp.Proofs.Emission.Docblocks
import ZephirPhp.Proofs.Runs

/-! # The order of phases

Attaching comments looks at docblocks and expanding shortcuts at members, so it does not
matter which of the two comes first. What comes out of both is settled: no comment stands
before a definition that would take it, and no property asks for an accessor. A settled
program stays as it is.
-/

namespace ZephirPhp

/-! ## Attaching comments twice -/

namespace Entry

variable {entry documented : Entry} {text : String}

/-- A definition takes one docblock. -/
theorem documented?_documented (taken : entry.documented? text = some documented)
    (other : String) : documented.documented? other = none := by
  rcases documented?_cases taken with ⟨definition, _, _, rfl⟩ | ⟨definition, _, _, rfl⟩
  · rfl
  · rfl

theorem isComment_documented (taken : entry.documented? text = some documented) :
    documented.isComment = false := by
  rcases documented?_cases taken with ⟨definition, _, _, rfl⟩ | ⟨definition, _, _, rfl⟩
  · rfl
  · rfl

end Entry

/-- The first entry, if there is one, does not take the comment as its docblock. -/
def Declines (text : String) (entries : List Entry) : Prop :=
  ∀ next ∈ entries.head?, next.documented? text = none

namespace Attached

variable {entry : Entry} {entries rest result other : List Entry}

/-- Looking ahead leaves no choice. -/
theorem unique (attached : Attached entries result) (another : Attached entries other) :
    result = other := by
  induction attached generalizing other with
  | nil =>
      cases another
      rfl
  | docblock lacking later induction =>
      cases another with
      | docblock lackingToo laterToo =>
          rw [lacking, Option.some.injEq] at lackingToo
          rw [lackingToo, induction laterToo]
      | kept alone laterToo =>
          rw [alone _ _ rfl _ rfl] at lacking
          cases lacking
  | kept alone later induction =>
      cases another with
      | docblock lacking laterToo =>
          rw [alone _ _ rfl _ rfl] at lacking
          cases lacking
      | kept aloneToo laterToo => rw [induction laterToo]

/-- What declines a comment does so once other comments are attached. -/
theorem declines {text : String} (attached : Attached entries result)
    (declined : Declines text entries) : Declines text result := by
  intro next first
  cases attached with
  | nil => cases first
  | docblock lacking later =>
      cases first
      exact Entry.documented?_documented lacking text
  | kept alone later =>
      cases first
      exact declined _ rfl

/-- No comment that is left can be attached. -/
theorem settled (attached : Attached entries result) : Attached result result := by
  induction attached with
  | nil => exact .nil
  | docblock lacking later induction =>
      exact .keep (Entry.isComment_documented lacking) induction
  | kept alone later induction =>
      exact .kept (fun location text same =>
        later.declines (alone location text same)) induction

end Attached

theorem attachComments_eq_iff (entries result : List Entry) :
    attachComments none entries = result ↔ Attached entries result := by
  constructor
  · rintro rfl
    exact attachComments_attached none entries
  · exact (attachComments_attached none entries).unique

/-! ## Comments and shortcuts -/

namespace ClassDefinition

/-- Shortcuts are expanded without a look at the docblock. -/
theorem expandShortcuts_docblock (definition : ClassDefinition)
    (docblock : Option String) :
    ({ definition with docblock } : ClassDefinition).expandShortcuts =
      (fun expanded => { expanded with docblock }) <$> definition.expandShortcuts := by
  simp only [expandShortcuts]
  cases addAccessors definition.methods definition.properties with
  | error diagnostic => rfl
  | ok methods => rfl

end ClassDefinition

namespace Entry

variable {entry expanded documented : Entry}

@[simp] theorem expandShortcuts_comment (location : Location) (text : String) :
    (comment location text).expandShortcuts = .ok (.comment location text) := rfl

/-- Expanding makes no comments. -/
theorem eq_comment_of_expandShortcuts {location : Location} {text : String}
    (expansion : entry.expandShortcuts = .ok (.comment location text)) :
    entry = .comment location text := by
  cases entry with
  | classDefinition definition =>
      rcases (Except.bind_eq_ok_iff _ _ _).mp expansion with ⟨changed, _, impossible⟩
      cases impossible
  | comment place content =>
      cases expansion
      rfl
  | _ => cases expansion

/-- A definition takes a docblock before its shortcuts are expanded just as it does
afterwards. -/
theorem expandShortcuts_documented {text : String}
    (taken : entry.documented? text = some documented) :
    Except.Alike Eq (fun expanded both => expanded.documented? text = some both)
      entry.expandShortcuts documented.expandShortcuts := by
  rcases documented?_cases taken with
    ⟨definition, lacking, rfl, rfl⟩ | ⟨definition, lacking, rfl, rfl⟩
  · simp only [expandShortcuts, definition.expandShortcuts_docblock (some text)]
    cases expansion : definition.expandShortcuts with
    | error diagnostic => exact .error rfl
    | ok changed =>
        have kept : changed.docblock = none := by
          rcases (Except.bind_eq_ok_iff _ _ _).mp expansion with ⟨methods, _, same⟩
          cases same
          exact lacking
        exact .ok (by simp [documented?, kept])
  · exact .ok taken

theorem documented?_of_expandShortcuts (expansion : entry.expandShortcuts = .ok expanded)
    {text : String} (declined : entry.documented? text = none) :
    expanded.documented? text = none := by
  cases entry with
  | classDefinition definition =>
      rcases (Except.bind_eq_ok_iff _ _ _).mp expansion with ⟨changed, expansion, same⟩
      rcases (Except.bind_eq_ok_iff _ _ _).mp expansion with ⟨methods, _, same⟩
      cases same
      cases same
      cases present : definition.docblock with
      | none => simp [documented?, present] at declined
      | some docblock => rfl
  | _ =>
      cases expansion
      exact declined

end Entry

/-- Expanding shortcuts does not make an entry take a comment that it declined. -/
theorem Declines.expandShortcuts {text : String} {entries expanded : List Entry}
    (declined : Declines text entries)
    (expansion : entries.mapM Entry.expandShortcuts = .ok expanded) :
    Declines text expanded := by
  cases entries with
  | nil =>
      cases expansion
      exact declined
  | cons entry rest =>
      rw [List.mapM_cons, Except.bind_eq_ok_iff] at expansion
      rcases expansion with ⟨first, expansion, remaining⟩
      rcases (Except.bind_eq_ok_iff _ _ _).mp remaining with ⟨others, _, same⟩
      cases same
      rintro next ⟨⟩
      exact Entry.documented?_of_expandShortcuts expansion (declined entry rfl)

/-- Comments are attached to expanded entries as to the entries themselves, and the same
fault stops the expansion. -/
theorem Attached.expandShortcuts {entries result : List Entry}
    (attached : Attached entries result) :
    Except.Alike Eq Attached (entries.mapM Entry.expandShortcuts)
      (result.mapM Entry.expandShortcuts) := by
  induction attached with
  | nil => exact .ok .nil
  | docblock lacking later induction =>
      simp only [List.mapM_cons, Entry.expandShortcuts_comment, Except.ok_bind,
        bind_assoc, pure_bind]
      refine .bind (Entry.expandShortcuts_documented lacking)
        fun expanded both taken => ?_
      exact .bind induction fun _ _ rest => .ok (.docblock taken rest)
  | @kept entry rest result alone later induction =>
      simp only [List.mapM_cons]
      cases first : entry.expandShortcuts with
      | error diagnostic => exact .error rfl
      | ok expanded =>
          generalize others : result.mapM Entry.expandShortcuts = final at induction ⊢
          cases remaining : rest.mapM Entry.expandShortcuts with
          | error diagnostic =>
              rw [remaining] at induction
              cases induction with
              | error same => exact .error same
          | ok changed =>
              rw [remaining] at induction
              cases induction with
              | ok attached =>
                  refine .ok (.kept ?_ attached)
                  rintro location text rfl
                  have comment := Entry.eq_comment_of_expandShortcuts first
                  exact Declines.expandShortcuts (alone location text comment) remaining

/-! ## Settled programs -/

/-- No property of the entry asks for an accessor. -/
def Entry.Expanded : Entry → Prop
  | .classDefinition definition =>
    ∀ property ∈ definition.properties, property.shortcuts = []
  | _ => True

/-- There is no comment to attach and no shortcut to expand. -/
structure Program.Settled (program : Program) : Prop where
  comments : Attached program.entries program.entries
  shortcuts : ∀ entry ∈ program.entries, entry.Expanded

theorem addAccessors_of_expanded (methods : List Method) {properties : List Property}
    (expanded : ∀ property ∈ properties, property.shortcuts = []) :
    addAccessors methods properties = .ok methods := by
  induction properties with
  | nil => rfl
  | cons property rest induction =>
      rw [List.forall_mem_cons] at expanded
      rw [addAccessors, expanded.1]
      exact induction expanded.2

namespace Entry

theorem expandShortcuts_of_expanded {entry : Entry} (expanded : entry.Expanded) :
    entry.expandShortcuts = .ok entry := by
  cases entry with
  | classDefinition definition =>
      have same : ∀ property ∈ definition.properties,
          ({ property with shortcuts := [] } : Property) = id property := by
        intro property member
        rw [← expanded property member]
        rfl
      have properties : (definition.properties.map fun property =>
          ({ property with shortcuts := [] } : Property)) = definition.properties :=
        (List.map_congr_left same).trans (List.map_id _)
      rw [expandShortcuts, ClassDefinition.expandShortcuts, properties,
        addAccessors_of_expanded definition.methods expanded]
      rfl
  | _ => rfl

theorem expandShortcuts_expanded (entry : Entry) :
    Except.Ensures Expanded entry.expandShortcuts := by
  cases entry with
  | classDefinition definition =>
      have emptied : Except.Ensures (fun changed : ClassDefinition =>
          ∀ property ∈ changed.properties, property.shortcuts = [])
            definition.expandShortcuts :=
        .after fun methods => .ok (by simp)
      exact .bind emptied fun changed expanded => .ok expanded
  | _ => exact .ok trivial

theorem mapM_expandShortcuts_of_expanded {entries : List Entry}
    (expanded : ∀ entry ∈ entries, entry.Expanded) :
    entries.mapM expandShortcuts = .ok entries := by
  induction entries with
  | nil => rfl
  | cons entry rest induction =>
      rw [List.forall_mem_cons] at expanded
      rw [List.mapM_cons, expandShortcuts_of_expanded expanded.1, induction expanded.2]
      rfl

end Entry

namespace Program

theorem inlineComments_attached (program : Program) :
    Attached program.entries program.inlineComments.entries :=
  attachComments_attached none program.entries

theorem process_standard (program : Program) :
    program.process Phase.standard = program.inlineComments.inlineShortcuts := by
  simp only [process, Phase.standard, List.foldlM_cons, List.foldlM_nil, bind_pure]
  rfl

theorem process_reversed (program : Program) :
    program.process Phase.standard.reverse =
      inlineComments <$> program.inlineShortcuts := by
  rw [map_eq_pure_bind]
  rfl

/-- It does not matter whether comments are attached before or after shortcuts are
expanded. -/
theorem inlineShortcuts_inlineComments (program : Program) :
    program.inlineComments.inlineShortcuts =
      inlineComments <$> program.inlineShortcuts := by
  have alike := program.inlineComments_attached.expandShortcuts
  rw [inlineShortcuts, inlineShortcuts]
  generalize program.entries.mapM Entry.expandShortcuts = expanded at alike ⊢
  generalize program.inlineComments.entries.mapM Entry.expandShortcuts = result at alike ⊢
  cases alike with
  | ok attached =>
      rw [← (attachComments_eq_iff _ _).mpr attached]
      rfl
  | error same =>
      rw [same]
      rfl

theorem settled_of_process {program processed : Program}
    (done : program.process Phase.standard = .ok processed) : processed.Settled := by
  rw [process_standard, inlineShortcuts, Except.bind_eq_ok_iff] at done
  rcases done with ⟨entries, expansion, same⟩
  cases same
  have alike := program.inlineComments_attached.settled.expandShortcuts
  rw [expansion] at alike
  cases alike with
  | ok attached =>
      exact ⟨attached,
        Except.Ensures.mapM (fun entry _ => entry.expandShortcuts_expanded)
          entries expansion⟩

/-- A program stays as it is exactly if it is settled. -/
theorem process_eq_self_iff (program : Program) :
    program.process Phase.standard = .ok program ↔ program.Settled := by
  constructor
  · exact settled_of_process
  · intro settled
    have attached : program.inlineComments = program := by
      rw [inlineComments, (attachComments_eq_iff _ _).mpr settled.comments]
    rw [process_standard, attached, inlineShortcuts,
      Entry.mapM_expandShortcuts_of_expanded settled.shortcuts]
    rfl

end Program

/-- The stage turns a program into the processed one and has nothing to report. -/
theorem Stage.process_compile_eq_ok_iff (program : Program) (unit : CompilationUnit)
    (journal after : Journal) :
    Stage.process.compile (.ast program) journal = .ok unit after ↔
      ∃ processed, program.process Phase.standard = .ok processed ∧
        unit = .ast processed ∧
        after = journal := by
  simp only [Stage.process]
  cases program.process Phase.standard with
  | error diagnostic => simp
  | ok processed => simp [eq_comm]

/-- Comments are attached before shortcuts are expanded or afterwards, with the same
program or the same fault. What the stage of the two makes of a program is settled, and
running the stage again makes nothing else of it. -/
theorem phases_commute_and_settle (program : Program) :
    program.process [.inlineComments, .inlineShortcuts] =
        program.process [.inlineShortcuts, .inlineComments] ∧
      ∀ journal unit after,
        Stage.process.compile (.ast program) journal = .ok unit after →
        (∃ processed, unit = .ast processed ∧ processed.Settled) ∧
          Stage.process.compile unit after = .ok unit after := by
  constructor
  · exact (program.process_standard.trans program.inlineShortcuts_inlineComments).trans
      program.process_reversed.symm
  · intro journal unit after done
    rcases (Stage.process_compile_eq_ok_iff _ _ _ _).mp done with
      ⟨processed, processing, rfl, rfl⟩
    have settled := Program.settled_of_process processing
    exact ⟨⟨processed, rfl, settled⟩, (Stage.process_compile_eq_ok_iff _ _ _ _).mpr
      ⟨processed, processed.process_eq_self_iff.mpr settled, rfl, rfl⟩⟩

/-- Two comments before a class with a property that can be read. -/
def remarked : Program where
  entries := [.comment .unknown "* first *", .comment .unknown "* second *",
    .classDefinition {
      name := "C", isAbstract := false, isFinal := false, parent := none, interfaces := []
      docblock := none, constants := [], methods := [], location := .unknown
      properties := [⟨[], "p", none, [⟨"get", .unknown⟩], none, .unknown⟩] }]

def remarkedSettled : Program where
  entries := [.comment .unknown "* first *",
    .classDefinition {
      name := "C", isAbstract := false, isFinal := false, parent := none, interfaces := []
      docblock := some "* second *", constants := [], location := .unknown
      properties := [⟨[], "p", none, [], none, .unknown⟩]
      methods := [⟨["public"], "getP", [], some [.returnValue .unknown
        (some (.property .unknown (.atom .unknown (.variable "this")) "p"))], none,
          .unknown⟩] }]

/-- The first comment stands right before a class in the end, which has its docblock
then. -/
theorem phases_commute_and_settle_of_remarked :
    remarked.process [.inlineShortcuts, .inlineComments] = .ok remarkedSettled ∧
      Stage.process.compile (.ast remarked) {} = .ok (.ast remarkedSettled) {} ∧
      Stage.process.compile (.ast remarkedSettled) {} =
        .ok (.ast remarkedSettled) {} := by
  have processed : remarked.process Phase.standard = .ok remarkedSettled := rfl
  have compiled : Stage.process.compile (.ast remarked) {} =
      .ok (.ast remarkedSettled) {} :=
    (Stage.process_compile_eq_ok_iff _ _ _ _).mpr ⟨_, processed, rfl, rfl⟩
  have outcome := phases_commute_and_settle remarked
  exact ⟨outcome.1.symm.trans processed, compiled, (outcome.2 {} _ {} compiled).2⟩

end ZephirPhp
