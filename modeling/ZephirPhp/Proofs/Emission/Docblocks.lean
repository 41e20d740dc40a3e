import ZephirPhp.Emission.Definition
import ZephirPhp.Program.Phase

/-! # Comments as docblocks

A comment is written where it stands and a docblock right before its definition, so a
file does not show which of the two a remark was. `Attached` says which comments become
docblocks by looking ahead, entry by entry, while the phase itself looks back at the
comment it has passed last.
-/

namespace ZephirPhp

namespace Entry

def isComment : Entry → Bool
  | .comment _ _ => true
  | _ => false

/-- A class or an interface without a docblock, with this one. -/
def documented? (text : String) : Entry → Option Entry
  | .classDefinition definition =>
    match definition.docblock with
    | none => some (.classDefinition { definition with docblock := some text })
    | some _ => none
  | .interfaceDefinition definition =>
    match definition.docblock with
    | none => some (.interfaceDefinition { definition with docblock := some text })
    | some _ => none
  | _ => none

/-- The entry without the docblock that a class or an interface may have. -/
def undocumented : Entry → Entry
  | .classDefinition definition => .classDefinition { definition with docblock := none }
  | .interfaceDefinition definition =>
    .interfaceDefinition { definition with docblock := none }
  | entry => entry

/-- The text of a comment, or of the docblock of a class or an interface. -/
def remark : Entry → Option String
  | .comment _ text => some text
  | .classDefinition definition => definition.docblock
  | .interfaceDefinition definition => definition.docblock
  | _ => none

/-- Only a class or an interface without a docblock takes one. -/
theorem documented?_cases {text : String} {entry documented : Entry}
    (lacking : entry.documented? text = some documented) :
    (∃ definition : ClassDefinition, definition.docblock = none ∧
      entry = .classDefinition definition ∧
      documented = .classDefinition { definition with docblock := some text }) ∨
    ∃ definition : InterfaceDefinition, definition.docblock = none ∧
      entry = .interfaceDefinition definition ∧
      documented = .interfaceDefinition { definition with docblock := some text } := by
  cases entry with
  | classDefinition definition =>
      cases present : definition.docblock with
      | some text => simp [documented?, present] at lacking
      | none =>
          simp only [documented?, present, Option.some.injEq] at lacking
          exact .inl ⟨definition, present, rfl, lacking.symm⟩
  | interfaceDefinition definition =>
      cases present : definition.docblock with
      | some text => simp [documented?, present] at lacking
      | none =>
          simp only [documented?, present, Option.some.injEq] at lacking
          exact .inr ⟨definition, present, rfl, lacking.symm⟩
  | _ => cases lacking

end Entry

/-- The second list has the entries of the first, except that a comment and a definition
right after it that lacks a docblock have become one. -/
inductive Attached : List Entry → List Entry → Prop
  | nil : Attached [] []
  | docblock {location : Location} {text : String} {entry documented : Entry}
      {rest result : List Entry} (lacking : entry.documented? text = some documented)
      (later : Attached rest result) :
      Attached (.comment location text :: entry :: rest) (documented :: result)
  | kept {entry : Entry} {rest result : List Entry}
      (alone : ∀ location text, entry = .comment location text →
        ∀ next ∈ rest.head?, next.documented? text = none)
      (later : Attached rest result) :
      Attached (entry :: rest) (entry :: result)

namespace Attached

variable {entry : Entry} {entries rest result : List Entry}

theorem keep (other : entry.isComment = false) (later : Attached rest result) :
    Attached (entry :: rest) (entry :: result) := by
  refine kept ?_ later
  rintro location text rfl
  cases other

/-- A comment that waits before an entry that takes none stays a comment. -/
theorem release (pending : Option PendingComment)
    (taken : ∀ comment ∈ pending, entry.documented? comment.text = none)
    (later : Attached (entry :: rest) result) :
    Attached (PendingComment.release pending ++ entry :: rest)
      (PendingComment.release pending ++ result) := by
  cases pending with
  | none => exact later
  | some comment =>
      refine kept ?_ later
      rintro location text same next member
      cases same
      cases member
      exact taken comment rfl

/-! ## What is kept -/

/-- The entries that are no comments stay in their order, and only docblocks are new. -/
theorem map_undocumented (attached : Attached entries result) :
    (result.filter (!·.isComment)).map Entry.undocumented =
      (entries.filter (!·.isComment)).map Entry.undocumented := by
  induction attached with
  | nil => rfl
  | @docblock location text entry documented rest result lacking later induction =>
      have same : documented.isComment = false ∧ entry.isComment = false ∧
          documented.undocumented = entry.undocumented := by
        rcases Entry.documented?_cases lacking with ⟨_, _, rfl, rfl⟩ | ⟨_, _, rfl, rfl⟩
        · exact ⟨rfl, rfl, rfl⟩
        · exact ⟨rfl, rfl, rfl⟩
      have comment : (Entry.comment location text).isComment = true := rfl
      simp [same, comment, induction]
  | kept alone later induction =>
      simp only [List.filter_cons]
      split
      · rw [List.map_cons, List.map_cons, induction]
      · exact induction

/-- Every remark is there as often as before, and in the same order. -/
theorem filterMap_remark (attached : Attached entries result) :
    result.filterMap Entry.remark = entries.filterMap Entry.remark := by
  induction attached with
  | nil => rfl
  | @docblock location text entry documented rest result lacking later induction =>
      have moved : documented.remark = some text ∧ entry.remark = none := by
        rcases Entry.documented?_cases lacking with
          ⟨_, none, rfl, rfl⟩ | ⟨_, none, rfl, rfl⟩
        · exact ⟨rfl, none⟩
        · exact ⟨rfl, none⟩
      have comment : (Entry.comment location text).remark = some text := rfl
      simp [moved, comment, induction]
  | kept alone later induction => rw [List.filterMap_cons, List.filterMap_cons, induction]

/-! ## What is written -/

/-- A definition with a docblock is written like the comment and then the definition. -/
theorem emitEntry_documented (setting : Setting) {text : String} {documented : Entry}
    (lacking : entry.documented? text = some documented) :
    emitEntry setting documented = (do
      Emission.comment text
      emitEntry setting entry) := by
  rcases Entry.documented?_cases lacking with
    ⟨definition, none, rfl, rfl⟩ | ⟨definition, none, rfl, rfl⟩
  · simp only [emitEntry, emitClass, Emission.docblock, none, bind_assoc, pure_bind]
    rfl
  · simp only [emitEntry, emitInterface, Emission.docblock, none, bind_assoc, pure_bind]
    rfl

theorem forM_emitEntry (setting : Setting) (attached : Attached entries result) :
    result.forM (emitEntry setting) = entries.forM (emitEntry setting) := by
  induction attached with
  | nil => rfl
  | docblock lacking later induction =>
      simp only [List.forM, emitEntry_documented setting lacking, induction, bind_assoc]
      rfl
  | kept alone later induction => rw [List.forM, List.forM, induction]

end Attached

/-! ## The phase -/

/-- The comment that waits is the last entry before those that are still to come. -/
theorem attachComments_attached (pending : Option PendingComment) (entries : List Entry) :
    Attached (PendingComment.release pending ++ entries)
      (attachComments pending entries) := by
  induction entries generalizing pending with
  | nil =>
      rw [attachComments, List.append_nil]
      cases pending with
      | none => exact .nil
      | some comment => exact .kept (by simp) .nil
  | cons first rest induction =>
      have later : Attached rest (attachComments none rest) := induction none
      cases first with
      | comment location text =>
          exact .release pending (fun _ _ => rfl) (induction (some ⟨location, text⟩))
      | classDefinition definition =>
          cases present : definition.docblock with
          | some text =>
              have full (text : String) :
                  (Entry.classDefinition definition).documented? text = none := by
                simp [Entry.documented?, present]
              simp only [attachComments, present]
              exact .release pending (fun comment _ => full comment.text)
                (.keep rfl later)
          | none =>
              simp only [attachComments, present]
              cases pending with
              | none => exact .keep rfl later
              | some comment =>
                  exact .docblock (by simp [Entry.documented?, present]) later
      | interfaceDefinition definition =>
          cases present : definition.docblock with
          | some text =>
              have full (text : String) :
                  (Entry.interfaceDefinition definition).documented? text = none := by
                simp [Entry.documented?, present]
              simp only [attachComments, present]
              exact .release pending (fun comment _ => full comment.text)
                (.keep rfl later)
          | none =>
              simp only [attachComments, present]
              cases pending with
              | none => exact .keep rfl later
              | some comment =>
                  exact .docblock (by simp [Entry.documented?, present]) later
      | namespaceName location name =>
          exact .release pending (fun _ _ => rfl) (.keep rfl later)
      | imports location imports =>
          exact .release pending (fun _ _ => rfl) (.keep rfl later)
      | functionDefinition definition =>
          exact .release pending (fun _ _ => rfl) (.keep rfl later)
      | statement statement =>
          exact .release pending (fun _ _ => rfl) (.keep rfl later)

/-- Making comments docblocks never fails and changes neither the file nor the fault
that a program leads to, nor the warnings. A comment becomes a docblock exactly if a
definition that lacks one follows it; all else stays in its order, and no remark is
lost or doubled. -/
theorem inlineComments_keeps_file (setting : Setting) (program : Program) :
    ∃ processed : Program, Phase.inlineComments.run program = .ok processed ∧
      processed.toPhp setting = program.toPhp setting ∧
      Attached program.entries processed.entries ∧
      (processed.entries.filter (!·.isComment)).map Entry.undocumented =
        (program.entries.filter (!·.isComment)).map Entry.undocumented ∧
      processed.entries.filterMap Entry.remark =
        program.entries.filterMap Entry.remark := by
  have attached : Attached program.entries program.inlineComments.entries :=
    attachComments_attached none program.entries
  have written : emitProgram setting program.inlineComments =
      emitProgram setting program := by
    rw [emitProgram, emitProgram, attached.forM_emitEntry setting]
  refine ⟨program.inlineComments, rfl, ?_, attached, attached.map_undocumented,
    attached.filterMap_remark⟩
  rw [Program.toPhp, Program.toPhp, written]

end ZephirPhp
