import Mathlib.Data.List.TakeWhile
import ZephirPhp.Proofs.Emission.Locality
import ZephirPhp.Proofs.Program.Decoded
import ZephirPhp.Proofs.Text.Mentions

/-! # What targets tell

The left-hand side of an assignment names the storage that is written to, then steps
into an array, then how it is written. The storage can be read off the text
(`readStorage_storage`), and so can the steps and the ending that follow it. Two
assignments of different forms therefore have the same target only if one of them may
have steps and has none.
-/

namespace ZephirPhp

open Text (Breaks isName isNameChar)

/-! ## Forms -/

namespace AssignmentForm

/-- The form that writes to the same storage as a whole. -/
def whole : AssignmentForm → AssignmentForm
  | .variable | .variableAppend | .arrayIndex | .arrayIndexAppend | .incr | .decr =>
    .variable
  | .objectProperty | .objectPropertyAppend | .objectPropertyArrayIndex
  | .objectPropertyArrayIndexAppend | .objectPropertyIncr | .objectPropertyDecr =>
    .objectProperty
  | .staticProperty | .staticPropertyAppend | .staticPropertyArrayIndex
  | .staticPropertyArrayIndexAppend => .staticProperty
  | form => form

/-- The form that differs at most in having no steps into an array. -/
def unindexed : AssignmentForm → AssignmentForm
  | .arrayIndex => .variable
  | .arrayIndexAppend => .variableAppend
  | .objectPropertyArrayIndex => .objectProperty
  | .objectPropertyArrayIndexAppend => .objectPropertyAppend
  | .staticPropertyArrayIndex => .staticProperty
  | .staticPropertyArrayIndexAppend => .staticPropertyAppend
  | form => form

theorem mem_all (form : AssignmentForm) : form ∈ all := by
  cases form <;> decide

/-- A form is made up of its storage, its ending and whether it has steps. -/
theorem unindexed_eq_iff (form other : AssignmentForm) :
    form.unindexed = other.unindexed ↔ form.whole = other.whole ∧
      form.ending = other.ending := by
  have each : ∀ form ∈ all, ∀ other ∈ all, form.unindexed = other.unindexed ↔
      form.whole = other.whole ∧ form.ending = other.ending := by
    decide
  exact each form form.mem_all other other.mem_all

theorem eq_of_unindexed {form other : AssignmentForm}
    (same : form.unindexed = other.unindexed)
    (both : form.takesIndex = other.takesIndex) : form = other := by
  have each : ∀ form ∈ all, ∀ other ∈ all, form.unindexed = other.unindexed →
      form.takesIndex = other.takesIndex → form = other := by
    decide
  exact each form form.mem_all other other.mem_all same both

theorem takesProperty_whole (form : AssignmentForm) :
    form.whole.takesProperty = form.takesProperty := by
  cases form <;> rfl

theorem storage_whole (form : AssignmentForm) (target property : String) :
    form.storage target property = form.whole.storage target property := by
  cases form <;> rfl

end AssignmentForm

/-! ## Reading storage off a text -/

/-- What a target writes to, as it is read off the target: the form that writes to it as a
whole, the variable, the property, and the rest of the text. -/
structure StorageReading where
  form : AssignmentForm
  target : List Char
  property : List Char
  rest : List Char

/-- The storage of an object, whose variable is read and whose property follows. -/
def readProperty (target : List Char) : List Char → StorageReading
  | '\x7b' :: '$' :: text =>
    ⟨.variableDynamicObjectProperty, target, text.takeWhile isNameChar,
      (text.dropWhile isNameChar).drop 1⟩
  | '\x7b' :: '"' :: text =>
    ⟨.stringDynamicObjectProperty, target, text.takeWhile isNameChar,
      (text.dropWhile isNameChar).drop 2⟩
  | text =>
    ⟨.objectProperty, target, text.takeWhile isNameChar, text.dropWhile isNameChar⟩

/-- The storage that a variable begins, once the variable is read. -/
def readVariable (target : List Char) : List Char → StorageReading
  | '-' :: '>' :: text => readProperty target text
  | text => ⟨.variable, target, [], text⟩

def readStorage : List Char → StorageReading
  | '$' :: '$' :: text =>
    ⟨.dynamicVariable, text.takeWhile isNameChar, [], text.dropWhile isNameChar⟩
  | '$' :: '\x7b' :: '"' :: text =>
    ⟨.dynamicVariableString, text.takeWhile isNameChar, [],
      (text.dropWhile isNameChar).drop 2⟩
  | '$' :: text => readVariable (text.takeWhile isNameChar) (text.dropWhile isNameChar)
  | text =>
    let afterClass := (text.dropWhile isNameChar).drop 3
    ⟨.staticProperty, text.takeWhile isNameChar, afterClass.takeWhile isNameChar,
      afterClass.dropWhile isNameChar⟩

section

variable {name rest : List Char}

theorem takeWhile_name (named : isName name = true) (ends : Breaks rest) :
    (name ++ rest).takeWhile isNameChar = name := by
  rw [List.takeWhile_append_of_pos (Text.isName_chars named)]
  cases rest with
  | nil => simp
  | cons next rest => simp [ends next rfl]

theorem dropWhile_name (named : isName name = true) (ends : Breaks rest) :
    (name ++ rest).dropWhile isNameChar = rest := by
  rw [List.dropWhile_append_of_pos (Text.isName_chars named)]
  cases rest with
  | nil => rfl
  | cons next rest => simp [ends next rfl]

theorem name_append_ne (named : isName name = true) {other : Char}
    (noNameChar : isNameChar other = false) {text : List Char} :
    name ++ rest ≠ other :: text := by
  intro equal
  cases name with
  | nil => cases named
  | cons first others =>
      have nameChar := Text.isName_chars named first List.mem_cons_self
      rw [(List.cons.inj equal).1, noNameChar] at nameChar
      cases nameChar

end

/-- Steps and an ending, or nothing: no name goes on there, and no arrow follows. -/
def EndsStorage (rest : List Char) : Prop :=
  Breaks rest ∧ ¬ ['-', '>'] <+: rest

section

variable {target property rest : List Char}

theorem readProperty_name (named : isName property = true) (ends : Breaks rest) :
    readProperty target (property ++ rest) =
      ⟨.objectProperty, target, property, rest⟩ := by
  rw [readProperty, takeWhile_name named ends, dropWhile_name named ends]
  · exact fun _ => name_append_ne named rfl
  · exact fun _ => name_append_ne named rfl

theorem readStorage_variable (named : isName target = true) (ends : Breaks rest) :
    readStorage ('$' :: (target ++ rest)) = readVariable target rest := by
  rw [readStorage, takeWhile_name named ends, dropWhile_name named ends]
  · exact fun _ => name_append_ne named rfl
  · exact fun _ => name_append_ne named rfl

theorem readStorage_static (named : isName target = true) (ends : Breaks rest) :
    readStorage (target ++ rest) =
      ⟨.staticProperty, target, (rest.drop 3).takeWhile isNameChar,
      (rest.drop 3).dropWhile isNameChar⟩ := by
  rw [readStorage, takeWhile_name named ends, dropWhile_name named ends]
  · exact fun _ => name_append_ne named rfl
  · exact fun _ => name_append_ne named rfl
  · exact fun _ => name_append_ne named rfl

theorem readVariable_end (ends : EndsStorage rest) :
    readVariable target rest = ⟨.variable, target, [], rest⟩ := by
  rw [readVariable]
  rintro text rfl
  exact ends.2 (List.prefix_append ['-', '>'] text)

theorem breaks_cons {next : Char} (noNameChar : isNameChar next = false)
    (rest : List Char) :
    Breaks (next :: rest) := by
  rintro found ⟨⟩
  exact noNameChar

theorem takeWhile_closed (named : isName property = true) {next : Char}
    (noNameChar : isNameChar next = false) (rest : List Char) :
    (property ++ next :: rest).takeWhile isNameChar = property ∧
      (property ++ next :: rest).dropWhile isNameChar = next :: rest :=
  ⟨takeWhile_name named (breaks_cons noNameChar rest),
    dropWhile_name named (breaks_cons noNameChar rest)⟩

/-- The storage of a target can be read off it. -/
theorem readStorage_storage (form : AssignmentForm) {target property : String}
    (targetNamed : isName target.toList = true)
    (propertyNamed : form.takesProperty = true → isName property.toList = true)
    (ends : EndsStorage rest) :
    readStorage ((form.storage target property).toList ++ rest) =
      ⟨form.whole, target.toList,
        if form.takesProperty then property.toList else [], rest⟩ := by
  have arrow (text : List Char) : Breaks ('-' :: text) := breaks_cons rfl text
  cases form with
  | objectProperty | objectPropertyAppend | objectPropertyArrayIndex
  | objectPropertyArrayIndexAppend | objectPropertyIncr | objectPropertyDecr =>
      have spelled : (AssignmentForm.objectProperty.storage target property).toList ++
          rest =
          '$' :: (target.toList ++ '-' :: '>' :: (property.toList ++ rest)) := by
        simp [AssignmentForm.storage]
      refine (congrArg readStorage spelled).trans ?_
      rw [readStorage_variable targetNamed (arrow _)]
      exact readProperty_name (propertyNamed rfl) ends.1
  | staticProperty | staticPropertyAppend | staticPropertyArrayIndex
  | staticPropertyArrayIndexAppend =>
      have spelled : (AssignmentForm.staticProperty.storage target property).toList ++
          rest =
          target.toList ++ ':' :: ':' :: '$' :: (property.toList ++ rest) := by
        simp [AssignmentForm.storage]
      refine (congrArg readStorage spelled).trans ?_
      rw [readStorage_static targetNamed (breaks_cons rfl _)]
      simp only [List.drop_succ_cons, List.drop_zero]
      rw [takeWhile_name (propertyNamed rfl) ends.1,
        dropWhile_name (propertyNamed rfl) ends.1]
      rfl
  | variableDynamicObjectProperty =>
      have spelled :
          (AssignmentForm.variableDynamicObjectProperty.storage target property).toList ++
            rest =
            '$' :: (target.toList ++ '-' :: '>' :: '\x7b' :: '$' ::
              (property.toList ++ '\x7d' :: rest)) := by
        simp [AssignmentForm.storage]
      rcases takeWhile_closed (propertyNamed rfl)
        (rfl : isNameChar '\x7d' = false) rest with
        ⟨taken, dropped⟩
      rw [spelled, readStorage_variable targetNamed (arrow _), readVariable,
        readProperty, taken,
        dropped]
      rfl
  | stringDynamicObjectProperty =>
      have spelled :
          (AssignmentForm.stringDynamicObjectProperty.storage target property).toList ++
            rest =
            '$' :: (target.toList ++ '-' :: '>' :: '\x7b' :: '"' ::
              (property.toList ++ '"' :: '\x7d' :: rest)) := by
        simp [AssignmentForm.storage]
      rcases takeWhile_closed (propertyNamed rfl) (rfl : isNameChar '"' = false)
        ('\x7d' :: rest) with ⟨taken, dropped⟩
      rw [spelled, readStorage_variable targetNamed (arrow _), readVariable,
        readProperty, taken,
        dropped]
      rfl
  | dynamicVariable =>
      have spelled : (AssignmentForm.dynamicVariable.storage target property).toList ++
          rest =
          '$' :: '$' :: (target.toList ++ rest) := by
        simp [AssignmentForm.storage]
      rw [spelled, readStorage, takeWhile_name targetNamed ends.1,
        dropWhile_name targetNamed ends.1]
      rfl
  | dynamicVariableString =>
      have spelled : (AssignmentForm.dynamicVariableString.storage target
          property).toList ++ rest =
          '$' :: '\x7b' :: '"' :: (target.toList ++ '"' :: '\x7d' :: rest) := by
        simp [AssignmentForm.storage]
      rcases takeWhile_closed targetNamed (rfl : isNameChar '"' = false)
        ('\x7d' :: rest) with
        ⟨taken, dropped⟩
      rw [spelled, readStorage, taken, dropped]
      rfl
  | _ =>
      have spelled : (AssignmentForm.variable.storage target property).toList ++ rest =
          '$' :: (target.toList ++ rest) := by
        simp [AssignmentForm.storage]
      refine (congrArg readStorage spelled).trans ?_
      exact (readStorage_variable targetNamed ends.1).trans (readVariable_end ends)

end

/-! ## Steps and endings -/

def stepsText (codes : List (List Char)) : List Char :=
  codes.flatMap fun code => '[' :: (code ++ [']'])

/-- The code of a step can be told from the brackets around it. -/
def IsStepCode (code : List Char) : Prop :=
  code ≠ [] ∧ ']' ∉ code

theorem cut_bracket {code other rest more : List Char} (whole : ']' ∉ code)
    (otherWhole : ']' ∉ other)
    (equal : code ++ ']' :: rest = other ++ ']' :: more) : code = other ∧
      rest = more := by
  induction code generalizing other with
  | nil =>
      cases other with
      | nil => exact ⟨rfl, (List.cons.inj equal).2⟩
      | cons first others => exact absurd (by simp [← (List.cons.inj equal).1]) otherWhole
  | cons first code induction =>
      cases other with
      | nil => exact absurd (by simp [(List.cons.inj equal).1]) whole
      | cons second others =>
          rw [List.mem_cons, not_or] at whole otherWhole
          rcases List.cons.inj equal with ⟨rfl, later⟩
          rcases induction whole.2 otherWhole.2 later with ⟨rfl, same⟩
          exact ⟨rfl, same⟩

theorem ending_closed (form : AssignmentForm) {more : List Char}
    (opened : form.ending.toList = '[' :: more) : more.head? = some ']' := by
  have each : ∀ form ∈ AssignmentForm.all, form.ending.toList.head? = some '[' →
      form.ending.toList.tail.head? = some ']' := by
    decide
  simpa [opened] using each form form.mem_all

/-- No step begins where an ending does. -/
theorem ending_ne_step (form : AssignmentForm) {code rest : List Char}
    (proper : IsStepCode code) :
    form.ending.toList ≠ '[' :: (code ++ rest) := by
  intro equal
  have closed := ending_closed form equal
  rcases List.exists_cons_of_ne_nil proper.1 with ⟨first, others, rfl⟩
  rw [List.cons_append, List.head?_cons, Option.some.injEq] at closed
  exact proper.2 (by simp [closed])

theorem stepsText_cons (code : List Char) (codes : List (List Char))
    (ending : List Char) :
    stepsText (code :: codes) ++ ending =
      '[' :: (code ++ ']' :: (stepsText codes ++ ending)) := by
  simp [stepsText]

/-- Steps and ending can be told apart. -/
theorem stepsText_ending {codes others : List (List Char)} (form other : AssignmentForm)
    (proper : ∀ code ∈ codes, IsStepCode code)
    (otherProper : ∀ code ∈ others, IsStepCode code)
    (equal : stepsText codes ++ form.ending.toList =
      stepsText others ++ other.ending.toList) :
    codes = others ∧ form.ending = other.ending := by
  induction codes generalizing others with
  | nil =>
      cases others with
      | nil => exact ⟨rfl, String.toList_injective equal⟩
      | cons code others =>
          rw [stepsText_cons] at equal
          exact absurd equal (ending_ne_step form (otherProper code List.mem_cons_self))
  | cons code codes induction =>
      rw [List.forall_mem_cons] at proper
      rw [stepsText_cons] at equal
      cases others with
      | nil => exact absurd equal.symm (ending_ne_step other proper.1)
      | cons otherCode others =>
          rw [List.forall_mem_cons] at otherProper
          rw [stepsText_cons] at equal
          rcases cut_bracket proper.1.2 otherProper.1.2 (List.cons.inj equal).2 with
            ⟨rfl, later⟩
          rcases induction proper.2 otherProper.2 later with ⟨rfl, same⟩
          exact ⟨rfl, same⟩

theorem endsStorage_steps (codes : List (List Char)) (form : AssignmentForm) :
    EndsStorage (stepsText codes ++ form.ending.toList) := by
  cases codes with
  | nil => cases form <;> exact ⟨by decide, by decide⟩
  | cons code codes =>
      rw [stepsText_cons]
      refine ⟨breaks_cons rfl _, fun arrow => ?_⟩
      rw [List.cons_prefix_cons] at arrow
      cases arrow.1

/-! ## Targets of assignments -/

/-- The left-hand side of an assignment. -/
def renderTarget (setting : Setting) (assignment : Assignment) : Emission String := do
  let steps ← renderExprs setting
    (if assignment.form.takesIndex then assignment.index else [])
  Emission.ofExcept (assignment.form.targetCode assignment.target assignment.property
    (String.join (steps.map fun step => "[" ++ step ++ "]")) assignment.location)

/-- The code of an assignment begins with its left-hand side. -/
theorem compileAssignment_target {setting : Setting} {assignment : Assignment}
    {emitter after : Emitter} {compiled : CompiledAssignment}
    (done : compileAssignment setting assignment emitter = .ok compiled after) :
    ∃ bound middle text rest, renderTarget setting assignment bound = .ok text middle ∧
      compiled.code = text ++ rest ∧ (rest = ";" ∨ ∃ more, rest = " " ++ more) := by
  rcases assignment with ⟨form, operator, target, property, index, value, location⟩
  rw [compileAssignment_sides, EStateM.bind_eq_ok_iff] at done
  rcases done with ⟨_, bound, _, done⟩
  rw [EStateM.bind_eq_ok_iff] at done
  rcases done with ⟨steps, stepped, rendered, done⟩
  rw [compileSides, EStateM.bind_eq_ok_iff] at done
  rcases done with ⟨text, middle, targeted, done⟩
  refine ⟨bound, middle, text, ?_⟩
  have targetDone : renderTarget setting
      ⟨form, operator, target, property, index, value, location⟩ bound =
        .ok text middle := by
    rw [renderTarget, EStateM.bind_apply, rendered]
    exact targeted
  split at done
  · cases value with
    | none => cases done
    | some value =>
        rw [EStateM.bind_eq_ok_iff] at done
        rcases done with ⟨code, coded, _, done⟩
        rw [EStateM.bind_eq_ok_iff] at done
        rcases done with ⟨expression, checked, _, ⟨⟩⟩
        refine ⟨_, targetDone, ?_,
          .inr ⟨(operator.getD .assign).symbol ++ " " ++ code ++ ";", rfl⟩⟩
        simp [String.append_assoc]
  · cases done
    exact ⟨";", targetDone, rfl, .inl rfl⟩

/-- A variable, or an integer in whatever notation. -/
def Expr.IsStep : Expr → Prop
  | .atom _ (.variable name) => isName name.toList = true
  | .atom _ (.int text) => text ≠ "" ∧ ']' ∉ text.toList
  | _ => False

/-- An assignment whose names are identifiers and whose steps are variables and
integers. -/
structure Assignment.IsSimple (assignment : Assignment) : Prop where
  target : isName assignment.target.toList = true
  property : ∀ name ∈ assignment.property, isName name.toList = true
  index : ∀ step ∈ assignment.index, step.IsStep

theorem renderExpr_step (setting : Setting) {step : Expr} (simple : step.IsStep) :
    ∃ code : String, (∀ emitter, renderExpr setting step emitter = .ok code emitter) ∧
      IsStepCode code.toList := by
  rw [Expr.IsStep.eq_def] at simple
  split at simple
  · next location name =>
      refine ⟨"$" ++ name, fun _ => rfl, by simp, ?_⟩
      have noBracket : ']' ∉ name.toList := fun member => by
        cases Text.isName_chars simple ']' member
      simpa using noBracket
  · next location text =>
      exact ⟨text, fun _ => rfl, by simpa using simple.1, simple.2⟩
  · cases simple

theorem renderExprs_steps (setting : Setting) {steps : List Expr}
    (simple : ∀ step ∈ steps, step.IsStep) :
    ∃ codes : List String,
      (∀ emitter, renderExprs setting steps emitter = .ok codes emitter) ∧
      (∀ code ∈ codes, IsStepCode code.toList) ∧ codes.length = steps.length := by
  induction steps with
  | nil => exact ⟨[], fun _ => rfl, by simp, rfl⟩
  | cons step steps induction =>
      rw [List.forall_mem_cons] at simple
      rcases renderExpr_step setting simple.1 with ⟨code, rendered, proper⟩
      rcases induction simple.2 with ⟨codes, renderedLater, properLater, length⟩
      refine ⟨code :: codes, fun emitter => ?_,
        List.forall_mem_cons.mpr ⟨proper, properLater⟩, by simp [length]⟩
      rw [renderExprs, EStateM.bind_apply, rendered]
      dsimp only
      rw [EStateM.bind_apply, renderedLater]
      rfl

theorem toList_join_steps (codes : List String) :
    (String.join (codes.map fun code => "[" ++ code ++ "]")).toList =
      stepsText (codes.map String.toList) := by
  rw [String.toList_join, List.flatMap_map, stepsText, List.flatMap_map]
  congr 1
  funext code
  simp

/-- The target of a complete and simple assignment. -/
theorem renderTarget_simple (setting : Setting) {assignment : Assignment}
    (complete : assignment.IsComplete) (simple : assignment.IsSimple) :
    ∃ (text : String) (codes : List (List Char)),
      (∀ emitter, renderTarget setting assignment emitter = .ok text emitter) ∧
      text.toList = (assignment.form.storage assignment.target
        (assignment.property.getD "")).toList ++
          (stepsText codes ++ assignment.form.ending.toList) ∧
      (∀ code ∈ codes, IsStepCode code) ∧ codes.length = assignment.index.length := by
  have steps :
      (if assignment.form.takesIndex then assignment.index else []) =
        assignment.index := by
    split
    · rfl
    · next without => exact (complete.index (by simpa using without)).symm
  rcases renderExprs_steps setting simple.index with ⟨codes, rendered, proper, length⟩
  refine ⟨assignment.form.storage assignment.target (assignment.property.getD "") ++
    String.join (codes.map fun code => "[" ++ code ++ "]") ++ assignment.form.ending,
    codes.map String.toList, fun emitter => ?_, ?_, ?_, by simp [length]⟩
  · rw [renderTarget, steps, EStateM.bind_apply, rendered]
    dsimp only
    rw [targetCode_eq_ok complete]
    rfl
  · rw [String.toList_append, String.toList_append, toList_join_steps, List.append_assoc]
  · simpa using proper

/-- The text is the left-hand side of the assignment, wherever the assignment stands. -/
structure IsTarget (setting : Setting) (assignment : Assignment) (text : String) :
    Prop where
  rendered : ∀ emitter, renderTarget setting assignment emitter = .ok text emitter
  leads : ∀ emitter compiled after,
    compileAssignment setting assignment emitter = .ok compiled after →
      ∃ rest, compiled.code = text ++ rest ∧ (rest = ";" ∨ ∃ more, rest = " " ++ more)

theorem isTarget_of_rendered {setting : Setting} {assignment : Assignment} {text : String}
    (rendered : ∀ emitter, renderTarget setting assignment emitter = .ok text emitter) :
    IsTarget setting assignment text := by
  refine ⟨rendered, fun emitter compiled after done => ?_⟩
  rcases compileAssignment_target done with
    ⟨bound, middle, found, rest, foundRendered, code, form⟩
  rw [rendered bound] at foundRendered
  cases foundRendered
  exact ⟨rest, code, form⟩

theorem decoded_isComplete {depth : Nat} {node : Node} {assignment : Assignment}
    (read : (decoder depth).assignment node = .ok assignment) :
    assignment.IsComplete := by
  have complete : AllComplete (Survey.lets.ofAssignment () assignment) :=
    (decoder_sound depth).assignment node assignment read
  exact ((AllComplete.assignment_iff assignment).mp complete).1

/-- Assignments with the same target write to the same storage, with the same steps and
the same ending. -/
theorem parts_eq_of_target_eq {left right : Assignment} (leftComplete : left.IsComplete)
    (rightComplete : right.IsComplete) (leftSimple : left.IsSimple)
    (rightSimple : right.IsSimple) {codes others : List (List Char)}
    (proper : ∀ code ∈ codes, IsStepCode code)
    (otherProper : ∀ code ∈ others, IsStepCode code)
    (equal : (left.form.storage left.target (left.property.getD "")).toList ++
        (stepsText codes ++ left.form.ending.toList) =
      (right.form.storage right.target (right.property.getD "")).toList ++
        (stepsText others ++ right.form.ending.toList)) :
    left.form.unindexed = right.form.unindexed ∧ left.target = right.target ∧
      left.property = right.property ∧ codes = others := by
  have named {assignment : Assignment} (complete : assignment.IsComplete)
      (simple : assignment.IsSimple) (takes : assignment.form.takesProperty = true) :
      isName (assignment.property.getD "").toList = true := by
    rcases Option.isSome_iff_exists.mp (complete.property.trans takes) with ⟨name, found⟩
    rw [found]
    exact simple.property name found
  have read := congrArg readStorage equal
  rw [readStorage_storage left.form leftSimple.target (named leftComplete leftSimple)
      (endsStorage_steps codes left.form),
    readStorage_storage right.form rightSimple.target (named rightComplete rightSimple)
      (endsStorage_steps others right.form), StorageReading.mk.injEq] at read
  rcases read with ⟨whole, target, property, rest⟩
  rcases stepsText_ending left.form right.form proper otherProper rest with
    ⟨steps, ending⟩
  refine ⟨(AssignmentForm.unindexed_eq_iff _ _).mpr ⟨whole, ending⟩,
    String.toList_injective target, ?_, steps⟩
  have takes : left.form.takesProperty = right.form.takesProperty := by
    rw [← left.form.takesProperty_whole, whole, right.form.takesProperty_whole]
  have present : left.property.isSome = right.property.isSome := by
    rw [leftComplete.property, takes, rightComplete.property]
  cases found : left.property with
  | none => exact (Option.isNone_iff_eq_none.mp (by simpa [found] using present)).symm
  | some name =>
      rcases Option.isSome_iff_exists.mp (by simpa [found] using present.symm) with
        ⟨other, otherFound⟩
      have has : right.form.takesProperty = true := by
        rw [← rightComplete.property, otherFound]
        rfl
      rw [takes, has, found, otherFound] at property
      rw [otherFound, Option.some.injEq]
      exact String.toList_injective property

/-- Two accepted assignments of different forms have the same target exactly if their
forms differ in steps into an array only, neither has any, and they name the same variable
and property. -/
theorem targets_equal_iff (setting : Setting) {leftDepth rightDepth : Nat}
    {leftNode rightNode : Node} {left right : Assignment}
    (leftRead : (decoder leftDepth).assignment leftNode = .ok left)
    (rightRead : (decoder rightDepth).assignment rightNode = .ok right)
    (leftSimple : left.IsSimple) (rightSimple : right.IsSimple)
    (different : left.form ≠ right.form) :
    ∃ leftText rightText : String, IsTarget setting left leftText ∧
      IsTarget setting right rightText ∧
      (leftText = rightText ↔ left.form.unindexed = right.form.unindexed ∧
        left.index = [] ∧
        right.index = [] ∧ left.target = right.target ∧
          left.property = right.property) := by
  have leftComplete := decoded_isComplete leftRead
  have rightComplete := decoded_isComplete rightRead
  rcases renderTarget_simple setting leftComplete leftSimple with
    ⟨leftText, codes, leftRendered, leftSpelled, proper, length⟩
  rcases renderTarget_simple setting rightComplete rightSimple with
    ⟨rightText, others, rightRendered, rightSpelled, otherProper, otherLength⟩
  refine ⟨leftText, rightText, isTarget_of_rendered leftRendered,
    isTarget_of_rendered rightRendered, ?_⟩
  constructor
  · rintro rfl
    rcases parts_eq_of_target_eq leftComplete rightComplete leftSimple rightSimple proper
      otherProper (leftSpelled.symm.trans rightSpelled) with
      ⟨forms, targets, properties, rfl⟩
    have sameLength : left.index.length = right.index.length :=
      length.symm.trans otherLength
    -- Forms that both have steps, or both have none, would be the same.
    have uneven : left.form.takesIndex ≠ right.form.takesIndex :=
      fun both => different (AssignmentForm.eq_of_unindexed forms both)
    have none : left.index = [] ∧ right.index = [] := by
      cases takes : left.form.takesIndex with
      | false =>
          have empty := leftComplete.index takes
          rw [empty] at sameLength
          exact ⟨empty, List.length_eq_zero_iff.mp sameLength.symm⟩
      | true =>
          have empty := rightComplete.index (by simpa [takes] using uneven)
          rw [empty] at sameLength
          exact ⟨List.length_eq_zero_iff.mp sameLength, empty⟩
    exact ⟨forms, none.1, none.2, targets, properties⟩
  · rintro ⟨forms, leftEmpty, rightEmpty, targets, properties⟩
    rw [AssignmentForm.unindexed_eq_iff] at forms
    rw [leftEmpty, List.length_nil, List.length_eq_zero_iff] at length
    rw [rightEmpty, List.length_nil, List.length_eq_zero_iff] at otherLength
    apply String.toList_injective
    rw [leftSpelled, rightSpelled, length, otherLength, forms.2, targets, properties,
      left.form.storage_whole, right.form.storage_whole, forms.1]

/-- The node of an assignment of 5 to the variable `v` or to a part of it. -/
def assignmentNode (form : String) (steps : List (String × Json)) : Node where
  kind := "assignment"
  attributes := ("assign-type", .string form) ::
    ("expr", .object [("type", .string "int"), ("value", .string "5")]) ::
    (steps ++ [("operator", .string "assign"), ("variable", .string "v")])

/-- The assignment of 5 to `v` or to a part of it. -/
def assignmentOfFive (form : AssignmentForm) (index : List Expr) : Assignment :=
  ⟨form, some .assign, "v", none, index, some (.atom .unknown (.int "5")), .unknown⟩

theorem assignmentOfFive_simple (form : AssignmentForm) {index : List Expr}
    (steps : ∀ step ∈ index, step.IsStep) : (assignmentOfFive form index).IsSimple := by
  refine ⟨(by decide : isName "v".toList = true), ?_, steps⟩
  rintro name ⟨⟩

/-- The node of the steps `[1]` and `[$k]`. -/
def stepParts : List (String × Json) :=
  [("index-expr", .array [.object [("type", .string "int"), ("value", .string "1")],
    .object [("type", .string "variable"), ("value", .string "k")]])]

def stepsOfParts : List Expr :=
  [.atom .unknown (.int "1"), .atom .unknown (.variable "k")]

theorem targets_equal_iff_of_steps :
    let element := assignmentOfFive .arrayIndex stepsOfParts
    let appended := assignmentOfFive .arrayIndexAppend stepsOfParts
    (decoder 1).assignment (assignmentNode "array-index" stepParts) = .ok element ∧
      (decoder 1).assignment (assignmentNode "array-index-append" stepParts) =
        .ok appended ∧
      element.IsSimple ∧ appended.IsSimple ∧ element.form ≠ appended.form ∧
      ∃ elementText appendedText, IsTarget {} element elementText ∧
        IsTarget {} appended appendedText ∧ elementText ≠ appendedText := by
  have elementRead : (decoder 1).assignment (assignmentNode "array-index" stepParts) =
      .ok (assignmentOfFive .arrayIndex stepsOfParts) := by
    rfl
  have appendedRead :
      (decoder 1).assignment (assignmentNode "array-index-append" stepParts) =
      .ok (assignmentOfFive .arrayIndexAppend stepsOfParts) := by
    rfl
  have steps : ∀ step ∈ stepsOfParts, step.IsStep := by
    simp only [stepsOfParts, List.forall_mem_cons, Expr.IsStep]
    exact ⟨⟨by decide, by decide⟩, by decide, by simp⟩
  have simple (form : AssignmentForm) := assignmentOfFive_simple form steps
  have different : AssignmentForm.arrayIndex ≠ .arrayIndexAppend := by decide
  rcases targets_equal_iff {} elementRead appendedRead (simple _) (simple _)
    different with
    ⟨elementText, appendedText, ofElement, ofAppended, same⟩
  refine ⟨elementRead, appendedRead, simple _, simple _, different, elementText,
    appendedText,
    ofElement, ofAppended, fun equal => ?_⟩
  cases (same.mp equal).2.1

/-- An element without steps is accepted, and the whole variable is assigned. -/
theorem element_without_steps_is_variable :
    let element := assignmentOfFive .arrayIndex []
    let whole := assignmentOfFive .variable []
    (decoder 1).assignment (assignmentNode "array-index" []) = .ok element ∧
      (decoder 1).assignment (assignmentNode "variable" []) = .ok whole ∧
      element.IsSimple ∧ whole.IsSimple ∧ element.form ≠ whole.form ∧
      IsTarget {} element "$v" ∧ IsTarget {} whole "$v" ∧
      ∃ compiled after, compileAssignment {} element
      { scope := Scope.ofNames .unknown ["v"] } =
        .ok compiled after ∧ compiled.code = "$v = 5;" := by
  have simple (form : AssignmentForm) : (assignmentOfFive form []).IsSimple :=
    assignmentOfFive_simple form (by simp)
  exact ⟨by rfl, by rfl, simple _, simple _, by decide, isTarget_of_rendered fun _ => rfl,
    isTarget_of_rendered fun _ => rfl, _, _, rfl, rfl⟩

end ZephirPhp
