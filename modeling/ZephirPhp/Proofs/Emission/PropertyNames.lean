import ZephirPhp.Proofs.Emission.Targets
import ZephirPhp.Proofs.Text.StringValues

/-! # Properties that are named by strings

A property whose name is a string is written through a literal in double quotes, but
read and tested through one in single quotes. The two name the same property only if the
name means the same in either quotes.
-/

namespace ZephirPhp

open Text (interpolates isInert literalValue?)

variable {setting : Setting}

/-- The property is written through a literal in double quotes. -/
theorem compileAssignment_stringProperty {assignment : Assignment} {name : String}
    (form : assignment.form = .stringDynamicObjectProperty)
    (named : assignment.property = some name) {emitter after : Emitter}
    {compiled : CompiledAssignment}
    (done : compileAssignment setting assignment emitter = .ok compiled after) :
    ∃ rest, compiled.code =
      "$" ++ assignment.target ++ "->\x7b" ++ ("\"" ++ name ++ "\"") ++
        "\x7d" ++ rest := by
  rcases compileAssignment_target done with ⟨bound, middle, text, rest, rendered, code, _⟩
  rw [renderTarget, form, named] at rendered
  cases rendered
  refine ⟨rest, code.trans (String.toList_injective ?_)⟩
  simp [AssignmentForm.storage, AssignmentForm.ending]

/-- The property is read and tested through a literal in single quotes. -/
theorem renderExpr_stringProperty {object : Expr} {emitter after : Emitter}
    {code : String} (rendered : renderExpr setting object emitter = .ok code after)
    (location outer : Location) (name : String) :
    renderExpr setting (.stringProperty location object name) emitter =
        .ok ("zephir_read_property(" ++ code ++ ", " ++ ("'" ++ name ++ "'") ++ ")")
          after ∧
      renderExpr setting
        (.unary outer .isset (.stringProperty location object name)) emitter =
        .ok ("zephir_isset_property(" ++ code ++ ", " ++ ("'" ++ name ++ "'") ++ ")")
          after := by
  have spelled (call : String) : call ++ code ++ ", '" ++ name ++ "')" =
      call ++ code ++ ", " ++ ("'" ++ name ++ "'") ++ ")" :=
    String.toList_injective (by simp)
  rw [← spelled, ← spelled]
  constructor <;>
  · rw [renderExpr, EStateM.bind_apply, rendered]
    rfl

/-- The literals through which a property is written and read denote the same string, and
have no variables in them, exactly if the name has neither variables nor an escape but
that of the backslash. -/
theorem property_literals_agree_iff (setting : Setting) {name : String}
    (noDoubleQuote : '"' ∉ name.toList) (noSingleQuote : '\'' ∉ name.toList)
    (ended : name.toList.getLast? ≠ some '\\') :
    ∃ written read : String,
      (∀ assignment emitter compiled after,
        assignment.form = .stringDynamicObjectProperty →
        assignment.property = some name →
        compileAssignment setting assignment emitter = .ok compiled after →
        ∃ rest, compiled.code =
          "$" ++ assignment.target ++ "->\x7b" ++ written ++ "\x7d" ++ rest) ∧
      (∀ object emitter code after, renderExpr setting object emitter = .ok code after →
        ∀ location outer,
          renderExpr setting (.stringProperty location object name) emitter =
              .ok ("zephir_read_property(" ++ code ++ ", " ++ read ++ ")") after ∧
            renderExpr setting
              (.unary outer .isset (.stringProperty location object name))
                emitter =
              .ok ("zephir_isset_property(" ++ code ++ ", " ++ read ++ ")") after) ∧
      ((∃ value, literalValue? written.toList = some value ∧
          literalValue? read.toList = some value) ↔
        interpolates name.toList = false ∧ isInert name.toList = true) := by
  have writtenValue := Text.literalValue?_double noDoubleQuote ended
  have readValue := Text.literalValue?_single noSingleQuote ended
  refine ⟨"\"" ++ name ++ "\"", "'" ++ name ++ "'",
    fun _ _ _ _ form named done => compileAssignment_stringProperty form named done,
    fun _ _ _ _ rendered location outer =>
      renderExpr_stringProperty rendered location outer name,
    ?_⟩
  have writtenSpelled : ("\"" ++ name ++ "\"").toList =
      '"' :: (name.toList ++ ['"']) := by simp
  have readSpelled : ("'" ++ name ++ "'").toList = '\'' :: (name.toList ++ ['\'']) := by
    simp
  rw [writtenSpelled, readSpelled, writtenValue, readValue]
  cases interpolates name.toList with
  | true => simp
  | false => simpa using Text.doubleQuoted_eq_iff noSingleQuote

/-- `let v->{name} = 5`, where the name is a string. -/
def propertyAssignment (name : String) : Assignment :=
  ⟨.stringDynamicObjectProperty, some .assign, "v", some name, [],
    some (.atom .unknown (.int "5")),
    .unknown⟩

/-- Two backslashes that are an escape, a dollar sign without a name, and a backslash that
stands for itself. -/
def inertName : String := "a\\\\b $ c\\d"

theorem property_literals_agree_iff_of_inertName :
    '"' ∉ inertName.toList ∧ '\'' ∉ inertName.toList ∧
      inertName.toList.getLast? ≠ some '\\' ∧
      ∃ written read value rest compiled after,
        compileAssignment {} (propertyAssignment inertName)
          { scope := Scope.ofNames .unknown ["v"] } = .ok compiled after ∧
        compiled.code = "$" ++ "v" ++ "->\x7b" ++ written ++ "\x7d" ++ rest ∧
        renderExpr {} (.stringProperty .unknown (.atom .unknown (.variable "v"))
          inertName) {} =
          .ok ("zephir_read_property(" ++ "$v" ++ ", " ++ read ++ ")") {} ∧
        literalValue? written.toList = some value ∧
          literalValue? read.toList = some value := by
  have noDoubleQuote : '"' ∉ inertName.toList := by decide
  have noSingleQuote : '\'' ∉ inertName.toList := by decide
  have ended : inertName.toList.getLast? ≠ some '\\' := by decide
  rcases property_literals_agree_iff {} noDoubleQuote noSingleQuote ended with
    ⟨written, read, writes, reads, agree⟩
  rcases agree.mpr ⟨by decide, by decide⟩ with ⟨value, writtenValue, readValue⟩
  rcases writes (propertyAssignment inertName)
    { scope := Scope.ofNames .unknown ["v"] } _ _ rfl rfl
    rfl with ⟨rest, code⟩
  exact ⟨noDoubleQuote, noSingleQuote, ended, written, read, value, rest, _, _, rfl, code,
    (reads (.atom .unknown (.variable "v")) {} "$v" {} rfl .unknown .unknown).1,
    writtenValue,
    readValue⟩

/-- What is written to the property `a$b` goes to a property whose name depends on
`$b`. -/
theorem written_property_interpolates :
    ∃ compiled after,
      compileAssignment {} (propertyAssignment "a$b")
        { scope := Scope.ofNames .unknown ["v"] } =
        .ok compiled after ∧ compiled.code = "$v->\x7b\"a$b\"\x7d = 5;" ∧
      literalValue? "\"a$b\"".toList = none ∧ interpolates "a$b".toList = true ∧
      renderExpr {} (.stringProperty .unknown (.atom .unknown (.variable "v")) "a$b") {} =
        .ok "zephir_read_property($v, 'a$b')" {} ∧
      literalValue? "'a$b'".toList = some [0x61, 0x24, 0x62] :=
  ⟨_, _, rfl, rfl, by decide, by decide, rfl, by decide⟩

end ZephirPhp
