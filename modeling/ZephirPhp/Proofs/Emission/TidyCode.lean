import ZephirPhp.Proofs.Emission.Arrangement
import ZephirPhp.Proofs.Emission.Insets
import ZephirPhp.Proofs.Program.Texts

/-! # Code with tidy names and literals

A piece of code goes on in further lines only as its parts do, if the names and literals
in it have no line breaks. If they do not begin with a blank either, the code shows how
it begins.
-/

namespace ZephirPhp

open Text (OneLine greatest)

/-- A text without line breaks that does not begin with a blank. -/
structure Text.Tidy (text : String) : Prop where
  line : OneLine text
  flush : ∀ character ∈ text.toList.head?, isBlank character = false

open Text (Tidy)

instance (text : String) : Decidable (Tidy text) :=
  decidable_of_iff
    (OneLine text ∧
      (text.toList.head?.all fun character => !Text.isBlank character) = true)
    ⟨fun ⟨line, flush⟩ => ⟨line, by simpa [Option.all_eq_true] using flush⟩,
      fun ⟨line, flush⟩ => ⟨line, by simpa [Option.all_eq_true] using flush⟩⟩

namespace Text.Tidy

variable {text rest : String}

theorem begins_of_ne (tidy : Tidy text) (some : text ≠ "") :
    Onset.visible.Begins text := by
  cases equal : text.toList with
  | nil => exact absurd (String.toList_eq_nil_iff.mp equal) some
  | cons character rest =>
      exact ⟨character, rest, equal, tidy.flush character (by simp [equal])⟩

theorem begins (tidy : Tidy text) : (Onset.ofText text).Begins text := by
  rw [Onset.ofText]
  split
  · next empty =>
      rw [empty]
      rfl
  · next some => exact tidy.begins_of_ne some

theorem begins_append (tidy : Tidy text) (later : Onset.visible.Begins rest) :
    Onset.visible.Begins (text ++ rest) := by
  by_cases empty : text = ""
  · rwa [empty, String.empty_append]
  · exact (tidy.begins_of_ne empty).left

theorem empty : Tidy "" := by decide

theorem of_begins (line : OneLine text) (begins : Onset.visible.Begins text) :
    Tidy text := by
  rcases begins with ⟨character, rest, equal, visible⟩
  exact ⟨line, by simpa [equal] using visible⟩

theorem intercalate {separator : String} {texts : List String}
    (between : OneLine separator) (each : ∀ text ∈ texts, Tidy text ∧ text ≠ "") :
    Tidy (separator.intercalate texts) := by
  have line := between.intercalate fun text member => (each text member).1.line
  cases texts with
  | nil => exact empty
  | cons first rest =>
      have tidy := each first List.mem_cons_self
      have begins := tidy.1.begins_of_ne tidy.2
      apply of_begins line
      cases rest with
      | nil => rwa [String.intercalate_singleton]
      | cons second others =>
          rw [String.intercalate_cons_cons]
          exact begins.left.left

end Text.Tidy

/-! ## Pieces of code -/

theorem Atom.code_oneLine (leaf : Atom) (tidy : ∀ text ∈ leaf.texts, Tidy text) :
    OneLine leaf.code := by
  cases leaf with
  | bool value => cases value <;> decide
  | null => decide
  | emptyArray => decide
  | newType value => cases value <;> decide
  | string content =>
      rw [OneLine, Atom.code, newline_mem_stringLiteral]
      exact (tidy content (List.mem_singleton_self content)).line
  | char content =>
      have line := (tidy content (List.mem_singleton_self content)).line
      rw [Atom.code, charLiteral]
      split
      · exact (OneLine.append (by decide) line).append (by decide)
      · exact (OneLine.append (by decide) line).append (by decide)
  | interpolated content =>
      have line := (tidy content (List.mem_singleton_self content)).line
      exact (OneLine.append (by decide) line).append (by decide)
  | int text => exact (tidy text (List.mem_singleton_self text)).line
  | double text => exact (tidy text (List.mem_singleton_self text)).line
  | constant name => exact (tidy name (List.mem_singleton_self name)).line
  | staticProperty className name =>
      simp only [Atom.texts, List.forall_mem_cons] at tidy
      exact (tidy.1.line.append (by decide)).append tidy.2.1.line
  | staticConstant className name =>
      simp only [Atom.texts, List.forall_mem_cons] at tidy
      exact (tidy.1.line.append (by decide)).append tidy.2.1.line
  | _ name =>
      exact OneLine.append (by decide) (tidy name (List.mem_singleton_self name)).line

theorem Atom.code_begins (leaf : Atom) (tidy : ∀ text ∈ leaf.texts, Tidy text) :
    leaf.onset.Begins leaf.code := by
  cases leaf with
  | bool value => cases value <;> exact ⟨_, _, rfl, rfl⟩
  | null => exact ⟨_, _, rfl, rfl⟩
  | emptyArray => exact ⟨_, _, rfl, rfl⟩
  | newType value => cases value <;> exact ⟨_, _, rfl, rfl⟩
  | string content => exact .left (.left ⟨_, _, rfl, rfl⟩)
  | char content =>
      rw [Atom.code, charLiteral]
      split
      · exact .left (.left ⟨_, _, rfl, rfl⟩)
      · exact .left (.left ⟨_, _, rfl, rfl⟩)
  | interpolated content => exact .left (.left ⟨_, _, rfl, rfl⟩)
  | int text => exact (tidy text (List.mem_singleton_self text)).begins
  | double text => exact (tidy text (List.mem_singleton_self text)).begins
  | constant name => exact (tidy name (List.mem_singleton_self name)).begins
  | staticProperty className name =>
      exact .left ((tidy className List.mem_cons_self).begins_append ⟨_, _, rfl, rfl⟩)
  | staticConstant className name =>
      exact .left ((tidy className List.mem_cons_self).begins_append ⟨_, _, rfl, rfl⟩)
  | _ name => exact .left ⟨_, _, rfl, rfl⟩

theorem BinaryOperator.symbol_oneLine (operator : BinaryOperator) :
    OneLine operator.symbol := by
  cases operator <;> decide

theorem BinaryOperator.symbol_begins (operator : BinaryOperator) :
    Onset.visible.Begins operator.symbol := by
  cases operator <;> exact ⟨_, _, rfl, rfl⟩

theorem AssignmentOperator.symbol_oneLine (operator : AssignmentOperator) :
    OneLine operator.symbol := by
  cases operator <;> decide

theorem UnaryOperator.begins_code (operator : UnaryOperator) (location : Location)
    {operand : Expr} {code : String} (begins : operand.onset.Begins code) :
    (Expr.unary location operator operand).onset.Begins (operator.code code) := by
  cases operator with
  | isset => exact .left (.left ⟨_, _, rfl, rfl⟩)
  | empty => exact .left (.left ⟨_, _, rfl, rfl⟩)
  | typeof => exact .left (.left ⟨_, _, rfl, rfl⟩)
  | list => exact .left (.left ⟨_, _, rfl, rfl⟩)
  | likely => exact begins
  | unlikely => exact begins
  | _ => exact .left ⟨_, _, rfl, rfl⟩

theorem begins_argumentCode (arguments : List String) :
    Onset.visible.Begins (argumentCode arguments) :=
  .left (.left ⟨_, _, rfl, rfl⟩)

/-- No function that a pseudo-method stands for begins with a blank. -/
theorem PseudoMethod.function_tidy {receiver : Receiver} {name : String}
    {found : PseudoMethod} (located : find? receiver name = some found) :
    Tidy found.function := by
  have each : ∀ listed ∈ methodsOf receiver, Tidy listed.function := by
    cases receiver <;> decide +kernel
  exact each found (List.mem_of_find?_eq_some located)

section

variable {layout : Layout} {count other : Nat}

theorem UnaryOperator.continues_code (operator : UnaryOperator) {operand : String}
    (continues : layout.Continues count operand) :
    layout.Continues count (operator.code operand) := by
  cases operator with
  | isset => exact (continues.right (by decide)).left (by decide)
  | empty => exact (continues.right (by decide)).left (by decide)
  | typeof => exact (continues.right (by decide)).left (by decide)
  | list => exact (continues.right (by decide)).left (by decide)
  | likely => exact continues
  | unlikely => exact continues
  | _ => exact continues.right (by decide)

theorem continues_argumentCode {counts : List Nat} {arguments : List String}
    (each : List.Forall₂ layout.Continues counts arguments) :
    layout.Continues (greatest counts) (argumentCode arguments) :=
  ((Layout.Continues.intercalate (by decide) each).right (by decide)).left (by decide)

theorem continues_rangeCode (inclusive : Bool) {first last : String}
    (ofFirst : layout.Continues count first) (ofLast : layout.Continues other last) :
    layout.Continues (max count other) (rangeCode inclusive first last) := by
  cases inclusive <;>
    exact (((ofFirst.right (by decide)).left (by decide)).append ofLast).left (by decide)

theorem begins_rangeCode (inclusive : Bool) (first last : String) :
    Onset.visible.Begins (rangeCode inclusive first last) := by
  cases inclusive <;> exact .left (.left (.left (.left ⟨_, _, rfl, rfl⟩)))

theorem stands_forEachCode {key : Option String} {value source : String}
    (ofKey : ∀ name ∈ key.toList, OneLine name) (ofValue : OneLine value)
    (continues : layout.Continues count source) :
    layout.Stands count (forEachCode key value source) := by
  have head : layout.Continues count ("foreach (" ++ source ++ " as $") :=
    (continues.right (by decide)).left (by decide)
  cases key with
  | none =>
      exact ((head.left ofValue).left (by decide)).standsVisibly
        (.left (.left (.left (.left ⟨_, _, rfl, rfl⟩))))
  | some key =>
      have keyed := (head.left (ofKey key (List.mem_singleton_self key))).left
        (by decide : OneLine " => $")
      exact ((keyed.left ofValue).left (by decide)).standsVisibly
        (.left (.left (.left (.left (.left (.left ⟨_, _, rfl, rfl⟩))))))

theorem catchCode_oneLine {classes : List String} {caught : Option String}
    (ofClasses : ∀ name ∈ classes, OneLine name)
    (ofCaught : ∀ name ∈ caught.toList, OneLine name) :
    OneLine (catchCode classes caught) := by
  have types : OneLine
      (if classes.isEmpty then "\\Exception" else " | ".intercalate classes) := by
    split
    · decide
    · exact .intercalate (by decide) ofClasses
  have head : OneLine ("catch (" ++
      if classes.isEmpty then "\\Exception" else " | ".intercalate classes) :=
    OneLine.append (by decide) types
  cases caught with
  | none => exact head.append (by decide)
  | some name =>
      have named := (head.append (by decide : OneLine " $")).append
        (ofCaught name (List.mem_singleton_self name))
      exact named.append (by decide)

/-- A call continues as its object and its arguments do, as far as it shows them. -/
theorem continues_methodCallCode (receiver : Option Receiver) (location : Location)
    {method object : String} {counts : List Nat} {arguments : List String}
    (line : OneLine method) (ofObject : layout.Continues count object)
    (ofArguments : List.Forall₂ layout.Continues counts arguments) :
    Emission.Yields
      (layout.Continues (greatest (shownInCall receiver method count counts)))
      (methodCallCode receiver location method object arguments) := by
  cases receiver with
  | none =>
      exact .pure (((ofObject.left (by decide)).left line).append
        (continues_argumentCode ofArguments))
  | some kind =>
      refine (PseudoMethod.resolve_yields kind method location).bind
        fun pseudoMethod found => ?_
      have called : layout.Continues
          (greatest (shownInCall (some kind) method count counts))
          (pseudoMethod.function ++
            argumentCode (pseudoMethod.arrange object arguments)) := by
        rw [shownInCall, found]
        exact (continues_argumentCode (Slot.arrange_related _ ofObject ofArguments)).right
          (PseudoMethod.function_tidy found).line
      cases pseudoMethod.inPlace with
      | true => exact .after fun _ => .pure called
      | false => exact .pure called

theorem begins_methodCallCode {receiver : Option Receiver} {location : Location}
    {method object : String} {onset : Onset} (arguments : List String)
    (begins : onset.Begins object) :
    Emission.Yields
      (if receiver.isSome then .visible else onset.followed .visible : Onset).Begins
      (methodCallCode receiver location method object arguments) := by
  cases receiver with
  | none =>
      have some : onset.followed .visible ≠ .nothing :=
        Onset.followed_ne_nothing onset (by decide)
      have dispatched : (onset.followed .visible).Begins (object ++ "->") :=
        begins.append ⟨_, _, rfl, rfl⟩
      exact .pure ((dispatched.extend some).extend some)
  | some kind =>
      refine (PseudoMethod.resolve_yields kind method location).bind
        fun pseudoMethod found => ?_
      have called : Onset.visible.Begins
          (pseudoMethod.function ++
            argumentCode (pseudoMethod.arrange object arguments)) :=
        (PseudoMethod.function_tidy found).begins_append (begins_argumentCode _)
      cases pseudoMethod.inPlace with
      | true => exact .after fun _ => .pure called
      | false => exact .pure called

theorem continues_path {counts : List Nat} {steps : List String}
    (each : List.Forall₂ layout.Continues counts steps) :
    layout.Continues (greatest counts)
      (String.join (steps.map fun step => "[" ++ step ++ "]")) := by
  induction each with
  | nil => exact .nil
  | cons first _ induction =>
      rw [Text.greatest_cons, List.map_cons, String.join_cons]
      exact ((first.right (by decide)).left (by decide)).append induction

/-- Only modifiers of PHP are shown, whatever the modifiers are. -/
theorem modifierCode_tidy (visibility : List String) (allowAbstract : Bool) :
    Tidy (modifierCode visibility allowAbstract) := by
  have known : ∀ modifier ∈ phpModifiers, Tidy modifier ∧ modifier ≠ "" := by decide
  apply Text.Tidy.intercalate (by decide)
  intro modifier member
  have kept := (List.mem_filter.mp member).2
  rw [Bool.and_eq_true, List.contains_iff_mem] at kept
  exact known modifier kept.1

theorem stands_head (method : Method) (inInterface : Bool) {counts : List Nat}
    {parameters : List String} (line : OneLine method.name)
    (each : List.Forall₂ layout.Continues counts parameters) :
    layout.Stands (greatest counts) (method.head inInterface parameters) := by
  have start : ∀ text, Tidy text → Tidy (if text.isEmpty then "" else text ++ " ") := by
    intro text tidy
    split
    · exact .empty
    · next some =>
        have begins := tidy.begins_of_ne (by simpa using some)
        exact .of_begins (tidy.line.append (by decide)) begins.left
  have modifiers := start _ (modifierCode_tidy method.visibility (!inInterface))
  have named := (modifiers.line.append (by decide : OneLine "function ")).append line
  exact ((continues_argumentCode each).right named).standsVisibly
    ((modifiers.begins_append ⟨_, _, rfl, rfl⟩).left.left)

theorem namesCode_oneLine {word : String} {names : List String} (ofWord : OneLine word)
    (tidy : ∀ name ∈ names, Tidy name) : OneLine (namesCode word names) := by
  rw [namesCode]
  split
  · decide
  · have listed : OneLine (", ".intercalate names) :=
      .intercalate (by decide) fun name member => (tidy name member).line
    exact ((OneLine.append (by decide) ofWord).append (by decide)).append listed

theorem ClassDefinition.head_shown (definition : ClassDefinition)
    (named : Tidy definition.name)
    (parent : ∀ name ∈ definition.parent.toList, Tidy name)
    (interfaces : ∀ name ∈ definition.interfaces, Tidy name) :
    OneLine definition.head ∧ Onset.visible.Begins definition.head := by
  have start : Tidy (if definition.isFinal then "final "
      else if definition.isAbstract then "abstract " else "") := by
    split
    · decide
    · split
      · decide
      · exact .empty
  have begins := start.begins_append (⟨_, _, rfl, rfl⟩ : Onset.visible.Begins "class ")
  exact ⟨(((start.line.append (by decide)).append named.line).append
    (namesCode_oneLine (by decide) parent)).append
      (namesCode_oneLine (by decide) interfaces),
    begins.left.left.left⟩

theorem InterfaceDefinition.head_shown (definition : InterfaceDefinition)
    (named : Tidy definition.name) (parents : ∀ name ∈ definition.parents, Tidy name) :
    OneLine definition.head ∧ Onset.visible.Begins definition.head :=
  ⟨(OneLine.append (by decide) named.line).append (namesCode_oneLine (by decide) parents),
    .left (.left ⟨_, _, rfl, rfl⟩)⟩

theorem Import.code_shown (imported : Import)
    (tidy : ∀ text ∈ imported.texts, Tidy text) :
    OneLine imported.code ∧ Onset.visible.Begins imported.code := by
  rcases imported with ⟨name, shortName⟩
  simp only [texts, List.forall_mem_cons] at tidy
  have named : OneLine ("use " ++ name) := OneLine.append (by decide) tidy.1.line
  cases shortName with
  | none => exact ⟨named.append (by decide), .left (.left ⟨_, _, rfl, rfl⟩)⟩
  | some short =>
      have known := (tidy.2 short (List.mem_singleton_self short)).line
      exact ⟨((named.append (by decide)).append known).append (by decide),
        .left (.left (.left (.left ⟨_, _, rfl, rfl⟩)))⟩

namespace AssignmentForm

theorem storage_oneLine (form : AssignmentForm) {target property : String}
    (ofTarget : OneLine target) (ofProperty : OneLine property) :
    OneLine (form.storage target property) := by
  rw [OneLine] at ofTarget ofProperty ⊢
  cases form <;> simp [storage, ofTarget, ofProperty]

theorem storage_begins (form : AssignmentForm) {target : String} (tidy : Tidy target)
    (property : String) : Onset.visible.Begins (form.storage target property) := by
  have shown : Onset.visible.Begins ("$" ++ target) := .left ⟨_, _, rfl, rfl⟩
  have ofClass : Onset.visible.Begins (target ++ "::$") :=
    tidy.begins_append ⟨_, _, rfl, rfl⟩
  cases form with
  | staticProperty | staticPropertyAppend | staticPropertyArrayIndex
  | staticPropertyArrayIndexAppend => exact ofClass.left
  | objectProperty | objectPropertyAppend | objectPropertyArrayIndex
  | objectPropertyArrayIndexAppend | objectPropertyIncr | objectPropertyDecr =>
      exact shown.left.left
  | variableDynamicObjectProperty | stringDynamicObjectProperty =>
      exact shown.left.left.left
  | dynamicVariable => exact .left ⟨_, _, rfl, rfl⟩
  | dynamicVariableString => exact .left (.left ⟨_, _, rfl, rfl⟩)
  | _ => exact shown

theorem ending_oneLine (form : AssignmentForm) : OneLine form.ending := by
  cases form <;> decide

/-- The steps into an array stand in the target of an assignment. -/
theorem continues_targetCode {form : AssignmentForm} {target path code : String}
    {property : Option String} {location : Location} (ofTarget : Tidy target)
    (ofProperty : ∀ name ∈ property.toList, Tidy name)
    (continues : layout.Continues count path)
    (done : form.targetCode target property path location = .ok code) :
    layout.Continues count code ∧ Onset.visible.Begins code := by
  have line : OneLine (property.getD "") := by
    cases property with
    | none => decide
    | some name => exact (ofProperty name (List.mem_singleton_self name)).line
  rw [targetCode.eq_def] at done
  split at done
  · cases done
  · cases done
    exact ⟨(continues.right (form.storage_oneLine ofTarget.line line)).left
      form.ending_oneLine,
      (form.storage_begins ofTarget _).left.left⟩

end AssignmentForm

end

end ZephirPhp
