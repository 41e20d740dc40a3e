import ZephirPhp.Emission.Definition
import ZephirPhp.Proofs.Emission.Arrangement
import ZephirPhp.Proofs.Emission.Locality
import ZephirPhp.Proofs.Emission.Visible
import ZephirPhp.Proofs.Runs

/-! # Emission in two layouts

A program is emitted in two layouts at once. What is written differs, and with it the
texts of closures, which are written on pages of their own and then become parts of
expressions. `Likeness` lists what a relation of texts and one of pages must satisfy for
the two emissions to stay related; whatever does satisfy it holds of the two files.
-/

namespace ZephirPhp

/-- A relation of texts and one of pages that emission in two layouts keeps. -/
structure Likeness (first second : Layout) (texts : String → String → Prop)
    (pages : Page → Page → Prop) : Prop where
  refl (text : String) : texts text text
  append {left right more other : String} (start : texts left right)
    (rest : texts more other) :
    texts (left ++ more) (right ++ other)
  visible {left right : String} (alike : texts left right) :
    Text.isVisible left = Text.isVisible right
  line {page other : Page} {left right : String} (start : pages page other)
    (text : texts left right) : pages (page.line left) (other.line right)
  flush {page other : Page} (start : pages page other) : pages page.flush other.flush
  indent {page other : Page} (start : pages page other) : pages page.indent other.indent
  unindent {page other : Page} (start : pages page other) :
    pages page.unindent other.unindent
  blankLine {page other : Page} (start : pages page other) :
    pages page.blankLine other.blankLine
  /-- The body of a class or a function, whose brace the layouts may put elsewhere. -/
  openBody {page other : Page} {left right : String} (start : pages page other)
    (head : texts left right) :
    pages (page.openBlock left first.braceOnNewLine)
      (other.openBlock right second.braceOnNewLine)
  /-- Pages are related from their first line on, which begins alike. -/
  begin {front left right : String} (visible : Text.isVisible front = true)
    (whole : '\n' ∉ front.toList) (rest : texts left right) :
    pages (Page.empty.line (front ++ left)) (Page.empty.line (front ++ right))
  content {page other : Page} (alike : pages page other) :
    texts (page.content first) (other.content second)

namespace Likeness

variable {first second : Layout} {texts : String → String → Prop}
  {pages : Page → Page → Prop}
  {left right more other : String} (likeness : Likeness first second texts pages)

include likeness

/-! ## Pieces of code -/

theorem before (front : String)
    (alike : texts left right) : texts (front ++ left) (front ++ right) :=
  likeness.append (likeness.refl front) alike

theorem after (alike : texts left right)
    (ending : String) : texts (left ++ ending) (right ++ ending) :=
  likeness.append alike (likeness.refl ending)

theorem wrap (front : String)
    (alike : texts left right) (ending : String) :
    texts (front ++ left ++ ending) (front ++ right ++ ending) :=
  likeness.after (likeness.before front alike) ending

theorem between (start : texts left right)
    (middle : String) (rest : texts more other) :
    texts (left ++ middle ++ more) (right ++ middle ++ other) :=
  likeness.append (likeness.after start middle) rest

theorem intercalate (separator : String)
    {codes others : List String} (alike : List.Forall₂ texts codes others) :
    texts (separator.intercalate codes) (separator.intercalate others) := by
  induction alike with
  | nil => exact likeness.refl _
  | cons head tail induction =>
      cases tail with
      | nil => simpa using head
      | cons next rest =>
          rw [String.intercalate_cons_cons, String.intercalate_cons_cons]
          exact likeness.between head separator induction

theorem join {codes others : List String} (alike : List.Forall₂ texts codes others) :
    texts (String.join codes) (String.join others) := by
  induction alike with
  | nil => exact likeness.refl _
  | cons head tail induction =>
      rw [String.join_cons, String.join_cons]
      exact likeness.append head induction

theorem arguments {codes others : List String}
    (alike : List.Forall₂ texts codes others) :
    texts (argumentCode codes) (argumentCode others) :=
  likeness.wrap "(" (likeness.intercalate ", " alike) ")"

theorem unary (operator : UnaryOperator)
    (alike : texts left right) : texts (operator.code left) (operator.code right) := by
  cases operator with
  | isset | empty | typeof | list => exact likeness.wrap _ alike _
  | likely | unlikely => exact alike
  | _ => exact likeness.before _ alike

theorem range (inclusive : Bool)
    (start : texts left right) (last : texts more other) :
    texts (rangeCode inclusive left more) (rangeCode inclusive right other) := by
  have both (front ending : String) :
      texts (front ++ left ++ ", " ++ more ++ ending)
        (front ++ right ++ ", " ++ other ++ ending) :=
    likeness.after (likeness.between (likeness.before front start) ", " last) ending
  cases inclusive with
  | true => exact both _ _
  | false => exact both _ _

theorem arrayItem {key otherKey : Option String}
    (keys : Option.Rel texts key otherKey) (values : texts left right) :
    texts (arrayItemCode key left) (arrayItemCode otherKey right) := by
  cases keys with
  | none => exact values
  | some key => exact likeness.between key " => " values

theorem parameter (byReference : Bool)
    (name : String) {default otherDefault : Option String}
    (defaults : Option.Rel texts default otherDefault) :
    texts (parameterCode byReference name default)
      (parameterCode byReference name otherDefault) := by
  cases defaults with
  | none => exact likeness.refl _
  | some value => exact likeness.before _ (likeness.before " = " value)

theorem forEach (key : Option String)
    (value : String) (sources : texts left right) :
    texts (forEachCode key value left) (forEachCode key value right) := by
  cases key with
  | none =>
      exact likeness.after (likeness.after (likeness.wrap "foreach (" sources _) _) _
  | some key =>
      exact likeness.after (likeness.after (likeness.after (likeness.after
        (likeness.wrap "foreach (" sources _) _) _) _) _

/-! ## Pages -/

variable {page otherPage : Page}

theorem openBlock (start : pages page otherPage)
    (head : texts left right) :
    pages (page.openBlock left false) (otherPage.openBlock right false) :=
  likeness.indent (likeness.line start (likeness.after head _))

theorem closeBlock (start : pages page otherPage) (suffix : texts left right) :
    pages (page.closeBlock left) (otherPage.closeBlock right) :=
  likeness.line (likeness.unindent (likeness.flush start)) (likeness.before _ suffix)

theorem continueBlock (start : pages page otherPage) (head : texts left right) :
    pages (page.continueBlock left) (otherPage.continueBlock right) :=
  likeness.indent (likeness.line (likeness.unindent start) (likeness.wrap _ head _))

/-- The first line of a closure. -/
theorem closureHead (parameters : texts left right) :
    pages (Page.empty.openBlock ("function (" ++ left ++ ")") false)
      (Page.empty.openBlock ("function (" ++ right ++ ")") false) := by
  have rest : texts (left ++ (")" ++ " \x7b")) (right ++ (")" ++ " \x7b")) :=
    likeness.after parameters _
  have begun :=
    likeness.begin (by decide : Text.isVisible "function (" = true) (by decide) rest
  rw [← String.append_assoc, ← String.append_assoc, ← String.append_assoc,
    ← String.append_assoc] at begun
  exact likeness.indent begun

theorem paragraph (start : pages page otherPage)
    (text : String) : pages (page.paragraph text) (otherPage.paragraph text) := by
  rw [Page.paragraph, Page.paragraph]
  induction Text.lines text generalizing page otherPage with
  | nil => exact start
  | cons line rest induction => exact induction (likeness.line start (likeness.refl _))

end Likeness

/-! ## Emissions -/

/-- Two emitters that differ at most in what their pages show. -/
structure Emitter.Alike (pages : Page → Page → Prop) (left right : Emitter) : Prop where
  scope : left.scope = right.scope
  warnings : left.warnings = right.warnings
  page : pages left.page right.page

namespace Emission

variable {α β : Type} {values : α → β → Prop} {pages : Page → Page → Prop}

theorem onPage_alike {change other : Page → Page}
    (changes : ∀ page otherPage, pages page otherPage →
      pages (change page) (other otherPage)) :
    EStateM.Coupled Eq (Emitter.Alike pages) (Emission.onPage change)
      (Emission.onPage other) :=
  fun _ _ alike => .ok rfl ⟨alike.scope, alike.warnings, changes _ _ alike.page⟩

theorem onScope_alike (change : Scope → Scope) :
    EStateM.Coupled Eq (Emitter.Alike pages) (Emission.onScope change)
      (Emission.onScope change) := by
  intro left right alike
  refine .ok rfl ⟨?_, alike.warnings, alike.page⟩
  change change left.scope = change right.scope
  rw [alike.scope]

theorem warn_alike (warning : Warning) :
    EStateM.Coupled Eq (Emitter.Alike pages) (Emission.warn warning)
      (Emission.warn warning) := by
  intro left right alike
  refine .ok rfl ⟨alike.scope, ?_, alike.page⟩
  change left.warnings ++ [warning] = right.warnings ++ [warning]
  rw [alike.warnings]

/-- The same value on both sides, or the same fault. -/
theorem ofExcept_alike (result : Except Diagnostic α) :
    EStateM.Coupled Eq (Emitter.Alike pages) (Emission.ofExcept result)
      (Emission.ofExcept result) := by
  cases result with
  | ok value => exact .pure rfl
  | error diagnostic => exact .throw diagnostic

theorem bindTarget_alike (binding : Binding) (name : String) (location : Location) :
    EStateM.Coupled Eq (Emitter.Alike pages) (Emission.bind binding name location)
      (Emission.bind binding name location) := by
  cases binding with
  | none => exact .pure rfl
  | write => exact onScope_alike _
  | update =>
      intro left right alike
      have updates : EStateM.Coupled Eq (Emitter.Alike pages)
          (Emission.ofExcept (left.scope.update name location) >>=
            fun scope => Emission.onScope fun _ => scope)
          (Emission.ofExcept (left.scope.update name location) >>=
            fun scope => Emission.onScope fun _ => scope) := by
        refine .bind (ofExcept_alike _) ?_
        rintro scope _ rfl
        exact onScope_alike _
      have ended := updates left right alike
      rw [Emission.bind, EStateM.bind_apply, EStateM.bind_apply, EStateM.get_apply,
        EStateM.get_apply]
      dsimp only
      rw [← alike.scope]
      exact ended

theorem withScope_alike (scope : Scope) {emission : Emission α} {other : Emission β}
    (inside : EStateM.Coupled values (Emitter.Alike pages) emission other) :
    EStateM.Coupled values (Emitter.Alike pages) (Emission.withScope scope emission)
      (Emission.withScope scope other) := by
  intro left right alike
  have ended :=
    inside { left with scope } { right with scope } ⟨rfl, alike.warnings, alike.page⟩
  rw [Emission.withScope, Emission.withScope]
  generalize emission { left with scope } = run at ended ⊢
  generalize other { right with scope } = otherRun at ended ⊢
  cases ended with
  | ok value after => exact .ok value ⟨alike.scope, after.warnings, after.page⟩
  | error after => exact .error ⟨alike.scope, after.warnings, after.page⟩

/-- Runs from an empty page, which are related once the first line is written. -/
theorem start_alike {change otherChange : Page → Page} {rest other : Emission Unit}
    (begins : pages (change .empty) (otherChange .empty))
    (inside : EStateM.Coupled Eq (Emitter.Alike pages) rest other) (scope : Scope)
    (warnings : List Warning) :
    EStateM.EndAlike Eq (Emitter.Alike pages)
      ((do
        Emission.onPage change
        rest) ⟨scope, .empty, warnings⟩)
      ((do
        Emission.onPage otherChange
        other) ⟨scope, .empty, warnings⟩) :=
  inside _ _ ⟨rfl, rfl, begins⟩

theorem onOwnPage_alike {change otherChange : Page → Page} {rest other : Emission Unit}
    (begins : pages (change .empty) (otherChange .empty))
    (inside : EStateM.Coupled Eq (Emitter.Alike pages) rest other) :
    EStateM.Coupled pages (Emitter.Alike pages)
      (Emission.onOwnPage do
        Emission.onPage change
        rest)
      (Emission.onOwnPage do
        Emission.onPage otherChange
        other) := by
  intro left right alike
  have ended := start_alike begins inside right.scope right.warnings
  rw [Emission.onOwnPage, Emission.onOwnPage, alike.scope, alike.warnings]
  generalize (do
    Emission.onPage change
    rest : Emission Unit) ⟨right.scope, .empty, right.warnings⟩ = run at ended ⊢
  generalize (do
    Emission.onPage otherChange
    other : Emission Unit) ⟨right.scope, .empty, right.warnings⟩ = otherRun at ended ⊢
  cases ended with
  | ok value after => exact .ok after.page ⟨after.scope, after.warnings, alike.page⟩
  | error after => exact .error ⟨after.scope, after.warnings, alike.page⟩

theorem forM_alike {inputs : List α} {act other : α → Emission Unit}
    (each : ∀ input ∈ inputs,
      EStateM.Coupled Eq (Emitter.Alike pages) (act input) (other input)) :
    EStateM.Coupled Eq (Emitter.Alike pages) (inputs.forM act) (inputs.forM other) := by
  induction inputs with
  | nil => exact .pure rfl
  | cons input rest induction =>
      rw [List.forall_mem_cons] at each
      exact .bind each.1 fun _ _ _ => induction each.2

theorem optional_alike {condition : Bool} {emission otherEmission : Emission Unit}
    {next : Unit → Emission α} {other : Unit → Emission β}
    (done : EStateM.Coupled Eq (Emitter.Alike pages) emission otherEmission)
    (rest : EStateM.Coupled values (Emitter.Alike pages) (next ()) (other ())) :
    EStateM.Coupled values (Emitter.Alike pages)
      (if condition then emission >>= next else next ())
      (if condition then otherEmission >>= other else other ()) := by
  cases condition with
  | true => exact .bind done fun _ _ _ => rest
  | false => exact rest

end Emission

theorem declareOptional_alike {pages : Page → Page → Prop} (name : Option String)
    (location : Location) :
    EStateM.Coupled Eq (Emitter.Alike pages) (declareOptional name location)
      (declareOptional name location) := by
  cases name with
  | none => exact .pure rfl
  | some name => exact Emission.onScope_alike _

section

variable {first second : Setting} {texts : String → String → Prop}
  {pages : Page → Page → Prop}

namespace Likeness

variable {left right : String} {body other : Emission Unit}
  (likeness : Likeness first.layout second.layout texts pages)

include likeness

theorem emitLine (alike : texts left right) :
    EStateM.Coupled Eq (Emitter.Alike pages) (Emission.line left) (Emission.line right) :=
  Emission.onPage_alike fun _ _ start => likeness.line start alike

theorem emitLines {codes others : List String} (alike : List.Forall₂ texts codes others) :
    EStateM.Coupled Eq (Emitter.Alike pages) (Emission.lines codes)
      (Emission.lines others) := by
  induction alike with
  | nil => exact .pure rfl
  | cons head tail induction =>
      exact .bind (likeness.emitLine head) fun _ _ _ => induction

theorem emitComment (text : String) :
    EStateM.Coupled Eq (Emitter.Alike pages) (Emission.comment text)
      (Emission.comment text) :=
  Emission.onPage_alike fun _ _ start => likeness.paragraph start _

theorem emitDocblock (text : Option String) :
    EStateM.Coupled Eq (Emitter.Alike pages) (Emission.docblock text)
      (Emission.docblock text) := by
  cases text with
  | none => exact .pure rfl
  | some text => exact likeness.emitComment text

theorem emitBlankLine :
    EStateM.Coupled Eq (Emitter.Alike pages) (Emission.onPage (·.blankLine))
      (Emission.onPage (·.blankLine)) :=
  Emission.onPage_alike fun _ _ start => likeness.blankLine start

theorem emitOpening (head : texts left right) :
    EStateM.Coupled Eq (Emitter.Alike pages) (Emission.onPage (·.openBlock left false))
      (Emission.onPage (·.openBlock right false)) :=
  Emission.onPage_alike fun _ _ start => likeness.openBlock start head

theorem emitClosing (suffix : texts left right) :
    EStateM.Coupled Eq (Emitter.Alike pages) (Emission.onPage (·.closeBlock left))
      (Emission.onPage (·.closeBlock right)) :=
  Emission.onPage_alike fun _ _ start => likeness.closeBlock start suffix

theorem emitContinuation (head : texts left right) :
    EStateM.Coupled Eq (Emitter.Alike pages) (Emission.onPage (·.continueBlock left))
      (Emission.onPage (·.continueBlock right)) :=
  Emission.onPage_alike fun _ _ start => likeness.continueBlock start head

theorem block (head : texts left right)
    (inside : EStateM.Coupled Eq (Emitter.Alike pages) body other) :
    EStateM.Coupled Eq (Emitter.Alike pages)
      (do
        Emission.onPage (·.openBlock left false)
        body
        Emission.onPage (·.closeBlock ""))
      (do
        Emission.onPage (·.openBlock right false)
        other
        Emission.onPage (·.closeBlock "")) := by
  refine .bind (likeness.emitOpening head) fun _ _ _ => ?_
  exact .bind inside fun _ _ _ => likeness.emitClosing (likeness.refl "")

theorem clause {rest otherRest : Emission Unit} (label : texts left right)
    (inside : EStateM.Coupled Eq (Emitter.Alike pages) body other)
    (later : EStateM.Coupled Eq (Emitter.Alike pages) rest otherRest) :
    EStateM.Coupled Eq (Emitter.Alike pages)
      (do
        Emission.line left
        Emission.onPage (·.indent)
        body
        Emission.onPage (·.flush.unindent)
        rest)
      (do
        Emission.line right
        Emission.onPage (·.indent)
        other
        Emission.onPage (·.flush.unindent)
        otherRest) := by
  refine .bind (likeness.emitLine label) fun _ _ _ => ?_
  refine .bind (Emission.onPage_alike fun _ _ start => likeness.indent start)
    fun _ _ _ => ?_
  refine .bind inside fun _ _ _ => ?_
  refine .bind (Emission.onPage_alike fun _ _ start => ?_) fun _ _ _ => later
  exact likeness.unindent (likeness.flush start)

theorem methodCall (receiver : Option Receiver) (location : Location) (method : String)
    {object otherObject : String} {arguments otherArguments : List String}
    (objects : texts object otherObject)
    (alike : List.Forall₂ texts arguments otherArguments) :
    EStateM.Coupled texts (Emitter.Alike pages)
      (methodCallCode receiver location method object arguments)
      (methodCallCode receiver location method otherObject otherArguments) := by
  cases receiver with
  | none =>
      exact .pure (likeness.append (likeness.after (likeness.after objects _) method)
        (likeness.arguments alike))
  | some kind =>
      refine .bind (Emission.ofExcept_alike _) ?_
      rintro pseudoMethod _ rfl
      have called : texts
          (pseudoMethod.function ++ argumentCode (pseudoMethod.arrange object arguments))
          (pseudoMethod.function ++
            argumentCode (pseudoMethod.arrange otherObject otherArguments)) :=
        likeness.before _ (likeness.arguments (Slot.arrange_related _ objects alike))
      cases pseudoMethod.inPlace with
      | true => exact .bind (Emission.warn_alike _) fun _ _ _ => .pure called
      | false => exact .pure called

/-- Whether a right-hand side is blank is the same on both sides. -/
theorem compiled (expression : Expr) (context : ExpressionContext)
    (codes : texts left right) :
    EStateM.Coupled (fun _ _ => True) (Emitter.Alike pages)
      (Emission.ofExcept (expression.compiled context left))
      (Emission.ofExcept (expression.compiled context right)) := by
  rw [Expr.compiled, Expr.compiled, Text.isEmpty_trim, Text.isEmpty_trim,
    likeness.visible codes]
  split
  · exact .throw _
  · exact .pure trivial

theorem target (form : AssignmentForm) (target : String) (property : Option String)
    (location : Location) (paths : texts left right) :
    EStateM.Coupled texts (Emitter.Alike pages)
      (Emission.ofExcept (form.targetCode target property left location))
      (Emission.ofExcept (form.targetCode target property right location)) := by
  simp only [AssignmentForm.targetCode]
  cases form.takesProperty <;> cases property
  case true.none => exact .throw _
  all_goals exact .pure (likeness.wrap _ paths _)

theorem sides {form : AssignmentForm} {operator : Option AssignmentOperator}
    {target : String} {property : Option String} {value : Option Expr}
    {location : Location} {steps otherSteps : List String}
    (rendered : ∀ expression ∈ value, EStateM.Coupled texts (Emitter.Alike pages)
      (renderExpr first expression) (renderExpr second expression))
    (alike : List.Forall₂ texts steps otherSteps) :
    EStateM.Coupled (fun compiled other => texts compiled.code other.code)
      (Emitter.Alike pages)
      (compileSides first form operator target property value location steps)
      (compileSides second form operator target property value location otherSteps) := by
  have paths : texts (String.join (steps.map fun step => "[" ++ step ++ "]"))
      (String.join (otherSteps.map fun step => "[" ++ step ++ "]")) := by
    apply likeness.join
    rw [List.forall₂_map_left_iff, List.forall₂_map_right_iff]
    exact alike.imp fun _ _ step => likeness.wrap "[" step "]"
  refine .bind (likeness.target form target property location paths) ?_
  intro leftCode rightCode targets
  split
  · cases value with
    | none => exact .throw _
    | some value =>
        refine .bind (rendered value rfl) fun code otherCode codes => ?_
        refine .bind (likeness.compiled value _ codes) fun _ _ _ => .pure ?_
        exact likeness.after (likeness.append (likeness.after (likeness.after
          (likeness.after targets _) _) _) codes) ";"
  · exact .pure (likeness.after targets ";")

/-- Two conditions with the same parts. -/
def ConditionsAlike (texts : String → String → Prop) (condition other : Condition) :
    Prop :=
  texts condition.test other.test ∧
    List.Forall₂ texts condition.assignment.toList other.assignment.toList

theorem condition_fetch (location : Location) (target : String) {source : Expr}
    (rendered : EStateM.Coupled texts (Emitter.Alike pages) (renderExpr first source)
      (renderExpr second source)) :
    EStateM.Coupled (ConditionsAlike texts) (Emitter.Alike pages)
      (renderCondition first (.fetch location target source))
      (renderCondition second (.fetch location target source)) := by
  refine .bind rendered fun code otherCode codes => ?_
  refine .bind (Emission.bindTarget_alike .write target location) fun _ _ _ => .pure ?_
  exact ⟨likeness.wrap "isset(" codes ")",
    .cons (likeness.after (likeness.before _ codes) ";") .nil⟩

omit likeness in
theorem condition_other {condition : Expr}
    (rendered : EStateM.Coupled texts (Emitter.Alike pages) (renderExpr first condition)
      (renderExpr second condition)) :
    EStateM.Coupled (ConditionsAlike texts) (Emitter.Alike pages)
      (do pure (⟨← renderExpr first condition, none⟩ : Condition))
      (do pure (⟨← renderExpr second condition, none⟩ : Condition)) :=
  rendered.bind_pure fun _ _ codes => ⟨codes, .nil⟩

end Likeness

/-! ## Expressions and statements -/

mutual

theorem renderExpr_alike
    (likeness : Likeness first.layout second.layout texts pages)
    (globals : first.globals = second.globals) (expression : Expr) :
    EStateM.Coupled texts (Emitter.Alike pages) (renderExpr first expression)
      (renderExpr second expression) := by
  cases expression with
  | atom location leaf => exact .pure (likeness.refl _)
  | array location items =>
      exact (renderItems_alike likeness globals items).bind_pure fun _ _ codes =>
        likeness.wrap "[" (likeness.intercalate ", " codes) "]"
  | unary location operator operand =>
      have rendered := renderExpr_alike likeness globals operand
      cases operator with
      | isset =>
          cases operand with
          | index place container key =>
              refine (renderExpr_alike likeness globals container).bind
                fun _ _ containers => ?_
              exact (renderExpr_alike likeness globals key).bind_pure fun _ _ keys =>
                likeness.after (likeness.between (likeness.before _ containers) _ keys) _
          | property place object name =>
              exact (renderExpr_alike likeness globals object).bind_pure
                fun _ _ objects =>
                likeness.after (likeness.after (likeness.wrap _ objects _) _) _
          | stringProperty place object name =>
              exact (renderExpr_alike likeness globals object).bind_pure
                fun _ _ objects =>
                likeness.after (likeness.after (likeness.wrap _ objects _) _) _
          | dynamicProperty place object name =>
              refine (renderExpr_alike likeness globals object).bind fun _ _ objects => ?_
              exact (renderExpr_alike likeness globals name).bind_pure fun _ _ names =>
                likeness.after (likeness.between (likeness.before _ objects) _ names) _
          | _ => exact rendered.bind_pure fun _ _ codes => likeness.unary _ codes
      | _ => exact rendered.bind_pure fun _ _ codes => likeness.unary _ codes
  | binary location operator left right =>
      refine (renderExpr_alike likeness globals left).bind fun _ _ lefts => ?_
      exact (renderExpr_alike likeness globals right).bind_pure fun _ _ rights =>
        likeness.append (likeness.after (likeness.after (likeness.after lefts _) _) _)
          rights
  | range location inclusive start last =>
      refine (renderExpr_alike likeness globals start).bind fun _ _ starts => ?_
      exact (renderExpr_alike likeness globals last).bind_pure fun _ _ lasts =>
        likeness.range inclusive starts lasts
  | property location object name =>
      exact (renderExpr_alike likeness globals object).bind_pure fun _ _ objects =>
        likeness.after (likeness.after objects _) _
  | dynamicProperty location object name =>
      refine (renderExpr_alike likeness globals object).bind fun _ _ objects => ?_
      exact (renderExpr_alike likeness globals name).bind_pure fun _ _ names =>
        likeness.after (likeness.between objects _ names) _
  | stringProperty location object name =>
      exact (renderExpr_alike likeness globals object).bind_pure fun _ _ objects =>
        likeness.after (likeness.after (likeness.wrap _ objects _) _) _
  | index location container key =>
      refine (renderExpr_alike likeness globals container).bind fun _ _ containers => ?_
      exact (renderExpr_alike likeness globals key).bind_pure fun _ _ keys =>
        likeness.after (likeness.between containers _ keys) _
  | methodCall location receiver method arguments =>
      refine (renderExpr_alike likeness globals receiver).bind fun _ _ objects => ?_
      refine (renderExprs_alike likeness globals arguments).bind fun _ _ codes => ?_
      exact likeness.methodCall _ location method objects codes
  | functionCall location function arguments =>
      rw [renderExpr, renderExpr, globals]
      refine .bind (Emission.ofExcept_alike _) fun _ _ _ => ?_
      exact (renderExprs_alike likeness globals arguments).bind_pure fun _ _ codes =>
        likeness.before _ (likeness.arguments codes)
  | staticCall location className method arguments =>
      exact (renderExprs_alike likeness globals arguments).bind_pure fun _ _ codes =>
        likeness.before _ (likeness.arguments codes)
  | new location className dynamic arguments =>
      exact (renderExprs_alike likeness globals arguments).bind_pure fun _ _ codes =>
        likeness.before _ (likeness.arguments codes)
  | cast location type operand => exact renderExpr_alike likeness globals operand
  | typeHint location type operand => exact renderExpr_alike likeness globals operand
  | ternary location condition consequence alternative =>
      refine (renderExpr_alike likeness globals condition).bind fun _ _ conditions => ?_
      refine (renderExpr_alike likeness globals consequence).bind
        fun _ _ consequences => ?_
      exact (renderExpr_alike likeness globals alternative).bind_pure
        fun _ _ alternatives =>
        likeness.between (likeness.between conditions _ consequences) _ alternatives
  | closure location parameters body =>
      refine (renderParameters_alike likeness globals parameters).bind
        fun _ _ parameterLists => ?_
      have inside : EStateM.Coupled Eq (Emitter.Alike pages)
          (do
            emitBlock first body
            Emission.onPage (·.closeBlock ""))
          (do
            emitBlock second body
            Emission.onPage (·.closeBlock "")) :=
        (emitBlock_alike likeness globals body).bind fun _ _ _ =>
          likeness.emitClosing (likeness.refl "")
      have begins := likeness.closureHead (likeness.intercalate ", " parameterLists)
      -- The scope of the body is made from the one around the closure, which both runs
      -- share.
      rintro ⟨scope, page, warnings⟩ ⟨otherScope, otherPage, otherWarnings⟩ alike
      obtain rfl : scope = otherScope := alike.scope
      exact (Emission.withScope_alike _
        (Emission.onOwnPage_alike begins inside)).bind_pure
        (fun _ _ shown => likeness.content shown) _ _ alike
  | arrow location parameter body =>
      exact (Emission.withScope_alike _
        (renderExpr_alike likeness globals body)).bind_pure fun _ _ codes =>
        likeness.wrap _ codes _
  | fetch location target source =>
      exact (renderExpr_alike likeness globals source).bind_pure fun _ _ codes =>
        likeness.wrap _ codes _
termination_by structural expression

theorem renderExprs_alike (likeness : Likeness first.layout second.layout texts pages)
    (globals : first.globals = second.globals) (expressions : List Expr) :
    EStateM.Coupled (List.Forall₂ texts) (Emitter.Alike pages)
      (renderExprs first expressions)
      (renderExprs second expressions) := by
  cases expressions with
  | nil => exact .pure .nil
  | cons expression rest =>
      refine (renderExpr_alike likeness globals expression).bind fun _ _ codes => ?_
      exact (renderExprs_alike likeness globals rest).bind_pure fun _ _ others =>
        .cons codes others
termination_by structural expressions

theorem renderItems_alike
    (likeness : Likeness first.layout second.layout texts pages)
    (globals : first.globals = second.globals) (items : List ArrayItem) :
    EStateM.Coupled (List.Forall₂ texts) (Emitter.Alike pages) (renderItems first items)
      (renderItems second items) := by
  cases items with
  | nil => exact .pure .nil
  | cons item rest =>
      rcases item with ⟨key, value⟩
      cases key with
      | none =>
          refine (renderExpr_alike likeness globals value).bind fun _ _ values => ?_
          exact (renderItems_alike likeness globals rest).bind_pure fun _ _ others =>
            .cons (likeness.arrayItem .none values) others
      | some key =>
          refine (renderExpr_alike likeness globals value).bind fun _ _ values => ?_
          have given := (renderExpr_alike likeness globals key).map fun _ _ keys =>
            Option.Rel.some keys
          refine given.bind fun _ _ keys => ?_
          exact (renderItems_alike likeness globals rest).bind_pure fun _ _ others =>
            .cons (likeness.arrayItem keys values) others
termination_by structural items

theorem renderParameters_alike
    (likeness : Likeness first.layout second.layout texts pages)
    (globals : first.globals = second.globals) (parameters : List Parameter) :
    EStateM.Coupled (List.Forall₂ texts) (Emitter.Alike pages)
      (renderParameters first parameters) (renderParameters second parameters) := by
  cases parameters with
  | nil => exact .pure .nil
  | cons parameter rest =>
      rcases parameter with ⟨name, default, byReference⟩
      cases default with
      | none =>
          exact (renderParameters_alike likeness globals rest).bind_pure fun _ _ others =>
            .cons (likeness.parameter byReference name .none) others
      | some default =>
          have given := (renderExpr_alike likeness globals default).map fun _ _ values =>
            Option.Rel.some values
          refine given.bind fun _ _ defaults => ?_
          exact (renderParameters_alike likeness globals rest).bind_pure fun _ _ others =>
            .cons (likeness.parameter byReference name defaults) others
termination_by structural parameters

theorem compileAssignment_alike
    (likeness : Likeness first.layout second.layout texts pages)
    (globals : first.globals = second.globals) (assignment : Assignment) :
    EStateM.Coupled (fun compiled other => texts compiled.code other.code)
      (Emitter.Alike pages)
      (compileAssignment first assignment) (compileAssignment second assignment) := by
  rcases assignment with ⟨form, operator, target, property, index, value, location⟩
  have steps : EStateM.Coupled (List.Forall₂ texts) (Emitter.Alike pages)
      (renderExprs first (if form.takesIndex then index else []))
      (renderExprs second (if form.takesIndex then index else [])) := by
    split
    · exact renderExprs_alike likeness globals index
    · exact .pure .nil
  have rendered : ∀ expression ∈ value, EStateM.Coupled texts (Emitter.Alike pages)
      (renderExpr first expression) (renderExpr second expression) := by
    cases value with
    | none => simp
    | some value => simpa using renderExpr_alike likeness globals value
  rw [compileAssignment_sides, compileAssignment_sides]
  refine .bind (Emission.bindTarget_alike form.binding target location) fun _ _ _ => ?_
  exact steps.bind fun _ _ codes => likeness.sides rendered codes
termination_by structural assignment

theorem compileAssignments_alike
    (likeness : Likeness first.layout second.layout texts pages)
    (globals : first.globals = second.globals) (assignments : List Assignment) :
    EStateM.Coupled (List.Forall₂ fun compiled other => texts compiled.code other.code)
      (Emitter.Alike pages) (compileAssignments first assignments)
      (compileAssignments second assignments) := by
  cases assignments with
  | nil => exact .pure .nil
  | cons assignment rest =>
      refine (compileAssignment_alike likeness globals assignment).bind
        fun _ _ compiled => ?_
      exact (compileAssignments_alike likeness globals rest).bind_pure fun _ _ others =>
        .cons compiled others
termination_by structural assignments

theorem emitStmt_alike
    (likeness : Likeness first.layout second.layout texts pages)
    (globals : first.globals = second.globals) (statement : Stmt) :
    EStateM.Coupled Eq (Emitter.Alike pages) (emitStmt first statement)
      (emitStmt second statement) := by
  cases statement with
  | assign location assignments =>
      refine (compileAssignments_alike likeness globals assignments).bind
        fun _ _ compiled => ?_
      apply likeness.emitLines
      rw [List.forall₂_map_left_iff, List.forall₂_map_right_iff]
      exact compiled
  | declare location declarations =>
      exact emitDeclarations_alike likeness globals location declarations
  | expression location expression =>
      exact (renderExpr_alike likeness globals expression).bind fun _ _ codes =>
        likeness.emitLine (likeness.after codes ";")
  | cond location condition body alternatives otherwise =>
      have head : EStateM.Coupled (Likeness.ConditionsAlike texts) (Emitter.Alike pages)
          (renderCondition first condition) (renderCondition second condition) := by
        cases condition with
        | fetch place target source =>
            exact likeness.condition_fetch place target
              (renderExpr_alike likeness globals source)
        | _ => exact Likeness.condition_other (renderExpr_alike likeness globals _)
      rw [emitStmt_cond, emitStmt_cond]
      refine head.bind fun _ _ conditions => ?_
      refine .bind (likeness.emitOpening (likeness.wrap _ conditions.1 _)) fun _ _ _ => ?_
      refine .bind (likeness.emitLines conditions.2) fun _ _ _ => ?_
      refine (emitBlock_alike likeness globals body).bind fun _ _ _ => ?_
      refine (emitBranches_alike likeness globals alternatives).bind fun _ _ _ => ?_
      cases otherwise with
      | none => exact likeness.emitClosing (likeness.refl "")
      | some block =>
          refine .bind (likeness.emitContinuation (likeness.refl _)) fun _ _ _ => ?_
          exact (emitBlock_alike likeness globals block).bind fun _ _ _ =>
            likeness.emitClosing (likeness.refl "")
  | loop location body =>
      exact likeness.block (likeness.refl _) (emitBlock_alike likeness globals body)
  | whileLoop location condition body =>
      exact (renderExpr_alike likeness globals condition).bind fun _ _ codes =>
        likeness.block (likeness.wrap _ codes _) (emitBlock_alike likeness globals body)
  | doWhile location body condition =>
      refine .bind (likeness.emitOpening (likeness.refl _)) fun _ _ _ => ?_
      refine (emitBlock_alike likeness globals body).bind fun _ _ _ => ?_
      exact (renderExpr_alike likeness globals condition).bind fun _ _ codes =>
        likeness.emitClosing (likeness.wrap _ codes _)
  | forEach location key value reverse source body =>
      rw [emitStmt_forEach, emitStmt_forEach]
      refine (renderExpr_alike likeness globals source).bind
        fun code otherCode codes => ?_
      have sources : texts (if reverse then "array_reverse(" ++ code ++ ")" else code)
          (if reverse then "array_reverse(" ++ otherCode ++ ")" else otherCode) := by
        cases reverse with
        | true => exact likeness.wrap _ codes _
        | false => exact codes
      refine .bind (Emission.onScope_alike _) fun _ _ _ => ?_
      refine .bind (declareOptional_alike _ location) fun _ _ _ => ?_
      exact likeness.block (likeness.forEach _ _ sources)
        (emitBlock_alike likeness globals body)
  | switch location subject clauses =>
      exact (renderExpr_alike likeness globals subject).bind fun _ _ codes =>
        likeness.block (likeness.wrap _ codes _)
          (emitClauses_alike likeness globals clauses)
  | continueLoop location => exact likeness.emitLine (likeness.refl _)
  | breakLoop location => exact likeness.emitLine (likeness.refl _)
  | returnValue location value =>
      cases value with
      | none => exact likeness.emitLine (likeness.refl _)
      | some value =>
          exact (renderExpr_alike likeness globals value).bind fun _ _ codes =>
            likeness.emitLine (likeness.wrap _ codes _)
  | throwValue location value =>
      exact (renderExpr_alike likeness globals value).bind fun _ _ codes =>
        likeness.emitLine (likeness.wrap _ codes _)
  | unset location target =>
      exact (renderExpr_alike likeness globals target).bind fun _ _ codes =>
        likeness.emitLine (likeness.wrap _ codes _)
  | echo location values =>
      exact (renderExprs_alike likeness globals values).bind fun _ _ codes =>
        likeness.emitLine (likeness.wrap _ (likeness.intercalate _ codes) _)
  | require location file =>
      exact (renderExpr_alike likeness globals file).bind fun _ _ codes =>
        likeness.emitLine (likeness.wrap _ codes _)
  | tryCatch location body handlers =>
      refine .bind (likeness.emitOpening (likeness.refl _)) fun _ _ _ => ?_
      refine (emitBlock_alike likeness globals body).bind fun _ _ _ => ?_
      exact (emitHandlers_alike likeness globals handlers).bind fun _ _ _ =>
        likeness.emitClosing (likeness.refl "")
  | comment location text => exact likeness.emitComment text
  | empty location => exact .pure rfl
termination_by structural statement

theorem emitBlock_alike
    (likeness : Likeness first.layout second.layout texts pages)
    (globals : first.globals = second.globals) (statements : List Stmt) :
    EStateM.Coupled Eq (Emitter.Alike pages) (emitBlock first statements)
      (emitBlock second statements) := by
  cases statements with
  | nil => exact .pure rfl
  | cons statement rest =>
      exact (emitStmt_alike likeness globals statement).bind fun _ _ _ =>
        emitBlock_alike likeness globals rest
termination_by structural statements

theorem emitDeclarations_alike
    (likeness : Likeness first.layout second.layout texts pages)
    (globals : first.globals = second.globals) (location : Location)
    (declarations : List Declaration) :
    EStateM.Coupled Eq (Emitter.Alike pages)
      (emitDeclarations first location declarations)
      (emitDeclarations second location declarations) := by
  cases declarations with
  | nil => exact .pure rfl
  | cons declaration rest =>
      rcases declaration with ⟨name, value⟩
      cases value with
      | none =>
          exact .bind (Emission.onScope_alike _) fun _ _ _ =>
            emitDeclarations_alike likeness globals location rest
      | some value =>
          refine .bind (Emission.onScope_alike _) fun _ _ _ => ?_
          refine (renderExpr_alike likeness globals value).bind fun _ _ codes => ?_
          refine .bind (likeness.emitLine (likeness.wrap _ codes _)) fun _ _ _ => ?_
          exact emitDeclarations_alike likeness globals location rest
termination_by structural declarations

theorem emitBranches_alike
    (likeness : Likeness first.layout second.layout texts pages)
    (globals : first.globals = second.globals) (branches : List Branch) :
    EStateM.Coupled Eq (Emitter.Alike pages) (emitBranches first branches)
      (emitBranches second branches) := by
  cases branches with
  | nil => exact .pure rfl
  | cons branch rest =>
      rcases branch with ⟨condition, body⟩
      have head : EStateM.Coupled (Likeness.ConditionsAlike texts) (Emitter.Alike pages)
          (renderCondition first condition) (renderCondition second condition) := by
        cases condition with
        | fetch place target source =>
            exact likeness.condition_fetch place target
              (renderExpr_alike likeness globals source)
        | _ => exact Likeness.condition_other (renderExpr_alike likeness globals _)
      rw [emitBranches_cons, emitBranches_cons]
      refine head.bind fun _ _ conditions => ?_
      refine .bind (likeness.emitContinuation (likeness.wrap _ conditions.1 _))
        fun _ _ _ => ?_
      refine .bind (likeness.emitLines conditions.2) fun _ _ _ => ?_
      exact (emitBlock_alike likeness globals body).bind fun _ _ _ =>
        emitBranches_alike likeness globals rest
termination_by structural branches

theorem emitClauses_alike
    (likeness : Likeness first.layout second.layout texts pages)
    (globals : first.globals = second.globals) (clauses : List Clause) :
    EStateM.Coupled Eq (Emitter.Alike pages) (emitClauses first clauses)
      (emitClauses second clauses) := by
  cases clauses with
  | nil => exact .pure rfl
  | cons clause rest =>
      cases clause with
      | case test body =>
          exact (renderExpr_alike likeness globals test).bind fun _ _ codes =>
            likeness.clause (likeness.wrap _ codes _)
              (emitBlock_alike likeness globals body)
              (emitClauses_alike likeness globals rest)
      | default body =>
          exact likeness.clause (likeness.refl _) (emitBlock_alike likeness globals body)
            (emitClauses_alike likeness globals rest)
termination_by structural clauses

theorem emitHandlers_alike
    (likeness : Likeness first.layout second.layout texts pages)
    (globals : first.globals = second.globals) (handlers : List Handler) :
    EStateM.Coupled Eq (Emitter.Alike pages) (emitHandlers first handlers)
      (emitHandlers second handlers) := by
  cases handlers with
  | nil => exact .pure rfl
  | cons handler rest =>
      rcases handler with ⟨classes, caught, body⟩
      rw [emitHandlers_cons, emitHandlers_cons]
      refine .bind (declareOptional_alike caught .unknown) fun _ _ _ => ?_
      refine .bind (likeness.emitContinuation (likeness.refl _)) fun _ _ _ => ?_
      exact (emitBlock_alike likeness globals body).bind fun _ _ _ =>
        emitHandlers_alike likeness globals rest
termination_by structural handlers

end

/-! ## Definitions -/

variable (likeness : Likeness first.layout second.layout texts pages)
  (globals : first.globals = second.globals)

include likeness globals

theorem emitConstant_alike (constant : Constant) :
    EStateM.Coupled Eq (Emitter.Alike pages) (emitConstant first constant)
      (emitConstant second constant) := by
  refine .bind (likeness.emitDocblock constant.docblock) fun _ _ _ => ?_
  exact (renderExpr_alike likeness globals constant.value).bind fun _ _ values =>
    likeness.emitLine (likeness.wrap _ values _)

theorem emitProperty_alike (property : Property) :
    EStateM.Coupled Eq (Emitter.Alike pages) (emitProperty first property)
      (emitProperty second property) := by
  refine .bind (likeness.emitDocblock property.docblock) fun _ _ _ => ?_
  cases property.default with
  | none => exact likeness.emitLine (likeness.refl _)
  | some default =>
      exact (renderExpr_alike likeness globals default).bind fun _ _ values =>
        likeness.emitLine (likeness.wrap _ values _)

omit globals in
theorem body_alike {head otherHead : String} {inside other : Emission Unit}
    (heads : texts head otherHead)
    (bodies : EStateM.Coupled Eq (Emitter.Alike pages) inside other) :
    EStateM.Coupled Eq (Emitter.Alike pages)
      (do
        Emission.onPage (·.openBlock head first.layout.braceOnNewLine)
        inside
        Emission.onPage (·.closeBlock ""))
      (do
        Emission.onPage (·.openBlock otherHead second.layout.braceOnNewLine)
        other
        Emission.onPage (·.closeBlock "")) := by
  refine .bind (Emission.onPage_alike fun _ _ start => likeness.openBody start heads)
    fun _ _ _ => ?_
  exact .bind bodies fun _ _ _ => likeness.emitClosing (likeness.refl "")

theorem emitBody_alike {head otherHead : String} (heads : texts head otherHead)
    (statements : List Stmt) :
    EStateM.Coupled Eq (Emitter.Alike pages) (emitBody first head statements)
      (emitBody second otherHead statements) :=
  body_alike likeness heads (emitBlock_alike likeness globals statements)

theorem emitMethod_alike (inInterface : Bool) (method : Method) :
    EStateM.Coupled Eq (Emitter.Alike pages) (emitMethod first inInterface method)
      (emitMethod second inInterface method) := by
  refine .bind (likeness.emitDocblock method.docblock) fun _ _ _ => ?_
  apply Emission.withScope_alike
  refine (renderParameters_alike likeness globals method.parameters).bind
    fun parameters others alike => ?_
  have heads : texts (method.head inInterface parameters)
      (method.head inInterface others) :=
    likeness.before _ (likeness.arguments alike)
  split
  · exact likeness.emitLine (likeness.after heads ";")
  · exact emitBody_alike likeness globals heads _

theorem emitFunction_alike (definition : FunctionDefinition) :
    EStateM.Coupled Eq (Emitter.Alike pages) (emitFunction first definition)
      (emitFunction second definition) := by
  refine .bind (likeness.emitDocblock definition.docblock) fun _ _ _ => ?_
  apply Emission.withScope_alike
  refine (renderParameters_alike likeness globals definition.parameters).bind
    fun _ _ parameters => ?_
  exact emitBody_alike likeness globals
    (likeness.before _ (likeness.arguments parameters)) _

theorem emitMethods_alike (inInterface : Bool) (methods : List Method) :
    EStateM.Coupled Eq (Emitter.Alike pages) (emitMethods first inInterface methods)
      (emitMethods second inInterface methods) := by
  induction methods with
  | nil => exact .pure rfl
  | cons method rest induction =>
      have once := emitMethod_alike likeness globals inInterface method
      cases rest with
      | nil => exact once
      | cons next others =>
          refine once.bind fun _ _ _ => ?_
          exact .bind likeness.emitBlankLine fun _ _ _ => induction

theorem emitMembers_alike (inInterface : Bool) (constants : List Constant)
    (properties : List Property) (methods : List Method) :
    EStateM.Coupled Eq (Emitter.Alike pages)
      (emitMembers first inInterface constants properties methods)
      (emitMembers second inInterface constants properties methods) := by
  refine .bind (Emission.forM_alike fun constant _ =>
    emitConstant_alike likeness globals constant) fun _ _ _ => ?_
  refine Emission.optional_alike likeness.emitBlankLine ?_
  refine .bind (Emission.forM_alike fun property _ =>
    emitProperty_alike likeness globals property) fun _ _ _ => ?_
  exact Emission.optional_alike likeness.emitBlankLine
    (emitMethods_alike likeness globals inInterface methods)

theorem emitClass_alike (definition : ClassDefinition) :
    EStateM.Coupled Eq (Emitter.Alike pages) (emitClass first definition)
      (emitClass second definition) := by
  refine .bind (likeness.emitDocblock definition.docblock) fun _ _ _ => ?_
  exact body_alike likeness (likeness.refl _)
    (emitMembers_alike likeness globals false _ _ _)

theorem emitInterface_alike (definition : InterfaceDefinition) :
    EStateM.Coupled Eq (Emitter.Alike pages) (emitInterface first definition)
      (emitInterface second definition) := by
  refine .bind (likeness.emitDocblock definition.docblock) fun _ _ _ => ?_
  exact body_alike likeness (likeness.refl _)
    (emitMembers_alike likeness globals true _ _ _)

theorem emitEntry_alike (entry : Entry) :
    EStateM.Coupled Eq (Emitter.Alike pages) (emitEntry first entry)
      (emitEntry second entry) := by
  cases entry with
  | comment location text => exact likeness.emitComment text
  | namespaceName location name =>
      exact .bind (likeness.emitLine (likeness.refl _)) fun _ _ _ =>
        likeness.emitBlankLine
  | imports location imported =>
      exact likeness.emitLines (List.forall₂_same.mpr fun code _ => likeness.refl code)
  | classDefinition definition =>
      exact (emitClass_alike likeness globals definition).bind
        fun _ _ _ => likeness.emitBlankLine
  | interfaceDefinition definition =>
      exact (emitInterface_alike likeness globals definition).bind
        fun _ _ _ => likeness.emitBlankLine
  | functionDefinition definition =>
      exact (emitFunction_alike likeness globals definition).bind
        fun _ _ _ => likeness.emitBlankLine
  | statement statement => exact emitStmt_alike likeness globals statement

omit globals in
/-- Two programs whose entries are emitted alike. -/
theorem emitProgram_alike {program other : Program}
    (entries : EStateM.Coupled Eq (Emitter.Alike pages)
      (program.entries.forM (emitEntry first))
      (other.entries.forM (emitEntry second))) :
    EStateM.EndAlike Eq (Emitter.Alike pages) (emitProgram first program {})
      (emitProgram second other {}) := by
  have begun := likeness.begin (by decide : Text.isVisible "<?php" = true) (by decide)
    (likeness.refl "")
  rw [String.append_empty] at begun
  have rest : EStateM.Coupled Eq (Emitter.Alike pages)
      (do
        Emission.onPage (·.blankLine)
        program.entries.forM (emitEntry first))
      (do
        Emission.onPage (·.blankLine)
        other.entries.forM (emitEntry second)) :=
    .bind likeness.emitBlankLine fun _ _ _ => entries
  rw [emitProgram, emitProgram]
  exact Emission.start_alike begun rest _ _

/-- A program leads to the same fault in both layouts or to files that are alike up to the
line break at their end, and to the same warnings. -/
theorem toPhp_alike (program : Program) :
    (program.toPhp first).2 = (program.toPhp second).2 ∧
      ((∃ diagnostic, (program.toPhp first).1 = .error diagnostic ∧
          (program.toPhp second).1 = .error diagnostic) ∨
        ∃ php other, (program.toPhp first).1 = .ok (php ++ "\n") ∧
          (program.toPhp second).1 = .ok (other ++ "\n") ∧ texts php other) := by
  have ended := emitProgram_alike likeness (Emission.forM_alike fun entry
    (_ : entry ∈ program.entries) => emitEntry_alike likeness globals entry)
  rw [Program.toPhp, Program.toPhp]
  generalize emitProgram first program {} = run at ended ⊢
  generalize emitProgram second program {} = otherRun at ended ⊢
  cases ended with
  | ok value after =>
      exact ⟨after.warnings, .inr ⟨_, _, rfl, rfl, likeness.content after.page⟩⟩
  | error after => exact ⟨after.warnings, .inl ⟨_, rfl, rfl⟩⟩

end

end ZephirPhp
