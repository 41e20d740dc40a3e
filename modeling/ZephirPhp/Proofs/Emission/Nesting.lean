import ZephirPhp.Proofs.Emission.Balance
import ZephirPhp.Proofs.Emission.Writing

/-! # Nesting of emitted brackets

Blocks are opened and closed by separate changes of the page, and a closure is written on
another page than its surroundings. What ties them together is the brackets that are
still to be closed on a page: a line of balanced code leaves them as they are, the head of
a block adds a brace and its end takes it away.
-/

namespace ZephirPhp

open Survey (texts)
open Text (Balanced)

variable {α β : Type}

/-! ## Brackets to be closed on a page -/

/-- The brackets that are to be closed on a page are these, the next one first. -/
def Page.Open (expected : List Char) (page : Page) : Prop :=
  unclosed [] page.brackets = some expected

namespace Page.Open

variable {expected : List Char} {page changed : Page}

theorem of_brackets_eq (start : Open expected page)
    (same : changed.brackets = page.brackets) :
    Open expected changed := by
  rw [Open, same]
  exact start

/-- Writing a text does to the page what the text does. -/
theorem turn (before after : List Char) {outer : List Char} {text : String}
    (start : Open (before ++ outer) page) (turns : Text.Turns before after text)
    (written : changed.brackets = page.brackets ++ Text.brackets text) :
    Open (after ++ outer) changed := by
  rw [Open, written, unclosed_append, start, Option.bind_some, turns]

theorem write {text : String} (start : Open expected page) (balanced : Balanced text)
    (written : changed.brackets = page.brackets ++ Text.brackets text) :
    Open expected changed :=
  turn [] [] start balanced written

/-- A page on which nothing is to be closed shows a balanced text. -/
theorem content_balanced (closed : Open [] page) (layout : Layout) :
    Balanced (page.content layout) := by
  rw [Text.Balanced, Text.turns_iff_unclosed, brackets_content]
  exact closed

end Page.Open

namespace Emission

/-- An emission that finds the brackets `before` to be closed on the page and leaves the
brackets `after`. -/
def Turns (before after : List Char) (emission : Emission α) : Prop :=
  Leads (Page.Open before) (fun _ => Page.Open after) emission

namespace Turns

variable {before middle after expected : List Char} {kind : α → Prop}

theorem pure (value : α) : Turns expected expected (Pure.pure value) :=
  Leads.pure fun _ start => start

theorem bind {first : Emission α} {next : α → Emission β}
    (start : Turns before middle first)
    (rest : ∀ value, Turns middle after (next value)) :
    Turns before after (first >>= next) :=
  Leads.bind start rest

/-- The next part may rely on what is known of the result of the first. -/
theorem bind_of {first : Emission α} {next : α → Emission β}
    (start : Leads (Page.Open before)
      (fun value page => kind value ∧ page.Open before) first)
    (rest : ∀ value, kind value → Turns before after (next value)) :
    Turns before after (first >>= next) :=
  Leads.bind_of start rest

/-- The first part is rendered apart from the page. -/
theorem bind_detached {first : Emission α} {next : α → Emission β}
    (detached : Detached first) (yields : Yields kind first)
    (rest : ∀ value, kind value → Turns before after (next value)) :
    Turns before after (first >>= next) :=
  bind_of (.ofDetached detached yields) rest

theorem onScope (change : Scope → Scope) :
    Turns expected expected (Emission.onScope change) :=
  Leads.onScope change

theorem withScope {scope : Scope} {emission : Emission α}
    (inside : Turns before after emission) :
    Turns before after (Emission.withScope scope emission) :=
  Leads.withScope inside

theorem forM {values : List α} {act : α → Emission Unit}
    (each : ∀ value ∈ values, Turns expected expected (act value)) :
    Turns expected expected (values.forM act) :=
  Leads.forM each

/-- Something that is done or left out. -/
theorem optional {condition : Bool} {first : Emission Unit} {next : Unit → Emission β}
    (start : Turns before before first) (rest : Turns before after (next ())) :
    Turns before after (if condition then first >>= next else next ()) := by
  split
  · exact start.bind fun _ => rest
  · exact rest

/-- A change of the page that writes nothing. -/
theorem onPage {change : Page → Page}
    (same : ∀ page, (change page).brackets = page.brackets) :
    Turns expected expected (Emission.onPage change) :=
  Leads.onPage fun page start => start.of_brackets_eq (same page)

theorem line {text : String} (balanced : Balanced text) :
    Turns expected expected (Emission.line text) :=
  Leads.onPage fun page start => start.write balanced (page.brackets_line text)

theorem lines {texts : List String} (balanced : ∀ text ∈ texts, Balanced text) :
    Turns expected expected (Emission.lines texts) :=
  forM fun text member => line (balanced text member)

theorem comment {text : String} (plain : Text.brackets text = []) :
    Turns expected expected (Emission.comment text) := by
  have slash : Balanced "/" := by decide
  have balanced : Balanced ("/" ++ text ++ "/") :=
    (slash.append (.of_plain plain)).append slash
  exact Leads.onPage fun page start => start.write balanced (page.brackets_paragraph _)

theorem docblock {text : Option String} (plain : AllPlain text.toList) :
    Turns expected expected (Emission.docblock text) := by
  cases text with
  | none => exact pure ()
  | some text => exact comment ((AllPlain.singleton_iff text).mp plain)

theorem openBlock {header : String} (braceOnNewLine : Bool) (balanced : Balanced header) :
    Turns expected ('\x7d' :: expected)
      (Emission.onPage (·.openBlock header braceOnNewLine)) := by
  have headed : Text.Turns [] ['\x7d'] (header ++ " \x7b") :=
    Text.Turns.append balanced (by decide)
  have brace : Text.brackets " \x7b" = ['\x7b'] := by decide
  exact Leads.onPage fun page start => start.turn [] ['\x7d'] headed (by simp [brace])

theorem closeBlock {suffix : String} (balanced : Balanced suffix) :
    Turns ('\x7d' :: expected) expected (Emission.onPage (·.closeBlock suffix)) := by
  have brace : Text.Turns ['\x7d'] [] "\x7d" := by decide
  have shown : Text.brackets "\x7d" = ['\x7d'] := by decide
  exact Leads.onPage fun page start =>
    start.turn ['\x7d'] [] (brace.append balanced) (by simp [shown])

theorem continueBlock {header : String} (balanced : Balanced header) :
    Turns ('\x7d' :: expected) ('\x7d' :: expected)
      (Emission.onPage (·.continueBlock header)) := by
  have closed : Text.Turns ['\x7d'] [] "\x7d " := by decide
  have headed : Text.Turns ['\x7d'] ['\x7d'] ("\x7d " ++ header ++ " \x7b") :=
    (closed.within balanced).append (by decide)
  have braces : Text.brackets "\x7d " = ['\x7d'] ∧ Text.brackets " \x7b" = ['\x7b'] := by
    decide
  exact Leads.onPage fun page start =>
    start.turn ['\x7d'] ['\x7d'] headed (by simp [braces])

theorem block {header suffix : String} {body : Emission Unit} (braceOnNewLine : Bool)
    (ofHeader : Balanced header)
    (inside : Turns ('\x7d' :: expected) ('\x7d' :: expected) body)
    (ofSuffix : Balanced suffix) :
    Turns expected expected (do
      Emission.onPage (·.openBlock header braceOnNewLine)
      body
      Emission.onPage (·.closeBlock suffix)) := by
  apply (openBlock braceOnNewLine ofHeader).bind
  intro _
  apply inside.bind
  intro _
  exact closeBlock ofSuffix

theorem clause {label : String} {body rest : Emission Unit} (ofLabel : Balanced label)
    (inside : Turns expected expected body) (later : Turns expected expected rest) :
    Turns expected expected (do
      Emission.line label
      Emission.onPage (·.indent)
      body
      Emission.onPage (·.flush.unindent)
      rest) := by
  apply (line ofLabel).bind
  intro _
  apply (onPage fun page => page.brackets_indent).bind
  intro _
  apply inside.bind
  intro _
  apply (onPage fun page => by simp).bind
  intro _
  exact later

/-- The text of a page on which everything is closed that is opened. -/
theorem onOwnPage {emission : Emission Unit} (writes : Turns [] [] emission)
    (layout : Layout) :
    Yields (fun page => Balanced (page.content layout))
      (Emission.onOwnPage emission) := by
  apply Leads.onOwnPage
  intro emitter value final ended start
  have closed : emitter.page.Open [] := by
    rw [start]
    rfl
  exact (writes emitter value final ended closed).content_balanced layout

end Turns

end Emission

/-! ## Expressions and statements -/

theorem methodCallCode_balanced (receiver : Option Receiver) (location : Location)
    {method object : String} {arguments : List String}
    (plain : Text.brackets method = []) (ofObject : Balanced object)
    (ofArguments : ∀ argument ∈ arguments, Balanced argument) :
    Emission.Yields Balanced
      (methodCallCode receiver location method object arguments) := by
  cases receiver with
  | none =>
      exact .pure (((ofObject.append (by decide)).append (.of_plain plain)).append
        (argumentCode_balanced ofArguments))
  | some kind =>
      have resolved : Emission.Yields (fun found => Text.brackets found.function = [])
          (Emission.ofExcept (PseudoMethod.resolve kind method location)) :=
        .ofExcept fun found done => PseudoMethod.resolve_plain done
      refine resolved.bind fun pseudoMethod plainFunction => ?_
      have called : Balanced (pseudoMethod.function ++
          argumentCode (pseudoMethod.arrange object arguments)) :=
        (Balanced.of_plain plainFunction).append
          (argumentCode_balanced (Slot.forall_mem_arrange _ ofObject ofArguments))
      cases pseudoMethod.inPlace with
      | true => exact .after fun _ => .pure called
      | false => exact .pure called

/-- A condition in parentheses is balanced, and so is the assignment that goes with it. -/
def Condition.Even (condition : Condition) : Prop :=
  Balanced condition.test ∧ ∀ text ∈ condition.assignment.toList, Balanced text

theorem Condition.ofFetch_even {target source : String}
    (plain : Text.brackets target = []) (balanced : Balanced source) :
    (Condition.ofFetch target source).Even := by
  constructor
  · exact .wrap [')'] (by decide) balanced (by decide)
  · intro text member
    rw [List.mem_singleton.mp member]
    have dollar : Balanced "$" := by decide
    exact (((dollar.append (.of_plain plain)).append (by decide)).append balanced).append
      (by decide)

theorem renderCondition_fetch_even {setting : Setting} {expected : List Char}
    (location : Location) {target : String} {source : Expr}
    (plain : Text.brackets target = [])
    (rendered : Emission.Yields Balanced (renderExpr setting source)) :
    Emission.Leads (Page.Open expected)
      (fun condition page => condition.Even ∧ page.Open expected)
      (renderCondition setting (.fetch location target source)) := by
  refine .bind_of (.ofDetached (renderExpr_detached setting source) rendered) ?_
  intro code balanced
  exact (Emission.Leads.bindTarget .write target location).bind fun _ =>
    .pure fun page start => ⟨Condition.ofFetch_even plain balanced, start⟩

theorem renderCondition_other_even {setting : Setting} {expected : List Char}
    {condition : Expr}
    (rendered : Emission.Yields Balanced (renderExpr setting condition)) :
    Emission.Leads (Page.Open expected)
      (fun condition page => condition.Even ∧ page.Open expected)
      (do pure (⟨← renderExpr setting condition, none⟩ : Condition)) := by
  refine .bind_of (.ofDetached (renderExpr_detached setting condition) rendered) ?_
  intro code balanced
  exact .pure fun page start => ⟨⟨balanced, by simp⟩, start⟩

theorem declareOptional_turns {expected : List Char} (name : Option String)
    (location : Location) :
    Emission.Turns expected expected (declareOptional name location) := by
  cases name with
  | none => exact .pure ()
  | some name => exact .onScope _

theorem compileAssignment_balanced_of {setting : Setting} {expected : List Char}
    {form : AssignmentForm} {operator : Option AssignmentOperator} {target : String}
    {property : Option String} {index : List Expr} {value : Option Expr}
    {location : Location} (ofTarget : Text.brackets target = [])
    (ofProperty : AllPlain property.toList)
    (ofIndex : Emission.Yields (fun codes => ∀ code ∈ codes, Balanced code)
      (renderExprs setting index))
    (ofValue : ∀ expression ∈ value,
      Emission.Yields Balanced (renderExpr setting expression)) :
    Emission.Leads (Page.Open expected)
      (fun compiled page => Balanced compiled.code ∧ page.Open expected)
      (compileAssignment setting
        ⟨form, operator, target, property, index, value, location⟩) := by
  have ofSteps : Emission.Yields (fun codes => ∀ code ∈ codes, Balanced code)
      (renderExprs setting (if form.takesIndex then index else [])) := by
    split
    · exact ofIndex
    · exact .pure (by simp)
  rw [compileAssignment_sides]
  refine (Emission.Leads.bindTarget form.binding target location).bind fun _ => ?_
  refine .bind_of (.ofDetached (renderExprs_detached setting _) ofSteps)
    fun steps each => ?_
  apply Emission.Leads.ofDetached
    (compileSides_detached fun expression _ => renderExpr_detached setting expression)
  have path : Balanced (String.join (steps.map fun step => "[" ++ step ++ "]")) := by
    apply Balanced.join
    intro text member
    rcases List.mem_map.mp member with ⟨step, among, rfl⟩
    exact .wrap [']'] (by decide) (each step among) (by decide)
  have ofLeft : Emission.Yields Balanced (Emission.ofExcept
      (form.targetCode target property _ location)) :=
    .ofExcept fun code done =>
      AssignmentForm.targetCode_balanced ofTarget ofProperty path done
  refine ofLeft.bind fun left balanced => ?_
  split
  · cases value with
    | none =>
        intro emitter compiled final ended
        cases ended
    | some value =>
        have blank : Balanced " " := by decide
        refine (ofValue value rfl).bind fun code ofCode => ?_
        exact .after fun _ => .pure ((((balanced.append blank).append
          (AssignmentOperator.symbol_balanced _)).append blank).append ofCode |>.append
            (by decide))
  · exact .pure (balanced.append (by decide))

section

variable (setting : Setting)

mutual

theorem renderExpr_balanced (expression : Expr)
    (plain : AllPlain (texts.ofExpr () expression)) :
    Emission.Yields Balanced (renderExpr setting expression) := by
  cases expression with
  | atom location leaf => exact .pure (leaf.code_balanced plain)
  | array location items =>
      exact (renderItems_balanced items plain).bind_pure fun codes each =>
        .wrap [']'] (by decide) (.intercalate (by decide) each) (by decide)
  | unary location operator operand =>
      have rendered := renderExpr_balanced operand plain
      cases operator with
      | isset =>
          cases operand with
          | index place container key =>
              have plain := AllPlain.append_iff.mp plain
              refine (renderExpr_balanced container plain.1).bind
                fun containerCode ofContainer => ?_
              exact (renderExpr_balanced key plain.2).bind_pure fun keyCode ofKey =>
                .wrapPair [')'] (by decide) ofContainer (by decide) ofKey (by decide)
          | property place object name =>
              have plain := AllPlain.cons_iff.mp plain
              exact (renderExpr_balanced object plain.2).bind_pure
                fun objectCode ofObject =>
                .wrapPair [')'] (by decide) ofObject (by decide)
                  (.of_plain plain.1) (by decide)
          | stringProperty place object name =>
              have plain := AllPlain.cons_iff.mp plain
              exact (renderExpr_balanced object plain.2).bind_pure
                fun objectCode ofObject =>
                .wrapPair [')'] (by decide) ofObject (by decide)
                  (.of_plain plain.1) (by decide)
          | dynamicProperty place object name =>
              have plain := AllPlain.append_iff.mp plain
              refine (renderExpr_balanced object plain.1).bind
                fun objectCode ofObject => ?_
              exact (renderExpr_balanced name plain.2).bind_pure fun nameCode ofName =>
                .wrapPair [')'] (by decide) ofObject (by decide) ofName (by decide)
          | _ =>
              exact rendered.bind_pure fun _ balanced =>
                UnaryOperator.code_balanced _ balanced
      | _ =>
          exact rendered.bind_pure fun _ balanced =>
            UnaryOperator.code_balanced _ balanced
  | binary location operator left right =>
      have plain := AllPlain.append_iff.mp plain
      have blank : Balanced " " := by decide
      refine (renderExpr_balanced left plain.1).bind fun leftCode ofLeft => ?_
      exact (renderExpr_balanced right plain.2).bind_pure fun rightCode ofRight =>
        (((ofLeft.append blank).append operator.symbol_balanced).append blank).append
          ofRight
  | range location inclusive first last =>
      have plain := AllPlain.append_iff.mp plain
      refine (renderExpr_balanced first plain.1).bind fun firstCode ofFirst => ?_
      exact (renderExpr_balanced last plain.2).bind_pure fun lastCode ofLast =>
        rangeCode_balanced inclusive ofFirst ofLast
  | property location object name =>
      have plain := AllPlain.cons_iff.mp plain
      exact (renderExpr_balanced object plain.2).bind_pure fun objectCode ofObject =>
        (ofObject.append (by decide)).append (.of_plain plain.1)
  | dynamicProperty location object name =>
      have plain := AllPlain.append_iff.mp plain
      refine (renderExpr_balanced object plain.1).bind fun objectCode ofObject => ?_
      exact (renderExpr_balanced name plain.2).bind_pure fun nameCode ofName =>
        .wrap ['\x7d'] (Text.Turns.append ofObject (by decide)) ofName (by decide)
  | stringProperty location object name =>
      have plain := AllPlain.cons_iff.mp plain
      exact (renderExpr_balanced object plain.2).bind_pure fun objectCode ofObject =>
        .wrapPair [')'] (by decide) ofObject (by decide) (.of_plain plain.1) (by decide)
  | index location container key =>
      have plain := AllPlain.append_iff.mp plain
      refine (renderExpr_balanced container plain.1).bind
        fun containerCode ofContainer => ?_
      exact (renderExpr_balanced key plain.2).bind_pure fun keyCode ofKey =>
        .wrap [']'] (Text.Turns.append ofContainer (by decide)) ofKey (by decide)
  | methodCall location receiver method arguments =>
      rcases AllPlain.cons_iff.mp plain with ⟨named, inside⟩
      have parts := AllPlain.append_iff.mp inside
      refine (renderExpr_balanced receiver parts.1).bind fun object ofObject => ?_
      exact (renderExprs_balanced arguments parts.2).bind fun codes each =>
        methodCallCode_balanced _ location named ofObject each
  | functionCall location function arguments =>
      have plain := AllPlain.cons_iff.mp plain
      exact .after fun _ =>
        (renderExprs_balanced arguments plain.2).bind_pure fun codes each =>
          (Balanced.of_plain plain.1).append (argumentCode_balanced each)
  | staticCall location className method arguments =>
      rcases AllPlain.cons_iff.mp plain with ⟨ofClass, ofCall⟩
      rcases AllPlain.cons_iff.mp ofCall with ⟨ofMethod, ofArguments⟩
      exact (renderExprs_balanced arguments ofArguments).bind_pure fun codes each =>
        (((Balanced.of_plain ofClass).append (by decide)).append
          (.of_plain ofMethod)).append
          (argumentCode_balanced each)
  | new location className dynamic arguments =>
      have plain := AllPlain.cons_iff.mp plain
      have word : Balanced (if dynamic then "new $" else "new ") := by
        cases dynamic <;> decide
      exact (renderExprs_balanced arguments plain.2).bind_pure fun codes each =>
        (word.append (.of_plain plain.1)).append (argumentCode_balanced each)
  | cast location type operand => exact renderExpr_balanced operand plain
  | typeHint location type operand => exact renderExpr_balanced operand plain
  | ternary location condition consequence alternative =>
      rcases AllPlain.append_append_iff.mp plain with ⟨first, second, third⟩
      refine (renderExpr_balanced condition first).bind
        fun conditionCode ofCondition => ?_
      refine (renderExpr_balanced consequence second).bind
        fun consequenceCode ofConsequence => ?_
      exact (renderExpr_balanced alternative third).bind_pure
        fun alternativeCode ofAlternative =>
        (((ofCondition.append (by decide)).append ofConsequence).append
          (by decide)).append
          ofAlternative
  | closure location parameters body =>
      have plain := AllPlain.append_iff.mp plain
      refine (renderParameters_balanced parameters plain.1).bind
        fun parameterList each => ?_
      have head : Balanced ("function (" ++ ", ".intercalate parameterList ++ ")") :=
        .wrap [')'] (by decide) (.intercalate (by decide) each) (by decide)
      have written : Emission.Turns [] [] (do
          Emission.onPage
            (·.openBlock ("function (" ++ ", ".intercalate parameterList ++ ")") false)
          emitBlock setting body
          Emission.onPage (·.closeBlock "")) :=
        .block false head (emitBlock_turns _ body plain.2) (by decide)
      exact .after fun _ =>
        (written.onOwnPage setting.layout).withScope.bind_pure fun _ shown => shown
  | arrow location parameter body =>
      have plain := AllPlain.cons_iff.mp plain
      have opened : Text.Turns [] [')'] "function ($" := by decide
      have head := (opened.within (.of_plain plain.1)).append
        (by decide : Text.Turns [')'] ['\x7d'] ") \x7b return ")
      exact (renderExpr_balanced body plain.2).withScope.bind_pure fun code balanced =>
        (head.within balanced).append (by decide)
  | fetch location target source =>
      have plain := AllPlain.cons_iff.mp plain
      exact (renderExpr_balanced source plain.2).bind_pure fun code balanced =>
        .wrap [')'] (by decide) balanced (by decide)
termination_by structural expression

theorem renderExprs_balanced (expressions : List Expr)
    (plain : AllPlain (texts.ofExprs () expressions)) :
    Emission.Yields (fun codes => ∀ code ∈ codes, Balanced code)
      (renderExprs setting expressions) := by
  cases expressions with
  | nil => exact .pure (by simp)
  | cons expression rest =>
      have plain := AllPlain.append_iff.mp plain
      refine (renderExpr_balanced expression plain.1).bind fun code balanced => ?_
      exact (renderExprs_balanced rest plain.2).bind_pure fun codes each =>
        List.forall_mem_cons.mpr ⟨balanced, each⟩
termination_by structural expressions

theorem renderItems_balanced (items : List ArrayItem)
    (plain : AllPlain (texts.ofItems () items)) :
    Emission.Yields (fun codes => ∀ code ∈ codes, Balanced code)
      (renderItems setting items) := by
  cases items with
  | nil => exact .pure (by simp)
  | cons item rest =>
      rcases AllPlain.append_iff.mp plain with ⟨itemPlain, restPlain⟩
      rcases item with ⟨key, value⟩
      cases key with
      | none =>
          refine (renderExpr_balanced value itemPlain).bind fun valueCode ofValue => ?_
          exact (renderItems_balanced rest restPlain).bind_pure fun codes each =>
            List.forall_mem_cons.mpr ⟨ofValue, each⟩
      | some key =>
          rcases AllPlain.append_iff.mp itemPlain with ⟨valuePlain, keyPlain⟩
          refine (renderExpr_balanced value valuePlain).bind fun valueCode ofValue => ?_
          have keyed : Emission.Yields (fun key => ∀ code ∈ key, Balanced code)
              (some <$> renderExpr setting key) :=
            (renderExpr_balanced key keyPlain).map fun code balanced => by
              simpa using balanced
          refine keyed.bind fun keyCode ofKey => ?_
          exact (renderItems_balanced rest restPlain).bind_pure fun codes each =>
            List.forall_mem_cons.mpr ⟨arrayItemCode_balanced ofKey ofValue, each⟩
termination_by structural items

theorem renderParameters_balanced (parameters : List Parameter)
    (plain : AllPlain (texts.ofParameters () parameters)) :
    Emission.Yields (fun codes => ∀ code ∈ codes, Balanced code)
      (renderParameters setting parameters) := by
  cases parameters with
  | nil => exact .pure (by simp)
  | cons parameter rest =>
      rcases parameter with ⟨name, default, byReference⟩
      cases default with
      | none =>
          have plain := AllPlain.cons_iff.mp plain
          exact (renderParameters_balanced rest plain.2).bind_pure fun codes each =>
            List.forall_mem_cons.mpr
              ⟨parameterCode_balanced byReference plain.1 (by simp), each⟩
      | some default =>
          rcases AllPlain.append_iff.mp plain with ⟨ofParameter, ofRest⟩
          have parts := AllPlain.cons_iff.mp ofParameter
          have given : Emission.Yields (fun default => ∀ code ∈ default, Balanced code)
              (some <$> renderExpr setting default) :=
            (renderExpr_balanced default parts.2).map fun code balanced => by
              simpa using balanced
          refine given.bind fun code balanced => ?_
          exact (renderParameters_balanced rest ofRest).bind_pure fun codes each =>
            List.forall_mem_cons.mpr
              ⟨parameterCode_balanced byReference parts.1 balanced, each⟩
termination_by structural parameters

theorem compileAssignment_balanced (expected : List Char) (assignment : Assignment)
    (plain : AllPlain (texts.ofAssignment () assignment)) :
    Emission.Leads (Page.Open expected)
      (fun compiled page => Balanced compiled.code ∧ page.Open expected)
      (compileAssignment setting assignment) := by
  rcases assignment with ⟨form, operator, target, property, index, value, location⟩
  cases value with
  | none =>
      rcases AllPlain.cons_iff.mp plain with ⟨ofTarget, inside⟩
      have parts := AllPlain.append_iff.mp inside
      exact compileAssignment_balanced_of ofTarget parts.1
        (renderExprs_balanced index parts.2) (by simp)
  | some value =>
      rcases AllPlain.cons_iff.mp plain with ⟨ofTarget, inside⟩
      rcases AllPlain.append_append_iff.mp inside with ⟨ofProperty, ofIndex, ofValue⟩
      have rendered := renderExpr_balanced value ofValue
      exact compileAssignment_balanced_of ofTarget ofProperty
        (renderExprs_balanced index ofIndex) (by simpa using rendered)
termination_by structural assignment

theorem compileAssignments_balanced (expected : List Char) (assignments : List Assignment)
    (plain : AllPlain (texts.ofAssignments () assignments)) :
    Emission.Leads (Page.Open expected)
      (fun compiled page => (∀ assignment ∈ compiled, Balanced assignment.code) ∧
        page.Open expected)
      (compileAssignments setting assignments) := by
  cases assignments with
  | nil => exact .pure fun page start => ⟨by simp, start⟩
  | cons assignment rest =>
      have plain := AllPlain.append_iff.mp plain
      refine (compileAssignment_balanced expected assignment plain.1).bind_of
        fun first ofFirst => ?_
      refine (compileAssignments_balanced expected rest plain.2).bind_of
        fun others ofOthers => ?_
      exact .pure fun page start => ⟨List.forall_mem_cons.mpr ⟨ofFirst, ofOthers⟩, start⟩
termination_by structural assignments

theorem emitStmt_turns (expected : List Char) (statement : Stmt)
    (plain : AllPlain (texts.ofStmt () statement)) :
    Emission.Turns expected expected (emitStmt setting statement) := by
  cases statement with
  | assign location assignments =>
      exact .bind_of (compileAssignments_balanced expected assignments plain)
        fun compiled each =>
        .lines (by simpa using each)
  | declare location declarations =>
      exact emitDeclarations_turns expected location declarations plain
  | expression location expression =>
      exact .bind_detached (renderExpr_detached setting expression)
        (renderExpr_balanced expression plain) fun code balanced =>
          .line (balanced.append (by decide))
  | cond location condition body alternatives otherwise =>
      rw [AllPlain.cond_iff] at plain
      rcases plain with ⟨ofCondition, ofBody, ofAlternatives, ofOtherwise⟩
      have head : Emission.Leads (Page.Open expected)
          (fun condition page => condition.Even ∧ page.Open expected)
          (renderCondition setting condition) := by
        cases condition with
        | fetch place target source =>
            have ofCondition := AllPlain.cons_iff.mp ofCondition
            exact renderCondition_fetch_even place ofCondition.1
              (renderExpr_balanced source ofCondition.2)
        | _ => exact renderCondition_other_even (renderExpr_balanced _ ofCondition)
      rw [emitStmt_cond]
      refine .bind_of head fun test even => ?_
      apply (Emission.Turns.openBlock false
        (.wrap [')'] (by decide) even.1 (by decide))).bind
      intro _
      apply (Emission.Turns.lines even.2).bind
      intro _
      apply (emitBlock_turns _ body ofBody).bind
      intro _
      apply (emitBranches_turns expected alternatives ofAlternatives).bind
      intro _
      cases otherwise with
      | none => exact .closeBlock (by decide)
      | some block =>
          apply (Emission.Turns.continueBlock (by decide)).bind
          intro _
          apply (emitBlock_turns _ block ofOtherwise).bind
          intro _
          exact .closeBlock (by decide)
  | loop location body =>
      exact .block false (by decide) (emitBlock_turns _ body plain) (by decide)
  | whileLoop location condition body =>
      have plain := AllPlain.append_iff.mp plain
      exact .bind_detached (renderExpr_detached setting condition)
        (renderExpr_balanced condition plain.1) fun code balanced =>
          .block false (.wrap [')'] (by decide) balanced (by decide))
            (emitBlock_turns _ body plain.2) (by decide)
  | doWhile location body condition =>
      have plain := AllPlain.append_iff.mp plain
      apply (Emission.Turns.openBlock false (by decide)).bind
      intro _
      apply (emitBlock_turns _ body plain.1).bind
      intro _
      exact .bind_detached (renderExpr_detached setting condition)
        (renderExpr_balanced condition plain.2) fun code balanced =>
          .closeBlock (.wrap [')'] (by decide) balanced (by decide))
  | forEach location key value reverse source body =>
      rcases AllPlain.append_append_iff.mp plain with ⟨ofKey, ofValue, inside⟩
      rcases AllPlain.append_iff.mp inside with ⟨ofSource, ofBody⟩
      have shownKey : AllPlain (key.filter (· != "_")).toList := by
        intro name member
        rw [Option.mem_toList, Option.filter_eq_some_iff] at member
        exact ofKey name (Option.mem_toList.mpr member.1)
      have shownValue : Text.brackets (value.getD "_") = [] := by
        cases value with
        | none => rfl
        | some name => exact (AllPlain.singleton_iff name).mp ofValue
      rw [emitStmt_forEach]
      refine .bind_detached (renderExpr_detached setting source)
        (renderExpr_balanced source ofSource) fun code balanced => ?_
      have shownSource :
          Balanced (if reverse then "array_reverse(" ++ code ++ ")" else code) := by
        split
        · exact .wrap [')'] (by decide) balanced (by decide)
        · exact balanced
      apply (Emission.Turns.onScope _).bind
      intro _
      apply (declareOptional_turns _ location).bind
      intro _
      exact .block false (forEachCode_balanced shownKey shownValue shownSource)
        (emitBlock_turns _ body ofBody) (by decide)
  | switch location subject clauses =>
      have plain := AllPlain.append_iff.mp plain
      exact .bind_detached (renderExpr_detached setting subject)
        (renderExpr_balanced subject plain.1) fun code balanced =>
          .block false (.wrap [')'] (by decide) balanced (by decide))
            (emitClauses_turns _ clauses plain.2) (by decide)
  | continueLoop location => exact .line (by decide)
  | breakLoop location => exact .line (by decide)
  | returnValue location value =>
      cases value with
      | none => exact .line (by decide)
      | some value =>
          exact .bind_detached (renderExpr_detached setting value)
            (renderExpr_balanced value plain) fun code balanced =>
              .line (.wrap [] (by decide) balanced (by decide))
  | throwValue location value =>
      exact .bind_detached (renderExpr_detached setting value)
        (renderExpr_balanced value plain) fun code balanced =>
          .line (.wrap [] (by decide) balanced (by decide))
  | unset location target =>
      exact .bind_detached (renderExpr_detached setting target)
        (renderExpr_balanced target plain) fun code balanced =>
          .line (.wrap [')'] (by decide) balanced (by decide))
  | echo location values =>
      exact .bind_detached (renderExprs_detached setting values)
        (renderExprs_balanced values plain) fun codes each =>
          .line (.wrap [] (by decide) (.intercalate (by decide) each) (by decide))
  | require location file =>
      exact .bind_detached (renderExpr_detached setting file)
        (renderExpr_balanced file plain) fun code balanced =>
          .line (.wrap [] (by decide) balanced (by decide))
  | tryCatch location body handlers =>
      have plain := AllPlain.append_iff.mp plain
      apply (Emission.Turns.openBlock false (by decide)).bind
      intro _
      apply (emitBlock_turns _ body plain.1).bind
      intro _
      apply (emitHandlers_turns expected handlers plain.2).bind
      intro _
      exact .closeBlock (by decide)
  | comment location text => exact .comment ((AllPlain.singleton_iff text).mp plain)
  | empty location => exact .pure ()
termination_by structural statement

theorem emitBlock_turns (expected : List Char) (statements : List Stmt)
    (plain : AllPlain (texts.ofBlock () statements)) :
    Emission.Turns expected expected (emitBlock setting statements) := by
  cases statements with
  | nil => exact .pure ()
  | cons statement rest =>
      have plain := AllPlain.append_iff.mp plain
      apply (emitStmt_turns expected statement plain.1).bind
      intro _
      exact emitBlock_turns expected rest plain.2
termination_by structural statements

theorem emitDeclarations_turns (expected : List Char) (location : Location)
    (declarations : List Declaration)
    (plain : AllPlain (texts.ofDeclarations () declarations)) :
    Emission.Turns expected expected
      (emitDeclarations setting location declarations) := by
  cases declarations with
  | nil => exact .pure ()
  | cons declaration rest =>
      rcases declaration with ⟨name, value⟩
      cases value with
      | none =>
          have plain := AllPlain.cons_iff.mp plain
          exact (Emission.Turns.onScope _).bind fun _ =>
            emitDeclarations_turns expected location rest plain.2
      | some value =>
          rcases AllPlain.append_iff.mp plain with ⟨ofDeclaration, ofRest⟩
          have parts := AllPlain.cons_iff.mp ofDeclaration
          have dollar : Balanced "$" := by decide
          have target :=
            (dollar.append (.of_plain parts.1)).append (by decide : Balanced " = ")
          apply (Emission.Turns.onScope _).bind
          intro _
          refine .bind_detached (renderExpr_detached setting value)
            (renderExpr_balanced value parts.2) fun code balanced => ?_
          apply (Emission.Turns.line ((target.append balanced).append (by decide))).bind
          intro _
          exact emitDeclarations_turns expected location rest ofRest
termination_by structural declarations

/-- The block of the branch before is open, and so is the one of the last branch. -/
theorem emitBranches_turns (expected : List Char) (branches : List Branch)
    (plain : AllPlain (texts.ofBranches () branches)) :
    Emission.Turns ('\x7d' :: expected) ('\x7d' :: expected)
      (emitBranches setting branches) := by
  cases branches with
  | nil => exact .pure ()
  | cons branch rest =>
      rcases branch with ⟨condition, body⟩
      rcases AllPlain.append_iff.mp plain with ⟨ofBranch, ofRest⟩
      rcases AllPlain.append_iff.mp ofBranch with ⟨ofCondition, ofBody⟩
      have head : Emission.Leads (Page.Open ('\x7d' :: expected))
          (fun condition page => condition.Even ∧ page.Open ('\x7d' :: expected))
          (renderCondition setting condition) := by
        cases condition with
        | fetch place target source =>
            have parts := AllPlain.cons_iff.mp ofCondition
            exact renderCondition_fetch_even place parts.1
              (renderExpr_balanced source parts.2)
        | _ => exact renderCondition_other_even (renderExpr_balanced _ ofCondition)
      rw [emitBranches_cons]
      refine .bind_of head fun test even => ?_
      apply (Emission.Turns.continueBlock
        (.wrap [')'] (by decide) even.1 (by decide))).bind
      intro _
      apply (Emission.Turns.lines even.2).bind
      intro _
      apply (emitBlock_turns _ body ofBody).bind
      intro _
      exact emitBranches_turns expected rest ofRest
termination_by structural branches

theorem emitClauses_turns (expected : List Char) (clauses : List Clause)
    (plain : AllPlain (texts.ofClauses () clauses)) :
    Emission.Turns expected expected (emitClauses setting clauses) := by
  cases clauses with
  | nil => exact .pure ()
  | cons clause rest =>
      rcases AllPlain.append_iff.mp plain with ⟨ofClause, ofRest⟩
      cases clause with
      | case test body =>
          rcases AllPlain.append_iff.mp ofClause with ⟨ofTest, ofBody⟩
          exact .bind_detached (renderExpr_detached setting test)
            (renderExpr_balanced test ofTest) fun code balanced =>
              .clause (.wrap [] (by decide) balanced (by decide))
                (emitBlock_turns expected body ofBody)
                (emitClauses_turns expected rest ofRest)
      | default body =>
          exact .clause (by decide) (emitBlock_turns expected body ofClause)
            (emitClauses_turns expected rest ofRest)
termination_by structural clauses

theorem emitHandlers_turns (expected : List Char) (handlers : List Handler)
    (plain : AllPlain (texts.ofHandlers () handlers)) :
    Emission.Turns ('\x7d' :: expected) ('\x7d' :: expected)
      (emitHandlers setting handlers) := by
  cases handlers with
  | nil => exact .pure ()
  | cons handler rest =>
      rcases handler with ⟨classes, caught, body⟩
      rcases AllPlain.append_iff.mp plain with ⟨ofHandler, ofRest⟩
      rcases AllPlain.append_append_iff.mp ofHandler with ⟨ofClasses, ofCaught, ofBody⟩
      rw [emitHandlers_cons]
      apply (declareOptional_turns caught .unknown).bind
      intro _
      apply (Emission.Turns.continueBlock (catchCode_balanced ofClasses ofCaught)).bind
      intro _
      apply (emitBlock_turns _ body ofBody).bind
      intro _
      exact emitHandlers_turns expected rest ofRest
termination_by structural handlers

end

/-! ## Definitions -/

variable {expected : List Char}

theorem emitConstant_turns (constant : Constant)
    (plain : AllPlain (texts.ofConstant () constant)) :
    Emission.Turns expected expected (emitConstant setting constant) := by
  rcases AllPlain.append_cons_iff.mp plain with ⟨ofDocblock, ofName, ofValue⟩
  have word : Balanced "const " := by decide
  have named := (word.append (.of_plain ofName)).append (by decide : Balanced " = ")
  apply (Emission.Turns.docblock ofDocblock).bind
  intro _
  exact .bind_detached (renderExpr_detached setting constant.value)
    (renderExpr_balanced setting constant.value ofValue) fun code balanced =>
      .line ((named.append balanced).append (by decide))

theorem emitProperty_turns (property : Property)
    (plain : AllPlain (texts.ofProperty () property)) :
    Emission.Turns expected expected (emitProperty setting property) := by
  rcases AllPlain.append_cons_iff.mp plain with ⟨ofDocblock, ofName, ofDefault⟩
  have visible : ∀ text, Balanced text →
      Balanced (if text.isEmpty then "public" else text) := by
    intro text balanced
    split
    · decide
    · exact balanced
  have modifiers := visible _ (modifierCode_balanced property.visibility false)
  have named := (modifiers.append (by decide : Balanced " $")).append (.of_plain ofName)
  apply (Emission.Turns.docblock ofDocblock).bind
  intro _
  cases present : property.default with
  | none => exact .line (named.append (by decide))
  | some default =>
      rw [present] at ofDefault
      exact .bind_detached (renderExpr_detached setting default)
        (renderExpr_balanced setting default (AllPlain.append_iff.mp ofDefault).1)
        fun code balanced =>
          .line (((named.append (by decide)).append balanced).append (by decide))

theorem emitBody_turns {head : String} {statements : List Stmt} (balanced : Balanced head)
    (plain : AllPlain (texts.ofBlock () statements)) :
    Emission.Turns expected expected (emitBody setting head statements) :=
  .block _ balanced (emitBlock_turns setting _ statements plain) (by decide)

theorem emitMethod_turns (inInterface : Bool) (method : Method)
    (plain : AllPlain (texts.ofMethod () method)) :
    Emission.Turns expected expected (emitMethod setting inInterface method) := by
  rcases AllPlain.append_cons_iff.mp plain with ⟨ofDocblock, ofName, inside⟩
  rcases AllPlain.append_iff.mp inside with ⟨ofParameters, ofStatements⟩
  apply (Emission.Turns.docblock ofDocblock).bind
  intro _
  apply Emission.Turns.withScope
  refine .bind_detached (renderParameters_detached setting method.parameters)
    (renderParameters_balanced setting method.parameters ofParameters)
    fun parameters each => ?_
  have head := method.head_balanced inInterface ofName each
  split
  · exact .line (head.append (by decide))
  · exact emitBody_turns setting head ofStatements

theorem emitFunction_turns (definition : FunctionDefinition)
    (plain : AllPlain (texts.ofEntry (fun _ => ()) (.functionDefinition definition))) :
    Emission.Turns expected expected (emitFunction setting definition) := by
  rcases AllPlain.append_cons_iff.mp plain with ⟨ofDocblock, ofName, inside⟩
  rcases AllPlain.append_iff.mp inside with ⟨ofParameters, ofStatements⟩
  have word : Balanced "function " := by decide
  apply (Emission.Turns.docblock ofDocblock).bind
  intro _
  apply Emission.Turns.withScope
  refine .bind_detached (renderParameters_detached setting definition.parameters)
    (renderParameters_balanced setting definition.parameters ofParameters)
    fun parameters each => ?_
  exact emitBody_turns setting
    ((word.append (.of_plain ofName)).append (argumentCode_balanced each)) ofStatements

theorem emitMethods_turns (inInterface : Bool) (methods : List Method)
    (plain : ∀ method ∈ methods, AllPlain (texts.ofMethod () method)) :
    Emission.Turns expected expected (emitMethods setting inInterface methods) := by
  induction methods with
  | nil => exact .pure ()
  | cons method rest induction =>
      rw [List.forall_mem_cons] at plain
      have first : Emission.Turns expected expected
          (emitMethod setting inInterface method) :=
        emitMethod_turns setting inInterface method plain.1
      cases rest with
      | nil => exact first
      | cons next others =>
          apply first.bind
          intro _
          apply (Emission.Turns.onPage Page.brackets_blankLine).bind
          intro _
          exact induction plain.2

theorem emitMembers_turns (inInterface : Bool) (constants : List Constant)
    (properties : List Property) (methods : List Method)
    (plain : AllPlain (texts.ofMembers (fun _ => ()) constants properties methods)) :
    Emission.Turns expected expected
      (emitMembers setting inInterface constants properties methods) := by
  rw [Survey.ofMembers, AllPlain.append_append_iff, AllPlain.flatMap_iff,
    AllPlain.flatMap_iff,
    AllPlain.flatMap_iff] at plain
  rcases plain with ⟨ofConstants, ofProperties, ofMethods⟩
  apply (Emission.Turns.forM fun constant member =>
    emitConstant_turns setting constant (ofConstants constant member)).bind
  intro _
  apply Emission.Turns.optional (.onPage Page.brackets_blankLine)
  apply (Emission.Turns.forM fun property member =>
    emitProperty_turns setting property (ofProperties property member)).bind
  intro _
  apply Emission.Turns.optional (.onPage Page.brackets_blankLine)
  exact emitMethods_turns setting inInterface methods ofMethods

theorem emitEntry_turns (entry : Entry)
    (plain : AllPlain (texts.ofEntry (fun _ => ()) entry)) :
    Emission.Turns expected expected (emitEntry setting entry) := by
  have blank : Emission.Turns expected expected (Emission.onPage (·.blankLine)) :=
    .onPage Page.brackets_blankLine
  cases entry with
  | comment location text => exact .comment ((AllPlain.singleton_iff text).mp plain)
  | namespaceName location name =>
      have word : Balanced "namespace " := by decide
      have named := word.append (.of_plain ((AllPlain.singleton_iff name).mp plain))
      exact (Emission.Turns.line (named.append (by decide))).bind fun _ => blank
  | imports location imported =>
      have each := (AllPlain.flatMap_iff imported Import.texts).mp plain
      apply Emission.Turns.lines
      intro text member
      rcases List.mem_map.mp member with ⟨used, among, rfl⟩
      exact used.code_balanced (each used among)
  | classDefinition definition =>
      rcases AllPlain.append_cons_iff.mp plain with ⟨ofDocblock, ofName, inside⟩
      rcases AllPlain.append_iff.mp inside with ⟨ofNames, ofMembers⟩
      have names := AllPlain.append_iff.mp ofNames
      have head := definition.head_balanced ofName names.1 names.2
      have members : Emission.Turns ('\x7d' :: expected) ('\x7d' :: expected)
          (emitMembers setting
          false definition.constants definition.properties definition.methods) :=
        emitMembers_turns setting false _ _ _ ofMembers
      refine .bind ?_ fun _ => blank
      exact (Emission.Turns.docblock ofDocblock).bind fun _ =>
        .block _ head members (by decide)
  | interfaceDefinition definition =>
      rcases AllPlain.append_cons_iff.mp plain with ⟨ofDocblock, ofName, inside⟩
      rcases AllPlain.append_iff.mp inside with ⟨ofParents, ofMembers⟩
      have head := definition.head_balanced ofName ofParents
      have members : Emission.Turns ('\x7d' :: expected) ('\x7d' :: expected)
          (emitMembers setting
          true definition.constants [] definition.methods) :=
        emitMembers_turns setting true _ _ _ ofMembers
      refine .bind ?_ fun _ => blank
      exact (Emission.Turns.docblock ofDocblock).bind fun _ =>
        .block _ head members (by decide)
  | functionDefinition definition =>
      exact (emitFunction_turns setting definition plain).bind fun _ => blank
  | statement included => exact emitStmt_turns setting expected included plain

theorem emitProgram_turns (program : Program) (plain : AllPlain program.texts) :
    Emission.Turns [] [] (emitProgram setting program) := by
  rw [Program.texts, Survey.ofProgram, AllPlain.flatMap_iff] at plain
  apply (Emission.Turns.line (by decide)).bind
  intro _
  apply (Emission.Turns.onPage Page.brackets_blankLine).bind
  intro _
  exact .forM fun entry member => emitEntry_turns setting entry (plain entry member)

end

/-! ## The brackets of a file -/

/-- A program without brackets in its names, literals, comments and docblocks becomes a
file whose brackets are properly nested. -/
theorem toPhp_brackets_nested (setting : Setting) {program : Program} {php : String}
    (plain : ∀ text ∈ program.texts, Text.brackets text = [])
    (written : (program.toPhp setting).1 = .ok php) : Nested (Text.brackets php) := by
  rcases Emission.Leads.toPhp (emitProgram_turns setting program plain) rfl written with
    ⟨page, closed, rfl⟩
  have newline : Balanced "\n" := by decide
  rw [nested_iff_unclosed, ← Text.turns_iff_unclosed]
  exact (closed.content_balanced setting.layout).append newline

/-- A closure with two branches, which the pseudo-method puts before its receiver. -/
def tangled : Program where
  entries := [.statement (.echo .unknown
    [.methodCall .unknown (.array .unknown [⟨none, .atom .unknown (.string "s")⟩]) "map"
      [.closure .unknown []
        [.cond .unknown (.fetch .unknown "y"
            (.index .unknown (.atom .unknown (.variable "x"))
              (.atom .unknown (.int "0"))))
          [] [] (some [])]]])]

def tangledPhp : String :=
  "<?php\n\necho array_map(function () \x7b\n  if (isset($x[0])) \x7b\n" ++
    "    $y = $x[0];\n  \x7d else \x7b\n  \x7d\n\x7d, [\"s\"]);\n"

theorem toPhp_brackets_nested_of_tangled :
    (∀ text ∈ tangled.texts, Text.brackets text = []) ∧
      (tangled.toPhp {}).1 = .ok tangledPhp ∧ Nested (Text.brackets tangledPhp) := by
  have plain : ∀ text ∈ tangled.texts, Text.brackets text = [] := by decide
  have written : (tangled.toPhp {}).1 = .ok tangledPhp := by decide +kernel
  exact ⟨plain, written, toPhp_brackets_nested {} plain written⟩

end ZephirPhp
