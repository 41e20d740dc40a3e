import ZephirPhp.Program.Reads
import ZephirPhp.Proofs.Emission.Arrangement
import ZephirPhp.Proofs.Emission.Writing
import ZephirPhp.Proofs.Program.Texts
import ZephirPhp.Proofs.Text.Mentions

/-! # References in the code of an expression

An expression that does not read a variable can be written into it directly. Its code
then has no variable of that name. A string in which PHP finds variables itself is code
as it stands, though, and what it refers to does not count as read.
-/

namespace ZephirPhp

open Text (Identifier Mention Mirrors Refers Separates)

/-! ## Mentions -/

/-- The texts of an atom show no dollar sign, except for those of a content that PHP
reads. -/
def Atom.IsPlain : Atom → Prop
  | .interpolated _ => True
  | .staticProperty _ _ => False
  | leaf => ∀ text ∈ leaf.texts, '$' ∉ text.toList

def Atom.mentions : Atom → List Mention
  | .variable name => [.named name]
  | .interpolated content => [.content content]
  | _ => []

/-- What the call of a method mentions, if the object and the arguments mention
something. -/
def callMentions (receiver : Option Receiver) (method : String) (object : List Mention)
    (arguments : List (List Mention)) : List Mention :=
  match receiver with
  | none => object ++ arguments.flatten
  | some receiver =>
    match PseudoMethod.find? receiver method with
    | some found => (found.arrange object arguments).flatten
    | none => []

namespace Expr

mutual

/-- An expression without closures and static properties whose texts have no dollar sign,
except for contents that PHP reads. -/
def IsPlain : Expr → Prop
  | .atom _ leaf => leaf.IsPlain
  | .array _ items => ItemsPlain items
  | .unary _ _ operand => operand.IsPlain
  | .binary _ _ left right => left.IsPlain ∧ right.IsPlain
  | .range _ _ first last => first.IsPlain ∧ last.IsPlain
  | .property _ object name => object.IsPlain ∧ '$' ∉ name.toList
  | .dynamicProperty _ object name => object.IsPlain ∧ name.IsPlain
  | .stringProperty _ object name => object.IsPlain ∧ '$' ∉ name.toList
  | .index _ container key => container.IsPlain ∧ key.IsPlain
  | .methodCall _ receiver method arguments =>
    receiver.IsPlain ∧ '$' ∉ method.toList ∧ ArePlain arguments
  | .functionCall _ function arguments => '$' ∉ function.toList ∧ ArePlain arguments
  | .staticCall _ className method arguments =>
    '$' ∉ className.toList ∧ '$' ∉ method.toList ∧ ArePlain arguments
  | .new _ className _ arguments => '$' ∉ className.toList ∧ ArePlain arguments
  | .cast _ _ operand => operand.IsPlain
  | .typeHint _ _ operand => operand.IsPlain
  | .ternary _ condition consequence alternative =>
    condition.IsPlain ∧ consequence.IsPlain ∧ alternative.IsPlain
  | .closure _ _ _ => False
  | .arrow _ _ _ => False
  | .fetch _ _ source => source.IsPlain
termination_by structural expression => expression

def ArePlain : List Expr → Prop
  | [] => True
  | expression :: rest => expression.IsPlain ∧ ArePlain rest
termination_by structural expressions => expressions

def ItemsPlain : List ArrayItem → Prop
  | [] => True
  | ⟨some key, value⟩ :: rest => key.IsPlain ∧ value.IsPlain ∧ ItemsPlain rest
  | ⟨none, value⟩ :: rest => value.IsPlain ∧ ItemsPlain rest
termination_by structural items => items

end

mutual

/-- What the code of a plain expression shows with a dollar sign. -/
def mentions : Expr → List Mention
  | .atom _ leaf => leaf.mentions
  | .array _ items => (mentionsOfItems items).flatten
  | .unary _ _ operand => operand.mentions
  | .binary _ _ left right => left.mentions ++ right.mentions
  | .range _ _ first last => first.mentions ++ last.mentions
  | .property _ object _ => object.mentions
  | .dynamicProperty _ object name => object.mentions ++ name.mentions
  | .stringProperty _ object _ => object.mentions
  | .index _ container key => container.mentions ++ key.mentions
  | .methodCall _ receiver method arguments =>
    callMentions receiver.literalReceiver? method receiver.mentions
      (mentionsOfEach arguments)
  | .functionCall _ _ arguments => (mentionsOfEach arguments).flatten
  | .staticCall _ _ _ arguments => (mentionsOfEach arguments).flatten
  | .new _ className dynamic arguments =>
    (if dynamic then [.named className] else []) ++ (mentionsOfEach arguments).flatten
  | .cast _ _ operand => operand.mentions
  | .typeHint _ _ operand => operand.mentions
  | .ternary _ condition consequence alternative =>
    condition.mentions ++ consequence.mentions ++ alternative.mentions
  | .closure _ _ _ => []
  | .arrow _ _ _ => []
  | .fetch _ _ source => source.mentions
termination_by structural expression => expression

def mentionsOfEach : List Expr → List (List Mention)
  | [] => []
  | expression :: rest => expression.mentions :: mentionsOfEach rest
termination_by structural expressions => expressions

def mentionsOfItems : List ArrayItem → List (List Mention)
  | [] => []
  | ⟨some key, value⟩ :: rest => (key.mentions ++ value.mentions) :: mentionsOfItems rest
  | ⟨none, value⟩ :: rest => value.mentions :: mentionsOfItems rest
termination_by structural items => items

end

end Expr

/-! ## Pieces of code -/

section

variable {name : Identifier}

theorem dollar_not_mem_escapeDollars {characters : List Char} (plain : '$' ∉ characters)
    (escaped : Bool) : '$' ∉ escapeDollars escaped characters := by
  induction characters generalizing escaped with
  | nil => exact List.not_mem_nil
  | cons character rest induction =>
      rw [List.mem_cons, not_or] at plain
      have other : (character == '$' && !escaped) = false := by
        simp [Ne.symm plain.1]
      simp only [escapeDollars, other]
      exact List.not_mem_cons_of_ne_of_not_mem plain.1 (induction plain.2 _)

theorem dollar_not_mem_stringLiteral {content : String} (plain : '$' ∉ content.toList) :
    '$' ∉ (stringLiteral content).toList := by
  simpa [stringLiteral] using dollar_not_mem_escapeDollars plain false

theorem dollar_not_mem_charLiteral {content : String} (plain : '$' ∉ content.toList) :
    '$' ∉ (charLiteral content).toList := by
  rw [charLiteral]
  split <;> simpa using plain

theorem Atom.code_mirrors (leaf : Atom) (plain : leaf.IsPlain) :
    Mirrors name leaf.mentions leaf.code := by
  cases leaf with
  | «variable» found => exact .single (.named found)
  | interpolated content =>
      exact (Mirrors.single (.content content)).wrap (by decide) (by decide)
  | staticProperty className found => exact plain.elim
  | bool value => cases value <;> exact .plain (by decide)
  | newType type => cases type <;> exact .plain (by decide)
  | null => exact .plain (by decide)
  | emptyArray => exact .plain (by decide)
  | string content =>
      exact .plain (dollar_not_mem_stringLiteral (plain content List.mem_cons_self))
  | char content =>
      exact .plain (dollar_not_mem_charLiteral (plain content List.mem_cons_self))
  | staticConstant className found =>
      have both := List.forall_mem_cons.mp plain
      have shown : Mirrors name [] (className ++ ("::" ++ found)) :=
        (Mirrors.plain both.1).extend
          ((by decide : Separates "::").append (both.2 found List.mem_cons_self))
      rwa [← String.append_assoc] at shown
  | _ => exact .plain (plain _ List.mem_cons_self)

theorem UnaryOperator.code_mirrors (operator : UnaryOperator) {mentions : List Mention}
    {operand : String} (inside : Mirrors name mentions operand) :
    Mirrors name mentions (operator.code operand) := by
  cases operator with
  | isset => exact inside.wrap (by decide) (by decide)
  | empty => exact inside.wrap (by decide) (by decide)
  | typeof => exact inside.wrap (by decide) (by decide)
  | list => exact inside.wrap (by decide) (by decide)
  | likely => exact inside
  | unlikely => exact inside
  | _ => exact inside.prepend _ (by decide)

variable {mentions others : List Mention} {all : List (List Mention)}

theorem argumentCode_mirrors {arguments : List String}
    (each : List.Forall₂ (Mirrors name) all arguments) :
    Mirrors name all.flatten (argumentCode arguments) :=
  (Mirrors.intercalate (by decide) each).wrap (by decide) (by decide)

theorem newCode_mirrors (dynamic : Bool) {className : String} {arguments : List String}
    (plain : '$' ∉ className.toList) (each : List.Forall₂ (Mirrors name) all arguments) :
    Mirrors name ((if dynamic then [.named className] else []) ++ all.flatten)
      ((if dynamic then "new $" else "new ") ++ className ++ argumentCode arguments) := by
  have parted (text : String) : Text.Parted text (argumentCode arguments) := by
    right
    rw [argumentCode, String.append_assoc, String.toList_append]
    exact (by decide : Separates "(").breaks _
  cases dynamic with
  | true =>
      have head : Mirrors name [.named className] ("new " ++ ("$" ++ className)) :=
        (Mirrors.single (.named className)).prepend "new " (by decide)
      exact head.append (argumentCode_mirrors each) (parted _)
  | false =>
      have head : Mirrors name [] ("new " ++ className) :=
        (Mirrors.plain plain).prepend _ (by decide)
      exact head.append (argumentCode_mirrors each) (parted _)

theorem binaryCode_mirrors (operator : BinaryOperator) {left right : String}
    (ofLeft : Mirrors name mentions left) (ofRight : Mirrors name others right) :
    Mirrors name (mentions ++ others)
      (left ++ " " ++ operator.symbol ++ " " ++ right) := by
  have separates : Separates (" " ++ operator.symbol ++ " ") := by
    cases operator <;> decide
  simpa only [String.append_assoc] using ofLeft.join separates ofRight

theorem rangeCode_mirrors (inclusive : Bool) {first last : String}
    (ofFirst : Mirrors name mentions first) (ofLast : Mirrors name others last) :
    Mirrors name (mentions ++ others) (rangeCode inclusive first last) := by
  cases inclusive with
  | true => exact ofFirst.wrapPair (by decide) (by decide) ofLast (by decide)
  | false => exact ofFirst.wrapPair (by decide) (by decide) ofLast (by decide)

/-- No function that a pseudo-method stands for has a dollar sign in its name. -/
theorem PseudoMethod.dollar_not_mem_function {receiver : Receiver} {method : String}
    {found : PseudoMethod} (done : find? receiver method = some found) :
    '$' ∉ found.function.toList := by
  have each : ∀ listed ∈ methodsOf receiver, '$' ∉ listed.function.toList := by
    cases receiver <;> decide +kernel
  exact each found (List.mem_of_find?_eq_some done)

theorem methodCallCode_mirrors (receiver : Option Receiver) (location : Location)
    {method : String} {object : String} {arguments : List String}
    (plain : '$' ∉ method.toList) (ofObject : Mirrors name mentions object)
    (ofArguments : List.Forall₂ (Mirrors name) all arguments) :
    Emission.Yields (Mirrors name (callMentions receiver method mentions all))
      (methodCallCode receiver location method object arguments) := by
  cases receiver with
  | none =>
      have dispatch : Separates ("->" ++ method) :=
        (by decide : Separates "->").append plain
      have called := ofObject.join dispatch (argumentCode_mirrors ofArguments)
      have shape : object ++ ("->" ++ method) ++ argumentCode arguments =
          object ++ "->" ++ method ++ argumentCode arguments := by
        simp only [String.append_assoc]
      rw [shape] at called
      exact .pure called
  | some kind =>
      refine (PseudoMethod.resolve_yields kind method location).bind
        fun found located => ?_
      have called : Mirrors name (callMentions (some kind) method mentions all)
          (found.function ++ argumentCode (found.arrange object arguments)) := by
        simp only [callMentions, located]
        exact (argumentCode_mirrors (Slot.arrange_related _ ofObject ofArguments)).prepend
          _ (PseudoMethod.dollar_not_mem_function located)
      cases found.inPlace with
      | true => exact .after fun _ => .pure called
      | false => exact .pure called

end

/-! ## Expressions -/

section

variable {name : Identifier} (setting : Setting)

theorem arrayItemCode_mirrors {keyMentions mentions : List Mention} {key value : String}
    (ofKey : Mirrors name keyMentions key) (ofValue : Mirrors name mentions value) :
    Mirrors name (keyMentions ++ mentions) (arrayItemCode (some key) value) :=
  ofKey.join (by decide) ofValue

mutual

/-- The code of a plain expression refers to the variables that it mentions. -/
theorem renderExpr_mirrors (expression : Expr) (plain : expression.IsPlain) :
    Emission.Yields (Mirrors name expression.mentions)
      (renderExpr setting expression) := by
  cases expression with
  | atom location leaf => exact .pure (leaf.code_mirrors plain)
  | array location items =>
      exact (renderItems_mirrors items plain).bind_pure fun codes each =>
        (Mirrors.intercalate (by decide) each).wrap (by decide) (by decide)
  | unary location operator operand =>
      have rendered := renderExpr_mirrors operand plain
      cases operator with
      | isset =>
          cases operand with
          | index place container key =>
              refine (renderExpr_mirrors container plain.1).bind
                fun containerCode ofContainer => ?_
              exact (renderExpr_mirrors key plain.2).bind_pure fun keyCode ofKey =>
                ofContainer.wrapPair (by decide) (by decide) ofKey (by decide)
          | property place object property =>
              exact (renderExpr_mirrors object plain.1).bind_pure
                fun objectCode ofObject =>
                ofObject.wrapWith (by decide) (by decide) plain.2 (by decide)
          | stringProperty place object property =>
              exact (renderExpr_mirrors object plain.1).bind_pure
                fun objectCode ofObject =>
                ofObject.wrapWith (by decide) (by decide) plain.2 (by decide)
          | dynamicProperty place object property =>
              refine (renderExpr_mirrors object plain.1).bind
                fun objectCode ofObject => ?_
              exact (renderExpr_mirrors property plain.2).bind_pure
                fun propertyCode ofProperty =>
                ofObject.wrapPair (by decide) (by decide) ofProperty (by decide)
          | _ =>
              exact rendered.bind_pure fun _ inside => UnaryOperator.code_mirrors _ inside
      | _ => exact rendered.bind_pure fun _ inside => UnaryOperator.code_mirrors _ inside
  | binary location operator left right =>
      refine (renderExpr_mirrors left plain.1).bind fun leftCode ofLeft => ?_
      exact (renderExpr_mirrors right plain.2).bind_pure fun rightCode ofRight =>
        binaryCode_mirrors operator ofLeft ofRight
  | range location inclusive first last =>
      refine (renderExpr_mirrors first plain.1).bind fun firstCode ofFirst => ?_
      exact (renderExpr_mirrors last plain.2).bind_pure fun lastCode ofLast =>
        rangeCode_mirrors inclusive ofFirst ofLast
  | property location object property =>
      have dispatch := (by decide : Separates "->").append plain.2
      refine (renderExpr_mirrors object plain.1).bind_pure fun objectCode ofObject => ?_
      rw [String.append_assoc]
      exact ofObject.extend dispatch
  | dynamicProperty location object property =>
      refine (renderExpr_mirrors object plain.1).bind fun objectCode ofObject => ?_
      exact (renderExpr_mirrors property plain.2).bind_pure fun propertyCode ofProperty =>
        (ofObject.join (by decide) ofProperty).extend (by decide)
  | stringProperty location object property =>
      exact (renderExpr_mirrors object plain.1).bind_pure fun objectCode ofObject =>
        ofObject.wrapWith (by decide) (by decide) plain.2 (by decide)
  | index location container key =>
      refine (renderExpr_mirrors container plain.1).bind
        fun containerCode ofContainer => ?_
      exact (renderExpr_mirrors key plain.2).bind_pure fun keyCode ofKey =>
        (ofContainer.join (by decide) ofKey).extend (by decide)
  | methodCall location receiver method arguments =>
      refine (renderExpr_mirrors receiver plain.1).bind fun object ofObject => ?_
      exact (renderExprs_mirrors arguments plain.2.2).bind fun codes each =>
        methodCallCode_mirrors _ location plain.2.1 ofObject each
  | functionCall location function arguments =>
      exact .after fun _ =>
        (renderExprs_mirrors arguments plain.2).bind_pure fun codes each =>
          (argumentCode_mirrors each).prepend function plain.1
  | staticCall location className method arguments =>
      have called : '$' ∉ (className ++ "::" ++ method).toList := by
        simpa using ⟨plain.1, plain.2.1⟩
      exact (renderExprs_mirrors arguments plain.2.2).bind_pure fun codes each =>
        (argumentCode_mirrors each).prepend _ called
  | new location className dynamic arguments =>
      exact (renderExprs_mirrors arguments plain.2).bind_pure fun codes each =>
        newCode_mirrors dynamic plain.1 each
  | cast location type operand => exact renderExpr_mirrors operand plain
  | typeHint location type operand => exact renderExpr_mirrors operand plain
  | ternary location condition consequence alternative =>
      rcases plain with ⟨first, second, third⟩
      refine (renderExpr_mirrors condition first).bind fun conditionCode ofCondition => ?_
      refine (renderExpr_mirrors consequence second).bind
        fun consequenceCode ofConsequence => ?_
      exact (renderExpr_mirrors alternative third).bind_pure
        fun alternativeCode ofAlternative =>
        (ofCondition.join (by decide) ofConsequence).join (by decide) ofAlternative
  | closure location parameters body => exact plain.elim
  | arrow location parameter body => exact plain.elim
  | fetch location target source =>
      exact (renderExpr_mirrors source plain).bind_pure fun code inside =>
        inside.wrap (by decide) (by decide)
termination_by structural expression

theorem renderExprs_mirrors (expressions : List Expr)
    (plain : Expr.ArePlain expressions) :
    Emission.Yields (List.Forall₂ (Mirrors name) (Expr.mentionsOfEach expressions))
      (renderExprs setting expressions) := by
  cases expressions with
  | nil => exact .pure .nil
  | cons expression rest =>
      refine (renderExpr_mirrors expression plain.1).bind fun code mirrors => ?_
      exact (renderExprs_mirrors rest plain.2).bind_pure fun codes each =>
        .cons mirrors each
termination_by structural expressions

theorem renderItems_mirrors (items : List ArrayItem) (plain : Expr.ItemsPlain items) :
    Emission.Yields (List.Forall₂ (Mirrors name) (Expr.mentionsOfItems items))
      (renderItems setting items) := by
  cases items with
  | nil => exact .pure .nil
  | cons item rest =>
      rcases item with ⟨key, value⟩
      cases key with
      | none =>
          refine (renderExpr_mirrors value plain.1).bind fun valueCode ofValue => ?_
          exact (renderItems_mirrors rest plain.2).bind_pure fun codes each =>
            .cons ofValue each
      | some key =>
          refine (renderExpr_mirrors value plain.2.1).bind fun valueCode ofValue => ?_
          have keyed : Emission.Yields
              (fun found => ∃ code, found = some code ∧ Mirrors name key.mentions code)
              (some <$> renderExpr setting key) :=
            (renderExpr_mirrors key plain.1).map fun code mirrors => ⟨code, rfl, mirrors⟩
          refine keyed.bind fun found ofKey => ?_
          rcases ofKey with ⟨keyCode, rfl, ofKey⟩
          exact (renderItems_mirrors rest plain.2.2).bind_pure fun codes each =>
            .cons (arrayItemCode_mirrors ofKey ofValue) each
termination_by structural items

end

end

/-! ## Variables that are read -/

/-- Whatever a call mentions stands in the object or in an argument. -/
theorem mem_callMentions {receiver : Option Receiver} {method : String}
    {object : List Mention} {arguments : List (List Mention)} {mention : Mention}
    (member : mention ∈ callMentions receiver method object arguments) :
    mention ∈ object ∨ mention ∈ arguments.flatten := by
  rw [callMentions.eq_def] at member
  split at member
  · exact List.mem_append.mp member
  · split at member
    · rename_i found _
      rcases List.mem_flatten.mp member with ⟨place, arranged, within⟩
      have given : ∀ part ∈ found.arrange object arguments, mention ∈ part →
          mention ∈ object ∨ mention ∈ arguments.flatten :=
        Slot.forall_mem_arrange _ .inl fun argument given inside =>
          .inr (List.mem_flatten.mpr ⟨argument, given, inside⟩)
      exact given place arranged within
    · cases member

namespace Expr

variable {name : String}

mutual

/-- A variable in the code of an expression is one that the expression reads. -/
theorem reads_of_mention (expression : Expr)
    (member : .named name ∈ expression.mentions) :
    expression.reads name = true := by
  cases expression with
  | atom location leaf =>
      cases leaf with
      | «variable» found =>
          cases List.mem_singleton.mp member
          exact beq_self_eq_true name
      | interpolated content => cases List.mem_singleton.mp member
      | _ => cases member
  | array location items => exact readsItems_of_mention items member
  | unary location operator operand => exact reads_of_mention operand member
  | binary location operator left right =>
      rw [reads, Bool.or_eq_true]
      exact (List.mem_append.mp member).imp (reads_of_mention left)
        (reads_of_mention right)
  | range location inclusive first last =>
      rw [reads, Bool.or_eq_true]
      exact (List.mem_append.mp member).imp (reads_of_mention first)
        (reads_of_mention last)
  | property location object property => exact reads_of_mention object member
  | dynamicProperty location object property =>
      rw [reads, Bool.or_eq_true]
      exact (List.mem_append.mp member).imp (reads_of_mention object)
        (reads_of_mention property)
  | stringProperty location object property => exact reads_of_mention object member
  | index location container key =>
      rw [reads, Bool.or_eq_true]
      exact (List.mem_append.mp member).imp (reads_of_mention container)
        (reads_of_mention key)
  | methodCall location receiver method arguments =>
      rw [reads, Bool.or_eq_true]
      exact (mem_callMentions member).imp (reads_of_mention receiver)
        (readsAny_of_mention arguments)
  | functionCall location function arguments => exact readsAny_of_mention arguments member
  | staticCall location className method arguments =>
      exact readsAny_of_mention arguments member
  | new location className dynamic arguments =>
      rw [reads, Bool.or_eq_true]
      refine (List.mem_append.mp member).imp (fun chosen => ?_)
        (readsAny_of_mention arguments)
      cases dynamic with
      | true =>
          cases List.mem_singleton.mp chosen
          exact beq_self_eq_true name
      | false => cases chosen
  | cast location type operand => exact reads_of_mention operand member
  | typeHint location type operand => exact reads_of_mention operand member
  | ternary location condition consequence alternative =>
      rw [reads, Bool.or_eq_true, Bool.or_eq_true]
      refine (List.mem_append.mp member).imp (fun earlier => ?_)
        (reads_of_mention alternative)
      exact (List.mem_append.mp earlier).imp (reads_of_mention condition)
        (reads_of_mention consequence)
  | closure location parameters body => cases member
  | arrow location parameter body => cases member
  | fetch location target source => exact reads_of_mention source member
termination_by structural expression

theorem readsAny_of_mention (expressions : List Expr)
    (member : .named name ∈ (mentionsOfEach expressions).flatten) :
    readsAny name expressions = true := by
  cases expressions with
  | nil => cases member
  | cons expression rest =>
      rw [mentionsOfEach, List.flatten_cons] at member
      rw [readsAny, Bool.or_eq_true]
      exact (List.mem_append.mp member).imp (reads_of_mention expression)
        (readsAny_of_mention rest)
termination_by structural expressions

theorem readsItems_of_mention (items : List ArrayItem)
    (member : .named name ∈ (mentionsOfItems items).flatten) :
    readsItems name items = true := by
  cases items with
  | nil => cases member
  | cons item rest =>
      rcases item with ⟨key, value⟩
      cases key with
      | none =>
          change (reads name value || false || readsItems name rest) = true
          rw [mentionsOfItems, List.flatten_cons] at member
          rw [Bool.or_eq_true]
          refine (List.mem_append.mp member).imp (fun here => ?_)
            (readsItems_of_mention rest)
          rw [reads_of_mention value here, Bool.true_or]
      | some key =>
          change (reads name value || reads name key || readsItems name rest) = true
          rw [mentionsOfItems, List.flatten_cons] at member
          rw [Bool.or_eq_true]
          refine (List.mem_append.mp member).imp (fun here => ?_)
            (readsItems_of_mention rest)
          rcases List.mem_append.mp here with inKey | inValue
          · simp [reads_of_mention key inKey]
          · simp [reads_of_mention value inValue]
termination_by structural items

end

end Expr

/-! ## Direct writes -/

theorem compileExpr_direct {setting : Setting} {context : ExpressionContext}
    {expression : Expr} {emitter after : Emitter} {compiled : CompiledExpression}
    {target : String}
    (done : compileExpr setting context expression emitter = .ok compiled after)
    (aimed : context.target = some target) (direct : compiled.directWrite = true) :
    renderExpr setting expression emitter = .ok compiled.code after ∧
      expression.reads target = false := by
  rw [compileExpr, EStateM.bind_eq_ok_iff] at done
  rcases done with ⟨code, middle, rendered, finished⟩
  rw [Expr.compiled] at finished
  split at finished
  · cases finished
  · cases finished
    simp only [aimed, Bool.not_eq_true'] at direct
    exact ⟨rendered, direct⟩

/-- An expression that may be written into a variable directly refers to the variable only
inside the contents that PHP reads itself, and where the name of another variable is no
identifier. -/
theorem directWrite_refers_iff {setting : Setting} {context : ExpressionContext}
    {expression : Expr} {emitter after : Emitter} {compiled : CompiledExpression}
    {target : Identifier} (plain : expression.IsPlain)
    (done : compileExpr setting context expression emitter = .ok compiled after)
    (aimed : context.target = some target.text) (direct : compiled.directWrite = true) :
    Refers target compiled.code ↔
      (∃ content, .content content ∈ expression.mentions ∧ Refers target content) ∨
      ∃ name, .named name ∈ expression.mentions ∧ Text.isName name.toList = false ∧
        Refers target ("$" ++ name) := by
  rcases compileExpr_direct done aimed direct with ⟨rendered, unread⟩
  have mirrors : Mirrors target expression.mentions compiled.code :=
    renderExpr_mirrors setting expression plain emitter compiled.code after rendered
  rw [Mirrors] at mirrors
  rw [mirrors]
  constructor
  · rintro ⟨mention, member, refers⟩
    cases mention with
    | content content => exact .inl ⟨content, member, refers⟩
    | named name =>
        refine .inr ⟨name, member, ?_, refers⟩
        by_contra identifier
        rw [Bool.not_eq_false] at identifier
        cases (Text.refers_variable_iff target identifier).mp refers
        rw [Expr.reads_of_mention expression member] at unread
        cases unread
  · rintro (⟨content, member, refers⟩ | ⟨name, member, _, refers⟩)
    · exact ⟨.content content, member, refers⟩
    · exact ⟨.named name, member, refers⟩

def targetV : Identifier := ⟨"v", by decide⟩

/-- `[$w => "$vw", new $c(PHP_EOL)]` -/
def unrelated : Expr :=
  .array .unknown
    [⟨some (.atom .unknown (.variable "w")), .atom .unknown (.interpolated "$vw")⟩,
      ⟨none, .new .unknown "c" true [.atom .unknown (.constant "PHP_EOL")]⟩]

theorem directWrite_refers_iff_of_unrelated :
    unrelated.IsPlain ∧ ∃ compiled,
      compileExpr {} { target := some "v" } unrelated {} = .ok compiled {} ∧
        compiled.directWrite = true ∧ compiled.code = "[$w => \"$vw\", new $c(PHP_EOL)]" ∧
        ¬ Refers targetV compiled.code := by
  have plain : unrelated.IsPlain :=
    ⟨(by decide : ∀ text ∈ ["w"], '$' ∉ text.toList), trivial, ⟨by decide,
      (by decide : ∀ text ∈ ["PHP_EOL"], '$' ∉ text.toList), trivial⟩, trivial⟩
  have shown : unrelated.mentions = [.named "w", .content "$vw", .named "c"] := rfl
  have done : compileExpr {} { target := some targetV.text } unrelated {} =
      .ok ⟨"[$w => \"$vw\", new $c(PHP_EOL)]", "array", false, true⟩ {} := rfl
  refine ⟨plain, _, done, rfl, rfl, fun refers => ?_⟩
  rcases (directWrite_refers_iff plain done rfl rfl).mp refers with
    ⟨content, member, found⟩ | ⟨name, member, noIdentifier, _⟩
  · simp only [shown, List.mem_cons, reduceCtorEq, Mention.content.injEq,
      List.not_mem_nil,
      false_or, or_false] at member
    cases member
    revert found
    decide
  · simp only [shown, List.mem_cons, reduceCtorEq, Mention.named.injEq, List.not_mem_nil,
      false_or, or_false] at member
    rcases member with rfl | rfl <;> cases noIdentifier

/-- A content that names the target is written into it directly. -/
theorem interpolated_target_written_directly :
    ∃ compiled, compileExpr {} { target := some "v" }
        (.atom .unknown (.interpolated "hello $v")) {} = .ok compiled {} ∧
      compiled.directWrite = true ∧ compiled.code = "\"hello $v\"" ∧
      Refers targetV compiled.code :=
  ⟨_, rfl, rfl, rfl, by decide⟩

end ZephirPhp
