import Mathlib.Data.List.TakeWhile
import ZephirPhp.Emission.Body
import ZephirPhp.Proofs.Sequencing

/-! # Visible code

A right-hand side must not be blank. Nearly every expression has code with a visible
character of its own; the rest show what their operand shows or the text of a leaf.
-/

namespace ZephirPhp

namespace Text

/-- Whether some character of a text is not blank. -/
def isVisible (text : String) : Bool :=
  text.toList.any fun character => !isBlank character

@[simp] theorem isVisible_append (left right : String) :
    isVisible (left ++ right) = (isVisible left || isVisible right) := by
  simp [isVisible]

theorem isVisible_left {left right : String} (visible : isVisible left = true) :
    isVisible (left ++ right) = true := by
  simp [visible]

theorem isVisible_right {left right : String} (visible : isVisible right = true) :
    isVisible (left ++ right) = true := by
  simp [visible]

theorem isVisible_intercalate (separator : String) {text : String} {texts : List String}
    (member : text ∈ texts) (visible : isVisible text = true) :
    isVisible (separator.intercalate texts) = true := by
  induction texts with
  | nil => cases member
  | cons first rest induction =>
      cases rest with
      | nil =>
          rw [List.mem_singleton] at member
          rw [String.intercalate_singleton, ← member, visible]
      | cons second others =>
          rw [String.intercalate_cons_cons, isVisible_append, isVisible_append]
          rcases List.mem_cons.mp member with rfl | later
          · simp [visible]
          · simp [induction later]

/-- Trimming leaves nothing exactly of a text without visible characters. -/
theorem isEmpty_trim (text : String) : (trim text).isEmpty = !isVisible text := by
  have trimmed : trimChars text.toList = [] ↔
      ∀ character ∈ text.toList, isBlank character := by
    rw [trimChars, trimEndChars, trimStartChars, List.reverse_eq_nil_iff,
      List.dropWhile_eq_nil_iff]
    constructor
    · intro blank
      have none := List.any_dropWhile (p := isBlank) (l := text.toList)
      rw [List.any_eq_false.mpr fun character member => by
        simpa using blank character (List.mem_reverse.mpr member)] at none
      simpa using none.symm
    · intro blank character member
      exact blank character (List.dropWhile_subset isBlank (List.mem_reverse.mp member))
  rw [Bool.eq_iff_iff, String.isEmpty_iff, trim, isVisible, ← String.toList_inj,
    String.toList_ofList, String.toList_empty, trimmed]
  simp

end Text

/-- Whether the code of a leaf is blank. -/
def Atom.isBlank : Atom → Bool
  | .int text => !Text.isVisible text
  | .double text => !Text.isVisible text
  | .constant name => !Text.isVisible name
  | _ => false

/-- Whether an operator shows nothing but its operand. -/
def UnaryOperator.isTransparent : UnaryOperator → Bool
  | .likely => true
  | .unlikely => true
  | _ => false

/-- Whether the code of an expression is blank. -/
def Expr.isBlank : Expr → Bool
  | .atom _ leaf => leaf.isBlank
  | .unary _ operator operand => operator.isTransparent && operand.isBlank
  | .cast _ _ operand => operand.isBlank
  | .typeHint _ _ operand => operand.isBlank
  | _ => false

theorem isVisible_charLiteral (content : String) :
    Text.isVisible (charLiteral content) = true := by
  rw [charLiteral]
  split <;> exact Text.isVisible_left (Text.isVisible_left rfl)

theorem Atom.isVisible_code (leaf : Atom) : Text.isVisible leaf.code = !leaf.isBlank := by
  cases leaf with
  | int text => simp [Atom.code, Atom.isBlank]
  | double text => simp [Atom.code, Atom.isBlank]
  | constant name => simp [Atom.code, Atom.isBlank]
  | bool value => cases value <;> rfl
  | null => rfl
  | string content => exact Text.isVisible_left (Text.isVisible_left rfl)
  | interpolated content => exact Text.isVisible_left (Text.isVisible_left rfl)
  | char content => exact isVisible_charLiteral content
  | emptyArray => rfl
  | «variable» name => exact Text.isVisible_left rfl
  | staticProperty className name => exact Text.isVisible_left (Text.isVisible_right rfl)
  | staticConstant className name => exact Text.isVisible_left (Text.isVisible_right rfl)
  | newType value => cases value <;> rfl

theorem UnaryOperator.isVisible_code (operator : UnaryOperator) (operand : String) :
    Text.isVisible (operator.code operand) =
      (!operator.isTransparent || Text.isVisible operand) := by
  cases operator
  case likely | unlikely => rfl
  case isset | empty | typeof | list =>
    exact Text.isVisible_left (Text.isVisible_left rfl)
  all_goals exact Text.isVisible_left rfl

theorem BinaryOperator.isVisible_symbol (operator : BinaryOperator) :
    Text.isVisible operator.symbol = true := by
  cases operator <;> decide

/-- A page on which a block was closed last shows the brace. -/
theorem Page.isVisible_content_closeBlock (layout : Layout) (page : Page) :
    Text.isVisible ((page.closeBlock "").content layout) = true := by
  have brace : ∀ level, linesAt level "\x7d" = [.code level "\x7d"] := by
    intro level
    have texts : ((Text.lines "\x7d").map Text.trimEnd).filter (· ≠ "") = ["\x7d"] := by
      decide
    rw [linesAt, texts]
    rfl
  have nothing : ∀ level, linesAt level "" = [] := fun level => rfl
  have closed : (page.closeBlock "").flush.lines =
      .code page.flush.unindent.depth "\x7d" :: page.flush.lines := by
    simp [closeBlock, line, append, flush, unindent, brace, nothing]
  have kept : Line.code page.flush.unindent.depth "\x7d" ∈
      (page.closeBlock "").flush.contentLines := by
    rw [contentLines, closed, List.mem_reverse, List.dropWhile_cons_of_neg (by simp)]
    exact List.mem_cons_self
  refine Text.isVisible_intercalate "\n" (List.mem_map_of_mem kept) ?_
  rw [showLine, Text.isVisible_append, Bool.or_eq_true]
  exact .inr rfl

/-! ## The code of an expression -/

namespace Emission

/-- Whatever an emission results in is of a kind. -/
def Yields {α : Type} (kind : α → Prop) (emission : Emission α) : Prop :=
  ∀ emitter value final, emission emitter = .ok value final → kind value

namespace Yields

variable {α β : Type} {kind : α → Prop} {laterKind : β → Prop}

theorem any (emission : Emission α) : Yields (fun _ => True) emission :=
  fun _ _ _ _ => trivial

theorem pure {value : α} (holds : kind value) : Yields kind (Pure.pure value) := by
  intro emitter found final equal
  cases equal
  exact holds

theorem bind {first : Emission α} {next : α → Emission β} (start : Yields kind first)
    (rest : ∀ value, kind value → Yields laterKind (next value)) :
    Yields laterKind (first >>= next) := by
  intro emitter result final ended
  rcases (EStateM.bind_eq_ok_iff first next emitter final result).mp ended with
    ⟨value, middle, started, continued⟩
  exact rest value (start emitter value middle started) middle result final continued

/-- Of the first part nothing needs to be known. -/
theorem after {first : Emission α} {next : α → Emission β}
    (rest : ∀ value, Yields laterKind (next value)) : Yields laterKind (first >>= next) :=
  (any first).bind fun value _ => rest value

theorem withScope {scope : Scope} {emission : Emission α}
    (yields : Yields kind emission) :
    Yields kind (Emission.withScope scope emission) := by
  intro emitter value final ended
  rw [Emission.withScope] at ended
  cases equal : emission { emitter with scope } with
  | ok found last =>
      rw [equal] at ended
      cases ended
      exact yields _ value last equal
  | error diagnostic last =>
      rw [equal] at ended
      cases ended

/-- A page of its own is as the last change left it. -/
theorem onOwnPage (emission : Emission α) (change : Page → Page) :
    Yields (fun page => ∃ earlier, page = change earlier)
      (Emission.onOwnPage (emission >>= fun _ => Emission.onPage change)) := by
  intro emitter page final ended
  rw [Emission.onOwnPage, EStateM.bind_apply] at ended
  cases equal : emission { emitter with page := .empty } with
  | ok value last =>
      rw [equal] at ended
      cases ended
      exact ⟨last.page, rfl⟩
  | error diagnostic last =>
      rw [equal] at ended
      cases ended

end Yields

end Emission

theorem isVisible_argumentCode (arguments : List String) :
    Text.isVisible (argumentCode arguments) = true :=
  Text.isVisible_left (Text.isVisible_left rfl)

theorem isVisible_rangeCode (inclusive : Bool) (first last : String) :
    Text.isVisible (rangeCode inclusive first last) = true := by
  cases inclusive <;> exact Text.isVisible_right rfl

theorem Expr.isVisible_unary (location : Location) (operator : UnaryOperator)
    {operand : Expr} {code : String} (shown : Text.isVisible code = !operand.isBlank) :
    Text.isVisible (operator.code code) =
      !(Expr.unary location operator operand).isBlank := by
  rw [UnaryOperator.isVisible_code, shown, Expr.isBlank, Bool.not_and]

theorem methodCallCode_yields (receiver : Option Receiver) (location : Location)
    (method object : String) (arguments : List String) :
    Emission.Yields (fun code => Text.isVisible code = true)
      (methodCallCode receiver location method object arguments) := by
  cases receiver with
  | none => exact .pure (Text.isVisible_right (isVisible_argumentCode arguments))
  | some kind =>
      apply Emission.Yields.after
      intro pseudoMethod
      have shown (arranged : List String) :
          Text.isVisible (pseudoMethod.function ++ argumentCode arranged) = true :=
        Text.isVisible_right (isVisible_argumentCode arranged)
      cases pseudoMethod.inPlace with
      | true => exact .after fun _ => .pure (shown _)
      | false => exact .pure (shown _)

/-- The code of an expression is blank exactly if the expression says so, whatever the
scope is. -/
theorem renderExpr_yields (setting : Setting) (expression : Expr) :
    Emission.Yields (fun code => Text.isVisible code = !expression.isBlank)
      (renderExpr setting expression) := by
  cases expression with
  | atom location leaf => exact .pure leaf.isVisible_code
  | array location items =>
      exact .after fun _ => .pure (Text.isVisible_left (Text.isVisible_left rfl))
  | unary location operator operand =>
      have rendered := renderExpr_yields setting operand
      cases operator with
      | isset =>
          cases operand with
          | index place container key =>
              exact .after fun _ => .after fun _ => .pure (Text.isVisible_right rfl)
          | property place object name =>
              exact .after fun _ => .pure (Text.isVisible_right rfl)
          | stringProperty place object name =>
              exact .after fun _ => .pure (Text.isVisible_right rfl)
          | dynamicProperty place object name =>
              exact .after fun _ => .after fun _ => .pure (Text.isVisible_right rfl)
          | _ =>
              exact rendered.bind fun _ shown =>
                .pure (Expr.isVisible_unary location _ shown)
      | _ =>
          exact rendered.bind fun _ shown => .pure (Expr.isVisible_unary location _ shown)
  | binary location operator left right =>
      exact .after fun _ => .after fun _ =>
        .pure (Text.isVisible_left (Text.isVisible_left
          (Text.isVisible_right operator.isVisible_symbol)))
  | range location inclusive first last =>
      exact .after fun _ => .after fun _ => .pure (isVisible_rangeCode inclusive _ _)
  | property location object name =>
      exact .after fun _ => .pure (Text.isVisible_left (Text.isVisible_right rfl))
  | dynamicProperty location object name =>
      exact .after fun _ => .after fun _ => .pure (Text.isVisible_right rfl)
  | stringProperty location object name =>
      exact .after fun _ => .pure (Text.isVisible_right rfl)
  | index location container key =>
      exact .after fun _ => .after fun _ => .pure (Text.isVisible_right rfl)
  | methodCall location receiver method arguments =>
      exact .after fun _ => .after fun _ => methodCallCode_yields _ location method _ _
  | functionCall location function arguments =>
      exact .after fun _ => .after fun _ =>
        .pure (Text.isVisible_right (isVisible_argumentCode _))
  | staticCall location className method arguments =>
      exact .after fun _ => .pure (Text.isVisible_right (isVisible_argumentCode _))
  | new location className dynamic arguments =>
      exact .after fun _ => .pure (Text.isVisible_right (isVisible_argumentCode _))
  | cast location type operand => exact renderExpr_yields setting operand
  | typeHint location type operand => exact renderExpr_yields setting operand
  | ternary location condition consequence alternative =>
      exact .after fun _ => .after fun _ => .after fun _ =>
        .pure (Text.isVisible_left (Text.isVisible_right rfl))
  | closure location parameters body =>
      have closed (opening : Emission Unit) :
          Emission.Yields (fun page => ∃ earlier, page = Page.closeBlock "" earlier)
            (Emission.onOwnPage do
              opening
              emitBlock setting body
              Emission.onPage (·.closeBlock "")) := by
        rw [← bind_assoc]
        exact .onOwnPage _ _
      refine .after fun _ => .after fun _ => (closed _).withScope.bind ?_
      rintro page ⟨earlier, rfl⟩
      exact .pure (Page.isVisible_content_closeBlock setting.layout earlier)
  | arrow location parameter body =>
      exact .after fun _ => .pure (Text.isVisible_right rfl)
  | fetch location target source => exact .after fun _ => .pure (Text.isVisible_right rfl)
termination_by structural expression

/-- A blank expression has nothing in it that could fail. -/
theorem renderExpr_of_isBlank (setting : Setting) (expression : Expr)
    (blank : expression.isBlank = true) :
    ∃ code, ∀ emitter, renderExpr setting expression emitter = .ok code emitter := by
  cases expression with
  | atom location leaf => exact ⟨leaf.code, fun _ => rfl⟩
  | unary location operator operand =>
      rw [Expr.isBlank, Bool.and_eq_true] at blank
      rcases renderExpr_of_isBlank setting operand blank.2 with ⟨code, rendered⟩
      cases operator with
      | likely | unlikely =>
          refine ⟨code, fun emitter => ?_⟩
          simp [renderExpr, UnaryOperator.code, EStateM.bind_apply, rendered]
      | _ => cases blank.1
  | cast location type operand => exact renderExpr_of_isBlank setting operand blank
  | typeHint location type operand => exact renderExpr_of_isBlank setting operand blank
  | _ => cases blank
termination_by structural expression

end ZephirPhp
