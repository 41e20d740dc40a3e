import ZephirPhp.Emission.Definition
import ZephirPhp.Proofs.Emission.Arrangement
import ZephirPhp.Proofs.Emission.Characters
import ZephirPhp.Proofs.Program.Texts
import ZephirPhp.Proofs.Text.Brackets

/-! # Brackets of pages and of pieces of code

The brackets of a page are those of the texts that are written on it: cutting a text into
lines, trimming them and indenting them touches blanks only. A piece of code is balanced
if its parts are, and if the texts in it have no brackets of their own.
-/

namespace ZephirPhp

/-! ## Pages -/

namespace Page

/-- The brackets on a page in their order. -/
def brackets (page : Page) : List Char :=
  page.ofKind isBracket

@[simp] theorem brackets_flush (page : Page) : page.flush.brackets = page.brackets :=
  ofKind_flush (fun _ => Text.isBracket_of_isBlank) page

@[simp] theorem brackets_indent (page : Page) : page.indent.brackets = page.brackets :=
  rfl

@[simp] theorem brackets_unindent (page : Page) : page.unindent.brackets =
  page.brackets := rfl

@[simp] theorem brackets_line (text : String) (page : Page) :
    (page.line text).brackets = page.brackets ++ Text.brackets text :=
  ofKind_line (fun _ => Text.isBracket_of_isBlank) text page

@[simp] theorem brackets_paragraph (text : String) (page : Page) :
    (page.paragraph text).brackets = page.brackets ++ Text.brackets text :=
  ofKind_paragraph (fun _ => Text.isBracket_of_isBlank) text page

@[simp] theorem brackets_blankLine (page : Page) : page.blankLine.brackets =
  page.brackets :=
  ofKind_blankLine (fun _ => Text.isBracket_of_isBlank) page

@[simp] theorem brackets_openBlock (header : String) (braceOnNewLine : Bool)
  (page : Page) :
    (page.openBlock header braceOnNewLine).brackets =
      page.brackets ++ (Text.brackets header ++ ['\x7b']) :=
  ofKind_openBlock (fun _ => Text.isBracket_of_isBlank) header braceOnNewLine page

@[simp] theorem brackets_closeBlock (suffix : String) (page : Page) :
    (page.closeBlock suffix).brackets =
      page.brackets ++ '\x7d' :: Text.brackets suffix := by
  have brace : Text.brackets "\x7d" = ['\x7d'] := by decide
  simp [closeBlock, brace]

@[simp] theorem brackets_continueBlock (header : String) (page : Page) :
    (page.continueBlock header).brackets =
      page.brackets ++ '\x7d' :: (Text.brackets header ++ ['\x7b']) := by
  have braces : Text.brackets "\x7d " = ['\x7d'] ∧ Text.brackets " \x7b" = ['\x7b'] := by
    decide
  simp [continueBlock, braces]

/-- Showing a page adds no bracket and drops none. -/
theorem brackets_content (layout : Layout) (page : Page) :
    Text.brackets (page.content layout) = page.brackets :=
  ofKind_content (fun _ => Text.isBracket_of_isBlank) layout page

end Page

/-! ## Pieces of code -/

open Survey (texts)

/-- Texts without brackets. -/
def AllPlain (texts : List String) : Prop :=
  ∀ text ∈ texts, Text.brackets text = []

namespace AllPlain

theorem append_iff {left right : List String} :
    AllPlain (left ++ right) ↔ AllPlain left ∧ AllPlain right :=
  List.forall_mem_append

theorem append_append_iff {first second third : List String} :
    AllPlain (first ++ (second ++ third)) ↔
      AllPlain first ∧ AllPlain second ∧ AllPlain third :=
  append_iff.trans (and_congr_right' append_iff)

theorem cons_iff {text : String} {rest : List String} :
    AllPlain (text :: rest) ↔ Text.brackets text = [] ∧ AllPlain rest :=
  List.forall_mem_cons

theorem append_cons_iff {left right : List String} {text : String} :
    AllPlain (left ++ text :: right) ↔
      AllPlain left ∧ Text.brackets text = [] ∧ AllPlain right :=
  append_iff.trans (and_congr_right' cons_iff)

theorem singleton_iff (text : String) : AllPlain [text] ↔ Text.brackets text = [] :=
  List.forall_mem_singleton

theorem flatMap_iff {α : Type} (values : List α) (texts : α → List String) :
    AllPlain (values.flatMap texts) ↔ ∀ value ∈ values, AllPlain (texts value) := by
  simp only [AllPlain, List.forall_mem_flatMap]

theorem cond_iff (location : Location) (condition : Expr) (body : List Stmt)
    (alternatives : List Branch) (otherwise : Option (List Stmt)) :
    AllPlain (texts.ofStmt () (.cond location condition body alternatives otherwise)) ↔
      AllPlain (texts.ofExpr () condition) ∧ AllPlain (texts.ofBlock () body) ∧
        AllPlain (texts.ofBranches () alternatives) ∧
          AllPlain (texts.ofBlock () (otherwise.getD [])) := by
  cases otherwise with
  | none =>
      have nothing : AllPlain (texts.ofBlock () []) := List.forall_mem_nil _
      simp only [Option.getD_none, nothing, and_true]
      exact append_append_iff
  | some block =>
      exact append_append_iff.trans (and_congr_right' (and_congr_right' append_iff))

end AllPlain

open Text (Balanced Turns)

theorem brackets_escapeDollars (escaped : Bool) (characters : List Char) :
    (escapeDollars escaped characters).filter isBracket =
      characters.filter isBracket := by
  induction characters generalizing escaped with
  | nil => rfl
  | cons character rest induction =>
      simp only [escapeDollars]
      split
      · simp [List.filter_cons, induction, isBracket]
      · simp [List.filter_cons, induction]

theorem brackets_stringLiteral (content : String) :
    Text.brackets (stringLiteral content) = Text.brackets content := by
  have quote : Text.brackets "\"" = [] := by decide
  rw [stringLiteral, Text.brackets_append, Text.brackets_append, quote, Text.brackets,
    String.toList_ofList, brackets_escapeDollars, List.nil_append, List.append_nil,
    Text.brackets]

theorem brackets_charLiteral (content : String) :
    Text.brackets (charLiteral content) = Text.brackets content := by
  have quotes : Text.brackets "\"" = [] ∧ Text.brackets "'" = [] := by decide
  rw [charLiteral]
  split <;> simp [quotes]

theorem Atom.code_balanced (leaf : Atom) (plain : AllPlain leaf.texts) :
    Balanced leaf.code := by
  have signs : Text.brackets "\"" = [] ∧ Text.brackets "$" = [] ∧
      Text.brackets "::$" = [] ∧
      Text.brackets "::" = [] := by
    decide
  cases leaf with
  | bool value => cases value <;> decide
  | null => decide
  | emptyArray => decide
  | newType value => cases value <;> decide
  | _ =>
      simp only [Atom.texts, AllPlain.cons_iff] at plain
      apply Balanced.of_plain
      simp [Atom.code, brackets_stringLiteral, brackets_charLiteral, signs, plain]

theorem UnaryOperator.code_balanced (operator : UnaryOperator) {operand : String}
    (inside : Balanced operand) : Balanced (operator.code operand) := by
  cases operator with
  | isset => exact .wrap [')'] (by decide) inside (by decide)
  | empty => exact .wrap [')'] (by decide) inside (by decide)
  | typeof => exact .wrap [')'] (by decide) inside (by decide)
  | list => exact .wrap [')'] (by decide) inside (by decide)
  | likely => exact inside
  | unlikely => exact inside
  | _ => exact .append (by decide) inside

theorem BinaryOperator.symbol_balanced (operator : BinaryOperator) :
    Balanced operator.symbol := by
  cases operator <;> decide

theorem AssignmentOperator.symbol_balanced (operator : AssignmentOperator) :
    Balanced operator.symbol := by
  cases operator <;> decide

theorem rangeCode_balanced (inclusive : Bool) {first last : String}
    (ofFirst : Balanced first) (ofLast : Balanced last) :
    Balanced (rangeCode inclusive first last) := by
  cases inclusive with
  | true => exact .wrapPair [')'] (by decide) ofFirst (by decide) ofLast (by decide)
  | false => exact .wrapPair [')', ')'] (by decide) ofFirst (by decide) ofLast (by decide)

theorem argumentCode_balanced {arguments : List String}
    (each : ∀ argument ∈ arguments, Balanced argument) :
    Balanced (argumentCode arguments) :=
  .wrap [')'] (by decide) (.intercalate (by decide) each) (by decide)

theorem arrayItemCode_balanced {key : Option String} {value : String}
    (ofKey : ∀ code ∈ key, Balanced code) (ofValue : Balanced value) :
    Balanced (arrayItemCode key value) := by
  cases key with
  | none => exact ofValue
  | some key => exact ((ofKey key rfl).append (by decide)).append ofValue

theorem parameterCode_balanced (byReference : Bool) {name : String}
    {default : Option String} (plain : Text.brackets name = [])
    (ofDefault : ∀ code ∈ default, Balanced code) :
    Balanced (parameterCode byReference name default) := by
  have sign : Balanced (if byReference then "&" else "") := by
    cases byReference <;> decide
  have named := (sign.append (by decide : Balanced "$")).append (.of_plain plain)
  cases default with
  | none => exact named.append (by decide)
  | some value => exact named.append (.append (by decide) (ofDefault value rfl))

theorem forEachCode_balanced {key : Option String} {value source : String}
    (ofKey : AllPlain key.toList) (ofValue : Text.brackets value = [])
    (ofSource : Balanced source) : Balanced (forEachCode key value source) := by
  have opened : Turns [] [')'] "foreach (" := by decide
  have named := (opened.within ofSource).within (by decide : Balanced " as $")
  cases key with
  | none => exact (named.within (.of_plain ofValue)).append (by decide)
  | some key =>
      have keyed := named.within (.of_plain ((AllPlain.singleton_iff key).mp ofKey))
      exact ((keyed.within (by decide)).within (.of_plain ofValue)).append (by decide)

theorem catchCode_balanced {classes : List String} {caught : Option String}
    (ofClasses : AllPlain classes) (ofCaught : AllPlain caught.toList) :
    Balanced (catchCode classes caught) := by
  have types : Balanced
      (if classes.isEmpty then "\\Exception" else " | ".intercalate classes) := by
    split
    · decide
    · exact .intercalate (by decide) fun name member => .of_plain (ofClasses name member)
  have opened : Turns [] [')'] "catch (" := by decide
  cases caught with
  | none => exact (opened.within types).append (by decide)
  | some name =>
      have plain := (AllPlain.singleton_iff name).mp ofCaught
      exact (((opened.within types).within (by decide)).within (.of_plain plain)).append
        (by decide)

namespace AssignmentForm

theorem storage_balanced (form : AssignmentForm) {target property : String}
    (ofTarget : Text.brackets target = []) (ofProperty : Text.brackets property = []) :
    Balanced (form.storage target property) := by
  rw [Text.Balanced, Text.turns_iff_unclosed]
  cases form <;>
    simp only [storage, Text.brackets_append, ofTarget, ofProperty, List.append_nil] <;>
    decide

theorem ending_balanced (form : AssignmentForm) : Balanced form.ending := by
  cases form <;> decide

theorem targetCode_balanced {form : AssignmentForm} {target path code : String}
    {property : Option String} {location : Location}
    (ofTarget : Text.brackets target = []) (ofProperty : AllPlain property.toList)
    (ofPath : Balanced path)
    (done : form.targetCode target property path location = .ok code) :
    Balanced code := by
  have plain : Text.brackets (property.getD "") = [] := by
    cases property with
    | none => rfl
    | some name => exact (AllPlain.singleton_iff name).mp ofProperty
  rw [targetCode.eq_def] at done
  split at done
  · cases done
  · cases done
    exact ((form.storage_balanced ofTarget plain).append ofPath).append
      form.ending_balanced

end AssignmentForm

/-- No function that a pseudo-method stands for has a bracket in its name. -/
theorem PseudoMethod.resolve_plain {receiver : Receiver} {name : String}
    {location : Location} {found : PseudoMethod}
    (done : resolve receiver name location = .ok found) :
    Text.brackets found.function = [] := by
  have each : ∀ listed ∈ methodsOf receiver, Text.brackets listed.function = [] := by
    cases receiver <;> decide +kernel
  rw [resolve] at done
  split at done
  next listed located =>
    cases done
    exact each _ (List.mem_of_find?_eq_some located)
  next => cases done

/-! ## Heads of definitions -/

/-- Only modifiers of PHP are shown, whatever the modifiers are. -/
theorem modifierCode_balanced (visibility : List String) (allowAbstract : Bool) :
    Balanced (modifierCode visibility allowAbstract) := by
  have each : ∀ modifier ∈ phpModifiers, Balanced modifier := by decide
  apply Balanced.intercalate (by decide)
  intro modifier member
  have known := (List.mem_filter.mp member).2
  rw [Bool.and_eq_true, List.contains_iff_mem] at known
  exact each modifier known.1

theorem namesCode_balanced {word : String} {names : List String} (ofWord : Balanced word)
    (plain : AllPlain names) : Balanced (namesCode word names) := by
  rw [namesCode]
  split
  · decide
  · have listed : Balanced (", ".intercalate names) :=
      .intercalate (by decide) fun name member => .of_plain (plain name member)
    have blank : Balanced " " := by decide
    exact ((blank.append ofWord).append blank).append listed

theorem Method.head_balanced (method : Method) (inInterface : Bool)
    {parameters : List String} (plain : Text.brackets method.name = [])
    (each : ∀ code ∈ parameters, Balanced code) :
    Balanced (method.head inInterface parameters) := by
  have modifiers := modifierCode_balanced method.visibility (!inInterface)
  have start : ∀ text, Balanced text →
      Balanced (if text.isEmpty then "" else text ++ " ") := by
    intro text balanced
    split
    · decide
    · exact balanced.append (by decide)
  exact (((start _ modifiers).append (by decide)).append (.of_plain plain)).append
    (argumentCode_balanced each)

theorem ClassDefinition.head_balanced (definition : ClassDefinition)
    (named : Text.brackets definition.name = [])
    (parent : AllPlain definition.parent.toList)
    (interfaces : AllPlain definition.interfaces) : Balanced definition.head := by
  have start : Balanced (if definition.isFinal then "final "
      else if definition.isAbstract then "abstract " else "") := by
    cases definition.isFinal <;> cases definition.isAbstract <;> decide
  exact (((start.append (by decide)).append (.of_plain named)).append
    (namesCode_balanced (by decide) parent)).append
      (namesCode_balanced (by decide) interfaces)

theorem InterfaceDefinition.head_balanced (definition : InterfaceDefinition)
    (named : Text.brackets definition.name = []) (parents : AllPlain definition.parents) :
    Balanced definition.head := by
  have word : Balanced "interface " := by decide
  exact (word.append (.of_plain named)).append (namesCode_balanced (by decide) parents)

theorem Import.code_balanced (imported : Import) (plain : AllPlain imported.texts) :
    Balanced imported.code := by
  rcases imported with ⟨name, shortName⟩
  rcases AllPlain.cons_iff.mp plain with ⟨ofName, ofShort⟩
  have word : Balanced "use " := by decide
  have named := word.append (.of_plain ofName)
  cases shortName with
  | none => exact named.append (by decide)
  | some short =>
      have known := (AllPlain.singleton_iff short).mp ofShort
      exact ((named.append (by decide)).append (.of_plain known)).append (by decide)

end ZephirPhp
