import Mathlib.Data.List.TakeWhile
import ZephirPhp.Proofs.Text.Tokens
import ZephirPhp.Proofs.Sequencing
import ZephirPhp.Emission.Body

/-! # Signs that fuse

A unary sign is written right before its operand. If the operand begins with the same
sign, the two are read as one token that counts up or down. No other operators fuse.
-/

namespace ZephirPhp

open scoped Text

/-! ## Formulas -/

/-- The operators whose code is a mark right before the operand, and parentheses around
it. -/
def UnaryOperator.marks : List UnaryOperator :=
  [.not, .bitwiseNot, .minus, .plus, .list]

/-- An expression of variables, integers and operators. -/
inductive Expr.IsFormula : Expr → Prop
  | variableNamed {name : String} (location : Location)
      (named : Text.isName name.toList = true) :
      IsFormula (.atom location (.variable name))
  | int {text : String} (location : Location) (nonempty : text ≠ "")
      (digits : ∀ character ∈ text.toList, character.isDigit = true) :
      IsFormula (.atom location (.int text))
  | unary {operator : UnaryOperator} {operand : Expr} (location : Location)
      (mark : operator ∈ UnaryOperator.marks) (formula : IsFormula operand) :
      IsFormula (.unary location operator operand)
  | binary {left right : Expr} (location : Location) (operator : BinaryOperator)
      (first : IsFormula left) (second : IsFormula right) :
      IsFormula (.binary location operator left right)

/-- The tokens of an operator around those of its operand. -/
def UnaryOperator.tokens (operator : UnaryOperator) (operand : List String) :
    List String :=
  match operator with
  | .not => "!" :: operand
  | .bitwiseNot => "~" :: operand
  | .minus => "-" :: operand
  | .plus => "+" :: operand
  | .list => "(" :: operand ++ [")"]
  | _ => operand

/-- The tokens of the operators, parentheses and operands of a formula. -/
def Expr.tokens : Expr → List String
  | .atom _ leaf => [leaf.code]
  | .unary _ operator operand => operator.tokens operand.tokens
  | .binary _ operator left right => left.tokens ++ operator.symbol :: right.tokens
  | _ => []

/-- The sign of an operator that has one. -/
def UnaryOperator.sign? : UnaryOperator → Option Char
  | .minus => some '-'
  | .plus => some '+'
  | _ => none

/-- No sign stands right before the same sign. -/
def Expr.Apart : Expr → Prop
  | .unary _ operator operand =>
    operand.Apart ∧ ∀ sign ∈ operator.sign?,
      operand.tokens.head? ≠ some (String.ofList [sign])
  | .binary _ _ left right => left.Apart ∧ right.Apart
  | _ => True

/-! ## What is read -/

/-- The tokens that are read if a sign touches the code of `tokens`: from a row of equal
signs pairs are taken first. -/
def touch (sign : Char) : List String → List String
  | [] => [String.ofList [sign]]
  | token :: rest =>
    if token = String.ofList [sign, sign] then token :: touch sign rest
    else if token = String.ofList [sign] then String.ofList [sign, sign] :: rest
    else String.ofList [sign] :: token :: rest

/-- The tokens that are read from the code of a formula and from what comes after it. -/
def Expr.readTokens : Expr → List String → List String
  | .atom _ leaf, after => leaf.code :: after
  | .unary _ .not operand, after => "!" :: operand.readTokens after
  | .unary _ .bitwiseNot operand, after => "~" :: operand.readTokens after
  | .unary _ .minus operand, after => touch '-' (operand.readTokens after)
  | .unary _ .plus operand, after => touch '+' (operand.readTokens after)
  | .unary _ .list operand, after => "(" :: operand.readTokens (")" :: after)
  | .binary _ operator left right, after =>
    left.readTokens (operator.symbol :: right.readTokens after)
  | _, after => after

namespace Text

/-! ## Marks before operands -/

def operandStarts : List Char :=
  ['$', '0', '1', '2', '3', '4', '5', '6', '7', '8', '9']

/-- What can stand before an operand without a blank. -/
def markChars : List Char :=
  ['(', '!', '~', '+', '-']

/-- The text begins with an operand, after any number of marks. -/
def opens : List Char → Bool
  | [] => false
  | first :: rest =>
    operandStarts.contains first || (markChars.contains first && opens rest)

theorem opens_cons_iff (first : Char) (rest : List Char) :
    opens (first :: rest) = true ↔
      first ∈ operandStarts ∨ (first ∈ markChars ∧ opens rest = true) := by
  simp only [opens, Bool.or_eq_true, Bool.and_eq_true, List.contains_iff_mem]

theorem opens_append {text : List Char} (opening : opens text = true) (rest : List Char) :
    opens (text ++ rest) = true := by
  induction text with
  | nil => cases opening
  | cons first others induction =>
      rw [List.cons_append, opens_cons_iff] at *
      exact opening.imp_right fun ⟨mark, later⟩ => ⟨mark, induction later⟩

/-- What every character has that can open a text, the first character of an opened text
has. -/
theorem opens_head (holds : Char → Bool)
    (each : ∀ character ∈ operandStarts ++ markChars, holds character = true)
    {first : Char} {rest : List Char} (opening : opens (first :: rest) = true) :
    holds first = true := by
  rw [opens_cons_iff] at opening
  rcases opening with operand | ⟨mark, _⟩
  · exact each first (List.mem_append_left _ operand)
  · exact each first (List.mem_append_right _ mark)

/-- A token of two characters or more that begins with a mark other than a parenthesis. -/
theorem isToken_mark {mark next : Char} {more : List Char}
    (member : mark ∈ ['!', '~', '+', '-'])
    (token : isToken (mark :: next :: more) = true) :
    next = '>' ∨ next = '=' ∨ (mark = next ∧ more = [] ∧ mark ∈ ['+', '-']) := by
  have plain : ∀ mark ∈ ['!', '~', '+', '-'], (isNameStart mark = false ∧ mark ≠ '\\') ∧
      mark ≠ '$' ∧ (mark.isDigit = false ∧ mark ≠ '.') ∧ mark ≠ '(' := by
    decide
  have longer : ∀ symbol ∈ symbols, ∀ mark ∈ ['!', '~', '+', '-'],
      ∀ next ∈ symbol.toList[1]?,
      symbol.toList.head? = some mark →
        next = '>' ∨ next = '=' ∨ (symbol.toList = [mark, mark] ∧ mark ∈ ['+', '-']) := by
    decide
  rcases plain mark member with ⟨noWord, noVariable, noNumber, noParen⟩
  have noCast : isCast (mark :: next :: more) = false := by
    by_contra cast
    rw [Bool.not_eq_false] at cast
    exact noParen (Option.some.inj (isCast_head cast))
  have symbol := isSymbol_of_isToken noWord noVariable noNumber noCast token
  rw [isSymbol, List.contains_iff_mem] at symbol
  have found := longer _ symbol mark member next
  rw [String.toList_ofList] at found
  simpa [eq_comm, and_assoc] using found rfl rfl

theorem mark_isToken {mark : Char} (member : mark ∈ ['!', '~', '+', '-']) :
    Visible [mark] ∧ isToken [mark] = true := by
  have each : ∀ mark ∈ ['!', '~', '+', '-'], isGap mark = false ∧
      isToken [mark] = true := by
    decide
  exact ⟨⟨mark, rfl, (each mark member).1⟩, (each mark member).2⟩

/-- No operator goes on with the first character of an operand. -/
theorem opens_ne {first : Char} {rest : List Char}
    (opening : opens (first :: rest) = true) :
    first ≠ '>' ∧ first ≠ '=' := by
  have each := opens_head (fun first => first != '>' && first != '=') (by decide) opening
  simpa using each

theorem tokensOfChars_mark {mark next : Char} {rest : List Char}
    (member : mark ∈ ['!', '~', '+', '-']) (opening : opens (next :: rest) = true)
    (apart : mark = next → mark ∉ ['+', '-']) :
    tokensOfChars (mark :: next :: rest) =
      (tokensOfChars (next :: rest)).map (String.ofList [mark] :: ·) := by
  rcases mark_isToken member with ⟨visible, whole⟩
  refine tokensOfChars_before visible whole (fun more => ?_) rest
  by_contra longer
  rw [Bool.not_eq_false] at longer
  rcases isToken_mark member longer with arrow | equals | ⟨same, _, sign⟩
  · exact (opens_ne opening).1 arrow
  · exact (opens_ne opening).2 equals
  · exact apart same sign

theorem tokensOfChars_double {sign : Char} {rest : List Char} (member : sign ∈ ['+', '-'])
    (opening : opens rest = true) :
    tokensOfChars (sign :: sign :: rest) =
      (tokensOfChars rest).map (String.ofList [sign, sign] :: ·) := by
  have each : ∀ sign ∈ ['+', '-'], isGap sign = false ∧ isToken [sign, sign] = true ∧
      sign ∈ ['!', '~', '+', '-'] ∧ sign ≠ '>' ∧ sign ≠ '=' := by
    decide
  rcases each sign member with ⟨noGap, whole, mark, noArrow, noEquals⟩
  cases rest with
  | nil => cases opening
  | cons next rest =>
      refine tokensOfChars_before ⟨sign, rfl, noGap⟩ whole (fun more => ?_) rest
      by_contra longer
      rw [Bool.not_eq_false] at longer
      rcases isToken_mark mark longer with arrow | equals | ⟨_, short, _⟩
      · exact noArrow arrow
      · exact noEquals equals
      · cases short

theorem touch_double (sign : Char) (rest : List String) :
    touch sign (String.ofList [sign, sign] :: rest) =
      String.ofList [sign, sign] :: touch sign rest := by
  rw [touch, if_pos rfl]

theorem touch_single (sign : Char) (rest : List String) :
    touch sign (String.ofList [sign] :: rest) = String.ofList [sign, sign] :: rest := by
  rw [touch, if_neg, if_pos rfl]
  intro equal
  cases String.ofList_injective equal

theorem touch_of_ne {sign : Char} {token : String} (single : token ≠ String.ofList [sign])
    (double : token ≠ String.ofList [sign, sign]) (rest : List String) :
    touch sign (token :: rest) = String.ofList [sign] :: token :: rest := by
  rw [touch, if_neg double, if_neg single]

theorem touch_of_head {sign : Char} {token : String}
    (other : token.toList.head? ≠ some sign) (rest : List String) :
    touch sign (token :: rest) = String.ofList [sign] :: token :: rest := by
  apply touch_of_ne
  · rintro rfl
    exact other (by rw [String.toList_ofList, List.head?_cons])
  · rintro rfl
    exact other (by rw [String.toList_ofList, List.head?_cons])

theorem opens_sign {sign : Char} {rest : List Char} (member : sign ∈ ['+', '-'])
    (opening : opens (sign :: rest) = true) : opens rest = true := by
  have noOperand : ∀ sign ∈ ['+', '-'], sign ∉ operandStarts := by decide
  rcases (opens_cons_iff sign rest).mp opening with operand | ⟨_, later⟩
  · exact absurd operand (noOperand sign member)
  · exact later

theorem sign_isMark {sign : Char} (member : sign ∈ ['+', '-']) :
    sign ∈ ['!', '~', '+', '-'] := by
  simp only [List.mem_cons, List.not_mem_nil, or_false] at member ⊢
  exact .inr (.inr member)

/-- The first of several equal signs takes the second one. -/
theorem tokensOfChars_touch {sign : Char} (member : sign ∈ ['+', '-']) (text : List Char)
    (opening : opens text = true) :
    tokensOfChars (sign :: text) = (tokensOfChars text).map (touch sign) := by
  cases text with
  | nil => cases opening
  | cons first rest =>
      by_cases same : sign = first
      · subst same
        have later := opens_sign member opening
        cases rest with
        | nil => cases later
        | cons next others =>
            rw [tokensOfChars_double member later]
            by_cases again : sign = next
            · subst again
              have last := opens_sign member later
              rw [tokensOfChars_double member last,
                tokensOfChars_touch member others last,
                Option.map_map, Option.map_map]
              exact congrArg (Option.map · _)
                (funext fun found => (touch_double sign found).symm)
            · rw [tokensOfChars_mark (sign_isMark member) later
                fun equal => absurd equal again, Option.map_map]
              exact congrArg (Option.map · _)
                (funext fun found => (touch_single sign found).symm)
      · rw [tokensOfChars_mark (sign_isMark member) opening fun equal =>
          absurd equal same]
        cases split : tokensOfChars (first :: rest) with
        | none => rfl
        | some found =>
            have noGap := opens_head (fun first => !isGap first) (by decide) opening
            rcases tokensOfChars_head (by simpa using noGap) split with
              ⟨token, head, starts⟩
            rcases List.head?_eq_some_iff.mp head with ⟨others, rfl⟩
            rw [Option.map_some, Option.map_some, touch_of_head]
            rw [starts]
            exact fun equal => same (Option.some.inj equal).symm
termination_by text.length

/-! ## Operands and parentheses -/

theorem isDigits_of_forall {text : List Char} (nonempty : text ≠ [])
    (digits : ∀ character ∈ text, character.isDigit = true) :
    isDigits Char.isDigit text = true := by
  fun_induction isDigits Char.isDigit text with
  | case1 => exact absurd rfl nonempty
  | case2 digit => exact digits digit List.mem_cons_self
  | case3 digit rest _ => cases digits '_' (by simp)
  | case4 digit rest longer _ induction =>
      rw [Bool.and_eq_true]
      exact ⟨digits digit List.mem_cons_self,
        induction longer fun other member =>
          digits other (List.mem_cons_of_mem digit member)⟩

theorem isNumber_of_isScientific {text : List Char} (number : isScientific text = true) :
    isNumber text = true := by
  rw [isNumber.eq_def]
  split
  · rw [number, Bool.true_or]
  · exact number

theorem isNumber_of_forall {text : List Char} (nonempty : text ≠ [])
    (digits : ∀ character ∈ text, character.isDigit = true) : isNumber text = true := by
  have noPoint : ∀ character : Char, character.isDigit = true →
      (character != '.') = true :=
    forall_isDigit (by decide)
  have noExponent : ∀ character : Char,
      character.isDigit = true → (character.toLower != 'e') = true :=
    forall_isDigit (by decide)
  have decimal : isDecimal text = true := by
    rw [isDecimal, List.takeWhile_eq_self_iff.mpr fun digit member =>
        noPoint digit (digits digit member),
          List.dropWhile_eq_nil_iff.mpr fun digit member =>
        noPoint digit (digits digit member)]
    exact isDigits_of_forall nonempty digits
  apply isNumber_of_isScientific
  rw [isScientific, List.takeWhile_eq_self_iff.mpr fun digit member =>
      noExponent digit (digits digit member),
        List.dropWhile_eq_nil_iff.mpr fun digit member =>
      noExponent digit (digits digit member), decimal]
  rfl

theorem isAlpha_of_toLower {character : Char}
    (letter : character.toLower.isAlpha = true) :
    character.isAlpha = true := by
  by_cases upper : character.val ≥ 'A'.val ∧ character.val ≤ 'Z'.val
  · have isUpper : character.isUpper = true := decide_eq_true upper
    change (character.isUpper || character.isLower) = true
    rw [isUpper, Bool.true_or]
  · have same : character.toLower = character := dif_neg upper
    rwa [same] at letter

/-- What follows a parenthesis makes it a cast only if it is a blank or a letter. -/
theorem isCast_next {next : Char} {more : List Char}
    (cast : isCast ('(' :: next :: more) = true) :
    isPadding next = true ∨ next.isAlpha = true := by
  by_cases padding : isPadding next = true
  · exact .inl padding
  · right
    have letters : ∀ type ∈ castTypes, ∃ first ∈ type.toList.head?,
        first.isAlpha = true := by
      decide
    rw [isCast, List.dropWhile_cons_of_neg padding] at cast
    simp only [Bool.and_eq_true, List.contains_iff_mem] at cast
    have leads : (((next :: more).reverse.tail.dropWhile isPadding).reverse) <+:
        next :: more := by
      rw [← List.reverse_suffix, List.reverse_reverse]
      exact (List.dropWhile_suffix _).trans (List.tail_suffix _)
    rcases letters _ cast.2 with ⟨first, head, letter⟩
    rw [String.toList_ofList, List.head?_map, Option.mem_map] at head
    rcases head with ⟨original, head, rfl⟩
    rcases leads with ⟨others, whole⟩
    have first : (next :: more).head? = some original := by
      rw [← whole, List.head?_append, Option.mem_def.mp head, Option.some_or]
    cases first
    exact isAlpha_of_toLower letter

theorem tokensOfChars_paren {next : Char} {rest : List Char}
    (opening : opens (next :: rest) = true) :
    tokensOfChars ('(' :: next :: rest) =
      (tokensOfChars (next :: rest)).map ("(" :: ·) := by
  have alone : ∀ symbol ∈ symbols, symbol.toList.head? = some '(' → symbol = "(" := by
    decide
  have plain :=
    opens_head (fun next => !isPadding next && !next.isAlpha) (by decide) opening
  simp only [Bool.and_eq_true, Bool.not_eq_true'] at plain
  have visible : Visible ['('] := ⟨'(', rfl, rfl⟩
  have whole : isToken ['('] = true := by decide
  refine tokensOfChars_before visible whole (fun more => ?_) rest
  by_contra longer
  rw [Bool.not_eq_false] at longer
  have noCast : isCast ('(' :: next :: more) = false := by
    by_contra cast
    rw [Bool.not_eq_false] at cast
    rcases isCast_next cast with padding | letter
    · simp [plain.1] at padding
    · simp [plain.2] at letter
  have symbol := isSymbol_of_isToken (by decide) (by decide) (by decide) noCast longer
  rw [isSymbol, List.contains_iff_mem] at symbol
  have found :=
    congrArg String.toList (alone _ symbol (by rw [String.toList_ofList]; rfl))
  rw [String.toList_ofList] at found
  cases found

theorem tokensOfChars_close (rest : List Char) :
    tokensOfChars (')' :: rest) = (tokensOfChars rest).map (")" :: ·) := by
  have visible : Visible [')'] := ⟨')', rfl, rfl⟩
  have whole : isToken [')'] = true := by decide
  refine tokensOfChars_token visible whole fun more some _ => ?_
  by_contra longer
  rw [Bool.not_eq_false] at longer
  rcases isToken_break longer List.mem_cons_self rfl with alone | paren
  · exact some (List.cons.inj alone).2
  · cases paren

theorem symbol_isToken (operator : BinaryOperator) :
    Visible operator.symbol.toList ∧ isToken operator.symbol.toList = true ∧
      operator.symbol.toList.head? ≠ some '(' := by
  cases operator <;> exact ⟨⟨_, rfl, rfl⟩, by decide, by decide⟩

/-! ## Texts of formulas -/

/-- A text is read as `read` says, whatever comes after it. -/
structure Reads (text : List Char) (read : List String → List String) : Prop where
  opening : opens text = true
  splits : ∀ {rest after}, Ends rest → tokensOfChars rest = some after →
    tokensOfChars (text ++ rest) = some (read after)

theorem Reads.tokens_eq {text : String} {read : List String → List String}
    (reads : Reads text.toList read) : tokens text = some (read []) := by
  have ends : Ends [] := fun next impossible => by cases impossible
  have nothing : tokensOfChars [] = some [] := by rw [tokensOfChars]
  have split := reads.splits ends nothing
  rwa [List.append_nil] at split

theorem Reads.operand {first : Char} {token : List Char} (start : first ∈ operandStarts)
    (whole : isToken (first :: token) = true) :
    Reads (first :: token) (String.ofList (first :: token) :: ·) where
  opening := (opens_cons_iff first token).mpr (.inl start)
  splits := by
    intro rest after ends split
    have plain : ∀ first ∈ operandStarts, isGap first = false ∧ first ≠ '(' := by decide
    rcases plain first start with ⟨noGap, noParen⟩
    rw [tokensOfChars_operand ⟨first, rfl, noGap⟩ whole (by simpa using noParen) ends,
      split,
      Option.map_some]

theorem Reads.variableNamed {name : List Char} (named : isName name = true) :
    Reads ('$' :: name) (String.ofList ('$' :: name) :: ·) :=
  .operand (by decide) (by simp [isToken, isVariable, named])

theorem Reads.int {text : List Char} (nonempty : text ≠ [])
    (digits : ∀ character ∈ text, character.isDigit = true) :
    Reads text (String.ofList text :: ·) := by
  have starts : ∀ digit : Char, digit.isDigit = true →
      operandStarts.contains digit = true :=
    forall_isDigit (by decide)
  have whole : isToken text = true := by
    simp [isToken, isNumber_of_forall nonempty digits]
  cases text with
  | nil => exact absurd rfl nonempty
  | cons first rest =>
      have start := starts first (digits first List.mem_cons_self)
      exact .operand (List.contains_iff_mem.mp start) whole

section

variable {text : List Char} {read : List String → List String}

theorem Reads.mark {mark : Char} (member : mark ∈ ['!', '~']) (reads : Reads text read) :
    Reads (mark :: text) fun after => String.ofList [mark] :: read after where
  opening := by
    have marks : ∀ mark ∈ ['!', '~'], mark ∈ markChars := by decide
    exact (opens_cons_iff mark text).mpr (.inr ⟨marks mark member, reads.opening⟩)
  splits := by
    intro rest after ends split
    have marks : ∀ mark ∈ ['!', '~'], mark ∈ ['!', '~', '+', '-'] ∧
        mark ∉ ['+', '-'] := by decide
    rcases marks mark member with ⟨known, noSign⟩
    have opening := opens_append reads.opening rest
    have splits := reads.splits ends split
    rw [List.cons_append]
    cases whole : text ++ rest with
    | nil =>
        rw [whole] at opening
        cases opening
    | cons next others =>
        rw [whole] at opening splits
        rw [tokensOfChars_mark known opening fun _ => noSign, splits, Option.map_some]

theorem Reads.sign {sign : Char} (member : sign ∈ ['+', '-']) (reads : Reads text read) :
    Reads (sign :: text) fun after => touch sign (read after) where
  opening := by
    have marks : ∀ sign ∈ ['+', '-'], sign ∈ markChars := by decide
    exact (opens_cons_iff sign text).mpr (.inr ⟨marks sign member, reads.opening⟩)
  splits := by
    intro rest after ends split
    rw [List.cons_append, tokensOfChars_touch member _ (opens_append reads.opening rest),
      reads.splits ends split, Option.map_some]

theorem Reads.parens (reads : Reads text read) :
    Reads ('(' :: text ++ [')']) fun after => "(" :: read (")" :: after) where
  opening :=
    (opens_cons_iff '(' _).mpr (.inr ⟨by decide, opens_append reads.opening [')']⟩)
  splits := by
    intro rest after ends split
    have closing : tokensOfChars (')' :: rest) = some (")" :: after) := by
      rw [tokensOfChars_close, split, Option.map_some]
    have opening := opens_append reads.opening (')' :: rest)
    have splits := reads.splits (fun next head => by cases head; rfl) closing
    rw [List.cons_append, List.cons_append, List.append_assoc, List.singleton_append]
    cases whole : text ++ ')' :: rest with
    | nil =>
        rw [whole] at opening
        cases opening
    | cons next others =>
        rw [whole] at opening splits
        rw [tokensOfChars_paren opening, splits, Option.map_some]

theorem Reads.binary {other : List Char} {readOther : List String → List String}
    (operator : BinaryOperator) (reads : Reads text read)
    (readsOther : Reads other readOther) :
    Reads (text ++ ' ' :: operator.symbol.toList ++ ' ' :: other)
      fun after => read (operator.symbol :: readOther after) where
  opening := by
    rw [List.append_assoc]
    exact opens_append reads.opening _
  splits := by
    intro rest after ends split
    rcases symbol_isToken operator with ⟨visible, whole, noParen⟩
    have blank (others : List Char) : Ends (' ' :: others) := fun next head => by
      cases head
      rfl
    have last : tokensOfChars (' ' :: (other ++ rest)) = some (readOther after) := by
      rw [tokensOfChars_gap rfl, readsOther.splits ends split]
    have later : tokensOfChars
        (' ' :: (operator.symbol.toList ++ ' ' :: (other ++ rest))) =
        some (operator.symbol :: readOther after) := by
      rw [tokensOfChars_gap rfl,
        tokensOfChars_operand visible whole noParen (blank _), last,
        Option.map_some, String.ofList_toList]
    simpa using reads.splits (blank _) later

end

end Text

theorem UnaryOperator.code_reads {operator : UnaryOperator} (mark : operator ∈ marks)
    (location : Location) {operand : Expr} {text : String}
    (reads : Text.Reads text.toList operand.readTokens) :
    Text.Reads (operator.code text).toList
      (Expr.unary location operator operand).readTokens := by
  simp only [marks, List.mem_cons, List.not_mem_nil, or_false] at mark
  rcases mark with rfl | rfl | rfl | rfl | rfl
  · change Text.Reads ("!" ++ text).toList _
    rw [String.toList_append]
    exact reads.mark (by decide)
  · change Text.Reads ("~" ++ text).toList _
    rw [String.toList_append]
    exact reads.mark (by decide)
  · change Text.Reads ("-" ++ text).toList _
    rw [String.toList_append]
    exact reads.sign (by decide)
  · change Text.Reads ("+" ++ text).toList _
    rw [String.toList_append]
    exact reads.sign (by decide)
  · change Text.Reads ("(" ++ text ++ ")").toList _
    rw [String.toList_append, String.toList_append]
    exact reads.parens

theorem renderExpr_mark (setting : Setting) {operator : UnaryOperator}
    (mark : operator ∈ UnaryOperator.marks) (location : Location) (operand : Expr) :
    renderExpr setting (.unary location operator operand) =
      (do return operator.code (← renderExpr setting operand)) := by
  simp only [UnaryOperator.marks, List.mem_cons, List.not_mem_nil, or_false] at mark
  rcases mark with rfl | rfl | rfl | rfl | rfl <;> rfl

theorem renderExpr_binary (setting : Setting) (location : Location)
    (operator : BinaryOperator) (left right : Expr) :
    renderExpr setting (.binary location operator left right) = (do
      let left ← renderExpr setting left
      return left ++ " " ++ operator.symbol ++ " " ++ (← renderExpr setting right)) :=
  rfl

/-- A formula is rendered, and its code is read as tokens. -/
theorem renderExpr_formula (setting : Setting) {expression : Expr}
    (formula : expression.IsFormula) (emitter : Emitter) :
    ∃ text, renderExpr setting expression emitter = .ok text emitter ∧
      Text.Reads text.toList expression.readTokens := by
  induction formula with
  | @variableNamed name location named =>
      refine ⟨"$" ++ name, rfl, ?_⟩
      have reads := Text.Reads.variableNamed named
      have spelled : '$' :: name.toList = ("$" ++ name).toList := by
        rw [String.toList_append]; rfl
      rw [spelled, String.ofList_toList] at reads
      exact reads
  | int location nonempty digits =>
      refine ⟨_, rfl, ?_⟩
      have reads := Text.Reads.int (by simpa using nonempty) digits
      rw [String.ofList_toList] at reads
      exact reads
  | unary location mark formula induction =>
      rcases induction with ⟨text, rendered, reads⟩
      refine ⟨_, ?_, UnaryOperator.code_reads mark location reads⟩
      rw [renderExpr_mark setting mark, EStateM.bind_apply, rendered]
      rfl
  | binary location operator first second left right =>
      rcases left with ⟨leftText, leftRendered, leftReads⟩
      rcases right with ⟨rightText, rightRendered, rightReads⟩
      refine ⟨leftText ++ " " ++ operator.symbol ++ " " ++ rightText, ?_, ?_⟩
      · rw [renderExpr_binary, EStateM.bind_apply, leftRendered]
        dsimp only
        rw [EStateM.bind_apply, rightRendered]
        rfl
      · have reads := leftReads.binary operator rightReads
        simp only [String.toList_append, List.append_assoc] at reads ⊢
        exact reads

/-! ## Tokens that are read and tokens that are meant -/

/-- The tokens that two signs make. -/
def doubles : List String :=
  ["++", "--"]

theorem double_mem_doubles {sign : Char} (member : sign ∈ ['+', '-']) :
    String.ofList [sign, sign] ∈ doubles := by
  revert sign
  decide

theorem single_not_mem_doubles {sign : Char} (member : sign ∈ ['+', '-']) :
    String.ofList [sign] ∉ doubles := by
  revert sign
  decide

theorem double_ne_of_head {double text : String} (member : double ∈ doubles)
    {first : Char} (start : first ∈ Text.operandStarts)
    (head : text.toList.head? = some first) :
    double ≠ text := by
  have heads : ∀ double ∈ doubles, ∀ first ∈ double.toList.head?,
      first ∉ Text.operandStarts := by
    decide
  rintro rfl
  exact heads double member first head start

/-- What the three kinds of operators put around their operands. -/
theorem UnaryOperator.tokens_cases {operator : UnaryOperator} (mark : operator ∈ marks) :
    (∃ token, token ∉ doubles ∧ operator.sign? = none ∧
      (∀ operand, operator.tokens operand = token :: operand) ∧
      ∀ location operand after, (Expr.unary location operator operand).readTokens after =
        token :: operand.readTokens after) ∨
    (∃ sign ∈ ['+', '-'], operator.sign? = some sign ∧
      (∀ operand, operator.tokens operand = String.ofList [sign] :: operand) ∧
      ∀ location operand after, (Expr.unary location operator operand).readTokens after =
        touch sign (operand.readTokens after)) ∨
    operator = .list := by
  simp only [marks, List.mem_cons, List.not_mem_nil, or_false] at mark
  rcases mark with rfl | rfl | rfl | rfl | rfl
  · exact .inl ⟨"!", by decide, rfl, fun _ => rfl, fun _ _ _ => rfl⟩
  · exact .inl ⟨"~", by decide, rfl, fun _ => rfl, fun _ _ _ => rfl⟩
  · exact .inr (.inl ⟨'-', by decide, rfl, fun _ => rfl, fun _ _ _ => rfl⟩)
  · exact .inr (.inl ⟨'+', by decide, rfl, fun _ => rfl, fun _ _ _ => rfl⟩)
  · exact .inr (.inr rfl)

theorem double_mem_touch {double : String} (member : double ∈ doubles) {sign : Char}
    (isSign : sign ∈ ['+', '-']) {found : List String} (within : double ∈ found) :
    double ∈ touch sign found := by
  induction found with
  | nil => cases within
  | cons token rest induction =>
      rw [List.mem_cons] at within
      rw [touch]
      split_ifs with pair single
      · exact List.mem_cons.mpr (within.imp_right induction)
      · rcases within with rfl | later
        · exact absurd (single ▸ member) (single_not_mem_doubles isSign)
        · exact List.mem_cons_of_mem _ later
      · exact List.mem_cons_of_mem _ (List.mem_cons.mpr within)

namespace Expr.IsFormula

variable {expression : Expr}

theorem tokens_ne_nil (formula : expression.IsFormula) : expression.tokens ≠ [] := by
  cases formula with
  | variableNamed => exact List.cons_ne_nil _ _
  | int => exact List.cons_ne_nil _ _
  | unary location mark formula =>
      rw [Expr.tokens]
      rcases UnaryOperator.tokens_cases mark with
        ⟨token, _, _, tokens, _⟩ | ⟨sign, _, _, tokens, _⟩ | rfl
      · exact tokens _ ▸ List.cons_ne_nil _ _
      · exact tokens _ ▸ List.cons_ne_nil _ _
      · exact List.cons_ne_nil _ _
  | binary => exact List.append_ne_nil_of_right_ne_nil _ (List.cons_ne_nil _ _)

/-- No operator or operand is a double sign. -/
theorem double_not_mem_tokens (formula : expression.IsFormula) {double : String}
    (member : double ∈ doubles) : double ∉ expression.tokens := by
  induction formula with
  | @variableNamed name location named =>
      rw [Expr.tokens, List.mem_singleton]
      have start : '$' ∈ Text.operandStarts := by decide
      have spelled : ("$" ++ name).toList.head? = some '$' := by
        rw [String.toList_append]; rfl
      exact double_ne_of_head member start spelled
  | @int text location nonempty digits =>
      have starts : ∀ digit : Char, digit.isDigit = true →
          Text.operandStarts.contains digit = true :=
        Text.forall_isDigit (by decide)
      rw [Expr.tokens, List.mem_singleton]
      change double ≠ text
      cases spelled : text.toList with
      | nil => exact absurd (String.toList_eq_nil_iff.mp spelled) nonempty
      | cons first rest =>
          have start := starts first (digits first (spelled ▸ List.mem_cons_self))
          exact double_ne_of_head member (List.contains_iff_mem.mp start)
            (congrArg _ spelled)
  | unary location mark formula induction =>
      rw [Expr.tokens]
      rcases UnaryOperator.tokens_cases mark with
        ⟨token, other, _, tokens, _⟩ | ⟨sign, isSign, _, tokens, _⟩ | rfl
      · rw [tokens, List.mem_cons, not_or]
        exact ⟨fun equal => other (equal ▸ member), induction⟩
      · rw [tokens, List.mem_cons, not_or]
        exact ⟨fun equal => single_not_mem_doubles isSign (equal ▸ member), induction⟩
      · have parens : "(" ∉ doubles ∧ ")" ∉ doubles := by decide
        rw [UnaryOperator.tokens, List.mem_append, List.mem_cons,
          List.mem_singleton, not_or,
          not_or]
        exact ⟨⟨fun equal => parens.1 (equal ▸ member), induction⟩,
          fun equal => parens.2 (equal ▸ member)⟩
  | binary location operator first second left right =>
      have symbols : ∀ operator : BinaryOperator, operator.symbol ∉ doubles := by
        intro operator
        cases operator <;> decide
      rw [Expr.tokens, List.mem_append, List.mem_cons, not_or, not_or]
      exact ⟨left, fun equal => symbols operator (equal ▸ member), right⟩

/-- Signs that do not touch are read as they are meant. -/
theorem readTokens_of_apart (formula : expression.IsFormula) (apart : expression.Apart)
    (after : List String) : expression.readTokens after = expression.tokens ++ after := by
  induction formula generalizing after with
  | variableNamed location named => rfl
  | int location nonempty digits => rfl
  | @unary operator operand location mark formula induction =>
      rcases apart with ⟨operandApart, signApart⟩
      rw [Expr.tokens]
      rcases UnaryOperator.tokens_cases mark with
        ⟨token, _, _, tokens, read⟩ | ⟨sign, isSign, signed, tokens, read⟩ | rfl
      · rw [read, tokens, induction operandApart, List.cons_append]
      · rw [read, tokens, induction operandApart]
        cases split : operand.tokens with
        | nil => exact absurd split formula.tokens_ne_nil
        | cons token rest =>
            have noDouble := formula.double_not_mem_tokens (double_mem_doubles isSign)
            have noSingle := signApart sign signed
            rw [split] at noDouble noSingle
            rw [List.cons_append, Text.touch_of_ne]
            · rfl
            · exact fun equal => noSingle (equal ▸ rfl)
            · exact fun equal => noDouble (equal ▸ List.mem_cons_self)
      · rw [Expr.readTokens, UnaryOperator.tokens, induction operandApart,
          List.cons_append,
          List.cons_append, List.append_assoc, List.singleton_append]
  | binary location operator first second left right =>
      rw [Expr.tokens, Expr.readTokens, left apart.1, right apart.2, List.append_assoc,
        List.cons_append]

theorem double_mem_of_after (formula : expression.IsFormula) {double : String}
    (member : double ∈ doubles) {after : List String} (later : double ∈ after) :
    double ∈ expression.readTokens after := by
  induction formula generalizing after with
  | variableNamed location named => exact List.mem_cons_of_mem _ later
  | int location nonempty digits => exact List.mem_cons_of_mem _ later
  | unary location mark formula induction =>
      rcases UnaryOperator.tokens_cases mark with
        ⟨token, _, _, _, read⟩ | ⟨sign, isSign, _, _, read⟩ | rfl
      · rw [read]
        exact List.mem_cons_of_mem _ (induction later)
      · rw [read]
        exact double_mem_touch member isSign (induction later)
      · exact List.mem_cons_of_mem _ (induction (List.mem_cons_of_mem _ later))
  | binary location operator first second left right =>
      exact left (List.mem_cons_of_mem _ (right later))

/-- Signs that touch make a double sign. -/
theorem double_mem_of_not_apart (formula : expression.IsFormula)
    (touching : ¬ expression.Apart) (after : List String) :
    ∃ double ∈ doubles, double ∈ expression.readTokens after := by
  induction formula generalizing after with
  | variableNamed location named => exact absurd trivial touching
  | int location nonempty digits => exact absurd trivial touching
  | @unary operator operand location mark formula induction =>
      by_cases operandApart : operand.Apart
      · -- The operator itself is a sign, and its operand begins with the same sign.
        have ownSign : ¬ ∀ sign ∈ operator.sign?,
            operand.tokens.head? ≠ some (String.ofList [sign]) :=
          fun signApart => touching ⟨operandApart, signApart⟩
        rcases UnaryOperator.tokens_cases mark with
          ⟨token, _, unsigned, _, _⟩ | ⟨sign, isSign, signed, _, read⟩ | rfl
        · rw [unsigned] at ownSign
          exact absurd (fun sign impossible => by cases impossible) ownSign
        · simp only [signed, Option.mem_def, Option.some.injEq, forall_eq',
            not_not] at ownSign
          rcases List.head?_eq_some_iff.mp ownSign with ⟨rest, split⟩
          refine ⟨_, double_mem_doubles isSign, ?_⟩
          rw [read, formula.readTokens_of_apart operandApart, split, List.cons_append,
            Text.touch_single]
          exact List.mem_cons_self
        · exact absurd (fun sign impossible => by cases impossible) ownSign
      · rcases UnaryOperator.tokens_cases mark with
          ⟨token, _, _, _, read⟩ | ⟨sign, isSign, _, _, read⟩ | rfl
        · rcases induction operandApart after with ⟨double, member, within⟩
          exact ⟨double, member, read _ _ _ ▸ List.mem_cons_of_mem _ within⟩
        · rcases induction operandApart after with ⟨double, member, within⟩
          exact ⟨double, member, read _ _ _ ▸ double_mem_touch member isSign within⟩
        · rcases induction operandApart (")" :: after) with ⟨double, member, within⟩
          exact ⟨double, member, List.mem_cons_of_mem _ within⟩
  | @binary left right location operator first second inLeft inRight =>
      by_cases leftApart : left.Apart
      · have rightTouching : ¬ right.Apart := fun apart => touching ⟨leftApart, apart⟩
        rcases inRight rightTouching after with ⟨double, member, within⟩
        exact ⟨double, member,
          first.double_mem_of_after member (List.mem_cons_of_mem _ within)⟩
      · exact inLeft leftApart _

end Expr.IsFormula

/-- The code of a formula can be split into tokens. They are those of its operators,
parentheses and operands exactly if no sign touches the same sign; otherwise there is a
double sign. -/
theorem formula_tokens (setting : Setting) {expression : Expr}
    (formula : expression.IsFormula) (emitter : Emitter) :
    ∃ text found, renderExpr setting expression emitter = .ok text emitter ∧
      Text.tokens text = some found ∧ (found = expression.tokens ↔ expression.Apart) ∧
      (("++" ∈ found ∨ "--" ∈ found) ↔ ¬ expression.Apart) := by
  rcases renderExpr_formula setting formula emitter with ⟨text, rendered, reads⟩
  have meant (apart : expression.Apart) : expression.readTokens [] =
      expression.tokens := by
    rw [formula.readTokens_of_apart apart, List.append_nil]
  have doubled : (∃ double ∈ doubles, double ∈ expression.readTokens []) ↔
      ¬ expression.Apart := by
    constructor
    · rintro ⟨double, member, within⟩ apart
      exact formula.double_not_mem_tokens member (meant apart ▸ within)
    · exact fun touching => formula.double_mem_of_not_apart touching []
  refine ⟨text, _, rendered, reads.tokens_eq, ⟨fun equal => ?_, meant⟩, ?_⟩
  · by_contra touching
    rcases doubled.mpr touching with ⟨double, member, within⟩
    exact formula.double_not_mem_tokens member (equal ▸ within)
  · simpa [doubles] using doubled

/-- `-+-$a - -(-1)` -/
def signed : Expr :=
  .binary .unknown .sub
    (.unary .unknown .minus (.unary .unknown .plus (.unary .unknown .minus
      (.atom .unknown (.variable "a")))))
    (.unary .unknown .minus (.unary .unknown .list (.unary .unknown .minus
      (.atom .unknown (.int "1")))))

theorem formula_tokens_of_signed :
    signed.IsFormula ∧ signed.Apart ∧ ∃ text, renderExpr {} signed {} = .ok text {} ∧
      Text.tokens text = some ["-", "+", "-", "$a", "-", "-", "(", "-", "1", ")"] := by
  have formula : signed.IsFormula :=
    .binary _ _
      (.unary _ (by decide) (.unary _ (by decide) (.unary _ (by decide)
        (.variableNamed _ (by decide)))))
      (.unary _ (by decide) (.unary _ (by decide) (.unary _ (by decide)
        (.int _ (by decide) (by decide)))))
  have apart : signed.Apart := by
    simp [signed, Expr.Apart, Expr.tokens, UnaryOperator.tokens,
      UnaryOperator.sign?, Atom.code]
  rcases formula_tokens {} formula {} with ⟨text, found, rendered, split, meant, _⟩
  refine ⟨formula, apart, text, rendered, ?_⟩
  rw [split, meant.mpr apart]
  rfl

/-- Two signs that belong to two operators are read as one that counts down. -/
theorem minus_fuses :
    let negated : Expr :=
      .unary .unknown .minus (.unary .unknown .minus (.atom .unknown (.variable "a")))
    negated.IsFormula ∧ renderExpr {} negated {} = .ok "--$a" {} ∧
      Text.tokens "--$a" = some ["--", "$a"] ∧ negated.tokens = ["-", "-", "$a"] := by
  have named : Text.isName ['a'] = true := by decide
  have reads : Text.Reads "--$a".toList _ :=
    ((Text.Reads.variableNamed named).sign (by decide)).sign (by decide)
  have formula : Expr.IsFormula (.unary .unknown .minus (.unary .unknown .minus
      (.atom .unknown (.variable "a")))) :=
    .unary _ (by decide) (.unary _ (by decide) (.variableNamed _ (by decide)))
  exact ⟨formula, rfl, reads.tokens_eq, rfl⟩

end ZephirPhp
