import Mathlib.Data.Nat.Find
import Mathlib.Data.List.Basic
import ZephirPhp.Proofs.Text.Numerals

/-! # Tokens of PHP code

Code is split into tokens by longest match: a token goes on as long as there is a longer
one, and blanks stand between tokens only. Two signs that touch are therefore one token,
if there is such a token, whatever they were meant to be.
-/

namespace ZephirPhp.Text

/-! ## Checks of characters

A check of the characters of a text goes through the text, not through all characters.
-/

scoped instance (priority := 2000) decidableForallMem (text : List Char)
  (holds : Char → Prop)
    [DecidablePred holds] : Decidable (∀ character ∈ text, holds character) :=
  List.decidableBAll holds text

scoped instance (priority := 2000) decidableForallHead (found : Option Char)
    (holds : Char → Prop) [DecidablePred holds] :
    Decidable (∀ character ∈ found, holds character) :=
  Option.decidableForallMem found

scoped instance (priority := 2000) decidableExistsHead (found : Option Char)
    (holds : Char → Prop) [DecidablePred holds] :
    Decidable (∃ character ∈ found, holds character) :=
  Option.decidableExistsMem found

/-! ## Names -/

def isNameStart (character : Char) : Bool :=
  character.isAlpha || character == '_' || 0x80 ≤ character.toNat

def isNameChar (character : Char) : Bool :=
  isNameStart character || character.isDigit

/-- A name without a namespace. -/
def isName : List Char → Bool
  | [] => false
  | first :: rest => isNameStart first && rest.all isNameChar

/-- A keyword, or a name that may have a namespace. -/
def isWord (text : List Char) : Bool :=
  ((if text.head? = some '\\' then text.tail else text).splitOn '\\').all isName

def isVariable : List Char → Bool
  | '$' :: name => isName name
  | _ => false

/-! ## Numbers -/

/-- Digits, with single underscores between them. -/
def isDigits (isDigit : Char → Bool) : List Char → Bool
  | [] => false
  | [digit] => isDigit digit
  | digit :: '_' :: rest => isDigit digit && isDigits isDigit rest
  | digit :: rest => isDigit digit && isDigits isDigit rest

def isHexDigit (character : Char) : Bool :=
  character.isDigit || ('a' ≤ character && character ≤ 'f') ||
    ('A' ≤ character && character ≤ 'F')

/-- Digits that may have a point before, after or between them. -/
def isDecimal (text : List Char) : Bool :=
  let whole := text.takeWhile (· != '.')
  match text.dropWhile (· != '.') with
  | [] => isDigits Char.isDigit whole
  | _ :: fraction =>
    (isDigits Char.isDigit whole || whole.isEmpty) &&
      (isDigits Char.isDigit fraction || fraction.isEmpty) &&
      !(whole.isEmpty && fraction.isEmpty)

def isSign (character : Char) : Bool :=
  character == '+' || character == '-'

/-- A decimal number with an exponent, or without one. -/
def isScientific (text : List Char) : Bool :=
  isDecimal (text.takeWhile fun character => character.toLower != 'e') &&
    match text.dropWhile fun character => character.toLower != 'e' with
    | [] => true
    | _ :: [] => false
    | _ :: sign :: rest =>
      isDigits Char.isDigit (if isSign sign then rest else sign :: rest)

/-- The bases that a number can name after a zero, with their digits. -/
def bases : List (Char × (Char → Bool)) :=
  [('x', isHexDigit), ('o', fun digit => '0' ≤ digit && digit ≤ '7'),
    ('b', fun digit => digit == '0' || digit == '1')]

def isNumber : List Char → Bool
  | '0' :: mark :: rest =>
    isScientific ('0' :: mark :: rest) ||
      bases.any fun base => mark.toLower == base.1 && isDigits base.2 rest
  | text => isScientific text

/-! ## Casts and symbols -/

def castTypes : List String :=
  ["int", "integer", "bool", "boolean", "float", "double", "real", "string",
    "binary", "array",
    "object", "unset", "void"]

def isPadding (character : Char) : Bool :=
  character == ' ' || character == '\t'

/-- A type in parentheses, with spaces and tabs around it. -/
def isCast : List Char → Bool
  | '(' :: rest =>
    let padded := (rest.dropWhile isPadding).reverse
    let type := (padded.tail.dropWhile isPadding).reverse
    padded.head? == some ')' && castTypes.contains (String.ofList (type.map Char.toLower))
  | _ => false

/-- The operators and other marks of PHP, with those that open a comment or a quoted
text. -/
def symbols : List String :=
  ["(", ")", "[", "]", "\x7b", "\x7d", ",", ";", ":", "::", "?", "->", "?->", "=>",
    "@", "$", "\\",
    "...", "+", "-", "*", "/", "%", "**", "++", "--", ".", "=", "+=", "-=", "*=", "/=",
      "%=", "**=",
    ".=", "&=", "|=", "^=", "<<=", ">>=", "??=", "==", "===", "!=", "!==", "<>",
      "<", ">", "<=",
    ">=", "<=>", "&&", "||", "!", "??", "&", "|", "^", "~", "<<", ">>", "|>",
    "//", "/*", "#", "#[", "<<<", "?>", "\"", "'", "`"]

def isSymbol (text : List Char) : Bool :=
  symbols.contains (String.ofList text)

def isToken (text : List Char) : Bool :=
  isWord text || isVariable text || isNumber text || isCast text || isSymbol text

/-! ## Splitting -/

def isGap (character : Char) : Bool :=
  character == ' ' || character == '\t' || character == '\n' || character == '\r'

/-- The length of the longest token that a text begins with; zero if there is none. -/
def tokenLength (text : List Char) : Nat :=
  Nat.findGreatest (fun length => isToken (text.take length)) text.length

def tokensOfChars : List Char → Option (List String)
  | [] => some []
  | character :: rest =>
    if isGap character then tokensOfChars rest
    else
      match tokenLength (character :: rest) with
      | 0 => none
      | more + 1 =>
        (tokensOfChars (rest.drop more)).map
          (String.ofList (character :: rest.take more) :: ·)
termination_by text => text.length

/-- The tokens of some code, if all of it can be split. -/
def tokens (code : String) : Option (List String) :=
  tokensOfChars code.toList

/-! ## Where tokens end -/

/-- A character that can follow an operand. -/
def isBreak (character : Char) : Bool :=
  character == ' ' || character == ')'

theorem isBreak_iff (character : Char) :
    isBreak character = true ↔ character = ' ' ∨ character = ')' := by
  simp [isBreak]

/-- No character of a text is a break. -/
def Unbroken (text : List Char) : Prop :=
  ∀ character ∈ text, isBreak character = false

theorem isNameChar_unbroken {character : Char} (nameChar : isNameChar character = true) :
    isBreak character = false := by
  by_contra broken
  rw [Bool.not_eq_false, isBreak_iff] at broken
  rcases broken with rfl | rfl <;> cases nameChar

theorem isName_iff (text : List Char) :
    isName text = true ↔ (∃ first ∈ text.head?, isNameStart first = true) ∧
      ∀ character ∈ text, isNameChar character = true := by
  cases text with
  | nil => simp [isName]
  | cons first rest =>
      simp only [isName, Bool.and_eq_true, List.all_eq_true, List.head?_cons,
        Option.mem_def,
        Option.some.injEq, exists_eq_left', List.mem_cons, forall_eq_or_imp, isNameChar,
        Bool.or_eq_true]
      tauto

theorem isName_unbroken {text : List Char} (name : isName text = true) : Unbroken text :=
  fun character member =>
    isNameChar_unbroken (((isName_iff text).mp name).2 character member)

/-- A text is unbroken if it is between backslashes. -/
theorem unbroken_of_splitOn {text : List Char}
    (parts : ∀ part ∈ text.splitOn '\\', Unbroken part) : Unbroken text := by
  induction text with
  | nil => exact fun _ impossible => absurd impossible List.not_mem_nil
  | cons character rest induction =>
      rw [List.splitOn, List.splitOnP_cons_eq_if_modifyHead] at parts
      by_cases backslash : character = '\\'
      · rw [if_pos (by simpa using backslash)] at parts
        refine List.forall_mem_cons.mpr ⟨backslash ▸ rfl, induction fun part member => ?_⟩
        exact parts part (List.mem_cons_of_mem [] member)
      · rw [if_neg (by simpa using backslash)] at parts
        cases split : List.splitOnP (· == '\\') rest with
        | nil => exact absurd split (List.splitOnP_ne_nil _ _)
        | cons part others =>
            rw [split, List.modifyHead_cons, List.forall_mem_cons] at parts
            rcases parts with ⟨first, later⟩
            refine List.forall_mem_cons.mpr ⟨first character List.mem_cons_self, ?_⟩
            apply induction
            rw [List.splitOn, split]
            exact List.forall_mem_cons.mpr
              ⟨fun other member =>
                first other (List.mem_cons_of_mem character member), later⟩

theorem splitOn_unbroken {text : List Char}
    (parts : (text.splitOn '\\').all isName = true) :
    Unbroken text := by
  rw [List.all_eq_true] at parts
  exact unbroken_of_splitOn fun part member => isName_unbroken (parts part member)

theorem isWord_unbroken {text : List Char} (word : isWord text = true) :
    Unbroken text := by
  rw [isWord] at word
  split_ifs at word with rooted
  · cases text with
    | nil => cases rooted
    | cons first rest =>
        cases rooted
        exact List.forall_mem_cons.mpr ⟨rfl, splitOn_unbroken word⟩
  · exact splitOn_unbroken word

theorem isVariable_unbroken {text : List Char} (token : isVariable text = true) :
    Unbroken text := by
  rw [isVariable.eq_def] at token
  split at token
  · exact List.forall_mem_cons.mpr ⟨rfl, isName_unbroken token⟩
  · cases token

theorem isDigits_unbroken {isDigit : Char → Bool}
    (unbroken : ∀ character, isDigit character = true → isBreak character = false)
    {text : List Char} (digits : isDigits isDigit text = true) : Unbroken text := by
  fun_induction isDigits isDigit text with
  | case1 => cases digits
  | case2 digit => simpa [Unbroken] using unbroken digit digits
  | case3 digit rest induction =>
      rw [Bool.and_eq_true] at digits
      exact List.forall_mem_cons.mpr ⟨unbroken digit digits.1,
        List.forall_mem_cons.mpr ⟨rfl, induction digits.2⟩⟩
  | case4 digit rest _ _ induction =>
      rw [Bool.and_eq_true] at digits
      exact List.forall_mem_cons.mpr ⟨unbroken digit digits.1, induction digits.2⟩

theorem isDigit_unbroken (character : Char) (digit : character.isDigit = true) :
    isBreak character = false :=
  isNameChar_unbroken (by simp [isNameChar, digit])

/-- Whatever stands before, at and after a mark. -/
theorem Unbroken.of_parts {text : List Char} {goesOn : Char → Bool}
    (before : Unbroken (text.takeWhile goesOn))
    (after : Unbroken (text.dropWhile goesOn)) :
    Unbroken text := by
  rw [← List.takeWhile_append_dropWhile (p := goesOn) (l := text)]
  exact List.forall_mem_append.mpr ⟨before, after⟩

theorem unbroken_nil : Unbroken [] :=
  fun _ impossible => absurd impossible List.not_mem_nil

theorem unbroken_of_isEmpty {text : List Char} (empty : text.isEmpty = true) :
    Unbroken text := by
  rw [List.isEmpty_iff.mp empty]
  exact unbroken_nil

/-- A mark that stops a search is not a break, if the search goes on at breaks. -/
theorem unbroken_of_stop {text rest : List Char} {mark : Char} {goesOn : Char → Bool}
    (stops : text.dropWhile goesOn = mark :: rest)
    (breaks : ∀ character, isBreak character = true → goesOn character = true) :
    isBreak mark = false := by
  have stopped := List.head?_dropWhile_not goesOn text
  rw [stops] at stopped
  by_contra broken
  rw [Bool.not_eq_false] at broken
  simp [breaks mark broken] at stopped

theorem isDecimal_unbroken {text : List Char} (decimal : isDecimal text = true) :
    Unbroken text := by
  rw [isDecimal] at decimal
  split at decimal
  · rename_i noPoint
    exact .of_parts (isDigits_unbroken isDigit_unbroken decimal) (noPoint ▸ unbroken_nil)
  · rename_i mark fraction point
    have breaks (character : Char) (broken : isBreak character = true) :
        (character != '.') = true := by
      rcases (isBreak_iff character).mp broken with rfl | rfl <;> rfl
    simp only [Bool.and_eq_true, Bool.or_eq_true] at decimal
    rcases decimal with ⟨⟨whole, fraction⟩, _⟩
    refine .of_parts
      (whole.elim (isDigits_unbroken isDigit_unbroken) unbroken_of_isEmpty) ?_
    rw [point]
    refine List.forall_mem_cons.mpr ⟨unbroken_of_stop point breaks, ?_⟩
    exact fraction.elim (isDigits_unbroken isDigit_unbroken) unbroken_of_isEmpty

theorem isScientific_unbroken {text : List Char} (number : isScientific text = true) :
    Unbroken text := by
  rw [isScientific, Bool.and_eq_true] at number
  rcases number with ⟨mantissa, exponent⟩
  refine .of_parts (isDecimal_unbroken mantissa) ?_
  have breaks (character : Char) (broken : isBreak character = true) :
      (character.toLower != 'e') = true := by
    rcases (isBreak_iff character).mp broken with rfl | rfl <;> rfl
  split at exponent
  · rename_i noMark
    rw [noMark]
    exact unbroken_nil
  · cases exponent
  · rename_i mark sign rest marked
    rw [marked]
    refine List.forall_mem_cons.mpr ⟨unbroken_of_stop marked breaks, ?_⟩
    split_ifs at exponent with signed
    · refine List.forall_mem_cons.mpr ⟨?_, isDigits_unbroken isDigit_unbroken exponent⟩
      simp only [isSign, Bool.or_eq_true, beq_iff_eq] at signed
      rcases signed with rfl | rfl <;> rfl
    · exact isDigits_unbroken isDigit_unbroken exponent

theorem bases_unbroken {base : Char × (Char → Bool)} (member : base ∈ bases) :
    (∀ mark : Char, mark.toLower = base.1 → isBreak mark = false) ∧
      ∀ character, base.2 character = true → isBreak character = false := by
  simp only [bases, List.mem_cons, List.not_mem_nil, or_false] at member
  constructor
  · intro mark lower
    by_contra broken
    rw [Bool.not_eq_false, isBreak_iff] at broken
    rcases member with rfl | rfl | rfl <;> rcases broken with rfl | rfl <;> cases lower
  · intro character digit
    by_contra broken
    rw [Bool.not_eq_false, isBreak_iff] at broken
    rcases member with rfl | rfl | rfl <;> rcases broken with rfl | rfl <;> cases digit

theorem isNumber_unbroken {text : List Char} (number : isNumber text = true) :
    Unbroken text := by
  rw [isNumber.eq_def] at number
  split at number
  · rename_i mark rest
    rw [Bool.or_eq_true, List.any_eq_true] at number
    rcases number with decimal | ⟨base, member, based⟩
    · exact isScientific_unbroken decimal
    · rw [Bool.and_eq_true, beq_iff_eq] at based
      rcases bases_unbroken member with ⟨marks, digits⟩
      exact List.forall_mem_cons.mpr ⟨rfl, List.forall_mem_cons.mpr
        ⟨marks mark based.1, isDigits_unbroken digits based.2⟩⟩
  · exact isScientific_unbroken number

theorem isSymbol_break {text : List Char} (symbol : isSymbol text = true)
    {character : Char} (member : character ∈ text) (broken : isBreak character = true) :
    text = [')'] := by
  have each : ∀ symbol ∈ symbols, ∀ character ∈ symbol.toList, isBreak character = true →
      symbol.toList = [')'] := by
    decide
  rw [isSymbol, List.contains_iff_mem] at symbol
  have found := each _ symbol character
  rw [String.toList_ofList] at found
  exact found member broken

theorem isCast_head {text : List Char} (cast : isCast text = true) :
    text.head? = some '(' := by
  rw [isCast.eq_def] at cast
  split at cast
  · rfl
  · cases cast

/-- A token with a break in it is a closing parenthesis, or it begins with an opening
one. -/
theorem isToken_break {text : List Char} (token : isToken text = true) {character : Char}
    (member : character ∈ text) (broken : isBreak character = true) :
    text = [')'] ∨ text.head? = some '(' := by
  have not (unbroken : Unbroken text) : text = [')'] ∨ text.head? = some '(' := by
    rw [unbroken character member] at broken
    cases broken
  simp only [isToken, Bool.or_eq_true] at token
  rcases token with (((word | named) | number) | cast) | symbol
  · exact not (isWord_unbroken word)
  · exact not (isVariable_unbroken named)
  · exact not (isNumber_unbroken number)
  · exact .inr (isCast_head cast)
  · exact .inl (isSymbol_break symbol member broken)

/-! ## How tokens begin -/

theorem isWord_head {first : Char} {rest : List Char}
    (word : isWord (first :: rest) = true) :
    isNameStart first = true ∨ first = '\\' := by
  by_cases rooted : first = '\\'
  · exact .inr rooted
  · rw [isWord, if_neg (by simpa using rooted), List.splitOn,
      List.splitOnP_cons_eq_if_modifyHead, if_neg (by simpa using rooted)] at word
    cases split : List.splitOnP (· == '\\') rest with
    | nil => exact absurd split (List.splitOnP_ne_nil _ _)
    | cons part others =>
        rw [split, List.modifyHead_cons, List.all_cons, isName, Bool.and_eq_true,
          Bool.and_eq_true] at word
        exact .inl word.1.1

theorem isDigits_head {isDigit : Char → Bool} {first : Char} {rest : List Char}
    (digits : isDigits isDigit (first :: rest) = true) : isDigit first = true := by
  rw [isDigits.eq_def] at digits
  split at digits
  · cases digits
  · rename_i equal
    cases equal
    exact digits
  · rename_i equal
    cases equal
    exact (Bool.and_eq_true_iff.mp digits).1
  · rename_i equal
    cases equal
    exact (Bool.and_eq_true_iff.mp digits).1

theorem isDecimal_head {first : Char} {rest : List Char}
    (decimal : isDecimal (first :: rest) = true) :
    first.isDigit = true ∨ first = '.' := by
  by_cases point : first = '.'
  · exact .inr point
  · left
    have whole : (first :: rest).takeWhile (· != '.') =
        first :: rest.takeWhile (· != '.') :=
      List.takeWhile_cons_of_pos (by simpa using point)
    rw [isDecimal, whole] at decimal
    split at decimal
    · exact isDigits_head decimal
    · simp only [List.isEmpty_cons, Bool.or_false, Bool.and_eq_true] at decimal
      exact isDigits_head decimal.1.1

theorem isScientific_head {first : Char} {rest : List Char}
    (number : isScientific (first :: rest) = true) :
    first.isDigit = true ∨ first = '.' := by
  rw [isScientific, Bool.and_eq_true, List.takeWhile_cons] at number
  split at number
  · exact isDecimal_head number.1
  · cases number.1

theorem isNumber_head {first : Char} {rest : List Char}
    (number : isNumber (first :: rest) = true) :
    first.isDigit = true ∨ first = '.' := by
  rw [isNumber.eq_def] at number
  split at number
  · rename_i equal
    cases equal
    exact .inl rfl
  · exact isScientific_head number

theorem isVariable_head {first : Char} {rest : List Char}
    (token : isVariable (first :: rest) = true) : first = '$' := by
  rw [isVariable.eq_def] at token
  split at token
  · rename_i equal
    cases equal
    rfl
  · cases token

/-- The other tokens begin in their own ways. -/
theorem isSymbol_of_isToken {first : Char} {rest : List Char}
    (noWord : isNameStart first = false ∧ first ≠ '\\') (noVariable : first ≠ '$')
    (noNumber : first.isDigit = false ∧ first ≠ '.')
    (noCast : isCast (first :: rest) = false) (token : isToken (first :: rest) = true) :
    isSymbol (first :: rest) = true := by
  simp only [isToken, Bool.or_eq_true] at token
  rcases token with (((word | named) | number) | cast) | symbol
  · rcases isWord_head word with start | backslash
    · simp [noWord.1] at start
    · exact absurd backslash noWord.2
  · exact absurd (isVariable_head named) noVariable
  · rcases isNumber_head number with digit | point
    · simp [noNumber.1] at digit
    · exact absurd point noNumber.2
  · simp [noCast] at cast
  · exact symbol

/-! ## Splitting off one token -/

theorem tokensOfChars_gap {character : Char} (gap : isGap character = true)
    (rest : List Char) :
    tokensOfChars (character :: rest) = tokensOfChars rest := by
  rw [tokensOfChars, if_pos gap]

/-- A text that does not begin with a gap. -/
def Visible (text : List Char) : Prop :=
  ∃ first ∈ text.head?, isGap first = false

/-- The first token of a text is the one that cannot go on. -/
theorem tokensOfChars_token {token rest : List Char} (visible : Visible token)
    (whole : isToken token = true)
    (longest : ∀ more, more ≠ [] → more <+: rest → isToken (token ++ more) = false) :
    tokensOfChars (token ++ rest) =
      (tokensOfChars rest).map (String.ofList token :: ·) := by
  rcases visible with ⟨first, head, noGap⟩
  cases token with
  | nil => cases head
  | cons start token =>
      cases head
      have length : tokenLength (first :: token ++ rest) = token.length + 1 := by
        rw [tokenLength, Nat.findGreatest_eq_iff]
        refine ⟨by simp, fun _ => by simpa using whole, fun length longer within => ?_⟩
        have taken : (first :: token ++ rest).take length =
            first :: token ++ rest.take (length - (token.length + 1)) := by
          rw [List.take_append, List.length_cons, List.take_of_length_le (by simp; omega)]
        rw [taken, longest _ _ (List.take_prefix _ rest)]
        · exact Bool.false_ne_true
        · simp only [List.length_append, List.length_cons] at within
          rw [ne_eq, List.take_eq_nil_iff, not_or]
          exact ⟨by omega, fun empty => by simp [empty] at within; omega⟩
      rw [List.cons_append] at length ⊢
      rw [tokensOfChars, if_neg (by simp [noGap]), length]
      simp

/-- A token ends before a character that no token has there. -/
theorem tokensOfChars_before {next : Char} {token : List Char} (visible : Visible token)
    (whole : isToken token = true)
    (ends : ∀ more, isToken (token ++ next :: more) = false) (rest : List Char) :
    tokensOfChars (token ++ next :: rest) =
      (tokensOfChars (next :: rest)).map (String.ofList token :: ·) := by
  apply tokensOfChars_token visible whole
  intro more some leads
  cases more with
  | nil => exact absurd rfl some
  | cons found others =>
      rw [(List.cons_prefix_cons.mp leads).1]
      exact ends others

/-- The first token begins where the text begins. -/
theorem tokensOfChars_head {first : Char} {rest : List Char} {found : List String}
    (noGap : isGap first = false) (split : tokensOfChars (first :: rest) = some found) :
    ∃ token ∈ found.head?, token.toList.head? = some first := by
  rw [tokensOfChars, if_neg (by simp [noGap])] at split
  cases length : tokenLength (first :: rest) with
  | zero =>
      rw [length] at split
      cases split
  | succ more =>
      rw [length] at split
      rcases Option.map_eq_some_iff.mp split with ⟨others, _, rfl⟩
      exact ⟨_, rfl, by rw [String.toList_ofList, List.head?_cons]⟩

/-- What can come after an operand: nothing, or something that begins with a break. -/
def Ends (rest : List Char) : Prop :=
  ∀ next ∈ rest.head?, isBreak next = true

/-- A token ends before a break, if it is not about parentheses itself. -/
theorem tokensOfChars_operand {token rest : List Char} (visible : Visible token)
    (whole : isToken token = true) (noParen : token.head? ≠ some '(') (ends : Ends rest) :
    tokensOfChars (token ++ rest) =
      (tokensOfChars rest).map (String.ofList token :: ·) := by
  cases rest with
  | nil =>
      apply tokensOfChars_token visible whole
      exact fun more some leads => absurd (List.prefix_nil.mp leads) some
  | cons next rest =>
      apply tokensOfChars_before visible whole
      intro more
      by_contra longer
      rw [Bool.not_eq_false] at longer
      have broken := isToken_break longer (List.mem_append_right token List.mem_cons_self)
        (ends next rfl)
      rcases visible with ⟨first, head, _⟩
      cases token with
      | nil => cases head
      | cons start token =>
          rcases broken with alone | paren
          · simp at alone
          · exact noParen paren

end ZephirPhp.Text
