import ZephirPhp.Proofs.Text.Lines

/-! # Brackets

Whether the brackets of a text are properly nested can be said by a grammar of words, and
by reading a word with the brackets in mind that are still to be closed. The second way
also tells what a part of a text does, such as the head of a block.
-/

namespace ZephirPhp

/-- The closing bracket that belongs to an opening one. -/
def closing? : Char → Option Char
  | '(' => some ')'
  | '[' => some ']'
  | '\x7b' => some '\x7d'
  | _ => none

def isBracket (character : Char) : Bool :=
  ['(', ')', '[', ']', '\x7b', '\x7d'].contains character

/-! ## Nested words -/

/-- The words in which every bracket is closed by the bracket that belongs to it. -/
inductive Nested : List Char → Prop
  | nil : Nested []
  | wrap {opening closing : Char} {inside rest : List Char}
      (pair : closing? opening = some closing) (within : Nested inside)
      (after : Nested rest) :
      Nested (opening :: (inside ++ closing :: rest))

/-- The brackets to be closed after one more bracket, the next one first. There are none
if the bracket closes another kind, or nothing. -/
def readBracket (expected : List Char) (bracket : Char) : Option (List Char) :=
  match closing? bracket, expected with
  | some closing, expected => some (closing :: expected)
  | none, next :: others => if bracket = next then some others else none
  | none, [] => none

/-- The brackets to be closed after a word, if `expected` were to be closed before it. -/
def unclosed (expected word : List Char) : Option (List Char) :=
  word.foldlM readBracket expected

example : unclosed [] "([)]".toList = none ∧
    unclosed [] "([])\x7b(".toList = some [')', '\x7d'] := by
  decide

theorem unclosed_cons (expected : List Char) (bracket : Char) (rest : List Char) :
    unclosed expected (bracket :: rest) =
      (readBracket expected bracket).bind fun middle => unclosed middle rest := rfl

theorem unclosed_append (expected left right : List Char) :
    unclosed expected (left ++ right) =
      (unclosed expected left).bind fun middle => unclosed middle right :=
  List.foldlM_append

/-- The ways in which a bracket can be read. -/
theorem readBracket_eq_some_iff (expected : List Char) (bracket : Char)
    (after : List Char) :
    readBracket expected bracket = some after ↔
      (∃ closing, closing? bracket = some closing ∧ after = closing :: expected) ∨
        closing? bracket = none ∧ expected = bracket :: after := by
  rw [readBracket.eq_def]
  cases closing? bracket with
  | some closing => simp [eq_comm]
  | none =>
      cases expected with
      | nil => simp
      | cons next others =>
          by_cases same : bracket = next
          · simp [same, eq_comm]
          · simp [same, Ne.symm same]

theorem readBracket_of_inner {expected after : List Char} {bracket : Char}
    (outer : List Char) (inner : readBracket expected bracket = some after) :
    readBracket (expected ++ outer) bracket = some (after ++ outer) := by
  rw [readBracket_eq_some_iff] at inner ⊢
  rcases inner with ⟨closing, opened, rfl⟩ | ⟨closed, rfl⟩
  · exact .inl ⟨closing, opened, rfl⟩
  · exact .inr ⟨closed, rfl⟩

/-- Brackets further out are not looked at. -/
theorem unclosed_of_inner {expected after word : List Char} (outer : List Char)
    (inner : unclosed expected word = some after) :
    unclosed (expected ++ outer) word = some (after ++ outer) := by
  induction word generalizing expected with
  | nil =>
      cases inner
      rfl
  | cons bracket rest induction =>
      rw [unclosed_cons, Option.bind_eq_some_iff] at inner ⊢
      rcases inner with ⟨middle, read, later⟩
      exact ⟨middle ++ outer, readBracket_of_inner outer read, induction later⟩

/-- A closing bracket does not open. -/
theorem closing?_closing {opening closing : Char}
    (pair : closing? opening = some closing) :
    closing? closing = none := by
  unfold closing? at pair
  split at pair <;> cases pair <;> rfl

theorem unclosed_of_nested {word : List Char} (nested : Nested word)
    (expected : List Char) :
    unclosed expected word = some expected := by
  induction nested generalizing expected with
  | nil => rfl
  | wrap pair within after withinInduction afterInduction =>
      rename_i opening closing inside rest
      have opened : readBracket expected opening = some (closing :: expected) :=
        (readBracket_eq_some_iff _ _ _).mpr (.inl ⟨closing, pair, rfl⟩)
      have closed : readBracket (closing :: expected) closing = some expected :=
        (readBracket_eq_some_iff _ _ _).mpr (.inr ⟨closing?_closing pair, rfl⟩)
      rw [unclosed_cons, opened, Option.bind_some, unclosed_append, withinInduction,
        Option.bind_some, unclosed_cons, closed, Option.bind_some, afterInduction]

/-- A word that closes the expected brackets and no more: one nested word before each. -/
def Closes : List Char → List Char → Prop
  | [], word => Nested word
  | next :: others, word =>
    ∃ inside rest, word = inside ++ next :: rest ∧ Nested inside ∧ Closes others rest

theorem Closes.open {opening closing : Char} {expected word : List Char}
    (pair : closing? opening = some closing)
    (closes : Closes (closing :: expected) word) :
    Closes expected (opening :: word) := by
  rcases closes with ⟨inside, rest, rfl, nested, later⟩
  cases expected with
  | nil => exact .wrap pair nested later
  | cons next others =>
      rcases later with ⟨between, last, rfl, betweenNested, later⟩
      exact ⟨opening :: (inside ++ closing :: between), last, by simp,
        .wrap pair nested betweenNested, later⟩

theorem closes_of_unclosed {expected word : List Char}
    (read : unclosed expected word = some []) :
    Closes expected word := by
  induction word generalizing expected with
  | nil =>
      cases read
      exact .nil
  | cons bracket rest induction =>
      rw [unclosed_cons, Option.bind_eq_some_iff] at read
      rcases read with ⟨middle, first, later⟩
      rcases (readBracket_eq_some_iff _ _ _).mp first with
        ⟨closing, opened, rfl⟩ | ⟨_, rfl⟩
      · exact .open opened (induction later)
      · exact ⟨[], rest, rfl, .nil, induction later⟩

theorem nested_iff_unclosed (word : List Char) :
    Nested word ↔ unclosed [] word = some [] :=
  ⟨fun nested => unclosed_of_nested nested [], closes_of_unclosed⟩

instance (word : List Char) : Decidable (Nested word) :=
  decidable_of_iff _ (nested_iff_unclosed word).symm

/-! ## Brackets of texts -/

namespace Text

/-- The brackets of a text in their order. -/
def brackets (text : String) : List Char :=
  text.toList.filter isBracket

@[simp] theorem brackets_append (left right : String) :
    brackets (left ++ right) = brackets left ++ brackets right := by
  simp [brackets]

theorem isBracket_of_isBlank {character : Char} (blank : isBlank character = true) :
    isBracket character = false := by
  cases found : isBracket character with
  | false => rfl
  | true =>
      have member : character ∈ ['(', ')', '[', ']', '\x7b', '\x7d'] := by
        simpa [isBracket] using found
      simp only [List.mem_cons, List.not_mem_nil, or_false] at member
      rcases member with rfl | rfl | rfl | rfl | rfl | rfl <;> cases blank

/-! ## What a text opens and closes -/

/-- A text that closes the brackets `before` and leaves the brackets `after` to be closed,
whatever is open around them. -/
def Turns (before after : List Char) (text : String) : Prop :=
  ∀ outer, unclosed (before ++ outer) (brackets text) = some (after ++ outer)

/-- A text that closes what it opens. -/
def Balanced (text : String) : Prop :=
  Turns [] [] text

theorem Turns.append {before middle after : List Char} {left right : String}
    (first : Turns before middle left) (second : Turns middle after right) :
    Turns before after (left ++ right) := by
  intro outer
  rw [brackets_append, unclosed_append, first, Option.bind_some, second]

/-- What is open around a balanced text stays open. -/
theorem Balanced.turns {text : String} (balanced : Balanced text) (expected : List Char) :
    Turns expected expected text :=
  fun outer => balanced (expected ++ outer)

/-- A balanced text inside brackets that are open. -/
theorem Turns.within {before after : List Char} {left right : String}
    (opens : Turns before after left) (inside : Balanced right) :
    Turns before after (left ++ right) :=
  opens.append (inside.turns after)

theorem turns_iff_unclosed (before after : List Char) (text : String) :
    Turns before after text ↔ unclosed before (brackets text) = some after := by
  constructor
  · intro turns
    simpa using turns []
  · intro read outer
    exact unclosed_of_inner outer read

instance (before after : List Char) (text : String) :
    Decidable (Turns before after text) :=
  decidable_of_iff _ (turns_iff_unclosed before after text).symm

instance (text : String) : Decidable (Balanced text) :=
  inferInstanceAs (Decidable (Turns [] [] text))

namespace Balanced

variable {left right text opening separator ending : String}

theorem of_plain (plain : brackets text = []) : Balanced text := by
  intro outer
  rw [plain]
  rfl

theorem append (first : Balanced left) (second : Balanced right) :
    Balanced (left ++ right) :=
  Turns.append first second

/-- A balanced text between two texts, of which the second closes what the first opens. -/
theorem wrap (expected : List Char) (opens : Turns [] expected opening)
    (inside : Balanced text) (closes : Turns expected [] ending) :
    Balanced (opening ++ text ++ ending) :=
  (opens.within inside).append closes

theorem wrapPair (expected : List Char) (opens : Turns [] expected opening)
    (first : Balanced left) (between : Balanced separator) (second : Balanced right)
    (closes : Turns expected [] ending) :
    Balanced (opening ++ left ++ separator ++ right ++ ending) :=
  (((opens.within first).within between).within second).append closes

theorem intercalate {separator : String} {texts : List String}
    (between : Balanced separator) (each : ∀ text ∈ texts, Balanced text) :
    Balanced (separator.intercalate texts) := by
  induction texts with
  | nil => exact .of_plain rfl
  | cons first rest induction =>
      rw [List.forall_mem_cons] at each
      cases rest with
      | nil => simpa using each.1
      | cons second others =>
          rw [String.intercalate_cons_cons]
          exact (each.1.append between).append (induction each.2)

theorem join {texts : List String} (each : ∀ text ∈ texts, Balanced text) :
    Balanced (String.join texts) := by
  induction texts with
  | nil => exact .of_plain rfl
  | cons first rest induction =>
      rw [List.forall_mem_cons] at each
      rw [String.join_cons]
      exact each.1.append (induction each.2)

end Balanced

end Text

end ZephirPhp
