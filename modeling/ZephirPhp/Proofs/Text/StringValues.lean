import Mathlib.Data.List.Basic
import Mathlib.Data.List.TakeWhile
import ZephirPhp.Json.Reader
import ZephirPhp.Proofs.Text.Quoting
import ZephirPhp.Proofs.Text.Tokens

/-! # Values of string literals

PHP reads a text between single quotes almost as it is: a backslash is special before
another one and before a single quote only. Between double quotes there are many more
escapes, and variables are replaced by their values. The bytes that a text denotes are
therefore the same between either quotes only if it has no variables and no escape but
that of the backslash (`doubleQuoted_eq_iff`): every other escape denotes fewer bytes
than it is written with.
-/

namespace ZephirPhp.Text

/-! ## Escapes between double quotes -/

/-- The bytes of a code point, also of one that is no character. -/
def codePointBytes (code : Nat) : List UInt8 :=
  if code ≤ 0x7F then [UInt8.ofNat code]
  else if code ≤ 0x7FF then [UInt8.ofNat (0xC0 + code / 64),
    UInt8.ofNat (0x80 + code % 64)]
  else if code ≤ 0xFFFF then
    [UInt8.ofNat (0xE0 + code / 4096), UInt8.ofNat (0x80 + code / 64 % 64),
      UInt8.ofNat (0x80 + code % 64)]
  else
    [UInt8.ofNat (0xF0 + code / 262144), UInt8.ofNat (0x80 + code / 4096 % 64),
      UInt8.ofNat (0x80 + code / 64 % 64), UInt8.ofNat (0x80 + code % 64)]

example : codePointBytes 'ß'.toNat = String.utf8EncodeChar 'ß' ∧
    codePointBytes '😀'.toNat = String.utf8EncodeChar '😀' := by decide

def isOctalDigit (character : Char) : Bool :=
  '0' ≤ character && character ≤ '7'

/-- The number that digits spell. -/
def numberOf (base : Nat) (digits : List Char) : Nat :=
  digits.foldl (fun number digit => number * base + (Json.hexDigit? digit).getD 0) 0

/-- The escapes of one character, with the byte that each denotes. -/
def markEscapes : List (Char × UInt8) :=
  [('n', 0x0A), ('t', 0x09), ('r', 0x0D), ('v', 0x0B), ('e', 0x1B), ('f', 0x0C),
    ('\\', 0x5C),
    ('$', 0x24), ('"', 0x22)]

/-- An escape without its backslash. -/
structure Escape where
  /-- The number of characters that belong to it. -/
  length : Nat
  /-- The bytes that it denotes. An escape that names no code point is refused. -/
  bytes : Option (List UInt8)
deriving DecidableEq, Repr

/-- One to three digits that name a byte. -/
def octalEscape (mark : Char) (rest : List Char) : Escape :=
  let digits := mark :: (rest.take 2).takeWhile isOctalDigit
  ⟨digits.length, some [UInt8.ofNat (numberOf 8 digits)]⟩

/-- One or two digits after `x` that name a byte. -/
def hexEscape? (rest : List Char) : Option Escape :=
  let digits := (rest.take 2).takeWhile isHexDigit
  if digits = [] then none
  else some ⟨1 + digits.length, some [UInt8.ofNat (numberOf 16 digits)]⟩

/-- The number of a code point after `u` and an opening brace. -/
def codePointEscape (rest : List Char) : Escape :=
  let digits := rest.takeWhile isHexDigit
  let number := numberOf 16 digits
  if digits ≠ [] ∧ (rest.drop digits.length).head? = some '\x7d' ∧ number ≤ 0x10FFFF then
    ⟨3 + digits.length, some (codePointBytes number)⟩
  else ⟨2, none⟩

/-- The escape that a text begins with, if a backslash stands before the text. -/
def escape? : List Char → Option Escape
  | [] => none
  | mark :: rest =>
    match markEscapes.lookup mark with
    | some byte => some ⟨1, some [byte]⟩
    | none =>
      if isOctalDigit mark then some (octalEscape mark rest)
      else if mark = 'x' ∨ mark = 'X' then hexEscape? rest
      else if mark = 'u' ∧ rest.head? = some '\x7b' then some (codePointEscape rest.tail)
      else none

example : escape? "x4aa".toList = some ⟨3, some [0x4A]⟩ ∧
    escape? "1018".toList = some ⟨3, some [0x41]⟩ ∧
    escape? "u\x7bDF\x7d".toList = some ⟨5, some [0xC3, 0x9F]⟩ ∧
      escape? "q".toList = none := by
  decide

/-! ## Values -/

/-- The bytes of a text between single quotes. -/
def singleQuoted : List Char → List UInt8
  | [] => []
  | '\\' :: '\\' :: rest => 0x5C :: singleQuoted rest
  | '\\' :: '\'' :: rest => 0x27 :: singleQuoted rest
  | character :: rest => String.utf8EncodeChar character ++ singleQuoted rest

/-- The bytes of a text between double quotes that has no variables. The first characters
of it may belong to an escape that is already read. -/
def doubleQuoted : Nat → List Char → Option (List UInt8)
  | _, [] => some []
  | known + 1, _ :: rest => doubleQuoted known rest
  | 0, '\\' :: rest =>
    match escape? rest with
    | some escape => do return (← escape.bytes) ++ (← doubleQuoted escape.length rest)
    | none => do return 0x5C :: (← doubleQuoted 0 rest)
  | 0, character :: rest => do
    return String.utf8EncodeChar character ++ (← doubleQuoted 0 rest)

/-- Whether a variable begins with these pieces. -/
def opensVariable : Piece → Piece → Bool
  | .plain '$', .plain next => isNameStart next || next == '\x7b'
  | .plain '\x7b', .plain next => next == '$'
  | _, _ => false

/-- Whether a text between double quotes has variables in it. -/
def interpolates (text : List Char) : Bool :=
  ((pieces text).zip (pieces text).tail).any fun pair => opensVariable pair.1 pair.2

example : interpolates "a$b".toList ∧ interpolates "\\\\$\x7ba\x7d".toList ∧
    ¬ interpolates "\\$a $ 1 \x7b\\$b\x7d $1".toList := by decide

/-- The bytes that a literal denotes. A literal with variables denotes none of its own. -/
def literalValue? (literal : List Char) : Option (List UInt8) :=
  match literal.head?, cutQuoted literal with
  | some '"', some (inside, []) =>
    if interpolates inside then none else doubleQuoted 0 inside
  | some '\'', some (inside, []) => some (singleQuoted inside)
  | _, _ => none

example : literalValue? "\"a\\tb\"".toList = some [0x61, 0x09, 0x62] ∧
    literalValue? "'a\\tb'".toList = some [0x61, 0x5C, 0x74, 0x62] := by decide

/-! ## Texts that are the same between either quotes -/

/-- No backslash begins an escape, except before another one. -/
def isInert : List Char → Bool
  | [] => true
  | '\\' :: '\\' :: rest => isInert rest
  | '\\' :: rest => (escape? rest).isNone && isInert rest
  | _ :: rest => isInert rest

theorem doubleQuoted_known (known : Nat) (text : List Char) :
    doubleQuoted known text = doubleQuoted 0 (text.drop known) := by
  induction text generalizing known with
  | nil => simp [doubleQuoted]
  | cons character rest induction =>
      cases known with
      | zero => rfl
      | succ known => rw [doubleQuoted, induction, List.drop_succ_cons]

theorem doubleQuoted_cons {character : Char} (other : character ≠ '\\')
    (rest : List Char) :
    doubleQuoted 0 (character :: rest) =
      (doubleQuoted 0 rest).map (String.utf8EncodeChar character ++ ·) := by
  rw [doubleQuoted]
  · cases doubleQuoted 0 rest <;> rfl
  · rintro rfl
    exact absurd rfl other

theorem singleQuoted_cons {character : Char} (other : character ≠ '\\')
    (rest : List Char) :
    singleQuoted (character :: rest) =
      String.utf8EncodeChar character ++ singleQuoted rest := by
  rw [singleQuoted]
  · rintro _ rfl
    exact absurd rfl other
  · rintro _ rfl
    exact absurd rfl other

theorem isInert_cons {character : Char} (other : character ≠ '\\') (rest : List Char) :
    isInert (character :: rest) = isInert rest := by
  rw [isInert]
  · rintro _ rfl
    exact absurd rfl other
  · rintro rfl
    exact absurd rfl other

/-! ### How long escapes are -/

/-- The escape is written at the start of the text without a backslash, and with no fewer
characters than it denotes bytes. -/
def Escape.Covers (escape : Escape) (text : List Char) : Prop :=
  ∀ bytes, escape.bytes = some bytes → ∃ front rest, text = front ++ rest ∧
    front.length = escape.length ∧ '\\' ∉ front ∧ bytes.length ≤ front.length

/-- The digits that a text begins with, as far as they count, are no backslashes. -/
theorem exists_digits_append (isDigit : Char → Bool) (noBackslash : isDigit '\\' = false)
    {part text : List Char} (begins : part <+: text) :
    ∃ rest, text = part.takeWhile isDigit ++ rest ∧ '\\' ∉ part.takeWhile isDigit := by
  rcases (List.takeWhile_prefix isDigit).trans begins with ⟨rest, whole⟩
  refine ⟨rest, whole.symm, fun member => ?_⟩
  rw [List.mem_takeWhile_imp member] at noBackslash
  cases noBackslash

theorem octalEscape_covers {mark : Char} (other : '\\' ≠ mark) (rest : List Char) :
    (octalEscape mark rest).Covers (mark :: rest) := by
  rintro bytes ⟨⟩
  rcases exists_digits_append isOctalDigit (by decide) (List.take_prefix 2 rest) with
    ⟨more, whole, noBackslash⟩
  refine ⟨mark :: _, more, congrArg (mark :: ·) whole, rfl, ?_, by simp⟩
  rw [List.mem_cons, not_or]
  exact ⟨other, noBackslash⟩

theorem hexEscape?_covers {mark : Char} (other : '\\' ≠ mark) {rest : List Char}
    {escape : Escape} (found : hexEscape? rest = some escape) :
    escape.Covers (mark :: rest) := by
  rw [hexEscape?] at found
  split at found
  · cases found
  · cases found
    rintro bytes ⟨⟩
    rcases exists_digits_append isHexDigit (by decide) (List.take_prefix 2 rest) with
      ⟨more, whole, noBackslash⟩
    refine ⟨mark :: _, more, congrArg (mark :: ·) whole, ?_, ?_, by simp⟩
    · rw [List.length_cons, Nat.add_comm]
    · rw [List.mem_cons, not_or]
      exact ⟨other, noBackslash⟩

theorem length_codePointBytes_le (code : Nat) : (codePointBytes code).length ≤ 4 := by
  rw [codePointBytes]
  split_ifs <;> simp

theorem codePointEscape_covers (rest : List Char) :
    (codePointEscape rest).Covers ('u' :: '\x7b' :: rest) := by
  rw [codePointEscape]
  split
  · next valid =>
      rintro bytes ⟨⟩
      rcases exists_digits_append isHexDigit (by decide) (List.prefix_refl rest) with
        ⟨after, whole, noBackslash⟩
      have dropped : rest.drop (rest.takeWhile isHexDigit).length = after := by
        nth_rewrite 2 [whole]
        exact List.drop_left
      rw [dropped] at valid
      rcases List.head?_eq_some_iff.mp valid.2.1 with ⟨more, rfl⟩
      have some : 0 < (rest.takeWhile isHexDigit).length :=
        List.length_pos_iff.mpr valid.1
      have short := length_codePointBytes_le (numberOf 16 (rest.takeWhile isHexDigit))
      refine ⟨'u' :: '\x7b' :: (rest.takeWhile isHexDigit ++ ['\x7d']), more,
        ?_, ?_, ?_, ?_⟩
      · simpa using whole
      · simp only [List.length_cons, List.length_append, List.length_nil]
        omega
      · simpa using noBackslash
      · simp only [List.length_cons, List.length_append, List.length_nil]
        omega
  · rintro bytes ⟨⟩

/-- Any escape but that of the backslash. -/
theorem escape?_covers {text : List Char} {escape : Escape}
    (found : escape? text = some escape) (other : text.head? ≠ some '\\') :
    escape.Covers text := by
  cases text with
  | nil => cases found
  | cons mark rest =>
      have different : '\\' ≠ mark := fun equal => other (by rw [equal]; rfl)
      rw [escape?] at found
      split at found
      · cases found
        rintro bytes ⟨⟩
        exact ⟨[mark], rest, rfl, rfl, by simpa using different, le_rfl⟩
      · split_ifs at found with octal hex codePoint
        · cases found
          exact octalEscape_covers different rest
        · exact hexEscape?_covers different found
        · cases found
          rcases List.head?_eq_some_iff.mp codePoint.2 with ⟨inside, rfl⟩
          rw [codePoint.1]
          exact codePointEscape_covers inside

/-! ### Step by step -/

theorem singleQuoted_append {front : List Char} (noBackslash : '\\' ∉ front)
    (rest : List Char) :
    singleQuoted (front ++ rest) =
      front.flatMap String.utf8EncodeChar ++ singleQuoted rest := by
  induction front with
  | nil => rfl
  | cons character front induction =>
      rw [List.mem_cons, not_or] at noBackslash
      rw [List.cons_append, singleQuoted_cons (Ne.symm noBackslash.1),
        induction noBackslash.2,
        List.flatMap_cons, List.append_assoc]

theorem length_le_flatMap_utf8 (text : List Char) :
    text.length ≤ (text.flatMap String.utf8EncodeChar).length := by
  induction text with
  | nil => exact le_rfl
  | cons character rest induction =>
      have some : 0 < (String.utf8EncodeChar character).length := by
        rw [String.length_utf8EncodeChar]
        exact character.utf8Size_pos
      rw [List.flatMap_cons, List.length_append, List.length_cons]
      omega

/-- A backslash before anything but a backslash or a single quote stands for itself
between single quotes. -/
theorem singleQuoted_backslash {rest : List Char} (noBackslash : rest.head? ≠ some '\\')
    (noQuote : rest.head? ≠ some '\'') :
    singleQuoted ('\\' :: rest) = 0x5C :: singleQuoted rest := by
  rw [singleQuoted]
  · rfl
  · rintro more - rfl
    exact noBackslash rfl
  · rintro more - rfl
    exact noQuote rfl

/-- The start of a text is the same between either quotes. -/
def SameStart (text rest : List Char) : Prop :=
  ∃ bytes, doubleQuoted 0 text = (doubleQuoted 0 rest).map (bytes ++ ·) ∧
    singleQuoted text = bytes ++ singleQuoted rest ∧ isInert text = isInert rest

/-- A text begins with an escape, which denotes fewer bytes between double quotes. -/
def ShorterStart (text rest : List Char) : Prop :=
  isInert text = false ∧ ∀ value, doubleQuoted 0 text = some value →
    ∃ bytes more longer, value = bytes ++ more ∧ doubleQuoted 0 rest = some more ∧
      singleQuoted text = longer ++ singleQuoted rest ∧ bytes.length < longer.length

theorem sameStart_backslashes (rest : List Char) :
    SameStart ('\\' :: '\\' :: rest) rest := by
  have escape : escape? ('\\' :: rest) = some ⟨1, some [0x5C]⟩ := rfl
  refine ⟨[0x5C], ?_, rfl, rfl⟩
  rw [doubleQuoted, escape]
  change (do return [0x5C] ++ (← doubleQuoted 1 ('\\' :: rest))) = _
  rw [doubleQuoted]
  cases doubleQuoted 0 rest <;> rfl

theorem sameStart_backslash {rest : List Char} (noBackslash : rest.head? ≠ some '\\')
    (noQuote : rest.head? ≠ some '\'') (noEscape : escape? rest = none) :
    SameStart ('\\' :: rest) rest := by
  refine ⟨[0x5C], ?_, singleQuoted_backslash noBackslash noQuote, ?_⟩
  · rw [doubleQuoted, noEscape]
    cases doubleQuoted 0 rest <;> rfl
  · rw [isInert, noEscape]
    · rfl
    · rintro more rfl
      exact noBackslash rfl

theorem shorterStart_escape {text : List Char} {escape : Escape}
    (noBackslash : text.head? ≠ some '\\') (noQuote : text.head? ≠ some '\'')
    (found : escape? text = some escape) :
    ShorterStart ('\\' :: text) (text.drop escape.length) := by
  constructor
  · rw [isInert, found]
    · rfl
    · rintro more rfl
      exact noBackslash rfl
  · intro value valued
    rw [doubleQuoted, found] at valued
    rcases Option.bind_eq_some_iff.mp valued with ⟨bytes, denoted, later⟩
    rcases Option.bind_eq_some_iff.mp later with ⟨more, known, whole⟩
    rcases escape?_covers found noBackslash bytes denoted with
      ⟨front, rest, rfl, length, noneInside, short⟩
    have longEnough := length_le_flatMap_utf8 front
    have dropped : (front ++ rest).drop escape.length = rest := List.drop_left' length
    rw [doubleQuoted_known, dropped] at known
    rw [dropped]
    refine ⟨bytes, more, 0x5C :: front.flatMap String.utf8EncodeChar, ?_, known, ?_, ?_⟩
    · simpa using whole.symm
    · rw [singleQuoted_backslash noBackslash noQuote, singleQuoted_append noneInside]
      rfl
    · rw [List.length_cons]
      omega

/-- What is read first in a text without single quotes. -/
theorem start_cases (character : Char) (text : List Char) (noQuote : '\'' ∉ text) :
    ∃ rest, rest <:+ text ∧
      (SameStart (character :: text) rest ∨ ShorterStart (character :: text) rest) := by
  have notFirst : text.head? ≠ some '\'' := fun first => noQuote (List.mem_of_head? first)
  by_cases backslash : character = '\\'
  · subst backslash
    by_cases again : text.head? = some '\\'
    · rcases List.head?_eq_some_iff.mp again with ⟨rest, rfl⟩
      exact ⟨rest, List.suffix_cons _ rest, .inl (sameStart_backslashes rest)⟩
    · cases found : escape? text with
      | none =>
          exact ⟨text, List.suffix_refl text,
            .inl (sameStart_backslash again notFirst found)⟩
      | some escape =>
          exact ⟨_, List.drop_suffix _ text,
            .inr (shorterStart_escape again notFirst found)⟩
  · refine ⟨text, List.suffix_refl text,
      .inl ⟨String.utf8EncodeChar character, ?_, ?_, ?_⟩⟩
    · exact doubleQuoted_cons backslash text
    · exact singleQuoted_cons backslash text
    · exact isInert_cons backslash text

/-! ### The whole text -/

/-- Induction over a text without single quotes, from one start to the next. -/
@[elab_as_elim] theorem starts_induction {motive : List Char → Prop} (nil : motive [])
    (same : ∀ text rest, SameStart text rest → motive rest → motive text)
    (shorter : ∀ text rest, ShorterStart text rest → motive rest → motive text)
    (text : List Char) (noQuote : '\'' ∉ text) : motive text := by
  induction count : text.length using Nat.strong_induction_on generalizing text with
  | _ length induction =>
      cases text with
      | nil => exact nil
      | cons character text =>
          rw [List.mem_cons, not_or] at noQuote
          rcases start_cases character text noQuote.2 with ⟨rest, later, start⟩
          have less : rest.length < length := by
            have := later.length_le
            rw [List.length_cons] at count
            omega
          have holdsLater : motive rest :=
            induction rest.length less rest
              (fun member => noQuote.2 (later.mem member)) rfl
          exact start.elim (fun start => same _ rest start holdsLater)
            fun start => shorter _ rest start holdsLater

theorem doubleQuoted_of_isInert (text : List Char) (noQuote : '\'' ∉ text) :
    isInert text = true → doubleQuoted 0 text = some (singleQuoted text) := by
  refine starts_induction ?nil ?same ?shorter text noQuote
  case nil => exact fun _ => rfl
  case same =>
    rintro text rest ⟨bytes, double, single, sameInert⟩ induction inert
    rw [double, single, induction (sameInert ▸ inert)]
    rfl
  case shorter =>
    intro text rest start _ inert
    rw [start.1] at inert
    cases inert

/-- Between double quotes a text denotes no more bytes, and fewer if there is an escape in
it. -/
theorem length_doubleQuoted (text : List Char) (noQuote : '\'' ∉ text) :
    ∀ value, doubleQuoted 0 text = some value →
      value.length ≤ (singleQuoted text).length ∧
      (isInert text = false → value.length < (singleQuoted text).length) := by
  refine starts_induction ?nil ?same ?shorter text noQuote
  case nil =>
    rintro value ⟨⟩
    exact ⟨le_rfl, fun impossible => by cases impossible⟩
  case same =>
    rintro text rest ⟨bytes, double, single, sameInert⟩ induction value valued
    rw [double] at valued
    rcases Option.map_eq_some_iff.mp valued with ⟨more, known, rfl⟩
    rcases induction more known with ⟨atMost, less⟩
    rw [single, sameInert, List.length_append, List.length_append]
    exact ⟨Nat.add_le_add_left atMost _, fun notInert =>
      Nat.add_lt_add_left (less notInert) _⟩
  case shorter =>
    intro text rest start induction value valued
    rcases start.2 value valued with ⟨bytes, more, longer, rfl, known, single, short⟩
    have atMost := (induction more known).1
    rw [single, List.length_append, List.length_append]
    exact ⟨by omega, fun _ => by omega⟩

/-- A text without single quotes denotes the same between either quotes exactly if it has
no escape but that of the backslash. -/
theorem doubleQuoted_eq_iff {text : List Char} (noQuote : '\'' ∉ text) :
    doubleQuoted 0 text = some (singleQuoted text) ↔ isInert text = true := by
  constructor
  · intro same
    by_contra escapes
    rw [Bool.not_eq_true] at escapes
    exact Nat.lt_irrefl _ ((length_doubleQuoted text noQuote _ same).2 escapes)
  · exact doubleQuoted_of_isInert text noQuote

/-! ## Literals of texts without quotes -/

section

variable {text : List Char}

theorem cutQuoted_quoted {quote : Char} (proper : quote ≠ '\\') (noQuote : quote ∉ text)
    (ended : text.getLast? ≠ some '\\') :
    cutQuoted (quote :: (text ++ [quote])) = some (text, []) :=
  untilQuote_append proper (fun member => noQuote (mem_of_plain_mem_pieces member))
    (fun member => ended (getLast?_of_dangling_mem member)) []

theorem literalValue?_single (noQuote : '\'' ∉ text) (ended : text.getLast? ≠ some '\\') :
    literalValue? ('\'' :: (text ++ ['\''])) = some (singleQuoted text) := by
  rw [literalValue?, cutQuoted_quoted (by decide) noQuote ended]
  rfl

theorem literalValue?_double (noQuote : '"' ∉ text) (ended : text.getLast? ≠ some '\\') :
    literalValue? ('"' :: (text ++ ['"'])) =
      if interpolates text then none else doubleQuoted 0 text := by
  rw [literalValue?, cutQuoted_quoted (by decide) noQuote ended]
  rfl

end

end ZephirPhp.Text
