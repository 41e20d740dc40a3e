import Mathlib.Data.List.Basic
import ZephirPhp.Emission.Literal

/-! # Quoted texts

In a quoted text a backslash escapes the character after it, so the text is read in
pieces from left to right: a character on its own, or a backslash with what it escapes.
To escape the dollar signs of a text is to replace the pieces that are a dollar sign on
its own (`pieces_escapeDollars`), whatever stands around them.
-/

namespace ZephirPhp.Text

inductive Piece where
  /-- A character on its own. -/
  | plain (character : Char)
  /-- A backslash and the character that it escapes. -/
  | escaped (character : Char)
  /-- A backslash at the end of the text, which escapes nothing. -/
  | dangling
deriving DecidableEq, Repr

def Piece.text : Piece → List Char
  | .plain character => [character]
  | .escaped character => ['\\', character]
  | .dangling => ['\\']

/-- The pieces of a text, from left to right. -/
def pieces : List Char → List Piece
  | [] => []
  | ['\\'] => [.dangling]
  | '\\' :: character :: rest => .escaped character :: pieces rest
  | character :: rest => .plain character :: pieces rest

example : pieces "a\\\\$\\$\\".toList =
    [.plain 'a', .escaped '\\', .plain '$', .escaped '$', .dangling] := by decide

theorem pieces_cons {character : Char} (other : character ≠ '\\') (rest : List Char) :
    pieces (character :: rest) = .plain character :: pieces rest := by
  rw [pieces]
  · rintro rfl
    exact absurd rfl other
  · rintro _ _ rfl
    exact absurd rfl other

theorem flatMap_pieces (text : List Char) : (pieces text).flatMap Piece.text = text := by
  fun_induction pieces text with
  | case1 => rfl
  | case2 => rfl
  | case3 character rest induction => rw [List.flatMap_cons, induction]; rfl
  | case4 character rest _ _ induction => rw [List.flatMap_cons, induction]; rfl

/-- A character that stands on its own in a text stands in it. -/
theorem mem_of_plain_mem_pieces {character : Char} {text : List Char}
    (member : .plain character ∈ pieces text) : character ∈ text := by
  rw [← flatMap_pieces text]
  exact List.mem_flatMap.mpr ⟨.plain character, member, List.mem_singleton_self character⟩

/-- Only the last backslash of a text can escape nothing. -/
theorem getLast?_of_dangling_mem {text : List Char} (member : .dangling ∈ pieces text) :
    text.getLast? = some '\\' := by
  fun_induction pieces text with
  | case1 => cases member
  | case2 => rfl
  | case3 character rest induction =>
      have later : .dangling ∈ pieces rest := by simpa using member
      have ended := induction later
      rw [List.getLast?_cons_cons, List.getLast?_cons, ended]
      rfl
  | case4 character rest _ _ induction =>
      have later : .dangling ∈ pieces rest := by simpa using member
      rw [List.getLast?_cons, induction later]
      rfl

/-! ## Texts between quotes -/

/-- A text up to the first quote that no backslash escapes, and what follows that
quote. -/
def untilQuote (quote : Char) : List Char → Option (List Char × List Char)
  | [] => none
  | '\\' :: character :: rest =>
    (untilQuote quote rest).map fun cut => ('\\' :: character :: cut.1, cut.2)
  | character :: rest =>
    if character = quote then some ([], rest)
    else (untilQuote quote rest).map fun cut => (character :: cut.1, cut.2)

/-- The inside of the quoted text that a text begins with, and what follows the quoted
text. -/
def cutQuoted : List Char → Option (List Char × List Char)
  | [] => none
  | quote :: rest => untilQuote quote rest

example : cutQuoted "\"a\\\"'b\", c".toList = some ("a\\\"'b".toList, ", c".toList) := by
    decide

/-- A text without a quote on its own reaches up to the quote after it. -/
theorem untilQuote_append {quote : Char} (proper : quote ≠ '\\') {text : List Char}
    (noQuote : .plain quote ∉ pieces text) (ended : .dangling ∉ pieces text)
    (rest : List Char) :
    untilQuote quote (text ++ quote :: rest) = some (text, rest) := by
  fun_induction pieces text with
  | case1 =>
      rw [List.nil_append, untilQuote, if_pos rfl]
      rintro _ _ rfl
      exact absurd rfl proper
  | case2 => exact absurd List.mem_cons_self ended
  | case3 character inside induction =>
      rw [List.mem_cons, not_or] at noQuote ended
      rw [List.cons_append, List.cons_append, untilQuote, induction noQuote.2 ended.2]
      rfl
  | case4 character inside notLast notEscaping induction =>
      rw [List.mem_cons, not_or] at noQuote ended
      have different : character ≠ quote := fun equal => noQuote.1 (by rw [equal])
      rw [List.cons_append, untilQuote, if_neg different, induction noQuote.2 ended.2]
      · rfl
      · rintro next later rfl equal
        cases inside with
        | nil => exact notLast rfl rfl
        | cons first others => exact notEscaping first others rfl rfl

/-! ## Dollar signs -/

/-- A dollar sign on its own is escaped, any other piece stays. -/
def Piece.escapeDollar (piece : Piece) : Piece :=
  if piece = .plain '$' then .escaped '$' else piece

theorem Piece.escapeDollar_idem (piece : Piece) :
    piece.escapeDollar.escapeDollar = piece.escapeDollar := by
  by_cases dollar : piece = .plain '$' <;> simp [escapeDollar, dollar]

/-- What a text means if `\$` is read as a dollar sign. -/
def readDollars (text : List Char) : List Char :=
  (pieces text).flatMap fun piece => if piece = .escaped '$' then ['$'] else piece.text

example : readDollars "\\$\\\\$\\n".toList = "$\\\\$\\n".toList := by decide

theorem escapeDollars_cons {character : Char} (other : character ≠ '\\')
    (rest : List Char) :
    escapeDollars false (character :: rest) =
      (Piece.plain character).escapeDollar.text ++ escapeDollars false rest := by
  have stays : (character == '\\') = false := by simpa using other
  by_cases dollar : character = '$' <;>
    simp [escapeDollars, Piece.escapeDollar, Piece.text, stays, dollar]

theorem escapeDollars_escaped (character : Char) (rest : List Char) :
    escapeDollars false ('\\' :: character :: rest) =
      '\\' :: character :: escapeDollars false rest := by
  simp [escapeDollars]

/-- Escaping takes the pieces one by one. -/
theorem pieces_escapeDollars (text : List Char) :
    pieces (escapeDollars false text) = (pieces text).map Piece.escapeDollar := by
  fun_induction pieces text with
  | case1 => rfl
  | case2 => rfl
  | case3 character rest induction =>
      rw [escapeDollars_escaped, pieces, induction]
      rfl
  | case4 character rest notLast notEscaping induction =>
      have other : character ≠ '\\' := by
        rintro rfl
        cases rest with
        | nil => exact notLast rfl rfl
        | cons first others => exact notEscaping first others rfl rfl
      rw [escapeDollars_cons other, List.map_cons, ← induction]
      by_cases dollar : character = '$'
      · rw [dollar]
        rfl
      · have kept : (Piece.plain character).escapeDollar = .plain character := by
          simp [Piece.escapeDollar, dollar]
        rw [kept]
        exact pieces_cons other _

theorem escapeDollars_eq (text : List Char) :
    escapeDollars false text =
      ((pieces text).map Piece.escapeDollar).flatMap Piece.text := by
  rw [← pieces_escapeDollars, flatMap_pieces]

theorem plain_dollar_not_mem (text : List Char) :
    .plain '$' ∉ pieces (escapeDollars false text) := by
  rw [pieces_escapeDollars, List.mem_map]
  rintro ⟨piece, _, equal⟩
  rw [Piece.escapeDollar] at equal
  split at equal
  · cases equal
  · contradiction

theorem readDollars_escapeDollars (text : List Char) :
    readDollars (escapeDollars false text) = readDollars text := by
  rw [readDollars, pieces_escapeDollars, List.flatMap_map, readDollars]
  congr 1
  funext piece
  by_cases dollar : piece = .plain '$' <;> simp [Piece.escapeDollar, dollar, Piece.text]

theorem escapeDollars_idem (text : List Char) :
    escapeDollars false (escapeDollars false text) = escapeDollars false text := by
  rw [escapeDollars_eq (escapeDollars false text), pieces_escapeDollars, List.map_map,
    escapeDollars_eq text]
  congr 2
  funext piece
  exact piece.escapeDollar_idem

/-- Escaping makes no other piece than an escaped dollar sign. -/
theorem mem_pieces_of_escapeDollars {piece : Piece} {text : List Char}
    (other : piece ≠ .escaped '$') (member : piece ∈ pieces (escapeDollars false text)) :
    piece ∈ pieces text := by
  rw [pieces_escapeDollars, List.mem_map] at member
  rcases member with ⟨source, among, rfl⟩
  rw [Piece.escapeDollar] at other ⊢
  split
  · next dollar => exact absurd (if_pos dollar) other
  · exact among

end ZephirPhp.Text

namespace ZephirPhp

open Text (pieces readDollars cutQuoted)

/-- The literal of a content interpolates nothing and means what the content means. It
ends at its last quote if the content has no quote on its own and no backslash that
escapes nothing. -/
theorem stringLiteral_quotes (content : String) :
    ∃ inside : String, stringLiteral content = "\"" ++ inside ++ "\"" ∧
      .plain '$' ∉ pieces inside.toList ∧
      readDollars inside.toList = readDollars content.toList ∧
      stringLiteral inside = "\"" ++ inside ++ "\"" ∧
      (.plain '"' ∉ pieces content.toList → .dangling ∉ pieces content.toList →
        cutQuoted (stringLiteral content).toList = some (inside.toList, [])) := by
  refine ⟨String.ofList (escapeDollars false content.toList), rfl, ?_, ?_, ?_, ?_⟩
  · rw [String.toList_ofList]
    exact Text.plain_dollar_not_mem content.toList
  · rw [String.toList_ofList]
    exact Text.readDollars_escapeDollars content.toList
  · rw [stringLiteral, String.toList_ofList, Text.escapeDollars_idem]
  · intro noQuote ended
    have spelled : (stringLiteral content).toList =
        '"' :: (escapeDollars false content.toList ++ ['"']) := by
      simp only [stringLiteral, String.toList_append, String.toList_ofList]
      rfl
    rw [spelled, String.toList_ofList]
    exact Text.untilQuote_append (by decide)
      (fun member => noQuote (Text.mem_pieces_of_escapeDollars (by decide) member))
      (fun member => ended (Text.mem_pieces_of_escapeDollars (by decide) member)) []

theorem stringLiteral_quotes_of_runs :
    let content := "$\\\\\\$\\\\$\\\""
    .plain '"' ∉ pieces content.toList ∧ .dangling ∉ pieces content.toList ∧
      ∃ inside : String, stringLiteral content = "\"" ++ inside ++ "\"" ∧
        cutQuoted (stringLiteral content).toList = some (inside.toList, []) ∧
        stringLiteral content = "\"\\$\\\\\\$\\\\\\$\\\"\"" := by
  have noQuote : .plain '"' ∉ pieces "$\\\\\\$\\\\$\\\"".toList := by decide
  have ended : .dangling ∉ pieces "$\\\\\\$\\\\$\\\"".toList := by decide
  rcases stringLiteral_quotes "$\\\\\\$\\\\$\\\"" with ⟨inside, literal, _, _, _, cut⟩
  exact ⟨noQuote, ended, inside, literal, cut noQuote ended, by decide⟩

end ZephirPhp
