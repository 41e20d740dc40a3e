import Mathlib.Data.List.Forall2
import ZephirPhp.Proofs.Text.Lines

/-! # Texts that are indented differently

The text of a closure has several lines when it becomes part of other code, and all of
them but the first are indented. Two texts are `Reindented` if they differ at most in
the blanks after line breaks. Such texts can be put side by side, are cut into lines
that have the same code (`SameCode`), and can be put together from such lines again.
-/

namespace ZephirPhp.Text

/-- The text without blank characters at its start. -/
def trimStart (text : String) : String :=
  String.ofList (trimStartChars text.toList)

example : trimStart " \ta b " = "a b " := by decide

/-! ## Trimming at both ends -/

theorem trimEndChars_eq_nil_iff (characters : List Char) :
    trimEndChars characters = [] ↔
      ∀ character ∈ characters, isBlank character = true := by
  rw [trimEndChars, List.reverse_eq_nil_iff, List.dropWhile_eq_nil_iff]
  simp

theorem trimEndChars_cons_eq (character : Char) (rest : List Char) :
    trimEndChars (character :: rest) =
      if isBlank character = true ∧ trimEndChars rest = [] then []
      else character :: trimEndChars rest := by
  split
  · next blank =>
      rw [trimEndChars_eq_nil_iff, List.forall_mem_cons, ← trimEndChars_eq_nil_iff]
      exact blank
  · next visible =>
      rcases trimEndChars_visible rest with nothing | some
      · have blank : isBlank character = false := by
          simpa [nothing] using visible
        have ends : EndsVisibly [character] := ⟨[], character, rfl, blank⟩
        exact trimEndChars_append ends rest
      · rw [trimEndChars, trimEndChars, List.reverse_cons, List.dropWhile_append]
        have remains : rest.reverse.dropWhile isBlank ≠ [] := by
          intro none
          exact some.ne_nil (by rw [trimEndChars, none]; rfl)
        simp [remains]

/-- It does not matter at which end a line is trimmed first. -/
theorem trimStartChars_trimEndChars (characters : List Char) :
    trimStartChars (trimEndChars characters) =
      trimEndChars (trimStartChars characters) := by
  induction characters with
  | nil => rfl
  | cons character rest induction =>
      rw [trimEndChars_cons_eq]
      by_cases blank : isBlank character = true
      · have dropped : trimStartChars (character :: rest) = trimStartChars rest :=
          List.dropWhile_cons_of_pos blank
        rw [dropped, ← induction]
        split
        · next nothing => rw [nothing.2]
        · exact List.dropWhile_cons_of_pos blank
      · have kept (more : List Char) : trimStartChars (character :: more) =
            character :: more :=
          List.dropWhile_cons_of_neg blank
        rw [if_neg fun nothing => blank nothing.1, kept, kept, trimEndChars_cons_eq,
          if_neg fun nothing => blank nothing.1]

theorem trimEndChars_trimStartChars_eq_nil_iff (characters : List Char) :
    trimEndChars (trimStartChars characters) = [] ↔ trimEndChars characters = [] := by
  constructor
  · intro nothing
    rw [← trimStartChars_trimEndChars, trimStartChars,
      List.dropWhile_eq_nil_iff] at nothing
    rcases trimEndChars_visible characters with none | ⟨earlier, last, ends, visible⟩
    · exact none
    · rw [ends] at nothing
      simp [nothing last (by simp)] at visible
  · intro nothing
    rw [← trimStartChars_trimEndChars, nothing]
    rfl

/-! ## Lines with the same code -/

/-- Two lines that differ at most in the blanks they begin with. -/
structure SameCode (line other : List Char) : Prop where
  whole : '\n' ∉ line
  otherWhole : '\n' ∉ other
  code : trimStartChars line = trimStartChars other

/-- Blanks that a line may begin with. -/
def IsMargin (characters : List Char) : Prop :=
  ∀ character ∈ characters, isBlank character = true ∧ character ≠ '\n'

theorem IsMargin.whole {margin : List Char} (blank : IsMargin margin) : '\n' ∉ margin :=
  fun member => (blank '\n' member).2 rfl

theorem IsMargin.trimStartChars_append {margin : List Char} (blank : IsMargin margin)
    (rest : List Char) : trimStartChars (margin ++ rest) = trimStartChars rest :=
  List.dropWhile_append_of_pos fun character member => (blank character member).1

namespace SameCode

variable {line other margin otherMargin : List Char}

theorem refl (whole : '\n' ∉ line) : SameCode line line :=
  ⟨whole, whole, rfl⟩

theorem indented (same : SameCode line other) (blank : IsMargin margin)
    (otherBlank : IsMargin otherMargin) :
    SameCode (margin ++ line) (otherMargin ++ other) := by
  refine ⟨by simp [blank.whole, same.whole], by simp [otherBlank.whole, same.otherWhole],
    ?_⟩
  rw [blank.trimStartChars_append, otherBlank.trimStartChars_append, same.code]

theorem trimmed (same : SameCode line other) :
    SameCode (trimEndChars line) (trimEndChars other) := by
  refine ⟨fun broken => same.whole (trimEndChars_subset line broken),
    fun broken => same.otherWhole (trimEndChars_subset other broken), ?_⟩
  rw [trimStartChars_trimEndChars, trimStartChars_trimEndChars, same.code]

theorem trimEndChars_eq_nil_iff (same : SameCode line other) :
    trimEndChars line = [] ↔ trimEndChars other = [] := by
  rw [← trimEndChars_trimStartChars_eq_nil_iff line, same.code,
    trimEndChars_trimStartChars_eq_nil_iff]

/-- Lines with the same code are trimmed to lines with the same code, or dropped
together. -/
theorem kept {lines others : List (List Char)}
    (same : List.Forall₂ SameCode lines others) :
    List.Forall₂ SameCode ((lines.map trimEndChars).filter (· ≠ []))
      ((others.map trimEndChars).filter (· ≠ [])) := by
  induction same with
  | nil => exact .nil
  | @cons line other lines others head tail induction =>
      rw [List.map_cons, List.map_cons, List.filter_cons, List.filter_cons]
      by_cases nothing : trimEndChars line = []
      · have otherNothing := head.trimEndChars_eq_nil_iff.mp nothing
        simpa [nothing, otherNothing] using induction
      · have otherSome := mt head.trimEndChars_eq_nil_iff.mpr nothing
        simpa [nothing, otherSome] using And.intro head.trimmed induction

theorem map_trimStartChars {lines others : List (List Char)}
    (same : List.Forall₂ SameCode lines others) :
    lines.map trimStartChars = others.map trimStartChars := by
  induction same with
  | nil => rfl
  | cons head tail induction => rw [List.map_cons, List.map_cons, head.code, induction]

end SameCode

/-! ## Texts -/

/-- Texts that differ at most in the blanks after their line breaks. -/
inductive Reindented : List Char → List Char → Prop
  | nil : Reindented [] []
  | same (character : Char) {left right : List Char} (later : Reindented left right) :
      Reindented (character :: left) (character :: right)
  | margin {front otherFront left right : List Char} (blank : IsMargin front)
      (otherBlank : IsMargin otherFront) (later : Reindented left right) :
      Reindented ('\n' :: (front ++ left)) ('\n' :: (otherFront ++ right))

theorem intercalate_break (line : List Char) (lines : List (List Char)) :
    ['\n'].intercalate (line :: lines) = line ++ lines.flatMap ('\n' :: ·) := by
  induction lines generalizing line with
  | nil => simp
  | cons next lines induction => simp [List.intercalate_cons_cons, induction]

namespace Reindented

variable {left right more other : List Char}

theorem refl (characters : List Char) : Reindented characters characters := by
  induction characters with
  | nil => exact .nil
  | cons character rest induction => exact .same character induction

theorem append (start : Reindented left right) (rest : Reindented more other) :
    Reindented (left ++ more) (right ++ other) := by
  induction start with
  | nil => exact rest
  | same character later induction => exact .same character induction
  | margin blank otherBlank later induction =>
      rw [List.cons_append, List.cons_append, List.append_assoc, List.append_assoc]
      exact .margin blank otherBlank induction

/-- Only blanks differ. -/
theorem filter_eq {kind : Char → Bool}
    (noBlank : ∀ character, isBlank character = true → kind character = false)
    (alike : Reindented left right) : left.filter kind = right.filter kind := by
  have none {margin : List Char} (blank : IsMargin margin) : margin.filter kind = [] := by
    rw [List.filter_eq_nil_iff]
    intro character member
    simp [noBlank character (blank character member).1]
  induction alike with
  | nil => rfl
  | same character later induction => rw [List.filter_cons, List.filter_cons, induction]
  | margin blank otherBlank later induction =>
      rw [List.filter_cons, List.filter_cons, List.filter_append,
        List.filter_append, none blank,
        none otherBlank, induction]

/-- The first lines are equal and all others have the same code. -/
theorem splitOn (alike : Reindented left right) :
    ∃ line lines others, left.splitOn '\n' = line :: lines ∧
      right.splitOn '\n' = line :: others ∧
      '\n' ∉ line ∧ List.Forall₂ SameCode lines others := by
  induction alike with
  | nil => exact ⟨[], [], [], rfl, rfl, by simp, .nil⟩
  | same character later induction =>
      rcases induction with ⟨line, lines, others, split, otherSplit, whole, same⟩
      by_cases broken : character = '\n'
      · subst broken
        refine ⟨[], line :: lines, line :: others, ?_,
          ?_, by simp, .cons (.refl whole) same⟩
        · rw [splitOn_break, split]
        · rw [splitOn_break, otherSplit]
      · have single : '\n' ∉ [character] := by simpa using Ne.symm broken
        exact ⟨character :: line, lines, others, splitOn_append_of_not_mem single split,
          splitOn_append_of_not_mem single otherSplit, by
            simp [whole, Ne.symm broken], same⟩
  | @margin front otherFront left right blank otherBlank later induction =>
      rcases induction with ⟨line, lines, others, split, otherSplit, whole, same⟩
      have indented : SameCode (front ++ line) (otherFront ++ line) :=
        (SameCode.refl whole).indented blank otherBlank
      refine ⟨[], (front ++ line) :: lines, (otherFront ++ line) :: others, ?_,
        ?_, by simp,
        .cons indented same⟩
      · rw [splitOn_break, splitOn_append_of_not_mem blank.whole split]
      · rw [splitOn_break, splitOn_append_of_not_mem otherBlank.whole otherSplit]

theorem keptLines (alike : Reindented left right) :
    List.Forall₂ SameCode (keptLines left) (keptLines right) := by
  rcases alike.splitOn with ⟨line, lines, others, split, otherSplit, whole, same⟩
  rw [Text.keptLines, Text.keptLines, split, otherSplit]
  exact SameCode.kept (.cons (.refl whole) same)

/-- If texts begin with the same visible code, so do their first lines. -/
theorem keptLines_of_front {front : List Char} (whole : '\n' ∉ front)
    (visible : trimEndChars front ≠ []) (alike : Reindented left right) :
    ∃ line lines others, Text.keptLines (front ++ left) = line :: lines ∧
      Text.keptLines (front ++ right) = line :: others ∧ '\n' ∉ line ∧
        List.Forall₂ SameCode lines others := by
  rcases alike.splitOn with ⟨line, lines, others, split, otherSplit, lineWhole, same⟩
  have remains : trimEndChars (front ++ line) ≠ [] := by
    rw [ne_eq, trimEndChars_eq_nil_iff] at visible ⊢
    exact fun blank => visible fun character member => blank character (by simp [member])
  refine ⟨trimEndChars (front ++ line), _, _, ?_, ?_, ?_, SameCode.kept same⟩
  · rw [Text.keptLines, splitOn_append_of_not_mem whole split, List.map_cons,
      List.filter_cons_of_pos (by simpa using remains)]
  · rw [Text.keptLines, splitOn_append_of_not_mem whole otherSplit, List.map_cons,
      List.filter_cons_of_pos (by simpa using remains)]
  · intro broken
    have inside := trimEndChars_subset _ broken
    simp [whole, lineWhole] at inside

/-! ## Putting lines together -/

theorem of_sameCode {line other : List Char} (same : SameCode line other) :
    Reindented ('\n' :: line) ('\n' :: other) := by
  have margin {line : List Char} (whole : '\n' ∉ line) :
      IsMargin (line.takeWhile isBlank) := by
    intro character member
    refine ⟨List.mem_takeWhile_imp member, ?_⟩
    rintro rfl
    exact whole (List.takeWhile_subset isBlank member)
  rw [← List.takeWhile_append_dropWhile (p := isBlank) (l := line),
    ← List.takeWhile_append_dropWhile (p := isBlank) (l := other)]
  have code : line.dropWhile isBlank = other.dropWhile isBlank := same.code
  rw [code]
  exact .margin (margin same.whole) (margin same.otherWhole) (.refl _)

theorem intercalate (line : List Char) {lines others : List (List Char)}
    (same : List.Forall₂ SameCode lines others) :
    Reindented (['\n'].intercalate (line :: lines))
      (['\n'].intercalate (line :: others)) := by
  rw [intercalate_break, intercalate_break]
  refine (Reindented.refl line).append ?_
  induction same with
  | nil => exact .nil
  | cons head tail induction => exact (of_sameCode head).append induction

end Reindented

/-! ## Lines of texts that end in a line break -/

/-- The line without a carriage return at its end. -/
def dropReturn (line : List Char) : List Char :=
  if line.getLast? = some '\r' then line.dropLast else line

theorem dropReturn_cons {character : Char} {line : List Char}
    (other : line = [] → character ≠ '\r') :
    dropReturn (character :: line) = character :: dropReturn line := by
  cases line with
  | nil => simp [dropReturn, other rfl]
  | cons next rest =>
      simp only [dropReturn, List.getLast?_cons_cons, List.dropLast_cons_cons]
      split <;> rfl

theorem trimStartChars_dropReturn (line : List Char) :
    trimStartChars (dropReturn line) = dropReturn (trimStartChars line) := by
  induction line with
  | nil => rfl
  | cons character rest induction =>
      by_cases last : rest = [] ∧ character = '\r'
      · rw [last.1, last.2]
        rfl
      · have cut : dropReturn (character :: rest) = character :: dropReturn rest :=
          dropReturn_cons fun none atEnd => last ⟨none, atEnd⟩
        rw [cut]
        by_cases blank : isBlank character = true
        · have dropped (more : List Char) :
              trimStartChars (character :: more) = trimStartChars more :=
            List.dropWhile_cons_of_pos blank
          rw [dropped, dropped, induction]
        · have kept (more : List Char) : trimStartChars (character :: more) =
              character :: more :=
            List.dropWhile_cons_of_neg blank
          rw [kept, kept, cut]

theorem splitOn_eq_nil_cons_iff (characters : List Char) :
    (∃ pieces, characters.splitOn '\n' = [] :: pieces) ↔
      ∃ tail, characters ++ ['\n'] = '\n' :: tail := by
  cases characters with
  | nil => simp
  | cons character rest =>
      cases pieces : rest.splitOn '\n' with
      | nil => exact absurd pieces (List.splitOn_ne_nil _ _)
      | cons piece pieces =>
          rw [List.splitOn_cons_eq_if_modifyHead, pieces]
          by_cases broken : character = '\n'
          · simp [broken]
          · simp [broken]

/-- The lines of a text before a line break at its end. -/
theorem lineChars_append_break (characters : List Char) :
    lineChars (characters ++ ['\n']) = (characters.splitOn '\n').map dropReturn := by
  induction characters with
  | nil => rfl
  | cons character rest induction =>
      by_cases broken : character = '\n'
      · rw [broken, splitOn_break, List.cons_append, lineChars, induction]
        rfl
      cases split : rest.splitOn '\n' with
      | nil => exact absurd split (List.splitOn_ne_nil _ _)
      | cons piece pieces =>
          have single : '\n' ∉ [character] := by simpa using Ne.symm broken
          have extended : (character :: rest).splitOn '\n' =
              (character :: piece) :: pieces :=
            splitOn_append_of_not_mem single split
          rw [split, List.map_cons] at induction
          rw [extended, List.map_cons, List.cons_append]
          -- A carriage return goes with a line break that follows at once.
          by_cases taken : piece = [] ∧ character = '\r'
          · rcases (splitOn_eq_nil_cons_iff rest).mp ⟨_, taken.1 ▸ split⟩ with
              ⟨tail, begun⟩
            rw [begun, lineChars, taken.1] at induction
            rw [taken.1, taken.2, begun, lineChars, induction]
            rfl
          · have apart (tail : List Char) (isReturn : character = '\r') :
                rest ++ ['\n'] ≠ '\n' :: tail := by
              intro begun
              rcases (splitOn_eq_nil_cons_iff rest).mpr ⟨tail, begun⟩ with ⟨others, found⟩
              rw [split, List.cons.injEq] at found
              exact taken ⟨found.1, isReturn⟩
            have cut : dropReturn (character :: piece) = character :: dropReturn piece :=
              dropReturn_cons fun none atEnd => taken ⟨none, atEnd⟩
            rw [lineChars, induction, cut]
            · exact apart
            · exact broken

/-- Texts that are indented differently have as many lines, with the same code. -/
theorem Reindented.lines_eq {left right : List Char} (alike : Reindented left right) :
    (lineChars (left ++ ['\n'])).map trimStartChars =
      (lineChars (right ++ ['\n'])).map trimStartChars := by
  rcases alike.splitOn with ⟨line, lines, others, split, otherSplit, whole, same⟩
  have code : trimStartChars ∘ dropReturn = dropReturn ∘ trimStartChars :=
    funext trimStartChars_dropReturn
  rw [lineChars_append_break, lineChars_append_break, split, otherSplit, List.map_map,
    List.map_map,
    code, ← List.map_map, ← List.map_map, List.map_cons, SameCode.map_trimStartChars same]
  rfl

end ZephirPhp.Text
