import Mathlib.Data.List.TakeWhile
import ZephirPhp.Proofs.Text.Indentation

/-! # How far lines are set in

The lines of a text after its first one begin with some marks each, where a mark is the
character that indents. `Inset` follows the greatest number of them through the putting
together of texts; a line that has code already is not set in further by what is written
after it. Trimming lines at their ends does not touch it either.
-/

namespace ZephirPhp.Text

/-- How many marks a line begins with. -/
def lead (mark : Char) (line : List Char) : Nat :=
  (line.takeWhile (· == mark)).length

theorem ne_break_of_visible {character : Char} (visible : isBlank character = false) :
    character ≠ '\n' := by
  rintro rfl
  cases visible

/-- A line that is not blank. -/
structure HasCode (line : List Char) : Prop where
  whole : '\n' ∉ line
  visible : ∃ character ∈ line, isBlank character = false

/-- The greatest of some numbers, zero if there is none. -/
def greatest (numbers : List Nat) : Nat :=
  numbers.foldr max 0

@[simp] theorem greatest_nil : greatest [] = 0 := rfl

@[simp] theorem greatest_cons (number : Nat) (rest : List Nat) :
    greatest (number :: rest) = max number (greatest rest) := rfl

/-! ## Marks of a line -/

section

variable {mark : Char} {line : List Char}

theorem replicate_prefix_iff (count : Nat) :
    List.replicate count mark <+: line ↔ count ≤ lead mark line := by
  induction count generalizing line with
  | zero => simp
  | succ count induction =>
      cases line with
      | nil => simp [lead, List.replicate_succ]
      | cons character rest =>
          rw [List.replicate_succ, List.cons_prefix_cons, induction, lead, lead,
            List.takeWhile_cons]
          by_cases same : mark = character
          · simp [same]
          · simp [same, Ne.symm same]

theorem lead_replicate_append (count : Nat) :
    lead mark (List.replicate count mark ++ line) = count + lead mark line := by
  have all : ∀ character ∈ List.replicate count mark, (character == mark) = true := by
    intro character member
    rw [List.eq_of_mem_replicate member]
    exact beq_self_eq_true mark
  rw [lead, List.takeWhile_append_of_pos all, List.length_append, List.length_replicate]
  rfl

theorem lead_of_ne {character : Char} (other : character ≠ mark) (rest : List Char) :
    lead mark (character :: rest) = 0 := by
  simp [lead, other]

variable (blank : isBlank mark = true)
include blank

/-- What comes after visible code does not set a line in. -/
theorem lead_append (visible : ∃ character ∈ line, isBlank character = false)
    (rest : List Char) :
    lead mark (line ++ rest) = lead mark line := by
  induction line with
  | nil =>
      rcases visible with ⟨character, member, _⟩
      cases member
  | cons first others induction =>
      by_cases same : first = mark
      · have later : ∃ character ∈ others, isBlank character = false := by
          rcases visible with ⟨character, member, visible⟩
          rcases List.mem_cons.mp member with rfl | there
          · rw [same, blank] at visible
            cases visible
          · exact ⟨character, there, visible⟩
        have inner := induction later
        simp only [lead] at inner ⊢
        simp [same, inner]
      · rw [List.cons_append, lead_of_ne same, lead_of_ne same]

theorem lead_of_visible {character : Char} (visible : isBlank character = false)
    (rest : List Char) : lead mark (character :: rest) = 0 := by
  apply lead_of_ne
  rintro rfl
  rw [blank] at visible
  cases visible

end

/-- A carriage return is no mark. -/
theorem lead_dropReturn {mark : Char} (other : mark ≠ '\r') (line : List Char) :
    lead mark (dropReturn line) = lead mark line := by
  induction line with
  | nil => rfl
  | cons character rest induction =>
      by_cases last : rest = [] ∧ character = '\r'
      · rw [last.1, last.2, lead_of_ne (Ne.symm other)]
        rfl
      · rw [dropReturn_cons fun none atEnd => last ⟨none, atEnd⟩]
        simp only [lead] at induction ⊢
        by_cases same : character = mark
        · simp [same, induction]
        · simp [same]

namespace HasCode

variable {line : List Char}

theorem append (code : HasCode line) {rest : List Char} (whole : '\n' ∉ rest) :
    HasCode (line ++ rest) := by
  refine ⟨by simp [code.whole, whole], ?_⟩
  rcases code.visible with ⟨character, member, visible⟩
  exact ⟨character, List.mem_append_left rest member, visible⟩

theorem indented (code : HasCode line) {margin : List Char} (isMargin : IsMargin margin) :
    HasCode (margin ++ line) := by
  refine ⟨by simp [code.whole, isMargin.whole], ?_⟩
  rcases code.visible with ⟨character, member, visible⟩
  exact ⟨character, List.mem_append_right margin member, visible⟩

theorem trimEndChars_ne_nil (code : HasCode line) : trimEndChars line ≠ [] := by
  rw [ne_eq, trimEndChars_eq_nil_iff]
  intro blank
  rcases code.visible with ⟨character, member, visible⟩
  rw [blank character member] at visible
  cases visible

theorem trimmed (code : HasCode line) : HasCode (trimEndChars line) := by
  refine ⟨fun broken => code.whole (trimEndChars_subset line broken), ?_⟩
  have ends := (trimEndChars_visible line).resolve_left code.trimEndChars_ne_nil
  rcases ends with ⟨front, character, split, visible⟩
  exact ⟨character, by simp [split], visible⟩

theorem lead_trimEndChars {mark : Char} (blank : isBlank mark = true)
    (code : HasCode line) :
    lead mark (trimEndChars line) = lead mark line := by
  have split := List.takeWhile_append_dropWhile (p := isBlank) (l := line.reverse)
  have joined : trimEndChars line ++ (line.reverse.takeWhile isBlank).reverse = line := by
    rw [trimEndChars, ← List.reverse_append, split, List.reverse_reverse]
  rw [← lead_append blank code.trimmed.visible, joined]

end HasCode

/-! ## Lines of a text -/

theorem splitOn_intercalate {line : List Char} {lines : List (List Char)}
    (whole : '\n' ∉ line) (each : ∀ later ∈ lines, '\n' ∉ later) :
    (['\n'].intercalate (line :: lines)).splitOn '\n' = line :: lines := by
  rw [intercalate_break]
  induction lines generalizing line with
  | nil =>
      have empty : ([] : List Char).splitOn '\n' = [[]] := rfl
      rw [List.flatMap_nil, splitOn_append_of_not_mem whole empty, List.append_nil]
  | cons next others induction =>
      rw [List.forall_mem_cons] at each
      have later := induction each.1 each.2
      rw [List.flatMap_cons, List.cons_append,
        splitOn_append_of_not_mem whole (splitOn_break _), later, List.append_nil]

theorem lineChars_of_line {line : List Char} (whole : '\n' ∉ line) (some : line ≠ []) :
    lineChars line = [line] := by
  fun_induction lineChars line with
  | case1 => exact absurd rfl some
  | case2 rest => exact absurd (by simp) whole
  | case3 rest => exact absurd (by simp) whole
  | case4 character rest _ _ none induction =>
      rw [List.mem_cons, not_or] at whole
      by_cases last : rest = []
      · rw [last]
      · rw [induction whole.2 last] at none
        cases none
  | case5 character rest _ _ first more found induction =>
      rw [List.mem_cons, not_or] at whole
      have some : rest ≠ [] := by
        rintro rfl
        cases found
      rw [induction whole.2 some, List.cons.injEq] at found
      rw [← found.1, ← found.2]

/-! ## Rows of lines -/

/-- Lines with code, of which those that are set in furthest begin with so many marks. -/
inductive CodeRows (mark : Char) : Nat → List (List Char) → Prop
  | nil : CodeRows mark 0 []
  | cons {line : List Char} {count : Nat} {rows : List (List Char)} (code : HasCode line)
      (later : CodeRows mark count rows) :
      CodeRows mark (max (lead mark line) count) (line :: rows)

namespace CodeRows

variable {mark : Char} {count : Nat} {rows : List (List Char)}

theorem trimmed (blank : isBlank mark = true) (code : CodeRows mark count rows) :
    CodeRows mark count (rows.map trimEndChars) := by
  induction code with
  | nil => exact .nil
  | cons line later induction =>
      rw [List.map_cons, ← line.lead_trimEndChars blank]
      exact .cons line.trimmed induction

/-- No line with code is dropped. -/
theorem kept (code : CodeRows mark count rows) :
    (rows.map trimEndChars).filter (· ≠ []) = rows.map trimEndChars := by
  induction code with
  | nil => rfl
  | cons line later induction =>
      rw [List.map_cons,
        List.filter_cons_of_pos (by simpa using line.trimEndChars_ne_nil),
        induction]

end CodeRows

/-! ## Texts -/

/-- The lines after the first one have code, and those that are set in furthest begin with
so many marks. -/
inductive Inset (mark : Char) : Nat → List Char → Prop
  | nil : Inset mark 0 []
  | same {character : Char} {count : Nat} {text : List Char} (inLine : character ≠ '\n')
      (later : Inset mark count text) : Inset mark count (character :: text)
  | row {front : List Char} {count : Nat} {text : List Char} (code : HasCode front)
      (later : Inset mark count text) :
      Inset mark (max (lead mark front) count) ('\n' :: (front ++ text))

namespace Inset

variable {mark : Char} {count other : Nat} {text rest : List Char}

theorem ofLine (whole : '\n' ∉ text) : Inset mark 0 text := by
  induction text with
  | nil => exact .nil
  | cons character rest induction =>
      rw [List.mem_cons, not_or] at whole
      exact .same (Ne.symm whole.1) (induction whole.2)

theorem append (start : Inset mark count text) (later : Inset mark other rest) :
    Inset mark (max count other) (text ++ rest) := by
  induction start with
  | nil => rwa [Nat.zero_max]
  | same inLine _ induction => exact .same inLine induction
  | row code _ induction =>
      rw [List.cons_append, List.append_assoc, Nat.max_assoc]
      exact .row code induction

/-- What is written in the last line does not matter. -/
theorem left (start : Inset mark count text) (whole : '\n' ∉ rest) :
    Inset mark count (text ++ rest) := by
  rw [← Nat.max_zero count]
  exact start.append (.ofLine whole)

/-- What is written in the first line does not matter. -/
theorem right (whole : '\n' ∉ text) (later : Inset mark count rest) :
    Inset mark count (text ++ rest) := by
  rw [← Nat.zero_max count]
  exact (ofLine whole).append later

theorem tail {character : Char} (inset : Inset mark count (character :: text))
    (inLine : character ≠ '\n') : Inset mark count text := by
  cases inset with
  | same _ later => exact later
  | row code later => exact absurd rfl inLine

/-- The text as the next line, which begins with the given code. -/
theorem line {front : List Char} (code : HasCode front) (flush : lead mark front = 0)
    (later : Inset mark count text) : Inset mark count ('\n' :: (front ++ text)) := by
  rw [← Nat.zero_max count, ← flush]
  exact .row code later

theorem splitOn (blank : isBlank mark = true) (inset : Inset mark count text) :
    ∃ first rows, text.splitOn '\n' = first :: rows ∧ '\n' ∉ first ∧
      CodeRows mark count rows := by
  induction inset with
  | nil => exact ⟨[], [], rfl, by simp, .nil⟩
  | @same character count text inLine later induction =>
      rcases induction with ⟨first, rows, split, whole, code⟩
      have single : '\n' ∉ [character] := by simpa using Ne.symm inLine
      exact ⟨character :: first, rows, splitOn_append_of_not_mem single split,
        by simp [whole, Ne.symm inLine], code⟩
  | @row front count text code later induction =>
      rcases induction with ⟨first, rows, split, whole, others⟩
      refine ⟨[], (front ++ first) :: rows, ?_, by simp, ?_⟩
      · rw [splitOn_break, splitOn_append_of_not_mem code.whole split]
      · -- The rest of the line comes after code, so it is set in as far as its front is.
        rw [← lead_append blank code.visible first]
        exact .cons (code.append whole) others

/-- All lines of a text whose first line has code. -/
theorem keptLines (blank : isBlank mark = true)
    (inset : Inset mark count ('\n' :: text)) :
    CodeRows mark count (Text.keptLines text) ∧ Text.keptLines text ≠ [] := by
  rcases inset.splitOn blank with ⟨first, rows, split, _, code⟩
  rw [splitOn_break, List.cons.injEq] at split
  rw [Text.keptLines, split.2, code.kept]
  refine ⟨code.trimmed blank, ?_⟩
  rw [ne_eq, List.map_eq_nil_iff, ← split.2]
  exact List.splitOn_ne_nil _ _

/-- The first line of a text with code stays the first one, and begins as the text
does. -/
theorem keptLines_cons {character : Char} (blank : isBlank mark = true)
    (visible : isBlank character = false) (inset : Inset mark count text) :
    ∃ first rows, Text.keptLines (character :: text) = (character :: first) :: rows ∧
      '\n' ∉ character :: first ∧ CodeRows mark count rows := by
  have inLine := ne_break_of_visible visible
  rcases inset.splitOn blank with ⟨line, rows, split, whole, code⟩
  have single : '\n' ∉ [character] := by simpa using Ne.symm inLine
  have hasCode : HasCode (character :: line) :=
    ⟨by simp [whole, Ne.symm inLine], character, List.mem_cons_self, visible⟩
  have alone : EndsVisibly [character] := ⟨[], character, rfl, visible⟩
  have begun : trimEndChars (character :: line) = character :: trimEndChars line :=
    trimEndChars_append alone line
  have pieces : (character :: text).splitOn '\n' = (character :: line) :: rows :=
    splitOn_append_of_not_mem single split
  refine ⟨trimEndChars line, rows.map trimEndChars, ?_, ?_, code.trimmed blank⟩
  · rw [Text.keptLines, pieces, List.map_cons,
      List.filter_cons_of_pos (by simpa using hasCode.trimEndChars_ne_nil),
      code.kept, begun]
  · rw [← begun]
    exact hasCode.trimmed.whole

end Inset

end ZephirPhp.Text
