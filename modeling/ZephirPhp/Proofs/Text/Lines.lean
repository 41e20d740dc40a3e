import Mathlib.Data.List.Basic
import Mathlib.Data.List.TakeWhile
import ZephirPhp.Layout
import ZephirPhp.Text.Blank

/-! # Texts in lines

Code is laid out line by line: blanks at the end of a line are dropped, and so are lines
of blanks. The lines that are kept are those of the parts before and after a line break
(`keptLines_append_break`), which settles what becomes of a text that stands somewhere
among others.
-/

namespace ZephirPhp.Text

/-- Whether a text stands somewhere in another one. -/
def Occurs (part whole : String) : Prop :=
  part.toList <:+: whole.toList

instance (part whole : String) : Decidable (Occurs part whole) :=
  inferInstanceAs (Decidable (_ <:+: _))

namespace Occurs

variable {part text : String}

theorem left (occurs : Occurs part text) {rest : String} :
    Occurs part (text ++ rest) := by
  rw [Occurs, String.toList_append]
  exact occurs.trans (List.prefix_append _ _).isInfix

theorem right {front : String} (occurs : Occurs part text) :
    Occurs part (front ++ text) := by
  rw [Occurs, String.toList_append]
  exact occurs.trans (List.suffix_append _ _).isInfix

theorem intercalate {separator : String} {texts : List String} (member : text ∈ texts)
    (occurs : Occurs part text) : Occurs part (separator.intercalate texts) := by
  induction texts with
  | nil => cases member
  | cons first rest induction =>
      cases rest with
      | nil =>
          rw [List.mem_singleton] at member
          rw [String.intercalate_singleton, ← member]
          exact occurs
      | cons second others =>
          rw [String.intercalate_cons_cons]
          rcases List.mem_cons.mp member with rfl | later
          · exact occurs.left.left
          · exact (induction later).right

end Occurs

/-! ## Ends of lines -/

/-- Whether the last character is there and is not blank. -/
def EndsVisibly (characters : List Char) : Prop :=
  ∃ earlier last, characters = earlier ++ [last] ∧ isBlank last = false

theorem EndsVisibly.append {characters : List Char} (visible : EndsVisibly characters)
    (front : List Char) : EndsVisibly (front ++ characters) := by
  rcases visible with ⟨earlier, last, rfl, visible⟩
  exact ⟨front ++ earlier, last, by simp, visible⟩

theorem EndsVisibly.ne_nil {characters : List Char} (visible : EndsVisibly characters) :
    characters ≠ [] := by
  rcases visible with ⟨earlier, last, rfl, _⟩
  simp

theorem EndsVisibly.of_append {front rest : List Char}
    (visible : EndsVisibly (front ++ rest)) (some : rest ≠ []) : EndsVisibly rest := by
  rcases visible with ⟨earlier, last, equal, visible⟩
  rcases List.eq_nil_or_concat rest with rfl | ⟨inside, final, rfl⟩
  · exact absurd rfl some
  · have same : (front ++ inside) ++ [final] = earlier ++ [last] := by simpa using equal
    cases (List.append_inj' same rfl).2
    exact ⟨inside, last, by simp, visible⟩

/-- A text that ends in a visible character also ends so after a line break, unless it
ends there. -/
theorem EndsVisibly.of_append_break {front rest : List Char}
    (visible : EndsVisibly (front ++ '\n' :: rest)) : EndsVisibly rest := by
  have ends : EndsVisibly ('\n' :: rest) := visible.of_append (by simp)
  cases rest with
  | nil =>
      rcases ends with ⟨earlier, last, equal, visible⟩
      have same : [] ++ ['\n'] = earlier ++ [last] := equal
      cases (List.append_inj' same rfl).2
      cases visible
  | cons first others =>
      rw [← List.singleton_append] at ends
      exact ends.of_append (by simp)

/-- A text that ends in a visible character does not reach into a line break at the
end. -/
theorem EndsVisibly.infix_of_append_break {part text : List Char}
    (visible : EndsVisibly part) (occurs : part <:+: text ++ ['\n']) :
    part <:+: text := by
  rcases List.infix_concat_iff.mp occurs with atEnd | before
  · rcases List.suffix_concat_iff.mp atEnd with nothing | ⟨inside, rfl, _⟩
    · exact absurd nothing visible.ne_nil
    · rcases visible with ⟨earlier, last, equal, visible⟩
      cases (List.append_inj' equal rfl).2
      cases visible
  · exact before

theorem trimEndChars_append {front : List Char} (visible : EndsVisibly front)
    (rest : List Char) :
    trimEndChars (front ++ rest) = front ++ trimEndChars rest := by
  rcases visible with ⟨earlier, last, rfl, visible⟩
  rw [trimEndChars, trimEndChars, List.reverse_append, List.dropWhile_append]
  split
  · next blank =>
      rw [List.isEmpty_iff.mp blank]
      simp [visible]
  · simp

theorem trimEndChars_of_visible {characters : List Char}
    (visible : EndsVisibly characters) :
    trimEndChars characters = characters := by
  rw [← List.append_nil characters, trimEndChars_append visible []]
  rfl

/-- What remains after trimming is nothing or ends in a visible character. -/
theorem trimEndChars_visible (characters : List Char) :
    trimEndChars characters = [] ∨ EndsVisibly (trimEndChars characters) := by
  have first := List.head?_dropWhile_not isBlank characters.reverse
  rw [trimEndChars]
  cases remaining : characters.reverse.dropWhile isBlank with
  | nil => exact .inl rfl
  | cons last earlier =>
      rw [remaining] at first
      exact .inr ⟨earlier.reverse, last, by simp, first⟩

theorem trimEndChars_subset (characters : List Char) :
    trimEndChars characters ⊆ characters := by
  intro character member
  rw [trimEndChars, List.mem_reverse] at member
  exact List.mem_reverse.mp (List.dropWhile_subset isBlank member)

/-- What is dropped at the end of a text after a character depends on the trimmed text
only. -/
theorem trimEndChars_cons (character : Char) {left right : List Char}
    (same : trimEndChars left = trimEndChars right) :
    trimEndChars (character :: left) = trimEndChars (character :: right) := by
  have dropped := List.reverse_injective same
  rw [trimEndChars, trimEndChars, List.reverse_cons, List.reverse_cons,
    List.dropWhile_append,
    List.dropWhile_append, dropped]

/-- Trimming drops no character of a kind that blanks are not of. -/
theorem filter_trimEndChars {kind : Char → Bool}
    (noBlank : ∀ character, isBlank character = true → kind character = false)
    (characters : List Char) :
    (trimEndChars characters).filter kind = characters.filter kind := by
  have split := List.takeWhile_append_dropWhile (p := isBlank) (l := characters.reverse)
  have dropped : (characters.reverse.takeWhile isBlank).filter kind = [] := by
    rw [List.filter_eq_nil_iff]
    intro character member
    simp [noBlank character (List.mem_takeWhile_imp member)]
  have kept := congrArg (List.filter kind) split
  rw [List.filter_append, dropped, List.nil_append] at kept
  rw [trimEndChars, List.filter_reverse, kept, List.filter_reverse, List.reverse_reverse]

/-! ## Lines that are kept -/

theorem splitOn_break (rest : List Char) :
    ('\n' :: rest).splitOn '\n' = [] :: rest.splitOn '\n' := by
  rw [List.splitOn_cons_eq_if_modifyHead, if_pos (beq_self_eq_true _)]

theorem splitOn_append_of_not_mem {front rest line : List Char} {more : List (List Char)}
    (whole : '\n' ∉ front) (split : rest.splitOn '\n' = line :: more) :
    (front ++ rest).splitOn '\n' = (front ++ line) :: more := by
  induction front with
  | nil => exact split
  | cons character front induction =>
      rw [List.mem_cons, not_or] at whole
      rw [List.cons_append, List.splitOn_cons_eq_if_modifyHead,
        if_neg (by simpa using Ne.symm whole.1), induction whole.2]
      rfl

/-- The lines of a text without the blanks at their ends, and without those of blanks. -/
def keptLines (characters : List Char) : List (List Char) :=
  ((characters.splitOn '\n').map trimEndChars).filter (· ≠ [])

theorem keptLines_append_break (front rest : List Char) :
    keptLines (front ++ '\n' :: rest) = keptLines front ++ keptLines rest := by
  rw [keptLines, List.splitOn_append_cons_self, List.map_append, List.filter_append]
  rfl

theorem keptLines_of_line {line : List Char} (whole : '\n' ∉ line)
    (visible : trimEndChars line ≠ []) : keptLines line = [trimEndChars line] := by
  rw [keptLines, List.splitOn_eq_singleton whole]
  simp [visible]

theorem flatMap_splitOn_filter {kind : Char → Bool} (noBreak : kind '\n' = false)
    (characters : List Char) :
    (characters.splitOn '\n').flatMap (List.filter kind) = characters.filter kind := by
  induction characters with
  | nil => rfl
  | cons character rest induction =>
      rw [List.splitOn_cons_eq_if_modifyHead]
      by_cases broken : character = '\n'
      · simp [broken, noBreak, induction]
      · rw [if_neg (by simpa using broken), List.filter_cons, ← induction]
        cases pieces : rest.splitOn '\n' with
        | nil => exact absurd pieces (List.splitOn_ne_nil _ _)
        | cons piece others =>
            simp only [List.modifyHead_cons, List.flatMap_cons, List.filter_cons]
            split <;> rfl

/-- The kept lines have all characters of a kind that blanks are not of, in their
order. -/
theorem flatMap_keptLines_filter {kind : Char → Bool}
    (noBlank : ∀ character, isBlank character = true → kind character = false)
    (characters : List Char) :
    (keptLines characters).flatMap (List.filter kind) = characters.filter kind := by
  rw [keptLines, ← flatMap_splitOn_filter (noBlank '\n' rfl) characters]
  induction characters.splitOn '\n' with
  | nil => rfl
  | cons piece others induction =>
      rw [List.map_cons, List.filter_cons, List.flatMap_cons, ← induction,
        ← filter_trimEndChars noBlank piece]
      by_cases nothing : trimEndChars piece = []
      · simp [nothing]
      · simp [nothing]

/-- A carriage return at the end of a line is a blank, so it makes no difference that a
line feed may take one along. -/
theorem map_trimEndChars_splitOn (characters : List Char) :
    ∃ extra, (extra = [] ∨ extra = [[]]) ∧ (characters.splitOn '\n').map trimEndChars =
      (lineChars characters).map trimEndChars ++ extra := by
  fun_induction lineChars characters with
  | case1 => exact ⟨[[]], .inr rfl, rfl⟩
  | case2 rest induction =>
      rcases induction with ⟨extra, short, split⟩
      refine ⟨extra, short, ?_⟩
      have broken := List.splitOn_append_cons_self (a := '\n') ['\r'] rest
      rw [List.singleton_append] at broken
      rw [broken, List.map_append, split]
      rfl
  | case3 rest induction =>
      rcases induction with ⟨extra, short, split⟩
      refine ⟨extra, short, ?_⟩
      rw [splitOn_break, List.map_cons, split]
      rfl
  | case4 character rest _ other none induction =>
      rcases induction with ⟨extra, short, split⟩
      refine ⟨[], .inl rfl, ?_⟩
      rw [none, List.map_nil, List.nil_append] at split
      rw [List.splitOn_cons_eq_if_modifyHead, if_neg (by simpa using other)]
      cases pieces : rest.splitOn '\n' with
      | nil => exact absurd pieces (List.splitOn_ne_nil _ _)
      | cons piece others =>
          rw [pieces, List.map_cons] at split
          rcases short with rfl | rfl
          · cases split
          · rw [List.cons.injEq, List.map_eq_nil_iff] at split
            have alone : trimEndChars (character :: piece) = trimEndChars [character] :=
              trimEndChars_cons character split.1
            rw [List.modifyHead_cons, split.2, List.map_singleton,
              List.map_singleton, alone]
            rfl
  | case5 character rest _ other line more found induction =>
      rcases induction with ⟨extra, short, split⟩
      refine ⟨extra, short, ?_⟩
      rw [List.splitOn_cons_eq_if_modifyHead, if_neg (by simpa using other)]
      cases pieces : rest.splitOn '\n' with
      | nil => exact absurd pieces (List.splitOn_ne_nil _ _)
      | cons piece others =>
          rw [pieces, found, List.map_cons, List.map_cons, List.cons_append,
            List.cons.injEq] at split
          rw [List.modifyHead_cons, List.map_cons, List.map_cons,
            List.cons_append, split.2,
            trimEndChars_cons character split.1]

theorem filter_lines (text : String) :
    ((lines text).map trimEnd).filter (· ≠ "") =
      (keptLines text.toList).map String.ofList := by
  rcases map_trimEndChars_splitOn text.toList with ⟨extra, short, split⟩
  have nothing : extra.filter (· ≠ []) = [] := by
    rcases short with rfl | rfl <;> rfl
  have trimmed : (lines text).map trimEnd =
      ((lineChars text.toList).map trimEndChars).map String.ofList := by
    simp [lines, trimEnd]
  rw [keptLines, split, List.filter_append, nothing, List.append_nil, trimmed,
    List.filter_map]
  congr 2
  funext line
  simp

/-! ## Characters of a kind -/

/-- The characters of a kind in a text, in their order. -/
def ofKind (kind : Char → Bool) (text : String) : List Char :=
  text.toList.filter kind

@[simp] theorem ofKind_append (kind : Char → Bool) (left right : String) :
    ofKind kind (left ++ right) = ofKind kind left ++ ofKind kind right := by
  simp [ofKind]

section

variable {kind : Char → Bool}
  (noBlank : ∀ character, isBlank character = true → kind character = false)

include noBlank

theorem ofKind_trimEnd (text : String) :
    ofKind kind (trimEnd text) = ofKind kind text := by
  rw [ofKind, ofKind, trimEnd, String.toList_ofList, filter_trimEndChars noBlank]

/-- The lines that are laid out have all characters of a kind that blanks are not of. -/
theorem ofKind_keptLines (text : String) :
    (((lines text).map trimEnd).filter (· ≠ "")).flatMap (ofKind kind) =
      ofKind kind text := by
  rw [filter_lines, List.flatMap_map]
  simp only [ofKind, String.toList_ofList]
  exact flatMap_keptLines_filter noBlank text.toList

/-- Splitting a text into lines drops no such character. -/
theorem ofKind_lines (text : String) :
    (lines text).flatMap (ofKind kind) = ofKind kind text := by
  rw [← ofKind_keptLines noBlank text]
  induction lines text with
  | nil => rfl
  | cons first rest induction =>
      rw [List.map_cons, List.filter_cons, List.flatMap_cons, induction,
        ← ofKind_trimEnd noBlank first]
      by_cases nothing : trimEnd first = ""
      · simp [nothing, ofKind]
      · simp [nothing]

end

theorem exists_last_break {characters : List Char} (broken : '\n' ∈ characters) :
    ∃ front line, characters = front ++ '\n' :: line ∧ '\n' ∉ line := by
  rcases List.eq_append_cons_of_mem (List.mem_reverse.mpr broken) with
    ⟨line, front, split, whole⟩
  refine ⟨front.reverse, line.reverse, ?_, by simpa using whole⟩
  rw [← List.reverse_reverse characters, split]
  simp

/-- The text before a place, up to the last line break and from there on. -/
theorem exists_lastLine (front : List Char) :
    ∃ before start, '\n' ∉ start ∧
      (∀ rest, keptLines (front ++ rest) = before ++ keptLines (start ++ rest)) ∧
        (front = [] → before = [] ∧ start = []) := by
  by_cases broken : '\n' ∈ front
  · rcases exists_last_break broken with ⟨before, start, rfl, whole⟩
    refine ⟨keptLines before, start, whole, fun rest => ?_, by simp⟩
    rw [List.append_assoc, List.cons_append, keptLines_append_break]
  · exact ⟨[], front, broken, fun _ => rfl, fun empty => ⟨rfl, empty⟩⟩

/-- The text after a place, up to the first line break and from there on. -/
theorem exists_firstLine (rest : List Char) :
    ∃ ending after, '\n' ∉ ending ∧
      (∀ front, keptLines (front ++ rest) = keptLines (front ++ ending) ++ after) ∧
        (rest = [] → after = [] ∧ ending = []) := by
  by_cases broken : '\n' ∈ rest
  · rcases List.eq_append_cons_of_mem broken with ⟨ending, after, rfl, whole⟩
    refine ⟨ending, keptLines after, whole, fun front => ?_, by simp⟩
    rw [← List.append_assoc, keptLines_append_break]
  · exact ⟨rest, [], broken, fun _ => (List.append_nil _).symm, fun empty => ⟨rfl, empty⟩⟩

/-- A part of one line stays in its line, with the line's text before it and with what is
not trimmed of the text after it. -/
theorem keptLines_around {part : List Char} (whole : '\n' ∉ part)
    (visible : EndsVisibly part) (front rest : List Char) :
    ∃ before start ending after,
      keptLines (front ++ (part ++ rest)) =
        before ++ (start ++ (part ++ ending)) :: after ∧
        (front = [] → before = [] ∧ start = []) ∧
          (rest = [] → after = [] ∧ ending = []) := by
  rcases exists_lastLine front with ⟨before, start, startWhole, divideFront, noFront⟩
  rcases exists_firstLine rest with ⟨ending, after, endingWhole, divideRest, noRest⟩
  have trimmed : trimEndChars (start ++ part ++ ending) =
      start ++ part ++ trimEndChars ending :=
    trimEndChars_append (visible.append start) ending
  have line : keptLines (start ++ part ++ ending) =
      [start ++ part ++ trimEndChars ending] := by
    rw [keptLines_of_line (by simp [startWhole, whole, endingWhole]) (by
      rw [trimmed]
      simp [visible.ne_nil]), trimmed]
  refine ⟨before, start, trimEndChars ending, after, ?_, noFront, fun empty => ?_⟩
  · rw [divideFront, ← List.append_assoc, divideRest, line]
    simp
  · rw [(noRest empty).2]
    exact ⟨(noRest empty).1, rfl⟩

/-! ## Texts that are laid out as they are -/

/-- Every line break stands right after a visible character. -/
def BreaksVisibly (characters : List Char) : Prop :=
  ∀ front rest, characters = front ++ '\n' :: rest → EndsVisibly front

theorem BreaksVisibly.of_append_break {front rest : List Char}
    (breaks : BreaksVisibly (front ++ '\n' :: rest)) : BreaksVisibly rest := by
  rintro inside later rfl
  exact (breaks (front ++ '\n' :: inside) later (by simp)).of_append_break

theorem intercalate_append {separator : List Char} {left right : List (List Char)}
    (someLeft : left ≠ []) (someRight : right ≠ []) :
    separator.intercalate (left ++ right) =
      separator.intercalate left ++ separator ++ separator.intercalate right := by
  induction left with
  | nil => exact absurd rfl someLeft
  | cons first rest induction =>
      cases rest with
      | nil => simp [List.intercalate_cons_of_ne_nil someRight]
      | cons second others =>
          rw [List.cons_append, List.cons_append, List.intercalate_cons_cons,
            ← List.cons_append,
            induction (by simp), List.intercalate_cons_cons]
          simp

/-- The part up to its last line is laid out as it is, and its last line begins one. -/
theorem prefix_keptLines {part : List Char} (breaks : BreaksVisibly part)
    (visible : EndsVisibly part) (rest : List Char) :
    part <+: ['\n'].intercalate (keptLines (part ++ rest)) := by
  by_cases broken : '\n' ∈ part
  · rcases List.eq_append_cons_of_mem broken with ⟨line, later, rfl, whole⟩
    have shorter := prefix_keptLines breaks.of_append_break visible.of_append_break rest
    have lineVisible : EndsVisibly line := breaks line later rfl
    have first : keptLines line = [line] := by
      rw [keptLines_of_line whole (by
        rw [trimEndChars_of_visible lineVisible]
        exact lineVisible.ne_nil), trimEndChars_of_visible lineVisible]
    have others : keptLines (later ++ rest) ≠ [] := by
      intro none
      rw [none] at shorter
      exact visible.of_append_break.ne_nil (List.prefix_nil.mp shorter)
    rw [List.append_assoc, List.cons_append, keptLines_append_break, first,
      intercalate_append (by simp) others, List.intercalate_singleton, List.append_assoc]
    exact (List.prefix_append_right_inj line).mpr
      ((List.prefix_append_right_inj ['\n']).mpr shorter)
  · rcases keptLines_around broken visible [] rest with
      ⟨before, start, ending, after, kept, none, _⟩
    rw [(none rfl).1, (none rfl).2] at kept
    simp only [List.nil_append] at kept
    rw [kept]
    cases after with
    | nil => simp
    | cons next others =>
        rw [List.intercalate_cons_cons, List.append_assoc, List.append_assoc]
        exact List.prefix_append _ _
termination_by part.length

/-- A part of one line is in a line that is kept. -/
theorem exists_mem_keptLines {part : List Char} (whole : '\n' ∉ part)
    (visible : EndsVisibly part) (front rest : List Char) :
    ∃ line ∈ keptLines (front ++ (part ++ rest)), part <:+: line := by
  rcases keptLines_around whole visible front rest with
    ⟨before, start, ending, after, kept, _⟩
  exact ⟨start ++ (part ++ ending), by simp [kept], List.infix_append' _ _ _⟩

/-- A part of several lines whose line breaks stand after visible characters, and which
ends in one, is laid out as it is as long as nothing is indented. -/
theorem infix_keptLines {part : List Char} (broken : '\n' ∈ part)
    (breaks : BreaksVisibly part) (visible : EndsVisibly part) (front rest : List Char) :
    part <:+: ['\n'].intercalate (keptLines (front ++ (part ++ rest))) := by
  rcases List.eq_append_cons_of_mem broken with ⟨line, later, rfl, whole⟩
  rcases keptLines_around whole (breaks line later rfl) front [] with
    ⟨before, start, ending, after, kept, _, none⟩
  rw [(none rfl).1, (none rfl).2, List.append_nil] at kept
  have lineEnds : line <:+ ['\n'].intercalate (keptLines (front ++ line)) := by
    rw [kept]
    cases before with
    | nil => simp
    | cons first more =>
        rw [intercalate_append (by simp) (by simp), List.intercalate_singleton]
        exact (List.suffix_append _ _).trans (List.suffix_append _ _)
  have laterBegins := prefix_keptLines breaks.of_append_break visible.of_append_break rest
  have some : keptLines (later ++ rest) ≠ [] := by
    intro none
    rw [none] at laterBegins
    exact visible.of_append_break.ne_nil (List.prefix_nil.mp laterBegins)
  rcases lineEnds with ⟨earlier, ended⟩
  rcases laterBegins with ⟨remaining, begun⟩
  have divided : front ++ (line ++ '\n' :: later ++ rest) =
      (front ++ line) ++ '\n' :: (later ++ rest) := by
    simp
  refine ⟨earlier, remaining, ?_⟩
  rw [divided, keptLines_append_break, intercalate_append (by simp [kept]) some,
    ← ended, ← begun]
  simp

/-! ## Texts of whole lines -/

theorem not_mem_of_mem_splitOn {characters piece : List Char}
    (member : piece ∈ characters.splitOn '\n') : '\n' ∉ piece := by
  induction characters generalizing piece with
  | nil =>
      rw [List.splitOn_nil, List.mem_singleton] at member
      simp [member]
  | cons character rest induction =>
      rw [List.splitOn_cons_eq_if_modifyHead] at member
      by_cases broken : character = '\n'
      · rw [if_pos (by simpa using broken), List.mem_cons] at member
        rcases member with rfl | later
        · simp
        · exact induction later
      · rw [if_neg (by simpa using broken)] at member
        cases pieces : rest.splitOn '\n' with
        | nil => exact absurd pieces (List.splitOn_ne_nil _ _)
        | cons first others =>
            rw [pieces, List.modifyHead_cons, List.mem_cons] at member
            rcases member with rfl | later
            · have whole : '\n' ∉ first := induction (by simp [pieces])
              simp [whole, Ne.symm broken]
            · exact induction (by simp [pieces, later])

theorem of_mem_keptLines {characters line : List Char}
    (member : line ∈ keptLines characters) :
    '\n' ∉ line ∧ EndsVisibly line := by
  rw [keptLines, List.mem_filter, List.mem_map] at member
  rcases member with ⟨⟨piece, among, rfl⟩, some⟩
  have visible := (trimEndChars_visible piece).resolve_left (by simpa using some)
  refine ⟨fun broken => not_mem_of_mem_splitOn among ?_, visible⟩
  exact trimEndChars_subset piece broken

theorem intercalate_append_break {lines : List (List Char)} (some : lines ≠ []) :
    ['\n'].intercalate lines ++ ['\n'] = lines.flatMap (· ++ ['\n']) := by
  induction lines with
  | nil => exact absurd rfl some
  | cons first rest induction =>
      cases rest with
      | nil => simp
      | cons second others =>
          rw [List.intercalate_cons_cons, List.append_assoc, induction (by simp)]
          simp

theorem BreaksVisibly.append_line {line rest : List Char} (whole : '\n' ∉ line)
    (visible : EndsVisibly line) (later : BreaksVisibly rest) :
    BreaksVisibly (line ++ '\n' :: rest) := by
  intro front after equal
  rcases List.append_eq_append_iff.mp equal with ⟨more, rfl, beyond⟩ | ⟨more, rfl, before⟩
  · cases more with
    | nil => simpa using visible
    | cons character more =>
        rw [List.cons_append, List.cons.injEq] at beyond
        have ends : EndsVisibly more := later more after beyond.2
        exact (ends.append [character]).append line
  · cases more with
    | nil => simpa using visible
    | cons character more =>
        rw [List.cons_append, List.cons.injEq] at before
        exact absurd (by simp [← before.1]) whole

theorem breaksVisibly_lines {lines : List (List Char)}
    (each : ∀ line ∈ lines, '\n' ∉ line ∧ EndsVisibly line) :
    BreaksVisibly (lines.flatMap (· ++ ['\n'])) := by
  induction lines with
  | nil =>
      intro front after equal
      simp at equal
  | cons line rest induction =>
      rw [List.forall_mem_cons] at each
      rw [List.flatMap_cons, List.append_assoc, List.singleton_append]
      exact .append_line each.1.1 each.1.2 (induction each.2)

/-- A part that does not begin with a line break has all that its line breaks stand
after. -/
theorem BreaksVisibly.of_occurs {first : Char} {part text : List Char}
    (breaks : BreaksVisibly text) (occurs : first :: part <:+: text)
    (other : first ≠ '\n') : BreaksVisibly (first :: part) := by
  rcases occurs with ⟨earlier, later, rfl⟩
  intro front after equal
  have ends : EndsVisibly (earlier ++ front) :=
    breaks (earlier ++ front) (after ++ later) (by simp [equal])
  cases front with
  | nil =>
      rw [List.nil_append, List.cons.injEq] at equal
      exact absurd equal.1 other
  | cons start rest => exact ends.of_append (by simp)

end ZephirPhp.Text

/-! ## Margins -/

namespace ZephirPhp.Layout

theorem mem_margin {layout : Layout} {level : Nat} {character : Char}
    (member : character ∈ (layout.margin level).toList) :
    character = ' ' ∨ character = '\t' := by
  have inUnit : character ∈ layout.unit.toList := by
    rw [margin, String.toList_join, List.mem_flatMap] at member
    rcases member with ⟨text, among, inside⟩
    rwa [List.eq_of_mem_replicate among] at inside
  rw [unit] at inUnit
  split at inUnit
  · simp only [String.toList_ofList, List.mem_replicate] at inUnit
    exact .inl inUnit.2
  · exact .inr (List.mem_singleton.mp inUnit)

/-- Where the first level is not indented, none is. -/
theorem margin_of_flat {layout : Layout} (flat : layout.margin 1 = "") (level : Nat) :
    layout.margin level = "" := by
  have join_empty (count : Nat) : String.join (List.replicate count "") = "" := by
    induction count with
    | zero => rfl
    | succ count induction =>
        rw [List.replicate_succ, String.join_cons, induction]
        rfl
  rw [margin] at flat ⊢
  cases deepest : layout.maxDepth with
  | zero => simp
  | succ depth =>
      have unit : layout.unit = "" := by simpa [deepest] using flat
      rw [unit, join_empty]

end ZephirPhp.Layout
