import ZephirPhp.Proofs.Emission.Characters
import ZephirPhp.Proofs.Emission.Likeness
import ZephirPhp.Proofs.Emission.Nesting
import ZephirPhp.Proofs.Text.Indentation

/-! # Files in different layouts

Two relations are kept by emission in two layouts. The visible characters are the same
in any two layouts. If the layouts put braces at the same places, the lines are the same
too, up to their indentation; there the first line of a page is equal in both, since the
text of a closure may continue a line that is already begun.
-/

namespace ZephirPhp

namespace Text

def isVisibleCharacter (character : Char) : Bool :=
  !isBlank character

/-- The text without its blank characters. -/
def withoutBlanks (text : String) : String :=
  String.ofList (ofKind isVisibleCharacter text)

theorem isVisibleCharacter_of_isBlank {character : Char}
    (blank : isBlank character = true) :
    isVisibleCharacter character = false := by
  simp [isVisibleCharacter, blank]

theorem isVisible_iff (text : String) :
    isVisible text = true ↔ ofKind isVisibleCharacter text ≠ [] := by
  simp [isVisible, ofKind, isVisibleCharacter]

theorem isVisible_eq_of_ofKind {left right : String}
    (same : ofKind isVisibleCharacter left = ofKind isVisibleCharacter right) :
    isVisible left = isVisible right := by
  rw [Bool.eq_iff_iff, isVisible_iff, isVisible_iff, same]

end Text

open Text (isVisibleCharacter)

/-! ## Visible characters -/

/-- In any two layouts the same visible characters are written, wherever braces stand. -/
theorem likeness_visible (first second : Layout) :
    Likeness first second
      (fun left right =>
        Text.ofKind isVisibleCharacter left = Text.ofKind isVisibleCharacter right)
      fun page other =>
        page.ofKind isVisibleCharacter = other.ofKind isVisibleCharacter := by
  have noBlank : ∀ character, Text.isBlank character = true →
      isVisibleCharacter character = false := fun _ => Text.isVisibleCharacter_of_isBlank
  have line {page other : Page} {left right : String}
      (start : page.ofKind isVisibleCharacter = other.ofKind isVisibleCharacter)
      (text : Text.ofKind isVisibleCharacter left =
        Text.ofKind isVisibleCharacter right) :
      (page.line left).ofKind isVisibleCharacter =
        (other.line right).ofKind isVisibleCharacter := by
    rw [Page.ofKind_line noBlank, Page.ofKind_line noBlank, start, text]
  exact {
    refl text := rfl
    append start rest := by rw [Text.ofKind_append, Text.ofKind_append, start, rest]
    visible := Text.isVisible_eq_of_ofKind
    line := line
    flush start := by rw [Page.ofKind_flush noBlank, Page.ofKind_flush noBlank, start]
    indent start := start
    unindent start := start
    blankLine start := by
      rw [Page.ofKind_blankLine noBlank, Page.ofKind_blankLine noBlank, start]
    openBody start head := by
      rw [Page.ofKind_openBlock noBlank, Page.ofKind_openBlock noBlank, start, head]
    begin _ _ rest := line rfl (by rw [Text.ofKind_append, Text.ofKind_append, rest])
    content alike := by
      rw [Page.ofKind_content noBlank, Page.ofKind_content noBlank, alike] }

/-! ## Indentation -/

/-- Lines with the same code, at whatever level. -/
inductive Line.Alike : Line → Line → Prop
  | blank : Alike .blank .blank
  | code {level otherLevel : Nat} {text other : String}
      (same : Text.SameCode text.toList other.toList) :
      Alike (.code level text) (.code otherLevel other)

theorem Layout.margin_isMargin (layout : Layout) (level : Nat) :
    Text.IsMargin (layout.margin level).toList := by
  intro character member
  rcases mem_margin member with rfl | rfl <;> decide

theorem Line.Alike.showLine {line other : Line} (alike : line.Alike other)
    (first second : Layout) :
    Text.SameCode (Page.showLine first line).toList
      (Page.showLine second other).toList := by
  cases alike with
  | blank => exact .refl List.not_mem_nil
  | code same =>
      rw [Page.showLine, Page.showLine, String.toList_append, String.toList_append]
      exact same.indented (first.margin_isMargin _) (second.margin_isMargin _)

namespace Page

/-- Pages between lines whose first lines are equal and not indented. All other lines have
the same code. -/
structure Reindented (page other : Page) : Prop where
  pending : page.pending = ""
  otherPending : other.pending = ""
  lines : ∃ text later otherLater, page.lines = later ++ [.code 0 text] ∧
    other.lines = otherLater ++ [.code 0 text] ∧ List.Forall₂ Line.Alike later otherLater

theorem linesAt_eq (level : Nat) (text : String) :
    linesAt level text =
      (Text.keptLines text.toList).map fun line => .code level (String.ofList line) := by
  rw [linesAt, Text.filter_lines, List.map_map]
  rfl

theorem alike_of_sameCode {lines others : List (List Char)} (level otherLevel : Nat)
    (same : List.Forall₂ Text.SameCode lines others) :
    List.Forall₂ Line.Alike (lines.map fun line => .code level (String.ofList line))
      (others.map fun line => .code otherLevel (String.ofList line)) := by
  rw [List.forall₂_map_left_iff, List.forall₂_map_right_iff]
  refine same.imp fun line other same => .code ?_
  simpa using same

theorem flush_of_pending {page : Page} (none : page.pending = "") :
    page.flush = page := by
  cases page
  cases none
  rfl

theorem line_lines {page : Page} (none : page.pending = "") (text : String) :
    (page.line text).lines = (linesAt page.depth text).reverse ++ page.lines := by
  simp [line, flush, append, none]

namespace Reindented

variable {page other : Page} {left right : String}

theorem line (start : page.Reindented other)
    (text : Text.Reindented left.toList right.toList) :
    (page.line left).Reindented (other.line right) := by
  rcases start.lines with ⟨first, later, otherLater, lines, otherLines, alike⟩
  have added : List.Forall₂ Line.Alike (linesAt page.depth left)
      (linesAt other.depth right) := by
    rw [linesAt_eq, linesAt_eq]
    exact alike_of_sameCode _ _ text.keptLines
  refine ⟨rfl, rfl, first, _, _, ?_, ?_, List.rel_append (List.rel_reverse added) alike⟩
  · rw [line_lines start.pending, lines, List.append_assoc]
  · rw [line_lines start.otherPending, otherLines, List.append_assoc]

theorem flush (start : page.Reindented other) : page.flush.Reindented other.flush := by
  rw [flush_of_pending start.pending, flush_of_pending start.otherPending]
  exact start

theorem indent (start : page.Reindented other) : page.indent.Reindented other.indent :=
  ⟨start.pending, start.otherPending, start.lines⟩

theorem unindent (start : page.Reindented other) :
    page.unindent.Reindented other.unindent :=
  ⟨start.pending, start.otherPending, start.lines⟩

theorem blankLine (start : page.Reindented other) :
    page.blankLine.Reindented other.blankLine := by
  rcases start.lines with ⟨first, later, otherLater, lines, otherLines, alike⟩
  rw [Page.blankLine, Page.blankLine, flush_of_pending start.pending,
    flush_of_pending start.otherPending, lines, otherLines]
  cases alike with
  | nil =>
      exact ⟨start.pending, start.otherPending, first, [.blank], [.blank], rfl, rfl,
        .cons .blank .nil⟩
  | cons head tail =>
      cases head with
      | blank => exact start
      | code same =>
          exact ⟨start.pending, start.otherPending, first, _ :: _ :: _,
            _ :: _ :: _, rfl, rfl,
            .cons .blank (.cons (.code same) tail)⟩

theorem openBlock (start : page.Reindented other)
    (head : Text.Reindented left.toList right.toList) (braceOnNewLine : Bool) :
    (page.openBlock left braceOnNewLine).Reindented
      (other.openBlock right braceOnNewLine) := by
  cases braceOnNewLine with
  | true => exact ((start.line head).line (.refl _)).indent
  | false =>
      refine (start.line ?_).indent
      rw [String.toList_append, String.toList_append]
      exact head.append (.refl _)

/-- Pages that begin with the same visible code. -/
theorem begin {front : String} (visible : Text.isVisible front = true)
    (whole : '\n' ∉ front.toList) (rest : Text.Reindented left.toList right.toList) :
    (Page.empty.line (front ++ left)).Reindented (Page.empty.line (front ++ right)) := by
  have remains : Text.trimEndChars front.toList ≠ [] := by
    rw [ne_eq, Text.trimEndChars_eq_nil_iff]
    intro blank
    rw [Text.isVisible, List.any_eq_true] at visible
    rcases visible with ⟨character, member, visible⟩
    simp [blank character member] at visible
  rcases rest.keptLines_of_front whole remains with
    ⟨line, lines, others, kept, otherKept, _, same⟩
  refine ⟨rfl, rfl, String.ofList line, _, _, ?_, ?_,
    List.rel_reverse (alike_of_sameCode 0 0 same)⟩
  · rw [line_lines rfl, linesAt_eq, String.toList_append, kept]
    simp [empty]
  · rw [line_lines rfl, linesAt_eq, String.toList_append, otherKept]
    simp [empty]

/-- The blank lines at the end are as many on both pages. -/
theorem dropWhile_blank {lines others : List Line}
    (alike : List.Forall₂ Line.Alike lines others) :
    List.Forall₂ Line.Alike (lines.dropWhile (· == .blank))
      (others.dropWhile (· == .blank)) := by
  induction alike with
  | nil => exact .nil
  | cons head tail induction =>
      cases head with
      | blank => exact induction
      | code same =>
          rw [List.dropWhile_cons_of_neg (by simp), List.dropWhile_cons_of_neg (by simp)]
          exact .cons (.code same) tail

theorem contentLines_eq {later : List Line} {text : String}
    (lines : page.lines = later ++ [.code 0 text]) :
    page.contentLines = .code 0 text :: (later.dropWhile (· == .blank)).reverse := by
  rw [contentLines, lines, List.dropWhile_append]
  split
  · next none =>
      rw [List.isEmpty_iff.mp none]
      rfl
  · simp

theorem content (alike : page.Reindented other) (first second : Layout) :
    Text.Reindented (page.content first).toList (other.content second).toList := by
  rcases alike.lines with ⟨text, later, otherLater, lines, otherLines, same⟩
  rw [Page.content, Page.content, flush_of_pending alike.pending,
    flush_of_pending alike.otherPending, contentLines_eq lines,
    contentLines_eq otherLines]
  have shown (layout : Layout) (lines : List Line) :
      ("\n".intercalate ((.code 0 text :: lines).map (showLine layout))).toList =
        ['\n'].intercalate
          (text.toList :: lines.map fun line => (showLine layout line).toList) := by
    have newline : "\n".toList = ['\n'] := rfl
    simp [String.toList_intercalate, newline, showLine, Layout.margin, Function.comp_def]
  rw [shown, shown]
  apply Text.Reindented.intercalate
  rw [List.forall₂_map_left_iff, List.forall₂_map_right_iff]
  exact (List.rel_reverse (dropWhile_blank same)).imp fun _ _ alike =>
    alike.showLine first second

end Reindented

end Page

/-- If braces stand at the same places, only indentation differs. -/
theorem likeness_reindented {first second : Layout}
    (braces : first.braceOnNewLine = second.braceOnNewLine) :
    Likeness first second (fun left right => Text.Reindented left.toList right.toList)
      Page.Reindented where
  refl text := .refl text.toList
  append start rest := by
    rw [String.toList_append, String.toList_append]
    exact start.append rest
  visible alike :=
    Text.isVisible_eq_of_ofKind
      (alike.filter_eq fun _ => Text.isVisibleCharacter_of_isBlank)
  line := Page.Reindented.line
  flush := Page.Reindented.flush
  indent := Page.Reindented.indent
  unindent := Page.Reindented.unindent
  blankLine := Page.Reindented.blankLine
  openBody start head := by
    rw [braces]
    exact start.openBlock head _
  begin := Page.Reindented.begin
  content alike := alike.content first second

/-! ## Files -/

theorem lines_eq_of_reindented {left right : String}
    (alike : Text.Reindented left.toList right.toList) :
    (Text.lines (left ++ "\n")).map Text.trimStart =
      (Text.lines (right ++ "\n")).map Text.trimStart := by
  have code (text : String) : (Text.lines (text ++ "\n")).map Text.trimStart =
      ((Text.lineChars (text.toList ++ ['\n'])).map Text.trimStartChars).map
      String.ofList := by
    simp [Text.lines, Text.trimStart, String.toList_append]
  rw [code, code, alike.lines_eq]

/-- The layout decides on blanks only. A program leads to the same warnings in any two
layouts, and to the same fault or to files with the same visible characters. If the
layouts put braces at the same places, the files have the same lines up to their
indentation. -/
theorem toPhp_layouts_differ_in_blanks (globals : Globals) (program : Program)
    (first second : Layout) :
    (program.toPhp ⟨first, globals⟩).2 = (program.toPhp ⟨second, globals⟩).2 ∧
      ((∃ diagnostic, (program.toPhp ⟨first, globals⟩).1 = .error diagnostic ∧
          (program.toPhp ⟨second, globals⟩).1 = .error diagnostic) ∨
        ∃ php other, (program.toPhp ⟨first, globals⟩).1 = .ok php ∧
          (program.toPhp ⟨second, globals⟩).1 = .ok other ∧
          Text.withoutBlanks php = Text.withoutBlanks other ∧
          (first.braceOnNewLine = second.braceOnNewLine →
            (Text.lines php).map Text.trimStart =
              (Text.lines other).map Text.trimStart)) := by
  have visible := @toPhp_alike ⟨first, globals⟩ ⟨second, globals⟩ _ _
    (likeness_visible first second) rfl program
  rcases visible with ⟨warnings, fault | ⟨php, other, ok, otherOk, same⟩⟩
  · exact ⟨warnings, .inl fault⟩
  refine ⟨warnings, .inr ⟨php ++ "\n", other ++ "\n", ok, otherOk, ?_, fun braces => ?_⟩⟩
  · rw [Text.withoutBlanks, Text.withoutBlanks, Text.ofKind_append,
      Text.ofKind_append, same]
  · have reindented := @toPhp_alike ⟨first, globals⟩ ⟨second, globals⟩ _ _
      (likeness_reindented braces) rfl program
    rcases reindented with ⟨_, ⟨_, fault, _⟩ | ⟨_, _, ended, otherEnded, alike⟩⟩
    · rw [ok] at fault
      cases fault
    · rw [ok, Except.ok.injEq, String.append_left_inj] at ended
      rw [otherOk, Except.ok.injEq, String.append_left_inj] at otherEnded
      rw [ended, otherEnded]
      exact lines_eq_of_reindented alike

/-- One tab for the first level and no more for deeper ones. -/
def tabbed : Layout where
  indent := .tabs
  maxDepth := 1

def tangledTabbed : String :=
  "<?php\n\necho array_map(function () \x7b\n\tif (isset($x[0])) \x7b\n" ++
    "\t$y = $x[0];\n\t\x7d else \x7b\n\t\x7d\n\x7d, [\"s\"]);\n"

theorem toPhp_layouts_differ_in_blanks_of_tangled :
    ({} : Layout).braceOnNewLine = tabbed.braceOnNewLine ∧ tangledPhp ≠ tangledTabbed ∧
      (tangled.toPhp ⟨{}, .uninitialized⟩).1 = .ok tangledPhp ∧
      (tangled.toPhp ⟨tabbed, .uninitialized⟩).1 = .ok tangledTabbed ∧
      Text.withoutBlanks tangledPhp = Text.withoutBlanks tangledTabbed ∧
      (Text.lines tangledPhp).map Text.trimStart =
        (Text.lines tangledTabbed).map Text.trimStart := by
  have written : (tangled.toPhp ⟨{}, .uninitialized⟩).1 = .ok tangledPhp := by
    decide +kernel
  have tabs : (tangled.toPhp ⟨tabbed, .uninitialized⟩).1 = .ok tangledTabbed := by
    decide +kernel
  refine ⟨rfl, by decide +kernel, written, tabs, ?_⟩
  rcases (toPhp_layouts_differ_in_blanks .uninitialized tangled {} tabbed).2 with
    ⟨_, fault, _⟩ | ⟨_, _, ok, otherOk, same, lines⟩
  · rw [written] at fault
    cases fault
  · rw [written, Except.ok.injEq] at ok
    rw [tabs, Except.ok.injEq] at otherOk
    rw [ok, otherOk]
    exact ⟨same, lines rfl⟩

end ZephirPhp
