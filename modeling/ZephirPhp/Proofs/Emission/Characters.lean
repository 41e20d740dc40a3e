import ZephirPhp.Page
import ZephirPhp.Proofs.Text.Lines

/-! # Characters of pages

A page has the characters of the texts that are written on it, apart from blanks:
cutting a text into lines, trimming and indenting them, and blank lines all touch blanks
only. This is said for the characters of any kind that blanks are not of.
-/

namespace ZephirPhp

def Line.ofKind (kind : Char → Bool) : Line → List Char
  | .blank => []
  | .code _ text => Text.ofKind kind text

namespace Page

/-- The characters of a kind on a page, in their order. -/
def ofKind (kind : Char → Bool) (page : Page) : List Char :=
  page.lines.reverse.flatMap (Line.ofKind kind) ++ Text.ofKind kind page.pending

variable {kind : Char → Bool}

theorem ofKind_append (text : String) (page : Page) :
    (page.append text).ofKind kind = page.ofKind kind ++ Text.ofKind kind text := by
  simp [ofKind, append]

/-- The blank lines at the end of a page have no characters. -/
theorem ofKind_dropWhile_blank (lines : List Line) :
    (lines.dropWhile (· == .blank)).reverse.flatMap (Line.ofKind kind) =
      lines.reverse.flatMap (Line.ofKind kind) := by
  induction lines with
  | nil => rfl
  | cons line rest induction =>
      cases line with
      | blank => simpa [Line.ofKind] using induction
      | code level text => rw [List.dropWhile_cons_of_neg (by simp)]

variable (noBlank : ∀ character, Text.isBlank character = true → kind character = false)

include noBlank

theorem ofKind_linesAt (level : Nat) (text : String) :
    (linesAt level text).flatMap (Line.ofKind kind) = Text.ofKind kind text := by
  rw [linesAt, List.flatMap_map]
  exact Text.ofKind_keptLines noBlank text

theorem ofKind_flush (page : Page) : page.flush.ofKind kind = page.ofKind kind := by
  simp [ofKind, flush, ofKind_linesAt noBlank, Text.ofKind]

theorem ofKind_line (text : String) (page : Page) :
    (page.line text).ofKind kind = page.ofKind kind ++ Text.ofKind kind text := by
  rw [line, ofKind_flush noBlank, ofKind_append]

theorem ofKind_paragraph (text : String) (page : Page) :
    (page.paragraph text).ofKind kind = page.ofKind kind ++ Text.ofKind kind text := by
  rw [paragraph, ← Text.ofKind_lines noBlank text]
  induction Text.lines text generalizing page with
  | nil => simp
  | cons first rest induction =>
      rw [List.foldl_cons, induction, ofKind_line noBlank, Text.ofKind_trimEnd noBlank,
        List.append_assoc, List.flatMap_cons]

theorem ofKind_blankLine (page : Page) :
    page.blankLine.ofKind kind = page.ofKind kind := by
  rw [← ofKind_flush noBlank page, blankLine]
  cases found : page.flush.lines with
  | nil => rfl
  | cons last earlier =>
      cases last with
      | blank => rfl
      | code level text => simp [ofKind, found, Line.ofKind]

/-- A block has the same characters wherever its brace stands. -/
theorem ofKind_openBlock (header : String) (braceOnNewLine : Bool) (page : Page) :
    (page.openBlock header braceOnNewLine).ofKind kind =
      page.ofKind kind ++ (Text.ofKind kind header ++ Text.ofKind kind "\x7b") := by
  have brace : Text.ofKind kind " \x7b" = Text.ofKind kind "\x7b" := by
    have characters : " \x7b".toList = ' ' :: "\x7b".toList := rfl
    rw [Text.ofKind, characters, List.filter_cons_of_neg (by simp [noBlank ' ' rfl])]
    rfl
  cases braceOnNewLine with
  | true =>
      rw [openBlock, if_pos rfl, ← List.append_assoc, ← ofKind_line noBlank,
        ← ofKind_line noBlank]
      rfl
  | false =>
      rw [openBlock, if_neg Bool.false_ne_true, ← brace, ← Text.ofKind_append,
        ← ofKind_line noBlank]
      rfl

/-! ## Showing a page -/

theorem ofKind_showLine (layout : Layout) (line : Line) :
    Text.ofKind kind (showLine layout line) = line.ofKind kind := by
  cases line with
  | blank => rfl
  | code level text =>
      have margin : Text.ofKind kind (layout.margin level) = [] := by
        rw [Text.ofKind, List.filter_eq_nil_iff]
        intro character member
        rcases Layout.mem_margin member with rfl | rfl
        · simp [noBlank ' ' rfl]
        · simp [noBlank '\t' rfl]
      rw [showLine, Text.ofKind_append, margin, List.nil_append, Line.ofKind]

theorem ofKind_intercalate_newline (texts : List String) :
    Text.ofKind kind ("\n".intercalate texts) = texts.flatMap (Text.ofKind kind) := by
  have newline : Text.ofKind kind "\n" = [] := by
    have characters : "\n".toList = ['\n'] := rfl
    rw [Text.ofKind, characters, List.filter_cons_of_neg (by simp [noBlank '\n' rfl])]
    rfl
  induction texts with
  | nil => rfl
  | cons first rest induction =>
      cases rest with
      | nil => simp
      | cons second others =>
          rw [String.intercalate_cons_cons, Text.ofKind_append,
            Text.ofKind_append, newline,
            List.append_nil, induction]
          rfl

/-- Showing a page adds and drops blanks only. -/
theorem ofKind_content (layout : Layout) (page : Page) :
    Text.ofKind kind (page.content layout) = page.ofKind kind := by
  rw [content, ofKind_intercalate_newline noBlank, List.flatMap_map,
    ← ofKind_flush noBlank page]
  simp only [ofKind_showLine noBlank]
  rw [contentLines, ofKind_dropWhile_blank, ofKind]
  exact (List.append_nil _).symm

end Page

end ZephirPhp
