import ZephirPhp.Proofs.Emission.Layouts
import ZephirPhp.Proofs.Emission.Levels
import ZephirPhp.Proofs.Emission.Showing
import ZephirPhp.Proofs.Program.Insets

/-! # How far pages are set in

A text that is written on a page brings its own indentation with it, and each of its
lines gets the margin of the level in front of that. So the lines of a closure, which
are indented on a page of their own, are indented once more wherever the closure is
written.
-/

namespace ZephirPhp

variable {α β : Type}

open Text (CodeRows HasCode Inset greatest lead)

/-! ## Codes -/

/-- A code without a line break. -/
def Text.OneLine (code : String) : Prop :=
  '\n' ∉ code.toList

instance (code : String) : Decidable (Text.OneLine code) :=
  inferInstanceAs (Decidable ('\n' ∉ code.toList))

open Text (OneLine)

theorem Text.OneLine.append {code rest : String} (start : OneLine code)
    (later : OneLine rest) :
    OneLine (code ++ rest) := by
  rw [OneLine, String.toList_append, List.mem_append, not_or]
  exact ⟨start, later⟩

theorem Text.OneLine.intercalate {separator : String} {codes : List String}
    (between : OneLine separator) (each : ∀ code ∈ codes, OneLine code) :
    OneLine (separator.intercalate codes) := by
  induction codes with
  | nil => exact List.not_mem_nil
  | cons first rest induction =>
      rw [List.forall_mem_cons] at each
      cases rest with
      | nil =>
          rw [String.intercalate_singleton]
          exact each.1
      | cons second others =>
          rw [String.intercalate_cons_cons]
          exact (each.1.append between).append (induction each.2)

namespace Onset

/-- A code begins so. -/
def Begins (code : String) : Onset → Prop
  | .nothing => code.toList = []
  | .blank => ∃ character rest, code.toList = ' ' :: character :: rest ∧
      Text.isBlank character = false
  | .visible => ∃ character rest, code.toList = character :: rest ∧
      Text.isBlank character = false

variable {onset next : Onset} {code rest : String}

theorem Begins.extend (start : onset.Begins code) (some : onset ≠ .nothing) :
    onset.Begins (code ++ rest) := by
  cases onset with
  | nothing => exact absurd rfl some
  | blank =>
      rcases start with ⟨character, more, equal, visible⟩
      exact ⟨character, more ++
        rest.toList, by rw [String.toList_append, equal]; rfl, visible⟩
  | visible =>
      rcases start with ⟨character, more, equal, visible⟩
      exact ⟨character, more ++
        rest.toList, by rw [String.toList_append, equal]; rfl, visible⟩

theorem Begins.left (start : visible.Begins code) : visible.Begins (code ++ rest) :=
  start.extend (by decide)

theorem Begins.append (start : onset.Begins code) (later : next.Begins rest) :
    (onset.followed next).Begins (code ++ rest) := by
  cases onset with
  | nothing =>
      have empty : code = "" := String.toList_eq_nil_iff.mp start
      rwa [empty, String.empty_append]
  | blank => exact start.extend (by decide)
  | visible => exact start.left

theorem followed_ne_nothing (onset : Onset) (some : next ≠ .nothing) :
    onset.followed next ≠ .nothing := by
  cases onset with
  | nothing => exact some
  | blank => exact Onset.noConfusion
  | visible => exact Onset.noConfusion

theorem Begins.extendFollowed (start : (onset.followed next).Begins code)
    (some : next ≠ .nothing) : (onset.followed next).Begins (code ++ rest) :=
  start.extend (followed_ne_nothing onset some)

/-- A word after a blank. -/
theorem Begins.spaced {word : String} (start : onset.Begins code)
    (shown : visible.Begins word) :
    (onset.followed .blank).Begins (code ++ " " ++ word) := by
  have spaced : blank.Begins (" " ++ word) := by
    rcases shown with ⟨character, more, equal, visible⟩
    exact ⟨character, more, by rw [String.toList_append, equal]; rfl, visible⟩
  rw [String.append_assoc]
  exact start.append spaced

theorem columns_followed_visible (layout : Layout) (onset : Onset) :
    (onset.followed .visible).columns layout = onset.columns layout := by
  cases onset <;> rfl

end Onset

namespace Layout

variable {layout : Layout} {count other : Nat} {code rest : String}

/-- The lines in which a code goes on after its first one are set in so far. -/
def Continues (layout : Layout) (count : Nat) (code : String) : Prop :=
  Inset layout.mark count code.toList

/-- The lines of a code, the first one too, are set in so far. -/
def Stands (layout : Layout) (count : Nat) (code : String) : Prop :=
  Inset layout.mark count ('\n' :: code.toList)

namespace Continues

theorem ofLine (line : OneLine code) : layout.Continues 0 code :=
  Inset.ofLine line

theorem append (start : layout.Continues count code)
    (later : layout.Continues other rest) :
    layout.Continues (max count other) (code ++ rest) := by
  rw [Continues, String.toList_append]
  exact Inset.append start later

theorem left (start : layout.Continues count code) (line : OneLine rest) :
    layout.Continues count (code ++ rest) := by
  rw [Continues, String.toList_append]
  exact Inset.left start line

theorem right (line : OneLine code) (later : layout.Continues count rest) :
    layout.Continues count (code ++ rest) := by
  rw [Continues, String.toList_append]
  exact Inset.right line later

theorem intercalate {separator : String} {counts : List Nat} {codes : List String}
    (between : OneLine separator) (each : List.Forall₂ layout.Continues counts codes) :
    layout.Continues (greatest counts) (separator.intercalate codes) := by
  induction each with
  | nil => exact .nil
  | cons first rest induction =>
      cases rest with
      | nil =>
          rw [String.intercalate_singleton, Text.greatest_cons, Text.greatest_nil,
            Nat.max_zero]
          exact first
      | cons second others =>
          rw [String.intercalate_cons_cons, Text.greatest_cons]
          exact (first.left between).append induction

/-- A code stands on lines of its own, with what it begins with in front of the first
one. -/
theorem stands {onset : Onset} (continues : layout.Continues count code)
    (begins : onset.Begins code) (some : onset ≠ .nothing) :
    layout.Stands (max (onset.columns layout) count) code := by
  rw [Continues] at continues
  cases onset with
  | nothing => exact absurd rfl some
  | blank =>
      rcases begins with ⟨character, rest, equal, visible⟩
      have inLine := Text.ne_break_of_visible visible
      have code : HasCode [' ', character] :=
        ⟨by simp [inLine.symm], character, by simp, visible⟩
      have begun : lead layout.mark [' ', character] = Onset.blank.columns layout := by
        rw [Onset.columns]
        have flush := Text.lead_of_visible layout.isBlank_mark visible []
        split
        · next same =>
            rw [same] at flush ⊢
            exact (Text.lead_replicate_append 1).trans (by rw [flush])
        · next other => exact Text.lead_of_ne (Ne.symm other) _
      rw [Stands, equal, ← begun]
      rw [equal] at continues
      exact .row code ((continues.tail (by decide)).tail inLine)
  | visible =>
      rcases begins with ⟨character, rest, equal, visible⟩
      have inLine := Text.ne_break_of_visible visible
      have code : HasCode [character] :=
        ⟨by simpa using inLine.symm, character, by simp, visible⟩
      rw [Stands, equal, Onset.columns, Nat.zero_max]
      rw [equal] at continues
      exact .line code (Text.lead_of_visible layout.isBlank_mark visible [])
        (continues.tail inLine)

theorem standsVisibly (continues : layout.Continues count code)
    (begins : Onset.visible.Begins code) : layout.Stands count code := by
  have stands := continues.stands begins (by decide)
  rwa [Onset.columns, Nat.zero_max] at stands

end Continues

theorem Stands.left (stands : layout.Stands count code) (line : OneLine rest) :
    layout.Stands count (code ++ rest) := by
  rw [Stands, String.toList_append]
  exact Inset.left stands line

end Layout

/-! ## Pages -/

/-- Lines of code, of which those that are set in furthest begin with so many marks. There
may be gaps between them. -/
inductive Rows (layout : Layout) : Bool → Nat → List Line → Prop
  | nil {gaps : Bool} : Rows layout gaps 0 []
  | code {gaps : Bool} {level count : Nat} {text : String} {lines : List Line}
      (code : HasCode text.toList) (later : Rows layout gaps count lines) :
      Rows layout gaps (max (layout.columns level + lead layout.mark text.toList) count)
        (.code level text :: lines)
  | gap {count : Nat} {lines : List Line} (later : Rows layout true count lines) :
      Rows layout true count (.blank :: lines)

namespace Rows

variable {layout : Layout} {gaps : Bool} {count other : Nat} {lines more : List Line}

theorem append (start : Rows layout gaps count lines)
    (later : Rows layout gaps other more) :
    Rows layout gaps (max count other) (lines ++ more) := by
  induction start with
  | nil => rwa [Nat.zero_max]
  | code code _ induction =>
      rw [Nat.max_assoc]
      exact .code code (induction later)
  | gap _ induction => exact .gap (induction later)

theorem reverse (rows : Rows layout gaps count lines) :
    Rows layout gaps count lines.reverse := by
  induction rows with
  | nil => exact .nil
  | code code _ induction =>
      rw [List.reverse_cons, Nat.max_comm, ← Nat.max_zero (_ + _)]
      exact induction.append (.code code .nil)
  | @gap count lines _ induction =>
      rw [List.reverse_cons, ← Nat.max_zero count]
      exact induction.append (.gap .nil)

/-- The lines of a text at a level. -/
theorem ofCodeRows {rows : List (List Char)} (level : Nat)
    (code : CodeRows layout.mark count rows) (some : rows ≠ []) :
    Rows layout gaps (layout.columns level + count)
      (rows.map fun row => .code level (String.ofList row)) := by
  induction code with
  | nil => exact absurd rfl some
  | @cons row count rows hasCode later induction =>
      have placed : HasCode (String.ofList row).toList := by rwa [String.toList_ofList]
      have shown : lead layout.mark (String.ofList row).toList =
          lead layout.mark row := by
        rw [String.toList_ofList]
      rw [List.map_cons, ← shown]
      cases later with
      | nil =>
          rw [Nat.max_zero, ← Nat.max_zero (_ + _)]
          exact .code placed .nil
      | cons next others =>
          rw [← Nat.add_max_add_left]
          exact .code placed (induction (by simp))

theorem ofStands {text : String} (level : Nat) (stands : layout.Stands count text) :
    Rows layout gaps (layout.columns level + count) (Page.linesAt level text) := by
  rcases Inset.keptLines layout.isBlank_mark stands with ⟨code, some⟩
  rw [Page.linesAt_eq]
  exact ofCodeRows level code some

theorem lead_showLine (layout : Layout) (level : Nat) (text : String) :
    lead layout.mark (Page.showLine layout (.code level text)).toList =
      layout.columns level + lead layout.mark text.toList := by
  rw [Page.showLine, String.toList_append, Layout.toList_margin,
    Text.lead_replicate_append]

theorem hasCode_showLine {text : String} (level : Nat) (code : HasCode text.toList) :
    HasCode (Page.showLine layout (.code level text)).toList := by
  rw [Page.showLine, String.toList_append]
  exact code.indented (layout.margin_isMargin level)

/-- Lines without gaps, each after a line break. -/
theorem inset_flatMap (rows : Rows layout gaps count lines) (closed : gaps = false) :
    Inset layout.mark count
      (lines.flatMap fun line => '\n' :: (Page.showLine layout line).toList) := by
  induction rows with
  | nil => exact .nil
  | code code _ induction =>
      rw [← lead_showLine, List.flatMap_cons, List.cons_append]
      exact .row (hasCode_showLine _ code) (induction closed)
  | gap _ _ => cases closed

theorem whole_showLine (rows : Rows layout gaps count lines) :
    ∀ line ∈ lines, '\n' ∉ (Page.showLine layout line).toList := by
  induction rows with
  | nil => simp
  | code code _ induction =>
      exact List.forall_mem_cons.mpr ⟨(hasCode_showLine _ code).whole, induction⟩
  | gap _ induction => exact List.forall_mem_cons.mpr ⟨List.not_mem_nil, induction⟩

theorem forall_lead_le_iff (rows : Rows layout gaps count lines) (bound : Nat) :
    (∀ line ∈ lines, lead layout.mark (Page.showLine layout line).toList ≤ bound) ↔
      count ≤ bound := by
  induction rows with
  | nil => simp
  | code _ _ induction => rw [List.forall_mem_cons, induction, lead_showLine, Nat.max_le]
  | gap _ induction =>
      have flush : lead layout.mark (Page.showLine layout .blank).toList ≤ bound :=
        Nat.zero_le bound
      simp only [List.forall_mem_cons, induction, flush, true_and]

theorem dropWhile_blank (rows : Rows layout gaps count lines) :
    Rows layout gaps count (lines.dropWhile (· == .blank)) := by
  induction rows with
  | nil => exact .nil
  | code code later _ => exact .code code later
  | gap _ induction => exact induction

end Rows

namespace Page

/-- The page is at a level, and the lines after the first ones are set in so far. -/
structure SetIn (layout : Layout) (gaps : Bool) (first : List Line) (level count : Nat)
    (page : Page) : Prop where
  atLevel : page.AtLevel level
  lines : ∃ later, page.lines = later ++ first ∧ Rows layout gaps count later

namespace SetIn

variable {layout : Layout} {gaps : Bool} {first : List Line} {level count inset : Nat}
variable {page : Page} {text : String}

theorem line (start : page.SetIn layout gaps first level count)
    (stands : layout.Stands inset text) :
    (page.line text).SetIn layout gaps first level
      (max count (layout.columns level + inset)) := by
  rcases start.lines with ⟨later, lines, rows⟩
  refine ⟨start.atLevel.line text, (linesAt level text).reverse ++ later, ?_, ?_⟩
  · rw [line_lines start.atLevel.pending, start.atLevel.depth, lines, List.append_assoc]
  · rw [Nat.max_comm]
    exact (Rows.ofStands level stands).reverse.append rows

theorem indent (start : page.SetIn layout gaps first level count) :
    page.indent.SetIn layout gaps first (level + 1) count :=
  ⟨start.atLevel.indent, start.lines⟩

theorem unindent (start : page.SetIn layout gaps first (level + 1) count) :
    page.unindent.SetIn layout gaps first level count :=
  ⟨start.atLevel.unindent, start.lines⟩

theorem flush (start : page.SetIn layout gaps first level count) :
    page.flush.SetIn layout gaps first level count := by
  rw [flush_of_pending start.atLevel.pending]
  exact start

theorem openBlock (start : page.SetIn layout gaps first level count)
    (braceOnNewLine : Bool) (stands : layout.Stands inset text) :
    (page.openBlock text braceOnNewLine).SetIn layout gaps first (level + 1)
      (max count (layout.columns level + inset)) := by
  cases braceOnNewLine with
  | false => exact (start.line (stands.left (by decide))).indent
  | true =>
      have brace : layout.Stands 0 "\x7b" :=
        (Layout.Continues.ofLine (by decide)).standsVisibly ⟨_, _, rfl, rfl⟩
      have below : max (max count (layout.columns level + inset))
          (layout.columns level + 0) =
          max count (layout.columns level + inset) := by
        omega
      rw [← below]
      exact ((start.line stands).line brace).indent

theorem closeBlock (start : page.SetIn layout gaps first (level + 1) count)
    (continues : layout.Continues inset text) :
    (page.closeBlock text).SetIn layout gaps first level
      (max count (layout.columns level + inset)) :=
  start.flush.unindent.line
    ((continues.right (by decide)).standsVisibly (.left ⟨_, _, rfl, rfl⟩))

theorem continueBlock (start : page.SetIn layout gaps first (level + 1) count)
    (continues : layout.Continues inset text) :
    (page.continueBlock text).SetIn layout gaps first (level + 1)
      (max count (layout.columns level + inset)) := by
  have stands : layout.Stands inset ("\x7d " ++ text ++ " \x7b") :=
    ((continues.right (by decide)).left (by decide)).standsVisibly
      (.left (.left ⟨_, _, rfl, rfl⟩))
  exact (start.unindent.line stands).indent

theorem blankLine (start : page.SetIn layout true first level count) :
    page.blankLine.SetIn layout true first level count := by
  refine ⟨start.atLevel.blankLine, ?_⟩
  rcases start.lines with ⟨later, lines, rows⟩
  rw [Page.blankLine, flush_of_pending start.atLevel.pending]
  split
  · next level text rest found =>
      exact ⟨.blank :: later, by simp [← found, lines], .gap rows⟩
  · exact ⟨later, lines, rows⟩

/-- The code of a page whose first line is not indented begins with that line. -/
theorem content (start : page.SetIn layout false [.code 0 text] level count)
    (line : OneLine text) (begins : Onset.visible.Begins text) :
    layout.Continues count (page.content layout) ∧
      Onset.visible.Begins (page.content layout) := by
  rcases start.lines with ⟨later, lines, rows⟩
  have kept : (later ++ [Line.code 0 text]).dropWhile (· == .blank) =
      later ++ [.code 0 text] := by
    cases rows <;> rfl
  have first : showLine layout (.code 0 text) = text := by simp [showLine, Layout.margin]
  have shown : page.content layout = text ++ String.ofList
      (later.reverse.flatMap fun line => '\n' :: (showLine layout line).toList) := by
    apply String.toList_injective
    rw [Page.content, flush_of_pending start.atLevel.pending, contentLines, lines, kept,
      List.reverse_append, String.toList_intercalate, List.map_append, List.map_append]
    exact (Text.intercalate_break _ _).trans (by
      simp [-List.map_reverse, first, List.flatMap_map])
  rw [shown]
  refine ⟨Layout.Continues.right line ?_, begins.left⟩
  rw [Layout.Continues, String.toList_ofList]
  exact rows.reverse.inset_flatMap rfl

/-- The lines of a page that is finished. -/
theorem forall_lead_le_iff (setIn : page.SetIn layout true [] level count) (bound : Nat) :
    (∀ line ∈ Text.lines (page.finish layout), lead layout.mark line.toList ≤ bound) ↔
      count ≤ bound := by
  rcases setIn.lines with ⟨later, lines, rows⟩
  have shown : Rows layout true count page.flush.contentLines := by
    rw [flush_of_pending setIn.atLevel.pending, contentLines, lines, List.append_nil]
    exact rows.dropWhile_blank.reverse
  have mark : layout.mark ≠ '\r' := by
    rw [Layout.mark]
    split <;> decide
  have newline : "\n".toList = ['\n'] := rfl
  have divided : (∀ line ∈ Text.lines (page.finish layout),
      lead layout.mark line.toList ≤ bound) ↔
      ∀ line ∈ (page.content layout).toList.splitOn '\n',
        lead layout.mark line ≤ bound := by
    rw [finish, Text.lines, String.toList_append, newline, Text.lineChars_append_break]
    simp only [List.forall_mem_map, String.toList_ofList, Text.lead_dropReturn mark]
  rw [divided, Page.content, String.toList_intercalate, newline]
  cases equal : page.flush.contentLines with
  | nil =>
      rw [equal] at shown
      cases shown
      simp [lead]
  | cons first rest =>
      rw [equal] at shown
      have whole := List.forall_mem_cons.mp shown.whole_showLine
      rw [← shown.forall_lead_le_iff, List.map_cons, List.map_cons,
        Text.splitOn_intercalate whole.1 (by simpa using whole.2)]
      simp only [List.forall_mem_cons, List.forall_mem_map]

/-- The head of a block as the first code of a page. -/
theorem openBlock_empty (continues : layout.Continues inset text)
    (begins : Onset.visible.Begins text) :
    ∃ line, OneLine line ∧ Onset.visible.Begins line ∧
      (Page.empty.openBlock text false).SetIn layout false [.code 0 line] 1 inset := by
  have begun : Onset.visible.Begins (text ++ " \x7b") := begins.left
  rcases begun with ⟨character, rest, equal, visible⟩
  have inLine := Text.ne_break_of_visible visible
  have headed : layout.Continues inset (text ++ " \x7b") := continues.left (by decide)
  rw [Layout.Continues, equal] at headed
  rcases (headed.tail inLine).keptLines_cons layout.isBlank_mark visible with
    ⟨first, rows, kept, whole, code⟩
  have placed : Rows layout false inset
      (rows.map fun row => Line.code 0 (String.ofList row)) := by
    cases rows with
    | nil =>
        cases code
        exact .nil
    | cons row others =>
        rw [← Nat.zero_add inset, ← layout.columns_zero]
        exact Rows.ofCodeRows 0 code (by simp)
  refine ⟨String.ofList (character :: first), by simpa [OneLine] using whole,
    ⟨character, first, String.toList_ofList, visible⟩,
    AtLevel.empty.openBlock text false, _, ?_,
    placed.reverse⟩
  have written : (Page.empty.openBlock text false).lines =
      (linesAt 0 (text ++ " \x7b")).reverse ++ [] := line_lines rfl _
  rw [written, linesAt_eq, equal, kept, List.map_cons, List.reverse_cons, List.append_nil]

end SetIn

/-- A text of one line that ends visibly is no different as a paragraph. -/
theorem paragraph_eq_line {text : String} (page : Page) (line : OneLine text)
    (visible : Text.EndsVisibly text.toList) : page.paragraph text = page.line text := by
  rw [paragraph, Text.lines, Text.lineChars_of_line line visible.ne_nil,
    List.map_singleton,
    List.foldl_cons, List.foldl_nil, String.ofList_toList, Text.trimEnd,
    Text.trimEndChars_of_visible visible, String.ofList_toList]

end Page

/-! ## Emissions -/

namespace Emission

/-- An emission that succeeds goes from one level to another, and the lines that it writes
are set in so far. -/
def Insets (layout : Layout) (gaps : Bool) (before after inset : Nat)
    (emission : Emission α) :
    Prop :=
  ∀ first count, Leads (Page.SetIn layout gaps first before count)
    (fun _ => Page.SetIn layout gaps first after (max count inset)) emission

namespace Insets

variable {layout : Layout} {gaps : Bool} {before middle after level inset other : Nat}
variable {kind : α → Prop} {text : String}

theorem quiet {emission : Emission α} (quiet : Quiet emission) :
    Insets layout gaps level level 0 emission := by
  intro first count
  rw [Nat.max_zero]
  exact quiet _

theorem pure (value : α) : Insets layout gaps level level 0 (Pure.pure value) :=
  quiet (.pure value)

theorem bind {first : Emission α} {next : α → Emission β}
    (start : Insets layout gaps before middle inset first)
    (rest : ∀ value, Insets layout gaps middle after other (next value)) :
    Insets layout gaps before after (max inset other) (first >>= next) := by
  intro lines count
  rw [← Nat.max_assoc]
  exact (start lines count).bind fun value => rest value lines (max count inset)

theorem cast {emission : Emission α}
    (insets : Insets layout gaps before after inset emission) (equal : inset = other) :
    Insets layout gaps before after other emission :=
  equal ▸ insets

/-- The first part writes nothing, and the next one may rely on what is known of its
result. -/
theorem bind_yields {first : Emission α} {next : α → Emission β} (quiet : Quiet first)
    (yields : Yields kind first)
    (rest : ∀ value, kind value → Insets layout gaps before after inset (next value)) :
    Insets layout gaps before after inset (first >>= next) :=
  fun lines count => (quiet.yields yields).bind_of fun value known =>
    rest value known lines count

theorem bind_quiet {first : Emission α} {next : α → Emission β} (quiet : Quiet first)
    (rest : ∀ value, Insets layout gaps before after inset (next value)) :
    Insets layout gaps before after inset (first >>= next) :=
  bind_yields quiet (.any first) fun value _ => rest value

theorem bind_rendered {first : Emission α} {next : α → Emission β}
    (detached : Detached first) (yields : Yields kind first)
    (rest : ∀ value, kind value → Insets layout gaps before after inset (next value)) :
    Insets layout gaps before after inset (first >>= next) :=
  bind_yields (.ofDetached detached) yields rest

theorem withScope {scope : Scope} {emission : Emission α}
    (inside : Insets layout gaps before after inset emission) :
    Insets layout gaps before after inset (Emission.withScope scope emission) :=
  fun lines count => (inside lines count).withScope

theorem forM {values : List α} {act : α → Emission Unit} {insetOf : α → Nat}
    (each : ∀ value ∈ values,
      Insets layout gaps level level (insetOf value) (act value)) :
    Insets layout gaps level level (greatest (values.map insetOf)) (values.forM act) := by
  induction values with
  | nil => exact pure ()
  | cons value rest induction =>
      rw [List.forall_mem_cons] at each
      exact each.1.bind fun _ => induction each.2

theorem line (stands : layout.Stands inset text) :
    Insets layout gaps level level (layout.columns level + inset) (Emission.line text) :=
  fun _ _ => Leads.onPage fun _ start => start.line stands

/-- A line with nothing in it that goes on in other lines. -/
theorem plainLine (line : OneLine text) (begins : Onset.visible.Begins text) :
    Insets layout gaps level level (layout.columns level) (Emission.line text) := by
  have stands : layout.Stands 0 text :=
    (Layout.Continues.ofLine line).standsVisibly begins
  exact Insets.line stands

theorem lines {insets : List Nat} {texts : List String}
    (each : List.Forall₂ layout.Stands insets texts) :
    Insets layout gaps level level (greatest (insets.map (layout.columns level + ·)))
      (Emission.lines texts) := by
  induction each with
  | nil => exact pure ()
  | cons first _ induction => exact (line first).bind fun _ => induction

/-- Lines that are not in any block. -/
theorem flushLines {texts : List String}
    (each : ∀ text ∈ texts, OneLine text ∧ Onset.visible.Begins text) :
    Insets layout gaps 0 0 0 (Emission.lines texts) := by
  induction texts with
  | nil => exact pure ()
  | cons text rest induction =>
      rw [List.forall_mem_cons] at each
      have first : Insets layout gaps 0 0 0 (Emission.line text) :=
        (plainLine each.1.1 each.1.2).cast layout.columns_zero
      exact first.bind fun _ => induction each.2

theorem comment (line : OneLine text) :
    Insets layout gaps level level (layout.columns level) (Emission.comment text) := by
  have whole : OneLine ("/" ++ text ++ "/") :=
    (OneLine.append (by decide) line).append (by decide)
  have visible : Text.EndsVisibly ("/" ++ text ++ "/").toList :=
    ⟨_, '/', by rw [String.toList_append]; rfl, rfl⟩
  have stands : layout.Stands 0 ("/" ++ text ++ "/") :=
    (Layout.Continues.ofLine whole).standsVisibly (.left (.left ⟨_, _, rfl, rfl⟩))
  intro first count
  refine Leads.onPage fun page start => ?_
  rw [page.paragraph_eq_line whole visible]
  exact start.line stands

/-- A docblock is not set in further than what it stands before. -/
theorem documented {docblock : Option String} {next : Unit → Emission β}
    (each : ∀ text ∈ docblock.toList, OneLine text)
    (level_le : layout.columns level ≤ inset)
    (rest : ∀ value, Insets layout gaps level after inset (next value)) :
    Insets layout gaps level after inset (Emission.docblock docblock >>= next) := by
  cases docblock with
  | none => exact bind_quiet (.pure ()) rest
  | some text =>
      have line : OneLine text := each text (List.mem_singleton_self text)
      exact ((comment line).bind rest).cast (Nat.max_eq_right level_le)

theorem blankLine : Insets layout true level level 0 (Emission.onPage (·.blankLine)) := by
  intro first count
  rw [Nat.max_zero]
  exact Leads.onPage fun _ start => start.blankLine

theorem openBlock (braceOnNewLine : Bool) (stands : layout.Stands inset text) :
    Insets layout gaps level (level + 1) (layout.columns level + inset)
      (Emission.onPage (·.openBlock text braceOnNewLine)) :=
  fun _ _ => Leads.onPage fun _ start => start.openBlock braceOnNewLine stands

theorem closeBlock (continues : layout.Continues inset text) :
    Insets layout gaps (level + 1) level (layout.columns level + inset)
      (Emission.onPage (·.closeBlock text)) :=
  fun _ _ => Leads.onPage fun _ start => start.closeBlock continues

theorem closeBrace :
    Insets layout gaps (level + 1) level (layout.columns level)
      (Emission.onPage (·.closeBlock "")) := by
  have nothing : layout.Continues 0 "" := .ofLine (by decide)
  exact closeBlock nothing

theorem continueBlock (continues : layout.Continues inset text) :
    Insets layout gaps (level + 1) (level + 1) (layout.columns level + inset)
      (Emission.onPage (·.continueBlock text)) :=
  fun _ _ => Leads.onPage fun _ start => start.continueBlock continues

theorem block {inner : Nat} {body : Emission Unit} (braceOnNewLine : Bool)
    (stands : layout.Stands inset text)
    (inside : Insets layout gaps (level + 1) (level + 1) inner body) :
    Insets layout gaps level level (max (layout.columns level + inset) inner) (do
      Emission.onPage (·.openBlock text braceOnNewLine)
      body
      Emission.onPage (·.closeBlock "")) := by
  have block := (openBlock braceOnNewLine stands).bind fun _ =>
    inside.bind fun _ => closeBrace
  exact block.cast (by omega)

theorem clause {inner later : Nat} {body rest : Emission Unit}
    (stands : layout.Stands inset text)
    (inside : Insets layout gaps (level + 1) (level + 1) inner body)
    (others : Insets layout gaps level level later rest) :
    Insets layout gaps level level
      (max (layout.columns level + inset) (max inner later)) (do
        Emission.line text
        Emission.onPage (·.indent)
        body
        Emission.onPage (·.flush.unindent)
        rest) := by
  have indent : Insets layout gaps level (level + 1) 0 (Emission.onPage (·.indent)) := by
    intro first count
    rw [Nat.max_zero]
    exact Leads.onPage fun _ start => start.indent
  have unindent : Insets layout gaps (level + 1) level 0
      (Emission.onPage (·.flush.unindent)) := by
    intro first count
    rw [Nat.max_zero]
    exact Leads.onPage fun _ start => start.flush.unindent
  have clause := (line stands).bind fun _ => indent.bind fun _ => inside.bind fun _ =>
    unindent.bind fun _ => others
  exact clause.cast (by omega)

/-- The code of a block that is written on a page of its own. -/
theorem onOwnPage {inner : Nat} {body : Emission Unit}
    (continues : layout.Continues inset text) (begins : Onset.visible.Begins text)
    (inside : Insets layout false 1 1 inner body) :
    Yields (fun page => layout.Continues (max inset inner) (page.content layout) ∧
        Onset.visible.Begins (page.content layout))
      (Emission.onOwnPage do
        Emission.onPage (·.openBlock text false)
        body
        Emission.onPage (·.closeBlock "")) := by
  have opened : Leads (· = .empty) (fun _ page => ∃ line, OneLine line ∧
      Onset.visible.Begins line ∧ page.SetIn layout false [.code 0 line] 1 inset)
      (Emission.onPage (·.openBlock text false)) := by
    refine Leads.onPage fun page start => ?_
    rw [start]
    exact Page.SetIn.openBlock_empty continues begins
  have closed : Insets layout false 1 0 inner (do
      body
      Emission.onPage (·.closeBlock "")) :=
    (inside.bind fun _ => closeBrace).cast (by rw [layout.columns_zero, Nat.max_zero])
  apply Leads.onOwnPage
  refine opened.bind fun _ emitter value final ended start => ?_
  rcases start with ⟨line, whole, visible, start⟩
  exact (closed _ _ emitter value final ended start).content whole visible

/-- Something that is done or left out. -/
theorem optional {condition : Bool} {first : Emission Unit} {next : Unit → Emission β}
    (start : Insets layout gaps before before 0 first)
    (rest : Insets layout gaps before after inset (next ())) :
    Insets layout gaps before after inset
      (if condition then first >>= next else next ()) := by
  split
  · exact (start.bind fun _ => rest).cast (Nat.zero_max inset)
  · exact rest

end Insets

end Emission

end ZephirPhp
