import Mathlib.Data.List.DropRight
import Mathlib.Data.List.Induction
import ZephirPhp.Proofs.Emission.Showing

/-! # What is written on a page

A page is written on by calls, which append to the line at hand, finish it, ask for a
blank line and change the depth. The journal of some calls notes what is submitted:
every text that is finished, with the depth at that time, and every blank line that is
asked for. The text of the page is made of the lines in the journal (`finish_written`),
whatever the order of the calls.
-/

namespace ZephirPhp.Page

open Text (EndsVisibly)

/-! ## Calls -/

inductive Call where
  | append (text : String)
  | line (text : String)
  | paragraph (text : String)
  | flush
  | blankLine
  | indent
  | unindent
  | openBlock (header : String) (braceOnNewLine : Bool)
  | closeBlock (suffix : String)
deriving DecidableEq, Repr

def Call.run : Call → Page → Page
  | .append text => Page.append text
  | .line text => Page.line text
  | .paragraph text => Page.paragraph text
  | .flush => Page.flush
  | .blankLine => Page.blankLine
  | .indent => Page.indent
  | .unindent => Page.unindent
  | .openBlock header braceOnNewLine => Page.openBlock header braceOnNewLine
  | .closeBlock suffix => Page.closeBlock suffix

/-- The page after some calls. -/
def written (calls : List Call) : Page :=
  calls.foldl (fun page call => call.run page) .empty

/-! ## The journal -/

/-- What calls are made of. -/
inductive Step where
  | write (text : String)
  | finish
  | gap
  | deeper
  | shallower

def Call.steps : Call → List Step
  | .append text => [.write text]
  | .line text => [.write text, .finish]
  | .paragraph text =>
    (Text.lines text).flatMap fun line => [.write (Text.trimEnd line), .finish]
  | .flush => [.finish]
  | .blankLine => [.finish, .gap]
  | .indent => [.deeper]
  | .unindent => [.shallower]
  | .openBlock header true => [.write header, .finish, .write "\x7b", .finish, .deeper]
  | .openBlock header false => [.write (header ++ " \x7b"), .finish, .deeper]
  | .closeBlock suffix => [.finish, .shallower, .write ("\x7d" ++ suffix), .finish]

inductive Note where
  /-- The text that is finished at a depth. -/
  | finished (depth : Nat) (text : String)
  /-- A blank line is asked for. -/
  | gap
deriving DecidableEq, Repr

/-- The notes of some steps. What is pending in the end is finished there. -/
def notesFrom (depth : Nat) (pending : String) : List Step → List Note
  | [] => [.finished depth pending]
  | .write text :: rest => notesFrom depth (pending ++ text) rest
  | .finish :: rest => .finished depth pending :: notesFrom depth "" rest
  | .gap :: rest => .gap :: notesFrom depth pending rest
  | .deeper :: rest => notesFrom (depth + 1) pending rest
  | .shallower :: rest => notesFrom (depth - 1) pending rest

def journal (calls : List Call) : List Note :=
  notesFrom 0 "" (calls.flatMap Call.steps)

/-- The lines of a note: those of its text that are not blank, without the blanks at their
ends, indented by its depth. -/
def Note.shown (layout : Layout) : Note → List String
  | .finished depth text => (Text.keptLines text.toList).map fun line =>
    String.join (List.replicate (min depth layout.maxDepth) layout.unit) ++
      String.ofList line
  | .gap => []

example : (journal [.indent, .append "a ", .blankLine, .line "b\n\nc"]).flatMap
    (Note.shown {}) =
    ["  a", "  b", "  c"] := by decide

/-! ## Lines of a journal -/

/-- Finished lines with a blank one after a line of code, the last line first. -/
def addGap : List Line → List Line
  | .code level text :: rest => .blank :: .code level text :: rest
  | lines => lines

/-- The finished lines after a note, the last line first. -/
def record (lines : List Line) : Note → List Line
  | .finished depth text => (linesAt depth text).reverse ++ lines
  | .gap => addGap lines

def Step.run (page : Page) : Step → Page
  | .write text => page.append text
  | .finish => page.flush
  | .gap => { page with lines := addGap page.lines }
  | .deeper => page.indent
  | .shallower => page.unindent

theorem blankLine_eq (page : Page) :
    page.blankLine = Step.run (Step.run page .finish) .gap := by
  rw [blankLine, Step.run, Step.run]
  split
  · next level text rest found => rw [found]; rfl
  · next other =>
      rw [addGap]
      exact other

theorem run_eq_steps (call : Call) (page : Page) :
    call.run page = call.steps.foldl Step.run page := by
  cases call with
  | blankLine => exact blankLine_eq page
  | openBlock header braceOnNewLine => cases braceOnNewLine <;> rfl
  | paragraph text => rw [Call.run, Call.steps, List.foldl_flatMap]; rfl
  | _ => rfl

/-- One step after the other, the page keeps the lines that the journal notes. -/
theorem flush_foldl_run (steps : List Step) (page : Page) :
    (steps.foldl Step.run page).flush.lines =
      (notesFrom page.depth page.pending steps).foldl record page.lines := by
  induction steps generalizing page with
  | nil => rfl
  | cons step steps induction =>
      rw [List.foldl_cons, induction]
      cases step <;> rfl

/-- The finished lines of a journal, in their order. -/
def recorded (notes : List Note) : List Line :=
  (notes.foldl record []).reverse

theorem flush_written (calls : List Call) :
    (written calls).flush.lines.reverse = recorded (journal calls) := by
  have run : written calls = (calls.flatMap Call.steps).foldl Step.run .empty := by
    rw [written, List.foldl_flatMap]
    congr 1
    funext page call
    exact run_eq_steps call page
  rw [run, flush_foldl_run]
  rfl

theorem recorded_finished (notes : List Note) (depth : Nat) (text : String) :
    recorded (notes ++ [.finished depth text]) =
      recorded notes ++ linesAt depth text := by
  simp [recorded, record]

/-- A blank line is only added after a line of code. -/
theorem recorded_gap (notes : List Note) :
    (∃ front level text, recorded notes = front ++ [.code level text] ∧
      recorded (notes ++ [.gap]) = recorded notes ++ [.blank]) ∨
    ((recorded notes = [] ∨ ∃ front, recorded notes = front ++ [.blank]) ∧
      recorded (notes ++ [.gap]) = recorded notes) := by
  simp only [recorded, List.foldl_append, List.foldl_cons, List.foldl_nil, record]
  rcases notes.foldl record [] with _ | ⟨_ | ⟨level, text⟩, rest⟩
  · exact .inr ⟨.inl rfl, rfl⟩
  · exact .inr ⟨.inr ⟨rest.reverse, List.reverse_cons⟩, rfl⟩
  · exact .inl ⟨rest.reverse, level, text, List.reverse_cons, List.reverse_cons⟩

/-! ## Lines of code -/

/-- The lines of code among some lines. -/
def codes (lines : List Line) : List Line :=
  lines.filter (· ≠ .blank)

@[simp] theorem codes_append (front rest : List Line) :
    codes (front ++ rest) = codes front ++ codes rest :=
  List.filter_append ..

@[simp] theorem codes_linesAt (depth : Nat) (text : String) :
    codes (linesAt depth text) = linesAt depth text := by
  rw [codes, List.filter_eq_self]
  intro line member
  rcases List.mem_map.mp member with ⟨text, _, rfl⟩
  rfl

/-- The lines of code of a note. -/
def Note.lines : Note → List Line
  | .finished depth text => linesAt depth text
  | .gap => []

/-- The lines of code are those of the notes, in their order. -/
theorem codes_recorded (notes : List Note) :
    codes (recorded notes) = notes.flatMap Note.lines := by
  induction notes using List.reverseRecOn with
  | nil => rfl
  | append_singleton notes note induction =>
      rw [List.flatMap_append, ← induction]
      cases note with
      | finished depth text => simp [recorded_finished, Note.lines]
      | gap =>
          rcases recorded_gap notes with ⟨_, _, _, _, added⟩ | ⟨_, same⟩
          · simp [added, Note.lines, codes]
          · simp [same, Note.lines]

theorem recorded_append (notes more : List Note) :
    ∃ added, recorded (notes ++ more) = recorded notes ++ added := by
  induction more using List.reverseRecOn with
  | nil => exact ⟨[], by simp⟩
  | append_singleton more note induction =>
      rcases induction with ⟨added, earlier⟩
      rw [← List.append_assoc]
      cases note with
      | finished depth text =>
          exact ⟨added ++ linesAt depth text, by
            rw [recorded_finished, earlier, List.append_assoc]⟩
      | gap =>
          rcases recorded_gap (notes ++ more) with ⟨_, _, _, _, grown⟩ | ⟨_, same⟩
          · exact ⟨added ++ [.blank], by rw [grown, earlier, List.append_assoc]⟩
          · exact ⟨added, same.trans earlier⟩

/-! ## Blank lines -/

/-- Every blank line is one that was asked for when the lines before it were there, and
follows a line of code. -/
theorem gap_of_blank {notes : List Note} {before after : List Line}
    (placed : recorded notes = before ++ .blank :: after) :
    (∃ front level text, before = front ++ [.code level text]) ∧
      ∃ earlier later, notes = earlier ++ .gap :: later ∧ recorded earlier = before := by
  induction notes using List.reverseRecOn generalizing after with
  | nil => simp [recorded] at placed
  | append_singleton notes note induction =>
      -- A blank line that was there before the last note has its gap among the earlier
      -- notes.
      have inherit {after : List Line}
          (earlier : recorded notes = before ++ .blank :: after) :
          (∃ front level text, before = front ++ [.code level text]) ∧
            ∃ earlier later, notes ++ [note] = earlier ++ .gap :: later ∧
              recorded earlier = before := by
        rcases induction earlier with ⟨follows, start, later, split, same⟩
        exact ⟨follows, start, later ++ [note], by simp [split], same⟩
      cases note with
      | finished depth text =>
          rw [recorded_finished] at placed
          have noBlank : Line.blank ∉ linesAt depth text := by simp [linesAt]
          rcases List.append_eq_append_iff.mp placed with
            ⟨inside, _, atEnd⟩ | ⟨_ | ⟨first, rest⟩, earlier, atEnd⟩
          · exact absurd (atEnd ▸ by simp) noBlank
          · have atStart : .blank :: after = linesAt depth text := atEnd
            exact absurd (atStart ▸ List.mem_cons_self) noBlank
          · cases (List.cons.inj atEnd).1
            exact inherit earlier
      | gap =>
          rcases recorded_gap notes with ⟨front, level, text, follows, added⟩ | ⟨_, same⟩
          · rw [added] at placed
            rcases List.eq_nil_or_concat after with rfl | ⟨rest, last, rfl⟩
            · have whole := (List.append_inj' placed rfl).1
              exact ⟨⟨front, level, text, whole ▸ follows⟩, notes, [], rfl, whole⟩
            · rw [List.concat_eq_append, ← List.cons_append,
                ← List.append_assoc] at placed
              exact inherit (List.append_inj' placed rfl).1
          · exact inherit (same ▸ placed)

/-- A blank line that is asked for after a line of code is there. -/
theorem blank_of_gap {earlier : List Note} (later : List Note)
    (some : earlier.flatMap Note.lines ≠ []) :
    ∃ before after, recorded (earlier ++ .gap :: later) = before ++ .blank :: after ∧
      codes before = earlier.flatMap Note.lines ∧
        codes after = later.flatMap Note.lines := by
  have reached : ∃ before, recorded (earlier ++ [.gap]) = before ++ [.blank] := by
    rcases recorded_gap earlier with
      ⟨_, _, _, _, added⟩ | ⟨nothing | ⟨front, blank⟩, same⟩
    · exact ⟨_, added⟩
    · rw [← codes_recorded, nothing] at some
      exact absurd rfl some
    · exact ⟨front, same.trans blank⟩
  rcases reached with ⟨before, reached⟩
  rcases recorded_append (earlier ++ [.gap]) later with ⟨after, grown⟩
  have whole : recorded (earlier ++ .gap :: later) = before ++ .blank :: after := by
    simpa [reached] using grown
  have codesBefore : codes before = earlier.flatMap Note.lines := by
    have counted := codes_recorded (earlier ++ [.gap])
    simpa [reached, Note.lines, codes] using counted
  have codesAfter := codes_recorded (earlier ++ .gap :: later)
  rw [whole, codes_append, codesBefore, List.flatMap_append] at codesAfter
  exact ⟨before, after, whole, codesBefore, List.append_cancel_left codesAfter⟩

/-! ## The text of a page -/

theorem contentLines_eq (page : Page) :
    page.contentLines = page.lines.reverse.rdropWhile (· == .blank) := by
  rw [List.rdropWhile_reverse]
  rfl

theorem codes_rdropWhile (lines : List Line) :
    codes (lines.rdropWhile (· == .blank)) = codes lines := by
  induction lines using List.reverseRecOn with
  | nil => rfl
  | append_singleton lines line induction =>
      cases line with
      | blank => simpa [List.rdropWhile_concat, codes] using induction
      | code level text => simp

/-- The lines that are shown of a journal: those up to the last line of code. -/
def shownLines (notes : List Note) : List Line :=
  (recorded notes).rdropWhile (· == .blank)

theorem codes_shownLines (notes : List Note) :
    codes (shownLines notes) = notes.flatMap Note.lines := by
  rw [shownLines, codes_rdropWhile, codes_recorded]

/-- The last line that is shown is a line of code. -/
theorem shownLines_last (notes : List Note) :
    shownLines notes = [] ∨
      ∃ front level text, shownLines notes = front ++ [.code level text] := by
  by_cases nothing : shownLines notes = []
  · exact .inl nothing
  · have last : ¬(((shownLines notes).getLast nothing) == .blank) = true :=
      List.rdropWhile_last_not (fun line => line == Line.blank) (recorded notes) nothing
    have whole := List.dropLast_append_getLast nothing
    cases final : (shownLines notes).getLast nothing with
    | blank => simp [final] at last
    | code level text => exact .inr ⟨_, level, text, (final ▸ whole).symm⟩

theorem shownLines_eq_nil_iff (notes : List Note) :
    shownLines notes = [] ↔ notes.flatMap Note.lines = [] := by
  rw [← codes_shownLines]
  rcases shownLines_last notes with nothing | ⟨front, level, text, last⟩
  · simp [nothing, codes]
  · simp [last, codes]

/-- A blank line that is shown stands between two lines of code, where one is asked
for. -/
theorem gap_of_shown {notes : List Note} {before after : List Line}
    (placed : shownLines notes = before ++ .blank :: after) :
    (∃ front level text, before = front ++ [.code level text]) ∧
      (∃ level text rest, after = .code level text :: rest) ∧
      ∃ earlier later, notes = earlier ++ .gap :: later ∧
        codes before = earlier.flatMap Note.lines ∧
          codes after = later.flatMap Note.lines := by
  rcases List.rdropWhile_prefix (· == .blank) (l := recorded notes) with ⟨dropped, whole⟩
  rw [← shownLines] at whole
  have recordedSplit : recorded notes = before ++ .blank :: (after ++ dropped) := by
    simp [← whole, placed]
  rcases gap_of_blank recordedSplit with ⟨follows, earlier, later, split, same⟩
  have codesBefore : codes before = earlier.flatMap Note.lines := by
    rw [← same, codes_recorded]
  have codesAfter := codes_shownLines notes
  rw [placed, codes_append, codesBefore, split, List.flatMap_append] at codesAfter
  refine ⟨follows, ?_, earlier, later, split, codesBefore,
    List.append_cancel_left codesAfter⟩
  rcases after with _ | ⟨_ | ⟨level, text⟩, rest⟩
  · -- The last line that is shown is not blank.
    rcases shownLines_last notes with nothing | ⟨front, level, text, last⟩
    · simp [nothing] at placed
    · cases (List.append_inj' (last.symm.trans placed) rfl).2
  · -- The line before a blank one is not blank.
    have second : recorded notes =
        (before ++ [.blank]) ++ .blank :: (rest ++ dropped) := by
      simp [recordedSplit]
    rcases (gap_of_blank second).1 with ⟨front, level, text, last⟩
    cases (List.append_inj' last rfl).2
  · exact ⟨level, text, rest, rfl⟩

theorem rdropWhile_append {kind : Line → Bool} {front rest : List Line}
    (some : rest.rdropWhile kind ≠ []) :
    (front ++ rest).rdropWhile kind = front ++ rest.rdropWhile kind := by
  rw [List.rdropWhile, ne_eq, List.reverse_eq_nil_iff] at some
  rw [List.rdropWhile, List.reverse_append, List.dropWhile_append,
    if_neg (by simpa [List.isEmpty_iff] using some), List.reverse_append,
    List.reverse_reverse]
  rfl

/-- A blank line that is asked for between two lines of code is shown. -/
theorem shown_of_gap {earlier later : List Note}
    (some : earlier.flatMap Note.lines ≠ []) (someLater : later.flatMap Note.lines ≠ []) :
    ∃ before after, shownLines (earlier ++ .gap :: later) = before ++ .blank :: after ∧
      codes before = earlier.flatMap Note.lines ∧
        codes after = later.flatMap Note.lines := by
  rcases blank_of_gap later some with ⟨before, after, placed, codesBefore, codesAfter⟩
  have shownAfter : after.rdropWhile (· == .blank) ≠ [] := by
    intro nothing
    rw [← codesAfter, ← codes_rdropWhile, nothing] at someLater
    exact someLater rfl
  refine ⟨before, after.rdropWhile (· == .blank), ?_, codesBefore, ?_⟩
  · rw [shownLines, placed, List.append_cons, rdropWhile_append shownAfter,
      ← List.append_cons]
  · rw [codes_rdropWhile, codesAfter]

/-! ## Lines as they are shown -/

/-- Whether a line is one that can be shown: a line of code is not broken and ends in a
visible character. -/
def IsWhole : Line → Prop
  | .blank => True
  | .code _ text => '\n' ∉ text.toList ∧ EndsVisibly text.toList

theorem isWhole_of_mem {notes : List Note} {line : Line}
    (member : line ∈ shownLines notes) :
    IsWhole line := by
  cases line with
  | blank => trivial
  | code level text =>
      have among : .code level text ∈ codes (shownLines notes) :=
        List.mem_filter.mpr ⟨member, rfl⟩
      rw [codes_shownLines, List.mem_flatMap] at among
      rcases among with ⟨note, _, inNote⟩
      cases note with
      | finished depth submitted =>
          rw [Note.lines, linesAt, Text.filter_lines, List.map_map,
            List.mem_map] at inNote
          rcases inNote with ⟨characters, kept, equal⟩
          cases equal
          simpa [IsWhole] using Text.of_mem_keptLines kept
      | gap => cases inNote

theorem isWhole_around {notes : List Note} {before after : List Line} {line : Line}
    (placed : shownLines notes = before ++ line :: after) :
    (∀ earlier ∈ before, IsWhole earlier) ∧ IsWhole line ∧
      ∀ later ∈ after, IsWhole later := by
  have whole : ∀ shown ∈ before ++ line :: after, IsWhole shown := by
    rw [← placed]
    exact fun _ => isWhole_of_mem
  simpa [or_imp, forall_and] using whole

theorem flatMap_shown (layout : Layout) (notes : List Note) :
    notes.flatMap (Note.shown layout) =
      (notes.flatMap Note.lines).map (showLine layout) := by
  rw [List.map_flatMap]
  congr 1
  funext note
  cases note with
  | finished depth text => exact (map_showLine_linesAt layout depth text).symm
  | gap => rfl

theorem endsVisibly_showLine (layout : Layout) {level : Nat} {text : String}
    (whole : IsWhole (.code level text)) :
    EndsVisibly (showLine layout (.code level text)).toList := by
  rw [showLine, String.toList_append]
  exact whole.2.append _

theorem trimEnd_of_visible {text : String} (visible : EndsVisibly text.toList) :
    Text.trimEnd text = text := by
  rw [Text.trimEnd, Text.trimEndChars_of_visible visible, String.ofList_toList]

theorem showLine_code_ne_empty (layout : Layout) {level : Nat} {text : String}
    (whole : IsWhole (.code level text)) : showLine layout (.code level text) ≠ "" := by
  intro nothing
  have visible := endsVisibly_showLine layout whole
  rw [nothing] at visible
  exact visible.ne_nil rfl

theorem showLine_eq_empty_iff (layout : Layout) {line : Line} (whole : IsWhole line) :
    showLine layout line = "" ↔ line = .blank := by
  cases line with
  | blank => exact iff_of_true rfl rfl
  | code level text => exact iff_of_false (showLine_code_ne_empty layout whole) (by simp)

theorem showLine_trimmed (layout : Layout) {line : Line} (whole : IsWhole line) :
    '\n' ∉ (showLine layout line).toList ∧
      Text.trimEnd (showLine layout line) = showLine layout line := by
  cases line with
  | blank => exact ⟨List.not_mem_nil, rfl⟩
  | code level text =>
      refine ⟨fun broken => ?_, trimEnd_of_visible (endsVisibly_showLine layout whole)⟩
      rw [showLine, String.toList_append, List.mem_append] at broken
      rcases broken with inMargin | inText
      · rcases Layout.mem_margin inMargin with space | tab
        · exact absurd space (by decide)
        · exact absurd tab (by decide)
      · exact whole.1 inText

/-- The lines of a text that are not blank are those of the notes, in their order. -/
def Keeps (layout : Layout) (notes : List Note) (shown : List String) : Prop :=
  shown.filter (· ≠ "") = notes.flatMap (Note.shown layout)

theorem keeps_of_codes (layout : Layout) {notes : List Note} {lines : List Line}
    (whole : ∀ line ∈ lines, IsWhole line)
    (same : codes lines = notes.flatMap Note.lines) :
    Keeps layout notes (lines.map (showLine layout)) := by
  have visible : lines.filter ((· ≠ "") ∘ showLine layout) = codes lines := by
    apply List.filter_congr
    intro line member
    simp [showLine_eq_empty_iff layout (whole line member)]
  rw [Keeps, List.filter_map, visible, same, flatMap_shown]

/-- The lines of a text are what some notes ask for. -/
structure LaidOut (layout : Layout) (notes : List Note) (shown : List String) : Prop where
  trimmed : ∀ line ∈ shown, '\n' ∉ line.toList ∧ Text.trimEnd line = line
  keeps : Keeps layout notes shown
  /-- A blank line stands between two that are not blank, where it is asked for. -/
  gap : ∀ {before after}, shown = before ++ "" :: after →
    (∃ front line, before = front ++ [line] ∧ line ≠ "") ∧
      (∃ line rest, after = line :: rest ∧ line ≠ "") ∧
      ∃ earlier later, notes = earlier ++ .gap :: later ∧
        Keeps layout earlier before ∧ Keeps layout later after
  /-- A blank line that is asked for between lines that are not blank is there. -/
  blank : ∀ {earlier later}, notes = earlier ++ .gap :: later →
    earlier.flatMap (Note.shown layout) ≠ [] → later.flatMap (Note.shown layout) ≠ [] →
      ∃ before after, shown = before ++ "" :: after ∧
        Keeps layout earlier before ∧ Keeps layout later after

theorem laidOut_shownLines (layout : Layout) (notes : List Note) :
    LaidOut layout notes ((shownLines notes).map (showLine layout)) where
  trimmed := by
    intro line member
    rcases List.mem_map.mp member with ⟨shown, among, rfl⟩
    exact showLine_trimmed layout (isWhole_of_mem among)
  keeps := keeps_of_codes layout (fun _ => isWhole_of_mem) (codes_shownLines notes)
  gap := by
    intro textsBefore textsAfter placed
    rcases List.map_eq_append_iff.mp placed with ⟨before, others, whole, rfl, atBlank⟩
    rcases List.map_eq_cons_iff.mp atBlank with ⟨line, after, rfl, empty, rfl⟩
    have ⟨wholeBefore, wholeLine, wholeAfter⟩ := isWhole_around whole
    cases (showLine_eq_empty_iff layout wholeLine).mp empty
    have ⟨⟨front, level, text, last⟩, ⟨nextLevel, nextText, rest, next⟩, earlier,
        later, split,
      codesBefore, codesAfter⟩ := gap_of_shown whole
    refine ⟨⟨front.map (showLine layout), showLine layout (.code level text), ?_, ?_⟩,
      ⟨showLine layout (.code nextLevel nextText), rest.map (showLine layout), ?_, ?_⟩,
      earlier, later, split, keeps_of_codes layout wholeBefore codesBefore,
      keeps_of_codes layout wholeAfter codesAfter⟩
    · simp [last]
    · exact showLine_code_ne_empty layout (wholeBefore _ (by simp [last]))
    · simp [next]
    · exact showLine_code_ne_empty layout (wholeAfter _ (by simp [next]))
  blank := by
    intro earlier later split some someLater
    rw [flatMap_shown, ne_eq, List.map_eq_nil_iff] at some someLater
    rcases shown_of_gap some someLater with
      ⟨before, after, placed, codesBefore, codesAfter⟩
    rw [← split] at placed
    have ⟨wholeBefore, _, wholeAfter⟩ := isWhole_around placed
    exact ⟨before.map (showLine layout),
      after.map (showLine layout), by simp [placed, showLine],
      keeps_of_codes layout wholeBefore codesBefore,
        keeps_of_codes layout wholeAfter codesAfter⟩

/-- The text of a page ends in a visible character, unless nothing is on it. -/
theorem endsVisibly_shownLines (layout : Layout) {notes : List Note}
    (some : shownLines notes ≠ []) :
    EndsVisibly ("\n".intercalate ((shownLines notes).map (showLine layout))).toList := by
  rcases shownLines_last notes with nothing | ⟨front, level, text, last⟩
  · exact absurd nothing some
  have visible := endsVisibly_showLine layout (isWhole_around last).2.1
  rw [last, List.map_append, List.map_singleton]
  by_cases only : front = []
  · simpa [only] using visible
  · rw [String.intercalate_append_of_ne_nil (by simpa using only) (by simp),
      String.intercalate_singleton, String.toList_append]
    exact visible.append _

theorem content_written (layout : Layout) (calls : List Call) :
    (written calls).content layout =
      "\n".intercalate ((shownLines (journal calls)).map (showLine layout)) := by
  rw [content, contentLines_eq, flush_written]
  rfl

/-- Whatever is written on a page, its text has the lines that were submitted, in their
order and each at its depth. Blank lines stand between others where they were asked for,
no line ends in blanks, and one line break ends the text, which is all of it when nothing
visible was submitted. -/
theorem finish_written (layout : Layout) (calls : List Call) :
    ∃ shown : List String,
      LaidOut layout (journal calls) shown ∧
      (written calls).finish layout = "\n".intercalate shown ++ "\n" ∧
      Text.trimEnd ("\n".intercalate shown) = "\n".intercalate shown ∧
      ((written calls).finish layout = "\n" ↔
        (journal calls).flatMap (Note.shown layout) = []) := by
  have laidOut := laidOut_shownLines layout (journal calls)
  have finished : (written calls).finish layout =
      "\n".intercalate ((shownLines (journal calls)).map (showLine layout)) ++ "\n" := by
    rw [finish, content_written]
  refine ⟨_, laidOut, finished, ?_, ?_⟩
  · by_cases nothing : shownLines (journal calls) = []
    · rw [nothing]
      rfl
    · exact trimEnd_of_visible (endsVisibly_shownLines layout nothing)
  · rw [flatMap_shown, List.map_eq_nil_iff, ← shownLines_eq_nil_iff, finished]
    constructor
    · intro short
      by_contra some
      have empty :
          "\n".intercalate ((shownLines (journal calls)).map (showLine layout)) = "" := by
        simpa using short
      exact (endsVisibly_shownLines layout some).ne_nil (by rw [empty]; rfl)
    · intro nothing
      rw [nothing]
      rfl

end ZephirPhp.Page
