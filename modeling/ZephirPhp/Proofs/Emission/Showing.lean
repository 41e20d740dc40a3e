import ZephirPhp.Proofs.Emission.Writing
import ZephirPhp.Proofs.Text.Lines

/-! # Literals on pages

A string stands in the code as a literal, and the code is laid out with it: a literal of
several lines is cut into lines, which are trimmed and indented. A literal that is not
changed by this stays on the page from the line on in which it is written, since lines are
only added.
-/

namespace ZephirPhp

variable {α β : Type}

open Text (EndsVisibly Occurs)

/-! ## Literals and layout -/

theorem mem_escapeDollars {character : Char} (other : character ≠ '\\') (escaped : Bool)
    (characters : List Char) :
    character ∈ escapeDollars escaped characters ↔ character ∈ characters := by
  induction characters generalizing escaped with
  | nil => rfl
  | cons first rest induction =>
      simp only [escapeDollars]
      split <;> simp [other, induction]

theorem newline_mem_stringLiteral (content : String) :
    '\n' ∈ (stringLiteral content).toList ↔ '\n' ∈ content.toList := by
  have quote : "\"".toList = ['"'] := rfl
  simp [stringLiteral, quote, mem_escapeDollars]

theorem stringLiteral_endsVisibly (content : String) :
    EndsVisibly (stringLiteral content).toList :=
  ⟨_, '"', by rw [stringLiteral, String.toList_append]; rfl, rfl⟩

/-- Layout does not change the literal of a content: it has one line, or nothing is
indented and its line breaks stand after visible characters. -/
def Layout.Leaves (layout : Layout) (content : String) : Prop :=
  '\n' ∉ content.toList ∨
    layout.margin 1 = "" ∧ Text.BreaksVisibly (stringLiteral content).toList

/-- The literals of the contents, as far as layout does not change them, are in a text. -/
def Layout.Finds (layout : Layout) (contents : List String) (text : String) : Prop :=
  ∀ content ∈ contents, layout.Leaves content → Occurs (stringLiteral content) text

namespace Layout.Finds

variable {layout : Layout} {contents others : List String} {text : String}

theorem nil : layout.Finds [] text := by
  intro content member
  cases member

theorem append (first : layout.Finds contents text) (second : layout.Finds others text) :
    layout.Finds (contents ++ others) text := by
  intro content member leaves
  rcases List.mem_append.mp member with here | there
  · exact first content here leaves
  · exact second content there leaves

theorem left (finds : layout.Finds contents text) {rest : String} :
    layout.Finds contents (text ++ rest) :=
  fun content member leaves => (finds content member leaves).left

theorem right {front : String} (finds : layout.Finds contents text) :
    layout.Finds contents (front ++ text) :=
  fun content member leaves => (finds content member leaves).right

/-- What is found in each text is found where the texts are put together. -/
theorem intercalate {separator : String} {parts : List (List String)}
    {texts : List String} (finds : List.Forall₂ layout.Finds parts texts) :
    layout.Finds parts.flatten (separator.intercalate texts) := by
  induction finds with
  | nil => exact .nil
  | cons first rest induction =>
      cases rest with
      | nil => simpa using first
      | cons second others =>
          rw [List.flatten_cons, String.intercalate_cons_cons]
          exact first.left.left.append induction.right

end Layout.Finds

/-! ## Pages -/

namespace Page

/-- The text of the finished lines of a page. -/
def shown (layout : Layout) (page : Page) : String :=
  "\n".intercalate (page.lines.reverse.map (showLine layout))

variable {layout : Layout} {contents : List String} {text : String}

theorem occurs_intercalate_append {part : String} {front rest : List String}
    (occurs : Occurs part ("\n".intercalate front) ∨
      Occurs part ("\n".intercalate rest)) :
    Occurs part ("\n".intercalate (front ++ rest)) := by
  by_cases noFront : front = []
  · rcases occurs with here | there
    · rw [noFront, String.intercalate_nil] at here
      rw [Occurs, List.eq_nil_of_infix_nil here]
      exact List.nil_infix
    · rwa [noFront]
  by_cases noRest : rest = []
  · rcases occurs with here | there
    · rwa [noRest, List.append_nil]
    · rw [noRest, String.intercalate_nil] at there
      rw [Occurs, List.eq_nil_of_infix_nil there]
      exact List.nil_infix
  rw [String.intercalate_append_of_ne_nil noFront noRest]
  rcases occurs with here | there
  · exact here.left.left
  · exact there.right

theorem map_showLine_linesAt (layout : Layout) (level : Nat) (text : String) :
    (linesAt level text).map (showLine layout) =
      (Text.keptLines text.toList).map fun line =>
        layout.margin level ++ String.ofList line := by
  rw [linesAt, Text.filter_lines, List.map_map, List.map_map]
  rfl

/-- What is found in a text is found in its lines. -/
theorem finds_linesAt (level : Nat) (finds : layout.Finds contents text) :
    layout.Finds contents
      ("\n".intercalate ((linesAt level text).map (showLine layout))) := by
  intro content member leaves
  rcases finds content member leaves with ⟨front, rest, placed⟩
  have visible := stringLiteral_endsVisibly content
  have kept := map_showLine_linesAt layout level text
  rw [← placed, List.append_assoc] at kept
  by_cases broken : '\n' ∈ (stringLiteral content).toList
  · rcases leaves with whole | ⟨flat, breaks⟩
    · exact absurd ((newline_mem_stringLiteral content).mp broken) whole
    · have newline : "\n".toList = ['\n'] := rfl
      have joined := Text.infix_keptLines broken breaks visible front rest
      simpa [kept, Layout.margin_of_flat flat, Occurs, String.toList_intercalate, newline,
        Function.comp_def] using joined
  · rcases Text.exists_mem_keptLines broken visible front rest with ⟨line, among, occurs⟩
    rw [kept]
    apply Occurs.intercalate (List.mem_map_of_mem among)
    have inLine : Occurs (stringLiteral content) (String.ofList line) := by
      rwa [Occurs, String.toList_ofList]
    exact inLine.right

/-- The page with later lines after its own. -/
def GrowsTo (page grown : Page) : Prop :=
  ∃ later, grown.lines = later ++ page.lines

theorem GrowsTo.refl (page : Page) : page.GrowsTo page :=
  ⟨[], rfl⟩

theorem GrowsTo.trans {first second third : Page} (start : first.GrowsTo second)
    (rest : second.GrowsTo third) : first.GrowsTo third := by
  rcases start with ⟨earlier, added⟩
  rcases rest with ⟨later, addedLater⟩
  exact ⟨later ++ earlier, by rw [addedLater, added, List.append_assoc]⟩

theorem Adds.growsTo {change : Page → Page} (adds : Adds change) (page : Page) :
    page.GrowsTo (change page) := by
  have same : { page with lines := [] }.after page.lines = page := by simp [after]
  refine ⟨(change { page with lines := [] }).lines, ?_⟩
  rw [← same, adds]
  rfl

theorem growsTo_blankLine (page : Page) : page.GrowsTo page.blankLine := by
  refine (Adds.flush.growsTo page).trans ?_
  rw [blankLine]
  split
  · next level text rest found => exact ⟨[.blank], by simp [found]⟩
  · exact .refl _

theorem GrowsTo.finds {page grown : Page} (grows : page.GrowsTo grown)
    (finds : layout.Finds contents (page.shown layout)) :
    layout.Finds contents (grown.shown layout) := by
  rcases grows with ⟨later, added⟩
  intro content member leaves
  rw [shown, added, List.reverse_append, List.map_append]
  exact occurs_intercalate_append (.inl (finds content member leaves))

theorem finds_line (finds : layout.Finds contents text) (page : Page) :
    layout.Finds contents ((page.line text).shown layout) := by
  have pending : layout.Finds contents (page.pending ++ text) := finds.right
  intro content member leaves
  rw [shown, line, flush, List.reverse_append, List.reverse_reverse, List.map_append]
  exact occurs_intercalate_append (.inr (finds_linesAt _ pending content member leaves))

theorem finds_openBlock (braceOnNewLine : Bool) (finds : layout.Finds contents text)
    (page : Page) :
    layout.Finds contents ((page.openBlock text braceOnNewLine).shown layout) := by
  cases braceOnNewLine with
  | true => exact ((Adds.line "\x7b").growsTo _).finds (finds_line finds page)
  | false => exact finds_line finds.left page

theorem finds_closeBlock (finds : layout.Finds contents text) (page : Page) :
    layout.Finds contents ((page.closeBlock text).shown layout) :=
  finds_line finds.right _

theorem finds_continueBlock (finds : layout.Finds contents text) (page : Page) :
    layout.Finds contents ((page.continueBlock text).shown layout) :=
  finds_line finds.right.left page.unindent

/-- Blank lines at the end of a page are not shown; a literal does not reach into them. -/
theorem occurs_dropWhile_blank {part : String} (visible : EndsVisibly part.toList)
    (lines : List Line)
    (occurs : Occurs part ("\n".intercalate (lines.reverse.map (showLine layout)))) :
    Occurs part ("\n".intercalate
      ((lines.dropWhile (· == .blank)).reverse.map (showLine layout))) := by
  induction lines with
  | nil => exact occurs
  | cons line rest induction =>
      cases line with
      | code level text => exact occurs
      | blank =>
          apply induction
          have empty : showLine layout .blank = "" := rfl
          rw [List.reverse_cons, List.map_append, List.map_singleton, empty] at occurs
          by_cases none : rest.reverse.map (showLine layout) = []
          · rw [none] at occurs ⊢
            exact occurs
          · rw [String.intercalate_append_of_ne_nil none (by simp),
              String.intercalate_singleton,
              String.append_empty, Occurs, String.toList_append] at occurs
            exact visible.infix_of_append_break occurs

theorem finds_content {page : Page} (finds : layout.Finds contents (page.shown layout)) :
    layout.Finds contents (page.content layout) := by
  have flushed := (Adds.flush.growsTo page).finds finds
  intro content member leaves
  exact occurs_dropWhile_blank (stringLiteral_endsVisibly content) page.flush.lines
    (flushed content member leaves)

end Page

/-! ## Emissions -/

namespace Emission

/-- Whether it meets a fault or not, a local emission keeps the lines that are there. -/
theorem Local.growsTo {emission : Emission α} (isLocal : Local emission)
    (emitter : Emitter) :
    emitter.page.GrowsTo (EStateM.final (emission emitter)).page := by
  have same : Emitter.after emitter.page.lines []
      { emitter with page := { emitter.page with lines := [] } } = emitter := by
    simp [Emitter.after, Page.after]
  have placed := isLocal emitter.page.lines []
    { emitter with page := { emitter.page with lines := [] } }
  rw [same] at placed
  rw [placed]
  cases emission { emitter with page := { emitter.page with lines := [] } } with
  | ok value last => exact ⟨last.page.lines, rfl⟩
  | error diagnostic last => exact ⟨last.page.lines, rfl⟩

/-- An emission that only adds lines. -/
def Growing (emission : Emission α) : Prop :=
  ∀ earlier, Leads (Page.GrowsTo earlier) (fun _ => Page.GrowsTo earlier) emission

namespace Growing

theorem ofLocal {emission : Emission α} (isLocal : Local emission) :
    Growing emission := by
  intro earlier emitter value final ended start
  have grows := isLocal.growsTo emitter
  rw [ended] at grows
  exact start.trans grows

theorem onPage {change : Page → Page}
    (grows : ∀ page : Page, page.GrowsTo (change page)) :
    Growing (Emission.onPage change) :=
  fun _ => Leads.onPage fun page start => start.trans (grows page)

end Growing

/-- An emission that adds lines, and the literals of the contents among them. -/
def Shows (layout : Layout) (contents : List String) (emission : Emission α) : Prop :=
  ∀ earlier, Leads (fun page => layout.Finds earlier (page.shown layout))
    (fun _ page => layout.Finds (earlier ++ contents) (page.shown layout)) emission

namespace Shows

variable {layout : Layout} {contents others : List String} {text : String}
  {kind : α → Prop}

theorem silent {emission : Emission α} (growing : Growing emission) :
    Shows layout [] emission := by
  intro earlier emitter value final ended start
  rw [List.append_nil]
  exact (growing emitter.page emitter value final ended (.refl _)).finds start

theorem ofLocal {emission : Emission α} (isLocal : Local emission) :
    Shows layout [] emission :=
  silent (.ofLocal isLocal)

theorem bind {first : Emission α} {next : α → Emission β}
    (start : Shows layout contents first)
    (rest : ∀ value, Shows layout others (next value)) :
    Shows layout (contents ++ others) (first >>= next) := by
  intro earlier
  rw [← List.append_assoc]
  exact (start earlier).bind fun value => rest value (earlier ++ contents)

theorem bind_silent {first : Emission α} {next : α → Emission β}
    (start : Shows layout [] first) (rest : ∀ value, Shows layout contents (next value)) :
    Shows layout contents (first >>= next) :=
  start.bind rest

theorem bind_last {first : Emission α} {next : α → Emission β}
    (start : Shows layout contents first) (rest : ∀ value, Shows layout [] (next value)) :
    Shows layout contents (first >>= next) := by
  rw [← List.append_nil contents]
  exact start.bind rest

/-- The next part may rely on what is known of the result of the first. -/
theorem bind_yields {first : Emission α} {next : α → Emission β} (isLocal : Local first)
    (yields : Yields kind first)
    (rest : ∀ value, kind value → Shows layout contents (next value)) :
    Shows layout contents (first >>= next) := by
  intro earlier
  have start : Leads (fun page => layout.Finds earlier (page.shown layout))
      (fun value page =>
        kind value ∧ layout.Finds earlier (page.shown layout)) first := by
    intro emitter value final ended found
    have kept : Shows layout [] first := ofLocal isLocal
    refine ⟨yields emitter value final ended, ?_⟩
    simpa using kept earlier emitter value final ended found
  exact start.bind_of fun value known => rest value known earlier

theorem bind_rendered {first : Emission α} {next : α → Emission β}
    (detached : Detached first) (yields : Yields kind first)
    (rest : ∀ value, kind value → Shows layout contents (next value)) :
    Shows layout contents (first >>= next) :=
  bind_yields detached.toLocal yields rest

theorem onPage {change : Page → Page} (grows : ∀ page : Page, page.GrowsTo (change page))
    (finds : ∀ page : Page, layout.Finds contents ((change page).shown layout)) :
    Shows layout contents (Emission.onPage change) :=
  fun _ => Leads.onPage fun page start => ((grows page).finds start).append (finds page)

theorem line (finds : layout.Finds contents text) :
    Shows layout contents (Emission.line text) :=
  onPage (Page.Adds.line text).growsTo (Page.finds_line finds)

theorem openBlock (braceOnNewLine : Bool) (finds : layout.Finds contents text) :
    Shows layout contents (Emission.onPage (·.openBlock text braceOnNewLine)) :=
  onPage (Page.Adds.openBlock text braceOnNewLine).growsTo
    (Page.finds_openBlock braceOnNewLine finds)

theorem closeBlock (finds : layout.Finds contents text) :
    Shows layout contents (Emission.onPage (·.closeBlock text)) :=
  onPage (Page.Adds.closeBlock text).growsTo (Page.finds_closeBlock finds)

theorem continueBlock (finds : layout.Finds contents text) :
    Shows layout contents (Emission.onPage (·.continueBlock text)) :=
  onPage (Page.Adds.continueBlock text).growsTo (Page.finds_continueBlock finds)

theorem block {body : Emission Unit} (braceOnNewLine : Bool)
    (finds : layout.Finds contents text) (inside : Shows layout others body) :
    Shows layout (contents ++ others) (do
      Emission.onPage (·.openBlock text braceOnNewLine)
      body
      Emission.onPage (·.closeBlock "")) := by
  apply (openBlock braceOnNewLine finds).bind
  intro _
  apply inside.bind_last
  intro _
  exact closeBlock .nil

theorem clause {inner later : List String} {body rest : Emission Unit}
    (finds : layout.Finds contents text) (inside : Shows layout inner body)
    (others : Shows layout later rest) :
    Shows layout (contents ++ (inner ++ later)) (do
      Emission.line text
      Emission.onPage (·.indent)
      body
      Emission.onPage (·.flush.unindent)
      rest) := by
  apply (line finds).bind
  intro _
  apply bind_silent (ofLocal (.onPage .indent))
  intro _
  apply inside.bind
  intro _
  apply bind_silent (ofLocal (.onPage (Page.Adds.flush.comp .unindent)))
  intro _
  exact others

theorem blankLine : Shows layout [] (Emission.onPage (·.blankLine)) :=
  silent (.onPage Page.growsTo_blankLine)

theorem docblock (text : Option String) : Shows layout [] (Emission.docblock text) := by
  cases text with
  | none => exact ofLocal (.pure ())
  | some text => exact ofLocal (.comment text)

theorem lines {parts : List (List String)} {texts : List String}
    (finds : List.Forall₂ layout.Finds parts texts) :
    Shows layout parts.flatten (Emission.lines texts) := by
  induction finds with
  | nil => exact ofLocal (.pure ())
  | cons first _ induction => exact (line first).bind fun _ => induction

theorem forM {values : List α} {act : α → Emission Unit} {contentsOf : α → List String}
    (each : ∀ value ∈ values, Shows layout (contentsOf value) (act value)) :
    Shows layout (values.flatMap contentsOf) (values.forM act) := by
  induction values with
  | nil => exact ofLocal (.pure ())
  | cons value rest induction =>
      have others := induction fun later member =>
        each later (List.mem_cons_of_mem value member)
      exact (each value List.mem_cons_self).bind fun _ => others

/-- Something that is done or left out. -/
theorem optional {condition : Bool} {first : Emission Unit} {next : Unit → Emission β}
    (start : Shows layout [] first) (rest : Shows layout contents (next ())) :
    Shows layout contents (if condition then first >>= next else next ()) := by
  split
  · exact start.bind_silent fun _ => rest
  · exact rest

theorem withScope {scope : Scope} {emission : Emission α}
    (inside : Shows layout contents emission) :
    Shows layout contents (Emission.withScope scope emission) :=
  fun earlier => (inside earlier).withScope

theorem onOwnPage {emission : Emission Unit} (writes : Shows layout contents emission) :
    Yields (fun page => layout.Finds contents (page.content layout))
      (Emission.onOwnPage emission) := by
  apply Leads.onOwnPage
  intro emitter value final ended start
  have finds := writes [] emitter value final ended .nil
  exact Page.finds_content finds

end Shows

end Emission

end ZephirPhp
