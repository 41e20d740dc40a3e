import ZephirPhp.Proofs.Emission.Survival

/-! # Literals that layout changes

The smallest program that returns a string shows whether layout changes its literal. The
file has no other quotes than those of the literal, so the literal can stand in one place
only, and there its lines are trimmed and indented.
-/

namespace ZephirPhp

open Text (EndsVisibly Occurs keptLines)

/-! ## A function that returns a string -/

/-- A function that returns a string, and nothing else. -/
def returning (content : String) : Program where
  entries := [.functionDefinition ⟨"f", [],
    [.returnValue .unknown (some (.atom .unknown (.string content)))], none, .unknown⟩]

theorem returned_returning (content : String) :
    (returning content).returned = [content] :=
  rfl

/-- The lines before the one that returns the string. -/
def returningHead (braceOnNewLine : Bool) : List Line :=
  .code 0 "<?php" :: .blank ::
    if braceOnNewLine then [.code 0 "function f()", .code 0 "\x7b"]
    else [.code 0 "function f() \x7b"]

/-- The line that returns the string, before it is laid out. -/
def returningCode (content : String) : String :=
  "return " ++ stringLiteral content ++ ";"

theorem emitProgram_returning (setting : Setting) (content : String) :
    emitProgram setting (returning content) {} = .ok () { page :=
      (((((Page.empty.line "<?php").blankLine.openBlock
        ("function " ++ "f" ++ argumentCode [])
        setting.layout.braceOnNewLine).line (returningCode content)).closeBlock
          "").blankLine) } :=
  rfl

theorem openBlock_returning (braceOnNewLine : Bool) :
    (Page.empty.line "<?php").blankLine.openBlock ("function " ++ "f" ++ argumentCode [])
        braceOnNewLine =
      { depth := 1, lines := (returningHead braceOnNewLine).reverse } := by
  cases braceOnNewLine <;> decide

theorem toPhp_returning (setting : Setting) (content : String) :
    ((returning content).toPhp setting).1 = .ok ("\n".intercalate
      ((returningHead setting.layout.braceOnNewLine ++
        Page.linesAt 1 (returningCode content) ++
        [Line.code 0 "\x7d"]).map (Page.showLine setting.layout)) ++ "\n") := by
  have closing : Page.linesAt 0 "\x7d" = [.code 0 "\x7d"] := by decide
  have nothing (level : Nat) : Page.linesAt level "" = [] := rfl
  rw [Program.toPhp, emitProgram_returning, openBlock_returning]
  simp [Page.finish, Page.content, Page.contentLines, Page.blankLine,
    Page.closeBlock, Page.line,
    Page.flush, Page.append, Page.unindent, nothing, closing]

/-- The lines of the file from the returned string on, without their line breaks. -/
def returningRest (layout : Layout) (content : String) : List (List Char) :=
  (keptLines (returningCode content).toList).map
    ((layout.margin 1).toList ++ ·) ++ [['\x7d']]

/-- The lines of the file up to the returned string, without their line breaks. -/
def returningStart (layout : Layout) : List (List Char) :=
  (returningHead layout.braceOnNewLine).map fun line => (Page.showLine layout line).toList

theorem returningStart_ne_nil (layout : Layout) : returningStart layout ≠ [] := by
  simp [returningStart, returningHead]

/-- The lines of the outermost level are not indented. -/
theorem quote_not_mem_returningStart (layout : Layout) :
    '"' ∉ ['\n'].intercalate (returningStart layout) := by
  have same (braceOnNewLine : Bool) :
      (returningHead braceOnNewLine).map
      (fun line => (Page.showLine layout line).toList) =
        (returningHead braceOnNewLine).map fun line =>
          (Page.showLine {} line).toList := by
    cases braceOnNewLine <;> simp [returningHead, Page.showLine, Layout.margin]
  rw [returningStart, same]
  cases layout.braceOnNewLine <;> decide

theorem toPhp_returning_eq (setting : Setting) (content : String) :
    ∃ php, ((returning content).toPhp setting).1 = .ok php ∧
      php.toList = ['\n'].intercalate (returningStart setting.layout) ++ '\n' ::
        (returningRest setting.layout content).flatMap (· ++ ['\n']) := by
  refine ⟨_, toPhp_returning setting content, ?_⟩
  have newline : "\n".toList = ['\n'] := rfl
  have closing : (Page.showLine setting.layout (.code 0 "\x7d")).toList = ['\x7d'] := by
    simp [Page.showLine, Layout.margin]
  have some := returningStart_ne_nil setting.layout
  have joined : ['\n'].intercalate (returningStart setting.layout) ++ '\n' ::
      (returningRest setting.layout content).flatMap (· ++ ['\n']) =
        ['\n'].intercalate (returningStart setting.layout ++
          returningRest setting.layout content) ++ ['\n'] := by
    rw [Text.intercalate_append_break (by simp [some]), List.flatMap_append,
      ← Text.intercalate_append_break some, List.append_assoc, List.singleton_append]
  rw [joined, String.toList_append, String.toList_intercalate, newline, List.map_append,
    List.map_append, List.map_append, Page.map_showLine_linesAt]
  simp [returningStart, returningRest, closing, Function.comp_def]

/-! ## Where the literal can stand -/

theorem stringLiteral_toList (content : String) :
    (stringLiteral content).toList =
      '"' :: (escapeDollars false content.toList ++ ['"']) := by
  have quote : "\"".toList = ['"'] := rfl
  simp [stringLiteral, quote]

/-- Something that begins with a character begins after a text without it. -/
theorem infix_of_not_mem {first : Char} {part front rest : List Char}
    (absent : first ∉ front) (occurs : first :: part <:+: front ++ rest) :
    first :: part <:+: rest := by
  induction front with
  | nil => exact occurs
  | cons character others induction =>
      rw [List.mem_cons, not_or] at absent
      rcases List.infix_cons_iff.mp occurs with start | later
      · exact absurd (List.cons_prefix_cons.mp start).1 absent.1
      · exact induction absent.2 later

/-- The last occurrence of a character is in one place. -/
theorem eq_of_last_eq {character : Char} {front rest otherFront otherRest : List Char}
    (last : character ∉ rest) (otherLast : character ∉ otherRest)
    (equal : front ++ character :: rest = otherFront ++ character :: otherRest) :
    front = otherFront ∧ rest = otherRest := by
  rcases List.append_eq_append_iff.mp equal with ⟨more, rfl, beyond⟩ | ⟨more, rfl, beyond⟩
  · cases more with
    | nil => simpa using beyond
    | cons start more =>
        rw [List.cons_append, List.cons.injEq] at beyond
        exact absurd (by simp [beyond.2]) last
  · cases more with
    | nil => simpa using beyond.symm
    | cons start more =>
        rw [List.cons_append, List.cons.injEq] at beyond
        exact absurd (by simp [beyond.2]) otherLast

section

variable {layout : Layout} {content : String}

/-- Every line of the file ends in a visible character. -/
theorem breaksVisibly_of_returningRest
    (occurs : (stringLiteral content).toList <:+:
      (returningRest layout content).flatMap (· ++ ['\n'])) :
    Text.BreaksVisibly (stringLiteral content).toList := by
  have each : ∀ line ∈ returningRest layout content, '\n' ∉ line ∧ EndsVisibly line := by
    intro line member
    rw [returningRest, List.mem_append, List.mem_map, List.mem_singleton] at member
    rcases member with ⟨kept, among, rfl⟩ | rfl
    · have known := Text.of_mem_keptLines among
      refine ⟨fun broken => ?_, known.2.append _⟩
      rcases List.mem_append.mp broken with inMargin | inLine
      · rcases Layout.mem_margin inMargin with impossible | impossible <;>
          cases impossible
      · exact known.1 inLine
    · exact ⟨by decide, [], '\x7d', rfl, rfl⟩
  rw [stringLiteral_toList] at occurs ⊢
  exact (Text.breaksVisibly_lines each).of_occurs occurs (by decide)

/-- The literal has all the quotes of the file. -/
theorem filter_quote_returningRest :
    ((returningRest layout content).flatMap (· ++ ['\n'])).filter (· == '"') =
      (stringLiteral content).toList.filter (· == '"') := by
  have noBlank : ∀ character, Text.isBlank character = true →
      (character == '"') = false := by
    intro character blank
    rw [beq_eq_false_iff_ne]
    rintro rfl
    cases blank
  have margin : (layout.margin 1).toList.filter (· == '"') = [] := by
    rw [List.filter_eq_nil_iff]
    intro character member
    rcases Layout.mem_margin member with rfl | rfl <;> decide
  have words : "return ".toList.filter (· == '"') = [] ∧
      ";".toList.filter (· == '"') = [] := by
    decide
  have code : (returningCode content).toList.filter (· == '"') =
      (stringLiteral content).toList.filter (· == '"') := by
    simp only [returningCode, String.toList_append, List.filter_append, words,
      List.nil_append,
      List.append_nil]
  rw [← code, ← Text.flatMap_keptLines_filter noBlank (returningCode content).toList,
    returningRest,
    List.filter_flatMap]
  simp [List.flatMap_append, List.flatMap_map, margin]

/-- The last line of a literal ends in a quote. -/
theorem quote_of_last_line {front line : List Char}
    (split : (stringLiteral content).toList = front ++ '\n' :: line) :
    ∃ inside, line = inside ++ ['"'] := by
  rw [stringLiteral_toList, ← List.cons_append] at split
  rcases List.eq_nil_or_concat line with rfl | ⟨inside, last, rfl⟩
  · cases (List.append_inj' split rfl).2
  · have same : ('"' :: escapeDollars false content.toList) ++ ['"'] =
        (front ++ '\n' :: inside) ++ [last] := by
      simpa using split
    cases (List.append_inj' same rfl).2
    exact ⟨inside, by simp⟩

/-- What the code of the last line of the literal becomes. -/
theorem returningRest_eq {front line : List Char} (whole : '\n' ∉ line)
    (split : (stringLiteral content).toList = front ++ '\n' :: line) :
    returningRest layout content =
      (keptLines ("return ".toList ++ front)).map ((layout.margin 1).toList ++ ·) ++
        [(layout.margin 1).toList ++ (line ++ [';']), ['\x7d']] := by
  have visible : EndsVisibly (line ++ [';']) := ⟨line, ';', rfl, rfl⟩
  have trimmed := Text.trimEndChars_of_visible visible
  have last : keptLines (line ++ [';']) = [line ++ [';']] := by
    rw [Text.keptLines_of_line (by simp [whole]) (by simp [trimmed]), trimmed]
  have divided : (returningCode content).toList =
      ("return ".toList ++ front) ++ '\n' :: (line ++ [';']) := by
    have semicolon : ";".toList = [';'] := rfl
    simp only [returningCode, String.toList_append, split, semicolon, List.append_assoc,
      List.cons_append]
  rw [returningRest, divided, Text.keptLines_append_break, last]
  simp

/-- A literal of several lines stands in the file only if its last line is not
indented. -/
theorem flat_of_returningRest (broken : '\n' ∈ content.toList)
    (occurs : (stringLiteral content).toList <:+:
      (returningRest layout content).flatMap (· ++ ['\n'])) :
    layout.margin 1 = "" := by
  rcases Text.exists_last_break ((newline_mem_stringLiteral content).mpr broken) with
    ⟨front, line, split, whole⟩
  rcases occurs with ⟨before, after, placed⟩
  -- All quotes are in the literal, so its last one is the last one of the file.
  have noQuote : '"' ∉ after := by
    have quotes := congrArg (List.filter (· == '"')) placed
    rw [filter_quote_returningRest, List.filter_append, List.filter_append] at quotes
    have lengths := congrArg List.length quotes
    simp only [List.length_append] at lengths
    have none : after.filter (· == '"') = [] := List.length_eq_zero_iff.mp (by omega)
    intro member
    simpa using List.filter_eq_nil_iff.mp none '"' member
  rcases quote_of_last_line split with ⟨inside, rfl⟩
  rw [returningRest_eq whole split, List.flatMap_append] at placed
  generalize (keptLines ("return ".toList ++ front)).map ((layout.margin 1).toList ++ ·) =
    earlier at placed
  have lastQuote : before ++ '"' :: escapeDollars false content.toList =
      earlier.flatMap (· ++ ['\n']) ++ ((layout.margin 1).toList ++ inside) := by
    have closing : '"' ∉ [';', '\n', '\x7d', '\n'] := by decide
    rw [stringLiteral_toList] at placed
    exact (eq_of_last_eq noQuote closing (by simpa using placed)).1
  have same : before ++ (stringLiteral content).toList =
      earlier.flatMap (· ++ ['\n']) ++
        ((layout.margin 1).toList ++ (inside ++ ['"'])) := by
    rw [stringLiteral_toList, ← List.cons_append, ← List.append_assoc, lastQuote]
    simp
  -- Likewise the last line break of the literal is the one before its last line in the
  -- file.
  have marginWhole : '\n' ∉ (layout.margin 1).toList ++ (inside ++ ['"']) := by
    intro member
    rcases List.mem_append.mp member with inMargin | inLine
    · rcases Layout.mem_margin inMargin with impossible | impossible <;> cases impossible
    · exact whole inLine
  rw [split] at same
  by_cases none : earlier = []
  · rw [none, List.flatMap_nil, List.nil_append] at same
    exact absurd (by simp [← same]) marginWhole
  · rw [← Text.intercalate_append_break none, List.append_assoc, List.singleton_append,
      ← List.append_assoc] at same
    have lines := (eq_of_last_eq whole marginWhole same).2
    rw [← String.toList_inj]
    exact List.self_eq_append_left.mp lines

end

/-! ## The literals that layout leaves -/

/-- A returned string stands unchanged in the file of every program that returns it
exactly if its literal has one line, or nothing is indented and each line break of the
literal stands after a visible character. -/
theorem returned_literal_survives_iff (setting : Setting) (content : String) :
    (∀ (program : Program) (php : String), content ∈ program.returned →
        (program.toPhp setting).1 = .ok php → Text.Occurs (stringLiteral content) php) ↔
      '\n' ∉ content.toList ∨ setting.layout.margin 1 = "" ∧
        Text.BreaksVisibly (stringLiteral content).toList := by
  constructor
  · intro survives
    rcases toPhp_returning_eq setting content with ⟨php, written, shown⟩
    have occurs : (stringLiteral content).toList <:+: php.toList :=
      survives (returning content) php (by simp [returned_returning]) written
    by_cases broken : '\n' ∈ content.toList
    · have inRest : (stringLiteral content).toList <:+:
          (returningRest setting.layout content).flatMap (· ++ ['\n']) := by
        rw [shown, List.append_cons] at occurs
        rw [stringLiteral_toList] at occurs ⊢
        exact infix_of_not_mem (by simp [quote_not_mem_returningStart]) occurs
      exact .inr ⟨flat_of_returningRest broken inRest,
        breaksVisibly_of_returningRest inRest⟩
    · exact .inl broken
  · intro leaves program php returned written
    exact toPhp_finds setting written content returned leaves

/-- A closure that returns a string of two lines, in a function that returns the
closure. -/
def returningTwice : Program where
  entries :=
    [.functionDefinition ⟨"f", [], [.returnValue .unknown (some (.closure .unknown []
      [.returnValue .unknown (some (.atom .unknown (.string "a\nb")))]))], none,
      .unknown⟩]

/-- Without indentation the two lines stay as they are. -/
theorem returned_literal_survives_without_indent :
    let setting : Setting := { layout := { indent := .spaces 0 } }
    let php :=
      "<?php\n\nfunction f()\n\x7b\nreturn function () \x7b\nreturn \"a\nb\";\n\x7d;\n\x7d\n"
    "a\nb" ∈ returningTwice.returned ∧ (returningTwice.toPhp setting).1 = .ok php ∧
      Text.Occurs (stringLiteral "a\nb") php := by
  have returned : "a\nb" ∈ returningTwice.returned := by decide
  have written : (returningTwice.toPhp { layout := { indent := .spaces 0 } }).1 = .ok
      "<?php\n\nfunction f()\n\x7b\nreturn function () \x7b\nreturn \"a\nb\";\n\x7d;\n\x7d\n" := by
    decide +kernel
  have breaks : Text.BreaksVisibly (stringLiteral "a\nb").toList := by
    have last : Text.BreaksVisibly ['b', '"'] := by
      intro front rest equal
      have member : '\n' ∈ ['b', '"'] := by simp [equal]
      simp at member
    exact .append_line (by decide : '\n' ∉ ['"', 'a']) ⟨['"'], 'a', rfl, rfl⟩ last
  have survives :=
    (returned_literal_survives_iff { layout := { indent := .spaces 0 } } "a\nb").mpr
      (.inr ⟨rfl, breaks⟩)
  exact ⟨returned, written, survives returningTwice _ returned written⟩

/-- By default the second line is indented, inside the quotes. -/
theorem returned_literal_indented :
    let php := "<?php\n\nfunction f()\n\x7b\n  return \"a\n  b\";\n\x7d\n"
    "a\nb" ∈ (returning "a\nb").returned ∧ ((returning "a\nb").toPhp {}).1 = .ok php ∧
      ¬ Text.Occurs (stringLiteral "a\nb") php := by
  refine ⟨by decide, ?_, ?_⟩
  · decide +kernel
  · decide +kernel

end ZephirPhp
