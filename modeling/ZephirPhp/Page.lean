import ZephirPhp.Layout
import ZephirPhp.Text.Blank

/-! # Pages

Generated code is collected on a page: finished lines, each with its level of nesting,
and the text of a line that is still being written. Indentation is added when the page
is shown, so the lines do not depend on the layout.
-/

namespace ZephirPhp

inductive Line where
  | blank
  | code (level : Nat) (text : String)
deriving DecidableEq, Repr

structure Page where
  depth : Nat := 0
  pending : String := ""
  /-- The finished lines, the last one first. -/
  lines : List Line := []
deriving DecidableEq, Repr

namespace Page

def empty : Page := {}

def append (text : String) (page : Page) : Page :=
  { page with pending := page.pending ++ text }

/-- The lines that a text becomes at a level. Blanks at the end of a line are dropped,
and so is a line of blanks. -/
def linesAt (level : Nat) (text : String) : List Line :=
  ((Text.lines text).map Text.trimEnd |>.filter (· ≠ "")).map (Line.code level)

/-- The page with the line that is being written finished. A text of several lines, such
as the body of a closure, becomes as many lines. -/
def flush (page : Page) : Page :=
  { page with
    pending := ""
    lines := (linesAt page.depth page.pending).reverse ++ page.lines }

def line (text : String) (page : Page) : Page :=
  (page.append text).flush

def paragraph (text : String) (page : Page) : Page :=
  (Text.lines text).foldl (fun page line => page.line (Text.trimEnd line)) page

/-- The page with a blank line, except at its start and after another one. -/
def blankLine (page : Page) : Page :=
  let page := page.flush
  match page.lines with
  | .code level text :: rest => { page with lines := .blank :: .code level text :: rest }
  | _ => page

def indent (page : Page) : Page :=
  { page with depth := page.depth + 1 }

def unindent (page : Page) : Page :=
  { page with depth := page.depth - 1 }

def openBlock (header : String) (braceOnNewLine : Bool) (page : Page) : Page :=
  if braceOnNewLine then ((page.line header).line "\x7b").indent
  else (page.line (header ++ " \x7b")).indent

def closeBlock (suffix : String) (page : Page) : Page :=
  page.flush.unindent.line ("\x7d" ++ suffix)

def continueBlock (header : String) (page : Page) : Page :=
  (page.unindent.line ("\x7d " ++ header ++ " \x7b")).indent

/-! ## Showing a page -/

def showLine (layout : Layout) : Line → String
  | .blank => ""
  | .code level text => layout.margin level ++ text

def contentLines (page : Page) : List Line :=
  (page.lines.dropWhile (· == .blank)).reverse

def content (layout : Layout) (page : Page) : String :=
  "\n".intercalate (page.flush.contentLines.map (showLine layout))

def finish (layout : Layout) (page : Page) : String :=
  page.content layout ++ "\n"

example : finish {} ((((empty.line "a").blankLine.blankLine.openBlock "b" false).line
    "c\n\n d \n").closeBlock ";")
    = "a\n\nb \x7b\n  c\n   d\n\x7d;\n" := by decide

example : finish {} empty.blankLine = "\n" := by decide

end Page

end ZephirPhp
