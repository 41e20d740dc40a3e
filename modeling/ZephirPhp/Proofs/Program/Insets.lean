import ZephirPhp.Layout
import ZephirPhp.Proofs.Program.Gauge
import ZephirPhp.Proofs.Text.Insets

/-! # How far a program is set in

The greatest number of indenting characters that a line of the file begins with, read
off the program. A statement is set in by its level, no further than the deepest level
that is shown. The body of a closure counts its levels anew, and all of its lines are
set in again with the statement that the closure stands in.
-/

namespace ZephirPhp

open Text (greatest)

namespace Layout

/-- The character that indents. -/
def mark (layout : Layout) : Char :=
  match layout.indent with
  | .spaces _ => ' '
  | .tabs => '\t'

/-- How far a level is set in. -/
def columns (layout : Layout) (level : Nat) : Nat :=
  (layout.margin level).length

variable (layout : Layout)

theorem isBlank_mark : Text.isBlank layout.mark = true := by
  rw [mark]
  split <;> rfl

theorem toList_unit :
    layout.unit.toList = List.replicate layout.unit.length layout.mark := by
  rw [unit, mark]
  cases layout.indent with
  | spaces count => simp
  | tabs => rfl

theorem toList_join_unit (count : Nat) :
    (String.join (List.replicate count layout.unit)).toList =
      List.replicate (count * layout.unit.length) layout.mark := by
  rw [String.toList_join, List.flatMap_replicate, toList_unit,
    List.flatten_replicate_replicate]

theorem columns_eq (level : Nat) :
    layout.columns level = min level layout.maxDepth * layout.unit.length := by
  rw [columns, ← String.length_toList, margin, toList_join_unit, List.length_replicate]

theorem toList_margin (level : Nat) :
    (layout.margin level).toList = List.replicate (layout.columns level) layout.mark := by
  rw [columns_eq, margin, toList_join_unit]

theorem columns_zero : layout.columns 0 = 0 := by
  rw [columns_eq, Nat.zero_min, Nat.zero_mul]

theorem columns_le (level : Nat) :
    layout.columns level ≤ layout.columns layout.maxDepth := by
  rw [columns_eq, columns_eq, Nat.min_self]
  exact Nat.mul_le_mul_right _ (Nat.min_le_right _ _)

end Layout

/-! ## How code begins -/

inductive Onset where
  | nothing
  /-- A single blank before something visible. -/
  | blank
  | visible
deriving DecidableEq, Repr

namespace Onset

/-- How code begins if something else follows on it. -/
def followed (onset next : Onset) : Onset :=
  match onset with
  | .nothing => next
  | onset => onset

/-- How far a line that begins so is set in. -/
def columns (layout : Layout) : Onset → Nat
  | .nothing => 0
  | .blank => if layout.mark = ' ' then 1 else 0
  | .visible => 0

def ofText (text : String) : Onset :=
  if text = "" then .nothing else .visible

end Onset

def Atom.onset : Atom → Onset
  | .int text => .ofText text
  | .double text => .ofText text
  | .constant name => .ofText name
  | _ => .visible

/-- How the code of an expression begins, if no name and no number in it begins with a
blank. -/
def Expr.onset : Expr → Onset
  | .atom _ leaf => leaf.onset
  | .unary _ .likely operand => operand.onset
  | .unary _ .unlikely operand => operand.onset
  | .binary _ _ left _ => left.onset.followed .blank
  | .property _ object _ => object.onset.followed .visible
  | .dynamicProperty _ object _ => object.onset.followed .visible
  | .index _ object _ => object.onset.followed .visible
  | .methodCall _ receiver _ _ =>
    if receiver.literalReceiver?.isSome then .visible
      else receiver.onset.followed .visible
  | .cast _ _ operand => operand.onset
  | .typeHint _ _ operand => operand.onset
  | .ternary _ condition _ _ => condition.onset.followed .blank
  | _ => .visible
termination_by structural expression => expression

/-! ## Programs -/

def Expr.isFetch : Expr → Bool
  | .fetch _ _ _ => true
  | _ => false

/-- How far the assignment of a condition that fetches is set in. It is the first line of
the branch. -/
def fetchedInset (layout : Layout) (level : Nat) (condition : Expr) (inset : Nat) : Nat :=
  if condition.isFetch then layout.columns level + inset else 0

/-- How far the lines of a code after the first one are set in, and all the lines of
statements. -/
def Gauge.insets (layout : Layout) : Gauge Nat Nat where
  top := 0
  deeper level := level + 1
  nothing := 0
  both := max
  joined := greatest
  line level inset := layout.columns level + inset
  condition level condition inset :=
    max (layout.columns level + inset) (fetchedInset layout (level + 1) condition inset)
  statement expression inset := max (expression.onset.columns layout) inset
  result _ inset := inset

/-- How far the lines of the file are set in. -/
def Program.inset (layout : Layout) (program : Program) : Nat :=
  (Gauge.insets layout).ofProgram program

end ZephirPhp
