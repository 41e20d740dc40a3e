import ZephirPhp.Proofs.Emission.Arrangement
import ZephirPhp.Proofs.Program.Chains
import ZephirPhp.Proofs.Program.Insets

/-! # Closures inside closures

The deepest level that is shown bounds how far the statements of one body are set in.
Each closure around a statement can add as much again.
-/

namespace ZephirPhp

open Gauge (insets)
open Text (greatest)

/-! ## Chains of closures -/

namespace Construct

def isClosure : Construct → Bool
  | .expr (.closure _ _ _) => true
  | _ => false

/-- No chain that begins with the construct has more closures than `limit`. -/
def ClosesWithin (limit : Nat) (construct : Construct) : Prop :=
  ∀ chain : List Construct, (construct :: chain).IsChain Holds →
    (construct :: chain).countP isClosure ≤ limit

variable {limit : Nat}

theorem ClosesWithin.part {construct : Construct}
    (within : construct.ClosesWithin limit) :
    ∀ part ∈ construct.parts, part.ClosesWithin limit := by
  intro part member chain nested
  have longer := within (part :: chain) (List.isChain_cons_cons.mpr ⟨member, nested⟩)
  rw [List.countP_cons] at longer
  omega

/-- In a closure there is one closure less. -/
theorem ClosesWithin.inside {location : Location} {parameters : List Parameter}
    {body : List Stmt}
    (within : (Construct.expr (.closure location parameters body)).ClosesWithin limit) :
    ∃ fewer, limit = fewer + 1 ∧
      ∀ part ∈ (Expr.closure location parameters body).parts,
        part.ClosesWithin fewer := by
  have one := within [] (.singleton _)
  rw [List.countP_cons_of_pos (by rfl)] at one
  refine ⟨limit - 1, by omega, ?_⟩
  intro part member chain nested
  have longer := within (part :: chain) (List.isChain_cons_cons.mpr ⟨member, nested⟩)
  rw [List.countP_cons_of_pos (by rfl)] at longer
  omega

theorem ClosesWithin.ofParts {construct : Construct}
    (inside : ∀ part ∈ construct.parts, part.ClosesWithin limit) :
    construct.ClosesWithin (limit + construct.isClosure.toNat) := by
  have own : [construct].countP isClosure = construct.isClosure.toNat := by
    cases closure : construct.isClosure <;> simp [closure]
  intro chain nested
  rw [← List.singleton_append, List.countP_append, own]
  cases chain with
  | nil => exact Nat.le_add_left _ _
  | cons part rest =>
      rw [List.isChain_cons_cons] at nested
      have later := inside part nested.1 rest nested.2
      omega

end Construct

/-! ## How far closures reach -/

theorem Text.greatest_le {numbers : List Nat} {bound : Nat}
    (each : ∀ number ∈ numbers, number ≤ bound) : greatest numbers ≤ bound := by
  induction numbers with
  | nil => exact Nat.zero_le bound
  | cons number rest induction =>
      rw [List.forall_mem_cons] at each
      exact Nat.max_le.mpr ⟨each.1, induction each.2⟩

namespace Layout

variable (layout : Layout)

/-- How far the lines of an expression can be set in that has so many closures in each
other. A statement may begin with a blank. -/
def reach (closures : Nat) : Nat :=
  closures * layout.columns layout.maxDepth + Onset.blank.columns layout

theorem reach_succ (closures : Nat) :
    layout.reach (closures + 1) =
      layout.columns layout.maxDepth + layout.reach closures := by
  rw [reach, reach, Nat.succ_mul, Nat.add_comm _ (layout.columns _), Nat.add_assoc]

variable {layout} {closures inset : Nat}

theorem line_le_reach (level : Nat) (le : inset ≤ layout.reach closures) :
    layout.columns level + inset ≤ layout.reach (closures + 1) := by
  rw [reach_succ]
  exact Nat.add_le_add (layout.columns_le level) le

theorem columns_le_reach (level : Nat) :
    layout.columns level ≤ layout.reach (closures + 1) :=
  line_le_reach level (Nat.zero_le (layout.reach closures))

theorem fetchedInset_le_reach (level : Nat) (condition : Expr)
    (le : inset ≤ layout.reach closures) :
    fetchedInset layout level condition inset ≤ layout.reach (closures + 1) := by
  rw [fetchedInset]
  split
  · exact line_le_reach level le
  · exact Nat.zero_le _

end Layout

theorem Onset.columns_le (onset : Onset) (layout : Layout) :
    onset.columns layout ≤ Onset.blank.columns layout := by
  cases onset with
  | blank => exact Nat.le_refl _
  | nothing => exact Nat.zero_le _
  | visible => exact Nat.zero_le _

theorem forall_mem_shownInCall {α : Type} {holds : α → Prop} (receiver : Option Receiver)
    (method : String) {object : α} {arguments : List α} (ofObject : holds object)
    (ofArguments : ∀ argument ∈ arguments, holds argument) :
    ∀ value ∈ shownInCall receiver method object arguments, holds value := by
  rw [shownInCall.eq_def]
  split
  · exact List.forall_mem_cons.mpr ⟨ofObject, ofArguments⟩
  · split
    · exact List.forall_mem_nil _
    · exact Slot.forall_mem_arrange _ ofObject ofArguments

/-! ## What reaches no further than its closures -/

/-- The lines of the construct are set in no further than `limit` closures reach. A line
of a statement has the margin of its level besides. -/
def Construct.Reaches (layout : Layout) (limit : Nat) : Construct → Prop
  | .expr expression => (insets layout).ofExpr expression ≤ layout.reach limit
  | .stmt statement =>
    ∀ level, (insets layout).ofStmt level statement ≤ layout.reach (limit + 1)

section

variable {layout : Layout} {limit : Nat}

theorem Expr.le_reach {expression : Expr}
    (reaches : ∀ part ∈ [Construct.expr expression], part.Reaches layout limit) :
    (insets layout).ofExpr expression ≤ layout.reach limit :=
  reaches _ (List.mem_singleton_self _)

theorem exprs_le_reach {expressions : List Expr}
    (reaches : ∀ expression ∈ expressions,
      (Construct.expr expression).Reaches layout limit) :
    ∀ inset ∈ (insets layout).ofExprs expressions, inset ≤ layout.reach limit := by
  rw [Gauge.ofExprs_eq_map]
  exact List.forall_mem_map.mpr reaches

theorem ArrayItem.le_reach {item : ArrayItem}
    (reaches : ∀ part ∈ item.parts, part.Reaches layout limit) :
    (insets layout).ofItem item ≤ layout.reach limit := by
  rcases item with ⟨key, value⟩
  rw [ArrayItem.parts, List.forall_mem_append] at reaches
  cases key with
  | none => exact Expr.le_reach reaches.2
  | some key => exact Nat.max_le.mpr ⟨Expr.le_reach reaches.1, Expr.le_reach reaches.2⟩

theorem parameters_le_reach {parameters : List Parameter}
    (reaches : ∀ parameter ∈ parameters, ∀ part ∈ parameter.parts,
      part.Reaches layout limit) :
    ∀ inset ∈ (insets layout).ofParameters parameters, inset ≤ layout.reach limit := by
  rw [Gauge.ofParameters_eq_map, List.forall_mem_map]
  intro parameter member
  rcases parameter with ⟨name, default, byReference⟩
  cases default with
  | none => exact Nat.zero_le _
  | some default => exact Expr.le_reach (reaches _ member)

theorem Assignment.le_reach {assignment : Assignment}
    (reaches : ∀ part ∈ assignment.parts, part.Reaches layout limit) :
    (insets layout).ofAssignment assignment ≤ layout.reach limit := by
  rcases assignment with ⟨form, operator, target, property, index, value, location⟩
  simp only [Assignment.parts, List.forall_mem_append, List.forall_mem_map] at reaches
  have ofIndex : greatest
      (if form.takesIndex then (insets layout).ofExprs index else []) ≤
      layout.reach limit := by
    split
    · exact Text.greatest_le (exprs_le_reach reaches.1)
    · exact Nat.zero_le _
  cases value with
  | none => exact ofIndex
  | some value =>
      have ofValue := reaches.2 value (List.mem_singleton_self value)
      refine Nat.max_le.mpr ⟨ofIndex, ?_⟩
      split
      · exact ofValue
      · exact Nat.zero_le _

theorem block_le_reach (level : Nat) {statements : List Stmt}
    (reaches : ∀ statement ∈ statements,
      (Construct.stmt statement).Reaches layout limit) :
    (insets layout).ofBlock level statements ≤ layout.reach (limit + 1) := by
  induction statements with
  | nil => exact Nat.zero_le _
  | cons statement rest induction =>
      rw [List.forall_mem_cons] at reaches
      exact Nat.max_le.mpr ⟨reaches.1 level, induction reaches.2⟩

theorem declarations_le_reach (level : Nat) {declarations : List Declaration}
    (reaches : ∀ declaration ∈ declarations, ∀ part ∈ declaration.parts,
      part.Reaches layout limit) :
    (insets layout).ofDeclarations level declarations ≤ layout.reach (limit + 1) := by
  induction declarations with
  | nil => exact Nat.zero_le _
  | cons declaration rest induction =>
      rw [List.forall_mem_cons] at reaches
      rcases declaration with ⟨name, value⟩
      cases value with
      | none => exact induction reaches.2
      | some value =>
          exact Nat.max_le.mpr
            ⟨Layout.line_le_reach level (Expr.le_reach reaches.1), induction reaches.2⟩

theorem condition_le_reach (level : Nat) {condition : Expr}
    (reaches : (Construct.expr condition).Reaches layout limit) :
    (insets layout).condition level condition ((insets layout).ofExpr condition) ≤
      layout.reach (limit + 1) :=
  Nat.max_le.mpr ⟨Layout.line_le_reach level reaches,
    Layout.fetchedInset_le_reach (level + 1) condition reaches⟩

theorem branches_le_reach (level : Nat) {branches : List Branch}
    (reaches : ∀ branch ∈ branches, ∀ part ∈ branch.parts, part.Reaches layout limit) :
    (insets layout).ofBranches level branches ≤ layout.reach (limit + 1) := by
  induction branches with
  | nil => exact Nat.zero_le _
  | cons branch rest induction =>
      rw [List.forall_mem_cons] at reaches
      rcases reaches with ⟨ofBranch, ofRest⟩
      rcases branch with ⟨condition, body⟩
      simp only [Branch.parts, List.forall_mem_cons, List.forall_mem_map] at ofBranch
      exact Nat.max_le.mpr ⟨condition_le_reach level ofBranch.1,
        Nat.max_le.mpr ⟨block_le_reach (level + 1) ofBranch.2, induction ofRest⟩⟩

theorem clauses_le_reach (level : Nat) {clauses : List Clause}
    (reaches : ∀ clause ∈ clauses, ∀ part ∈ clause.parts, part.Reaches layout limit) :
    (insets layout).ofClauses level clauses ≤ layout.reach (limit + 1) := by
  induction clauses with
  | nil => exact Nat.zero_le _
  | cons clause rest induction =>
      rw [List.forall_mem_cons] at reaches
      have later := induction reaches.2
      cases clause with
      | case test body =>
          simp only [Clause.parts, List.forall_mem_cons, List.forall_mem_map] at reaches
          exact Nat.max_le.mpr ⟨Layout.line_le_reach level reaches.1.1,
            Nat.max_le.mpr ⟨block_le_reach (level + 1) reaches.1.2, later⟩⟩
      | default body =>
          simp only [Clause.parts, List.forall_mem_map] at reaches
          exact Nat.max_le.mpr ⟨Layout.columns_le_reach level,
            Nat.max_le.mpr ⟨block_le_reach (level + 1) reaches.1, later⟩⟩

theorem handlers_le_reach (level : Nat) {handlers : List Handler}
    (reaches : ∀ handler ∈ handlers, ∀ part ∈ handler.parts, part.Reaches layout limit) :
    (insets layout).ofHandlers level handlers ≤ layout.reach (limit + 1) := by
  induction handlers with
  | nil => exact Nat.zero_le _
  | cons handler rest induction =>
      rw [List.forall_mem_cons] at reaches
      rcases handler with ⟨classes, caught, body⟩
      have ofBody := List.forall_mem_map.mp reaches.1
      exact Nat.max_le.mpr ⟨Layout.columns_le_reach level,
        Nat.max_le.mpr ⟨block_le_reach (level + 1) ofBody, induction reaches.2⟩⟩

/-! ## Expressions and statements -/

/-- An expression reaches as far as its parts, if it is no closure. -/
theorem Expr.reaches {expression : Expr}
    (plain : (Construct.expr expression).isClosure = false)
    (parts : ∀ part ∈ expression.parts, part.Reaches layout limit) :
    (Construct.expr expression).Reaches layout limit := by
  cases expression with
  | atom location leaf => exact Nat.zero_le _
  | array location items =>
      rw [Expr.parts, List.forall_mem_flatMap] at parts
      refine Text.greatest_le ?_
      rw [Gauge.ofItems_eq_map, List.forall_mem_map]
      exact fun item member => item.le_reach (parts item member)
  | methodCall location receiver method arguments =>
      simp only [Expr.parts, List.forall_mem_cons, List.forall_mem_map] at parts
      exact Text.greatest_le
        (forall_mem_shownInCall _ method parts.1 (exprs_le_reach parts.2))
  | functionCall location function arguments =>
      exact Text.greatest_le (exprs_le_reach (List.forall_mem_map.mp parts))
  | staticCall location className method arguments =>
      exact Text.greatest_le (exprs_le_reach (List.forall_mem_map.mp parts))
  | new location className dynamic arguments =>
      exact Text.greatest_le (exprs_le_reach (List.forall_mem_map.mp parts))
  | binary location operator left right =>
      simp only [Expr.parts, List.forall_mem_cons] at parts
      exact Nat.max_le.mpr ⟨parts.1, parts.2.1⟩
  | range location inclusive first last =>
      simp only [Expr.parts, List.forall_mem_cons] at parts
      exact Nat.max_le.mpr ⟨parts.1, parts.2.1⟩
  | dynamicProperty location object name =>
      simp only [Expr.parts, List.forall_mem_cons] at parts
      exact Nat.max_le.mpr ⟨parts.1, parts.2.1⟩
  | index location object position =>
      simp only [Expr.parts, List.forall_mem_cons] at parts
      exact Nat.max_le.mpr ⟨parts.1, parts.2.1⟩
  | ternary location condition consequence alternative =>
      simp only [Expr.parts, List.forall_mem_cons] at parts
      exact Nat.max_le.mpr ⟨parts.1, Nat.max_le.mpr ⟨parts.2.1, parts.2.2.1⟩⟩
  | closure location parameters body => cases plain
  | unary _ _ operand | property _ operand _ | stringProperty _ operand _
  | cast _ _ operand | typeHint _ _ operand | arrow _ _ operand | fetch _ _ operand =>
      exact parts (.expr operand) (List.mem_singleton_self _)

/-- The statements of the body begin a count of levels, and have one closure less
around. -/
theorem Expr.closure_reaches {location : Location} {parameters : List Parameter}
    {body : List Stmt}
    (ofParameters : ∀ parameter ∈ parameters, ∀ part ∈ parameter.parts,
      part.Reaches layout (limit + 1))
    (ofBody : ∀ statement ∈ body, (Construct.stmt statement).Reaches layout limit) :
    (Construct.expr (.closure location parameters body)).Reaches layout (limit + 1) :=
  Nat.max_le.mpr ⟨Text.greatest_le (parameters_le_reach ofParameters),
    block_le_reach 1 ofBody⟩

theorem Stmt.reaches {statement : Stmt}
    (parts : ∀ part ∈ statement.parts, part.Reaches layout limit) :
    (Construct.stmt statement).Reaches layout limit := by
  intro level
  cases statement with
  | assign location assignments =>
      rw [Stmt.parts, List.forall_mem_flatMap] at parts
      apply Text.greatest_le
      rw [Gauge.ofAssignments_eq_map, List.forall_mem_map, List.forall_mem_map]
      intro assignment member
      exact Layout.line_le_reach level (assignment.le_reach (parts assignment member))
  | declare location declarations =>
      rw [Stmt.parts, List.forall_mem_flatMap] at parts
      exact declarations_le_reach level parts
  | expression location value =>
      have opened : value.onset.columns layout ≤ layout.reach limit :=
        Nat.le_trans (value.onset.columns_le layout) (Nat.le_add_left _ _)
      exact Layout.line_le_reach level
        (Nat.max_le.mpr ⟨opened, Expr.le_reach parts⟩)
  | cond location condition body alternatives otherwise =>
      simp only [Stmt.parts, List.forall_mem_cons, List.forall_mem_append,
        List.forall_mem_map,
        List.forall_mem_flatMap] at parts
      rcases parts with ⟨ofCondition, ⟨ofBody, ofAlternatives⟩, ofOtherwise⟩
      have tested := condition_le_reach level ofCondition
      have inside := block_le_reach (level + 1) ofBody
      have others := branches_le_reach level ofAlternatives
      cases otherwise with
      | none => exact Nat.max_le.mpr ⟨tested, Nat.max_le.mpr ⟨inside, others⟩⟩
      | some block =>
          have last := block_le_reach (level + 1) ofOtherwise
          exact Nat.max_le.mpr
            ⟨tested, Nat.max_le.mpr ⟨inside, Nat.max_le.mpr ⟨others, last⟩⟩⟩
  | loop location body =>
      have ofBody := List.forall_mem_map.mp parts
      exact Nat.max_le.mpr
        ⟨Layout.columns_le_reach level, block_le_reach (level + 1) ofBody⟩
  | whileLoop location condition body =>
      simp only [Stmt.parts, List.forall_mem_cons, List.forall_mem_map] at parts
      exact Nat.max_le.mpr
        ⟨Layout.line_le_reach level parts.1, block_le_reach (level + 1) parts.2⟩
  | doWhile location body condition =>
      simp only [Stmt.parts, List.forall_mem_cons, List.forall_mem_map] at parts
      exact Nat.max_le.mpr
        ⟨block_le_reach (level + 1) parts.2, Layout.line_le_reach level parts.1⟩
  | forEach location key value reverse source body =>
      simp only [Stmt.parts, List.forall_mem_cons, List.forall_mem_map] at parts
      exact Nat.max_le.mpr
        ⟨Layout.line_le_reach level parts.1, block_le_reach (level + 1) parts.2⟩
  | switch location subject clauses =>
      simp only [Stmt.parts, List.forall_mem_cons, List.forall_mem_flatMap] at parts
      exact Nat.max_le.mpr
        ⟨Layout.line_le_reach level parts.1, clauses_le_reach (level + 1) parts.2⟩
  | returnValue location value =>
      cases value with
      | none => exact Layout.columns_le_reach level
      | some value => exact Layout.line_le_reach level (Expr.le_reach parts)
  | echo location values =>
      have ofValues := exprs_le_reach (List.forall_mem_map.mp parts)
      exact Layout.line_le_reach level (Text.greatest_le ofValues)
  | throwValue _ value | unset _ value | require _ value =>
      exact Layout.line_le_reach level (Expr.le_reach parts)
  | tryCatch location body handlers =>
      simp only [Stmt.parts, List.forall_mem_append, List.forall_mem_map,
        List.forall_mem_flatMap] at parts
      exact Nat.max_le.mpr ⟨Layout.columns_le_reach level, Nat.max_le.mpr
        ⟨block_le_reach (level + 1) parts.1, handlers_le_reach level parts.2⟩⟩
  | continueLoop location => exact Layout.columns_le_reach level
  | breakLoop location => exact Layout.columns_le_reach level
  | comment location text => exact Layout.columns_le_reach level
  | empty location => exact Nat.zero_le _

theorem Construct.reaches_of_closesWithin (layout : Layout) (construct : Construct) :
    ∀ limit, construct.ClosesWithin limit → construct.Reaches layout limit := by
  induction construct using Construct.induction with
  | step construct induction =>
      intro limit within
      have parts : ∀ part ∈ construct.parts, part.Reaches layout limit :=
        fun part member => induction part member limit (within.part part member)
      cases construct with
      | stmt statement => exact statement.reaches parts
      | expr expression =>
          cases expression with
          | closure location parameters body =>
              rcases within.inside with ⟨fewer, rfl, inside⟩
              have deeper := fun part member =>
                induction part member fewer (inside part member)
              simp only [Construct.parts, Expr.parts, List.forall_mem_append,
                List.forall_mem_flatMap, List.forall_mem_map] at parts deeper
              exact Expr.closure_reaches parts.1 deeper.2
          | _ => exact Expr.reaches rfl parts

/-! ## Definitions and programs -/

theorem Property.le_reach (level : Nat) {property : Property}
    (reaches : ∀ part ∈ property.parts, part.Reaches layout limit) :
    (insets layout).ofProperty level property ≤ layout.reach (limit + 1) := by
  rw [Property.parts, List.forall_mem_map] at reaches
  exact Layout.line_le_reach level (Text.greatest_le (exprs_le_reach reaches))

/-- The head of a method or a function with its body. -/
theorem body_le_reach (level : Nat) {parameters : List Parameter} {statements : List Stmt}
    (ofParameters : ∀ parameter ∈ parameters, ∀ part ∈ parameter.parts,
      part.Reaches layout limit)
    (ofBody : ∀ statement ∈ statements, (Construct.stmt statement).Reaches layout limit) :
    (insets layout).ofBody level parameters statements ≤ layout.reach (limit + 1) :=
  Nat.max_le.mpr
    ⟨Layout.line_le_reach level (Text.greatest_le (parameters_le_reach ofParameters)),
      block_le_reach (level + 1) ofBody⟩

theorem Method.le_reach (level : Nat) {method : Method}
    (reaches : ∀ part ∈ method.parts, part.Reaches layout limit) :
    (insets layout).ofMethod level method ≤ layout.reach (limit + 1) := by
  simp only [Method.parts, List.forall_mem_append, List.forall_mem_flatMap,
    List.forall_mem_map] at reaches
  exact body_le_reach level reaches.1 reaches.2

theorem members_le_reach (level : Nat) {constants : List Constant}
    {properties : List Property} {methods : List Method}
    (ofConstants : ∀ constant ∈ constants,
      (Construct.expr constant.value).Reaches layout limit)
    (ofProperties : ∀ property ∈ properties, ∀ part ∈ property.parts,
      part.Reaches layout limit)
    (ofMethods : ∀ method ∈ methods, ∀ part ∈ method.parts, part.Reaches layout limit) :
    (insets layout).ofMembers level constants properties methods ≤
      layout.reach (limit + 1) := by
  refine Nat.max_le.mpr ⟨?_, Nat.max_le.mpr ⟨?_, ?_⟩⟩
  · exact Text.greatest_le (List.forall_mem_map.mpr fun constant member =>
      Layout.line_le_reach level (ofConstants constant member))
  · exact Text.greatest_le (List.forall_mem_map.mpr fun property member =>
      property.le_reach level (ofProperties property member))
  · exact Text.greatest_le (List.forall_mem_map.mpr fun method member =>
      method.le_reach level (ofMethods method member))

theorem Entry.le_reach {entry : Entry}
    (reaches : ∀ construct ∈ entry.constructs, construct.Reaches layout limit) :
    (insets layout).ofEntry entry ≤ layout.reach (limit + 1) := by
  cases entry with
  | classDefinition definition =>
      simp only [Entry.constructs, List.forall_mem_append, List.forall_mem_map,
        List.forall_mem_flatMap] at reaches
      exact members_le_reach 1 reaches.1.1 reaches.1.2 reaches.2
  | interfaceDefinition definition =>
      simp only [Entry.constructs, List.forall_mem_append, List.forall_mem_map,
        List.forall_mem_flatMap] at reaches
      exact members_le_reach 1 reaches.1 (List.forall_mem_nil _) reaches.2
  | functionDefinition definition =>
      simp only [Entry.constructs, List.forall_mem_append, List.forall_mem_map,
        List.forall_mem_flatMap] at reaches
      exact body_le_reach 0 reaches.1 reaches.2
  | statement included => exact List.forall_mem_singleton.mp reaches 0
  | _ => exact Nat.zero_le _

end

namespace Program

/-- No chain of the program has more closures than `limit`. -/
def ClosesWithin (limit : Nat) (program : Program) : Prop :=
  ∀ chain : List Construct, chain.IsChain Construct.Holds →
    (∀ construct ∈ chain, program.Contains construct) →
      chain.countP Construct.isClosure ≤ limit

theorem closesWithin_of_constructs {limit : Nat} {program : Program}
    (within : ∀ entry ∈ program.entries, ∀ construct ∈ entry.constructs,
      construct.ClosesWithin limit) : program.ClosesWithin limit := by
  intro chain nested contained
  cases chain with
  | nil => exact Nat.zero_le limit
  | cons construct rest =>
      rcases contained construct List.mem_cons_self with ⟨outer, among, holds⟩
      rcases List.mem_flatMap.mp among with ⟨entry, member, inEntry⟩
      have closes : construct.ClosesWithin limit := by
        clear nested contained
        induction holds with
        | refl => exact within entry member outer inEntry
        | tail _ last induction => exact induction.part _ last
      exact closes rest nested

theorem contains_of_isChain {program : Program} {construct : Construct}
    {chain : List Construct} (contained : program.Contains construct)
    (nested : (construct :: chain).IsChain Construct.Holds) :
    ∀ inner ∈ construct :: chain, program.Contains inner := by
  induction chain generalizing construct with
  | nil => exact List.forall_mem_singleton.mpr contained
  | cons next rest induction =>
      rw [List.isChain_cons_cons] at nested
      rcases contained with ⟨outer, among, holds⟩
      exact List.forall_mem_cons.mpr
        ⟨⟨outer, among, holds⟩, induction ⟨outer, among, holds.tail nested.1⟩ nested.2⟩

theorem inset_le_reach (layout : Layout) {limit : Nat} {program : Program}
    (within : program.ClosesWithin limit) :
    program.inset layout ≤ layout.reach (limit + 1) := by
  refine Text.greatest_le (List.forall_mem_map.mpr fun entry member => entry.le_reach ?_)
  intro outer among
  apply outer.reaches_of_closesWithin layout
  intro chain nested
  have contained : program.Contains outer :=
    ⟨outer, List.mem_flatMap_of_mem member among, .refl⟩
  exact within _ nested (contains_of_isChain contained nested)

end Program

end ZephirPhp
