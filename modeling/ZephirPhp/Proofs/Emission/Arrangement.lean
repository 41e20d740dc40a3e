import Mathlib.Data.List.Forall2
import Mathlib.Data.Option.Basic
import ZephirPhp.PseudoMethod

/-! # Arrangement of arguments

A pseudo-method moves the receiver and the arguments to other places and may drop some of
them, but it does not look at them. What is related before is therefore related after, at
the same places.
-/

namespace ZephirPhp.Slot

variable {α β : Type} {related : α → β → Prop}

theorem toList_related {left : Option α} {right : Option β}
    (values : Option.Rel related left right) :
    List.Forall₂ related left.toList right.toList := by
  cases values with
  | none => exact .nil
  | some value => exact .cons value .nil

theorem getElem?_related {left : List (Option α)} {right : List (Option β)}
    (values : List.Forall₂ (Option.Rel related) left right) (place : Nat) :
    Option.Rel related (left[place]?.getD none) (right[place]?.getD none) := by
  induction values generalizing place with
  | nil => exact .none
  | cons head tail induction =>
      cases place with
      | zero => exact head
      | succ place => simpa using induction place

theorem set_none_related {left : List (Option α)} {right : List (Option β)}
    (values : List.Forall₂ (Option.Rel related) left right) (place : Nat) :
    List.Forall₂ (Option.Rel related) (left.set place none) (right.set place none) := by
  induction values generalizing place with
  | nil => exact .nil
  | cons head tail induction =>
      cases place with
      | zero => exact .cons .none tail
      | succ place => exact .cons head (induction place)

theorem takeOthers_related {left : List (Option α)} {right : List (Option β)}
    (values : List.Forall₂ (Option.Rel related) left right) (named : List Nat)
    (place : Nat) :
    List.Forall₂ related (takeOthers named place left).1
      (takeOthers named place right).1 ∧
      List.Forall₂ (Option.Rel related) (takeOthers named place left).2
        (takeOthers named place right).2 := by
  induction values generalizing place with
  | nil => exact ⟨.nil, .nil⟩
  | cons head tail induction =>
      rcases induction (place + 1) with ⟨taken, remaining⟩
      simp only [takeOthers]
      split
      · exact ⟨taken, .cons head remaining⟩
      · exact ⟨List.rel_append (toList_related head) taken, .cons .none remaining⟩

theorem fill_related {receiver : Option α} {otherReceiver : Option β}
    {left : List (Option α)} {right : List (Option β)} (named : List Nat)
    (slots : List Slot) (receivers : Option.Rel related receiver otherReceiver)
    (values : List.Forall₂ (Option.Rel related) left right) :
    List.Forall₂ related (fill named slots receiver left)
      (fill named slots otherReceiver right) := by
  induction slots generalizing receiver otherReceiver left right with
  | nil => exact .nil
  | cons slot more induction =>
      cases slot with
      | receiver =>
          exact List.rel_append (toList_related receivers) (induction .none values)
      | argument place =>
          exact List.rel_append (toList_related (getElem?_related values place))
            (induction receivers (set_none_related values place))
      | rest =>
          rcases takeOthers_related values named 0 with ⟨taken, remaining⟩
          exact List.rel_append taken (induction receivers remaining)

theorem arrange_related {receiver : α} {otherReceiver : β} {left : List α}
    {right : List β} (slots : List Slot) (receivers : related receiver otherReceiver)
    (arguments : List.Forall₂ related left right) :
    List.Forall₂ related (arrange slots receiver left)
      (arrange slots otherReceiver right) := by
  apply fill_related (named slots) slots (.some receivers)
  rw [List.forall₂_map_left_iff, List.forall₂_map_right_iff]
  exact arguments.imp fun _ _ holds => .some holds

/-- Arrangement makes up nothing. -/
theorem forall_mem_arrange {holds : α → Prop} {receiver : α} {arguments : List α}
    (slots : List Slot) (ofReceiver : holds receiver)
    (ofArguments : ∀ argument ∈ arguments, holds argument) :
    ∀ value ∈ arrange slots receiver arguments, holds value := by
  have arranged : List.Forall₂ (fun value (_ : α) => holds value)
      (arrange slots receiver arguments) (arrange slots receiver arguments) :=
    arrange_related slots ofReceiver (List.forall₂_same.mpr ofArguments)
  have each := List.forall₂_same.mp arranged
  exact each

end ZephirPhp.Slot
