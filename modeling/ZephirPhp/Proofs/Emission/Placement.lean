import Mathlib.Data.List.Nodup
import Mathlib.Data.List.FinRange
import ZephirPhp.Proofs.Emission.Arrangement
import ZephirPhp.Proofs.Text.Numerals

/-! # Places of arguments

The order of a pseudo-method says where the receiver and the arguments go. Every slot of
the order counts where it stands first: there the receiver, the argument with a number,
or all arguments without one go, and a slot that comes again finds nothing left. So an
order that names the receiver and the rest moves its values and loses none of them.
-/

namespace ZephirPhp

/-! ## Tokens of orders -/

namespace Slot

/-- The texts between the commas of an order, without blanks at their ends. -/
def tokens (order : String) : List String :=
  (order.toList.splitOn ',').map fun stretch => Text.trim (String.ofList stretch)

/-- A token is a number. -/
def Numbered (order : String) (number : Nat) : Prop :=
  ∃ token ∈ tokens order, Text.Spells token number

/-- A token stands for a slot. -/
def WrittenAs (token : String) : Slot → Prop
  | .receiver => token = "O"
  | .argument place => Text.Spells token (place + 1)
  | .rest => token = "*"

theorem ofOrder_eq_filterMap (order : String) :
    ofOrder order = (tokens order).filterMap ofText? := by
  rw [ofOrder, tokens, List.filterMap_map, Function.comp_def]

theorem ofText?_eq_receiver_iff (text : String) :
    ofText? text = some .receiver ↔ text = "O" := by
  rw [ofText?]
  split_ifs with isReceiver isRest
  · simp [isReceiver]
  · simp [isReceiver]
  · split <;> simp [isReceiver]

theorem ofText?_eq_rest_iff (text : String) : ofText? text = some .rest ↔ text = "*" := by
  rw [ofText?]
  split_ifs with isReceiver isRest
  · simp [isReceiver]
  · simp [isRest]
  · split <;> simp [isRest]

theorem ofText?_eq_argument_iff (text : String) (place : Nat) :
    ofText? text = some (.argument place) ↔ Text.Spells text (place + 1) := by
  rw [← Text.natural?_eq_some_iff, ofText?]
  split_ifs with isReceiver isRest
  · rw [isReceiver]
    simp [show Text.natural? Text.limit64 "O" = none by decide]
  · rw [isRest]
    simp [show Text.natural? Text.limit64 "*" = none by decide]
  · split
    · rename_i found equal
      simp [equal]
    · rename_i noPlace
      constructor
      · intro impossible
        cases impossible
      · intro spelled
        exact absurd spelled (noPlace place)

theorem ofText?_eq_some_iff (text : String) (slot : Slot) :
    ofText? text = some slot ↔ slot.WrittenAs text := by
  cases slot with
  | receiver => exact ofText?_eq_receiver_iff text
  | argument place => exact ofText?_eq_argument_iff text place
  | rest => exact ofText?_eq_rest_iff text

theorem receiver_mem_ofOrder_iff (order : String) :
    .receiver ∈ ofOrder order ↔ "O" ∈ tokens order := by
  simp [ofOrder_eq_filterMap, ofText?_eq_receiver_iff]

theorem rest_mem_ofOrder_iff (order : String) :
    .rest ∈ ofOrder order ↔ "*" ∈ tokens order := by
  simp [ofOrder_eq_filterMap, ofText?_eq_rest_iff]

theorem argument_mem_ofOrder_iff (order : String) (place : Nat) :
    .argument place ∈ ofOrder order ↔ Numbered order (place + 1) := by
  simp [ofOrder_eq_filterMap, ofText?_eq_argument_iff, Numbered]

/-! ## What a slot places -/

variable {α : Type}

/-- The values that a slot of an order stands for. -/
def values (slots : List Slot) (receiver : α) (arguments : List α) : Slot → List α
  | .receiver => [receiver]
  | .argument place => arguments[place]?.toList
  | .rest =>
    (arguments.zipIdx.filter fun argument => .argument argument.2 ∉ slots).map (·.1)

/-- An argument that is used once some slots have been filled. -/
def Gone (slots used : List Slot) (place : Nat) : Prop :=
  .argument place ∈ used ∨ .rest ∈ used ∧ .argument place ∉ slots

instance (slots used : List Slot) : DecidablePred (Gone slots used) :=
  fun place => inferInstanceAs
    (Decidable (.argument place ∈ used ∨ .rest ∈ used ∧ .argument place ∉ slots))

/-- The arguments that are left once some slots have been filled. -/
def remaining (slots used : List Slot) (arguments : List α) : List (Option α) :=
  arguments.zipIdx.map fun argument =>
    if Gone slots used argument.2 then none else some argument.1

theorem mem_named_iff (slots : List Slot) (place : Nat) :
    place ∈ named slots ↔ .argument place ∈ slots := by
  rw [named, List.mem_filterMap]
  constructor
  · rintro ⟨slot, member, isNamed⟩
    cases slot with
    | argument found =>
        cases isNamed
        exact member
    | receiver => cases isNamed
    | rest => cases isNamed
  · exact fun member => ⟨.argument place, member, rfl⟩

theorem takeOthers_zipIdx (named : List Nat) (place : Nat) (arguments : List α)
    (gone : Nat → Prop) [DecidablePred gone] :
    takeOthers named place
        ((arguments.zipIdx place).map fun argument =>
          if gone argument.2 then none else some argument.1) =
      (((arguments.zipIdx place).filter fun argument =>
          argument.2 ∉ named ∧ ¬ gone argument.2).map (·.1),
        (arguments.zipIdx place).map fun argument =>
          if gone argument.2 ∨ argument.2 ∉ named then none else some argument.1) := by
  induction arguments generalizing place with
  | nil => rfl
  | cons argument rest induction =>
      rw [List.zipIdx_cons, List.map_cons, takeOthers, induction]
      by_cases isNamed : place ∈ named <;> by_cases isGone : gone place <;>
        simp [isNamed, isGone]

/-- The first `*` takes what no number names, and a further one nothing. -/
theorem takeOthers_remaining {slots used : List Slot} (past : used ⊆ slots) (receiver : α)
    (arguments : List α) :
    takeOthers (named slots) 0 (remaining slots used arguments) =
      (if .rest ∈ used then [] else values slots receiver arguments .rest,
        remaining slots (.rest :: used) arguments) := by
  have free (place : Nat) : (place ∉ named slots ∧ ¬ Gone slots used place) ↔
      .rest ∉ used ∧ .argument place ∉ slots := by
    have later (member : Slot.argument place ∈ used) : Slot.argument place ∈ slots :=
      past member
    rw [mem_named_iff, Gone]
    tauto
  have gone (place : Nat) : (Gone slots used place ∨ place ∉ named slots) ↔
      Gone slots (.rest :: used) place := by
    simp only [mem_named_iff, Gone, List.mem_cons, reduceCtorEq, false_or,
      true_or, true_and]
    tauto
  rw [remaining, takeOthers_zipIdx]
  simp only [gone, free, remaining, Prod.mk.injEq, and_true]
  split_ifs with isUsed <;> simp [isUsed, values]

theorem getElem?_remaining {slots used : List Slot} {place : Nat}
    (known : .argument place ∈ slots) (receiver : α) (arguments : List α) :
    ((remaining slots used arguments)[place]?.getD none).toList =
      if .argument place ∈
        used then [] else values slots receiver arguments (.argument place) := by
  rw [remaining, List.getElem?_map, List.getElem?_zipIdx, values]
  cases arguments[place]? with
  | none => simp
  | some argument =>
      by_cases isUsed : Slot.argument place ∈ used <;> simp [Gone, known, isUsed]

theorem set_remaining {slots used : List Slot} {place : Nat} (arguments : List α) :
    (remaining slots used arguments).set place none =
      remaining slots (.argument place :: used) arguments := by
  apply List.ext_getElem?
  intro other
  rw [List.getElem?_set, remaining, remaining, List.getElem?_map, List.getElem?_map,
    List.getElem?_zipIdx, List.length_map, List.length_zipIdx]
  by_cases same : place = other
  · subst same
    by_cases inside : place < arguments.length <;> simp [inside, Gone]
  · have gone : Gone slots (.argument place :: used) other ↔ Gone slots used other := by
      simp [Gone, Ne.symm same]
    cases arguments[other]? with
    | none => simp [same]
    | some argument => simp [same, gone]

theorem remaining_receiver (slots used : List Slot) (arguments : List α) :
    remaining slots (.receiver :: used) arguments = remaining slots used arguments := by
  have gone (place : Nat) : Gone slots (.receiver :: used) place ↔
      Gone slots used place := by
    simp [Gone]
  simp only [remaining, gone]

/-- Filling goes on as if the slots that have been filled were not there. -/
theorem fill_remaining {slots used more : List Slot} (past : used ⊆ slots)
    (coming : more ⊆ slots) (receiver : α) (arguments : List α) :
    fill (named slots) more (if .receiver ∈ used then none else some receiver)
        (remaining slots used arguments) =
      (more.filter (· ∉ used)).eraseDups.flatMap (values slots receiver arguments) := by
  induction more generalizing used with
  | nil => rfl
  | cons slot rest induction =>
      rcases List.cons_subset.mp coming with ⟨known, restKnown⟩
      have step : fill (named slots) (slot :: rest)
          (if .receiver ∈ used then none else some receiver)
          (remaining slots used arguments) =
        (if slot ∈ used then [] else values slots receiver arguments slot) ++
          (rest.filter (· ∉ slot :: used)).eraseDups.flatMap
            (values slots receiver arguments) := by
        rw [← induction (List.cons_subset.mpr ⟨known, past⟩) restKnown]
        cases slot with
        | receiver =>
            rw [fill, remaining_receiver]
            by_cases isUsed : Slot.receiver ∈ used <;> simp [isUsed, values]
        | argument place =>
            rw [fill, getElem?_remaining known receiver, set_remaining]
            simp
        | rest =>
            rw [fill, takeOthers_remaining past receiver]
            simp
      rw [step]
      by_cases isUsed : slot ∈ used
      · have same (other : Slot) : other ∉ slot :: used ↔ other ∉ used := by
          rw [List.mem_cons, not_iff_not, or_iff_right_of_imp]
          rintro rfl
          exact isUsed
        rw [if_pos isUsed, List.nil_append,
          List.filter_cons_of_neg (by simpa using isUsed)]
        simp only [same]
      · have same : rest.filter (· ∉ slot :: used) =
            (rest.filter (· ∉ used)).filter fun other => !other == slot := by
          rw [List.filter_filter]
          apply List.filter_congr
          intro other _
          simp [beq_eq_decide]
        rw [if_neg isUsed, List.filter_cons_of_pos (by simpa using isUsed),
          List.eraseDups_cons,
          List.flatMap_cons, same]

/-- Every slot of an order places its values where it stands first. -/
theorem arrange_eq_flatMap (slots : List Slot) (receiver : α) (arguments : List α) :
    arrange slots receiver arguments =
      slots.eraseDups.flatMap (values slots receiver arguments) := by
  have filled :=
    fill_remaining (List.nil_subset slots) (List.Subset.refl slots) receiver arguments
  have all : remaining slots [] arguments = arguments.map some := by
    have gone (place : Nat) : ¬ Gone slots [] place := by simp [Gone]
    have each : remaining slots [] arguments =
        (arguments.zipIdx.map Prod.fst).map some := by
      rw [List.map_map]
      simp only [remaining, gone, if_false]
      rfl
    rw [each, List.zipIdx_map_fst]
  simpa [all, arrange] using filled

/-! ## What an order places -/

theorem eraseDups_nodup (slots : List Slot) : slots.eraseDups.Nodup := by
  cases slots with
  | nil => exact .nil
  | cons slot rest =>
      rw [List.eraseDups_cons, List.nodup_cons]
      exact ⟨by simp, eraseDups_nodup (rest.filter fun other => !other == slot)⟩
termination_by slots.length
decreasing_by exact Nat.lt_succ_of_le (List.length_filter_le _ _)

/-- The places of the values that an order arranges. The place of the receiver is
`none`. -/
def places (slots : List Slot) (count : Nat) : List (Option (Fin count)) :=
  arrange slots none ((List.finRange count).map some)

/-- Arranging values is arranging their places. -/
theorem arrange_eq_map_places (slots : List Slot) (receiver : α) (arguments : List α) :
    arrange slots receiver arguments =
      (places slots arguments.length).map fun place =>
        place.elim receiver arguments.get := by
  have related : List.Forall₂
      (fun value place => value = Option.elim place receiver arguments.get)
      (arrange slots receiver arguments) (places slots arguments.length) := by
    refine arrange_related slots (by rfl) ?_
    have all : (List.finRange arguments.length).map arguments.get = arguments := by
      rw [← List.ofFn_eq_map, List.ofFn_get]
    rw [List.forall₂_map_right_iff]
    simp only [Option.elim_some]
    rw [← List.forall₂_map_right_iff, all, List.forall₂_eq_eq_eq]
  rwa [← List.forall₂_map_right_iff, List.forall₂_eq_eq_eq] at related

section

variable (slots : List Slot) {count : Nat}

/-- The slot that a place belongs to. -/
def holder : Option (Fin count) → Slot
  | none => .receiver
  | some place => if .argument place ∈ slots then .argument place else .rest

variable {slots}

theorem getElem?_finRange_iff (number : Nat) (place : Option (Fin count)) :
    ((List.finRange count).map some)[number]? = some place ↔
      ∃ index : Fin count, index.val = number ∧ place = some index := by
  rw [List.getElem?_map, Option.map_eq_some_iff]
  constructor
  · rintro ⟨index, found, rfl⟩
    rcases List.getElem?_eq_some_iff.mp found with ⟨inside, rfl⟩
    exact ⟨_, by simp, rfl⟩
  · rintro ⟨index, rfl, rfl⟩
    exact ⟨index, by simp, rfl⟩

/-- A place goes where its slot is, and nowhere else. -/
theorem mem_values_iff {slot : Slot} (present : slot ∈ slots)
    (place : Option (Fin count)) :
    place ∈ values slots none ((List.finRange count).map some) slot ↔
      slot = holder slots place := by
  cases slot with
  | receiver =>
      rw [values, List.mem_singleton]
      cases place with
      | none => simp [holder]
      | some place =>
          rw [holder]
          split_ifs <;> simp
  | argument number =>
      rw [values, Option.mem_toList, getElem?_finRange_iff]
      constructor
      · rintro ⟨index, rfl, rfl⟩
        rw [holder, if_pos present]
      · intro held
        cases place with
        | none => cases held
        | some place =>
            rw [holder] at held
            split_ifs at held
            cases held
            exact ⟨place, rfl, rfl⟩
  | rest =>
      rw [values, List.mem_map]
      simp only [List.mem_filter, List.mem_zipIdx_iff_getElem?, getElem?_finRange_iff,
        decide_eq_true_eq]
      constructor
      · rintro ⟨_, ⟨⟨index, same, found⟩, free⟩, rfl⟩
        rw [found, holder, if_neg (same ▸ free)]
      · intro held
        cases place with
        | none => cases held
        | some place =>
            rw [holder] at held
            split_ifs at held with isNamed
            exact ⟨(some place, place.val), ⟨⟨place, rfl, rfl⟩, isNamed⟩, rfl⟩

theorem values_nodup (slot : Slot) :
    (values slots none ((List.finRange count).map some) slot).Nodup := by
  cases slot with
  | receiver => exact List.nodup_singleton none
  | argument number =>
      rw [values]
      cases ((List.finRange count).map some)[number]? with
      | none => exact List.nodup_nil
      | some place => exact List.nodup_singleton place
  | rest =>
      have whole : (((List.finRange count).map some).zipIdx.map Prod.fst).Nodup := by
        rw [List.zipIdx_map_fst]
        exact (List.nodup_finRange count).map (Option.some_injective _)
      exact whole.sublist (List.filter_sublist.map _)

theorem mem_places_iff (place : Option (Fin count)) :
    place ∈ places slots count ↔ holder slots place ∈ slots := by
  rw [places, arrange_eq_flatMap, List.mem_flatMap]
  constructor
  · rintro ⟨slot, member, placed⟩
    have present := List.mem_eraseDups.mp member
    rwa [← (mem_values_iff present place).mp placed]
  · intro present
    exact ⟨_, List.mem_eraseDups.mpr present, (mem_values_iff present place).mpr rfl⟩

theorem argument_mem_places_iff (place : Fin count) :
    some place ∈ places slots count ↔
      .argument place ∈ slots ∨ .rest ∈ slots ∧ .argument place ∉ slots := by
  rw [mem_places_iff, holder]
  split_ifs with isNamed <;> simp [isNamed]

theorem places_nodup : (places slots count).Nodup := by
  rw [places, arrange_eq_flatMap, List.nodup_flatMap]
  refine ⟨fun slot _ => values_nodup slot, ?_⟩
  apply (eraseDups_nodup slots).imp_of_mem
  intro slot other member otherMember different place placed otherPlaced
  have first := (mem_values_iff (List.mem_eraseDups.mp member) place).mp placed
  have second := (mem_values_iff (List.mem_eraseDups.mp otherMember) place).mp otherPlaced
  exact different (first.trans second.symm)

theorem places_perm (receiver : .receiver ∈ slots) (rest : .rest ∈ slots) :
    (places slots count).Perm (none :: (List.finRange count).map some) := by
  have whole : (none :: (List.finRange count).map some).Nodup := by
    rw [List.nodup_cons]
    exact ⟨by simp, (List.nodup_finRange count).map (Option.some_injective _)⟩
  rw [List.perm_ext_iff_of_nodup places_nodup whole]
  intro place
  rw [mem_places_iff]
  cases place with
  | none => simpa [holder] using receiver
  | some place =>
      rw [holder]
      split_ifs with isNamed <;> simp [isNamed, rest]

end

theorem arrange_perm {slots : List Slot} (hasReceiver : .receiver ∈ slots)
    (hasRest : .rest ∈ slots) (receiver : α) (arguments : List α) :
    (arrange slots receiver arguments).Perm (receiver :: arguments) := by
  have moved := (places_perm hasReceiver hasRest).map fun place =>
    place.elim receiver arguments.get
  rw [← arrange_eq_map_places] at moved
  have all : (List.finRange arguments.length).map arguments.get = arguments := by
    rw [← List.ofFn_eq_map, List.ofFn_get]
  simpa [Function.comp_def, all] using moved

end Slot

/-- A pseudo-method arranges places, and with them the values that stand there. Each place
occurs at most once: that of the receiver exactly if the order has a token `O`, and that
of an argument exactly if the order has its number, or `*` and not its number. The tokens
that stand for slots count where they stand first, `*` for all the arguments without a
number in their order. With `O` and `*`, no value is lost and none is repeated. -/
theorem arrange_places {α : Type} (pseudoMethod : PseudoMethod) (receiver : α)
    (arguments : List α) :
    let order := pseudoMethod.order
    let places := pseudoMethod.arrange none ((List.finRange arguments.length).map some)
    let slots := (Slot.tokens order).filterMap Slot.ofText?
    (pseudoMethod.arrange receiver arguments =
        places.map fun place => place.elim receiver arguments.get) ∧
      places.Nodup ∧
      (none ∈ places ↔ "O" ∈ Slot.tokens order) ∧
      (∀ place : Fin arguments.length, some place ∈ places ↔
        Slot.Numbered order (place + 1) ∨
          "*" ∈ Slot.tokens order ∧ ¬ Slot.Numbered order (place + 1)) ∧
      (∀ token slot, Slot.ofText? token = some slot ↔ slot.WrittenAs token) ∧
      pseudoMethod.arrange receiver arguments =
        slots.eraseDups.flatMap (Slot.values slots receiver arguments) ∧
      ("O" ∈ Slot.tokens order → "*" ∈ Slot.tokens order →
        (pseudoMethod.arrange receiver arguments).Perm (receiver :: arguments)) := by
  intro order places slots
  refine ⟨Slot.arrange_eq_map_places _ receiver arguments, Slot.places_nodup, ?_, ?_,
    Slot.ofText?_eq_some_iff, ?_, ?_⟩
  · rw [← Slot.receiver_mem_ofOrder_iff]
    exact Slot.mem_places_iff none
  · intro place
    rw [← Slot.argument_mem_ofOrder_iff, ← Slot.rest_mem_ofOrder_iff]
    exact Slot.argument_mem_places_iff place
  · have read : Slot.ofOrder order = slots := Slot.ofOrder_eq_filterMap order
    rw [← read]
    exact Slot.arrange_eq_flatMap _ receiver arguments
  · rw [← Slot.receiver_mem_ofOrder_iff, ← Slot.rest_mem_ofOrder_iff]
    exact fun hasReceiver hasRest =>
      Slot.arrange_perm hasReceiver hasRest receiver arguments

/-- An order in which tokens come again, one number is written in three ways, and there
are numbers for no argument. -/
def winding : PseudoMethod :=
  ⟨.array, "w", "f", "2, O,*,+02,0,\t2,x,*,7,18446744073709551617,O", false⟩

theorem arrange_places_of_winding :
    winding.arrange "r" ["a", "b", "c"] = ["b", "r", "a", "c"] ∧
      (winding.arrange "r" ["a", "b", "c"]).Perm ["r", "a", "b", "c"] := by
  have hasReceiver : "O" ∈ Slot.tokens winding.order := by decide
  have hasRest : "*" ∈ Slot.tokens winding.order := by decide
  rcases arrange_places winding "r" ["a", "b", "c"] with ⟨_, _, _, _, _, _, perm⟩
  exact ⟨by decide, perm hasReceiver hasRest⟩

end ZephirPhp
