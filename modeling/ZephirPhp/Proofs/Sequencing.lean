/-! # Sequences of steps

Reading nodes may stop at a fault; emission, file work and builds may stop too and
change a state on the way. The lemmas of this file run such a computation one step
further, or take one that is known to have ended apart.
-/

namespace ZephirPhp

variable {ε σ α β : Type}

namespace Except

@[simp] theorem ok_bind (value : α) (next : α → Except ε β) :
    (Except.ok value >>= next) = next value := rfl

@[simp] theorem error_bind (fault : ε) (next : α → Except ε β) :
    (Except.error fault >>= next) = Except.error fault := rfl

theorem bind_ok {first : Except ε α} {next : α → Except ε β} {value : α} {result : β}
    (start : first = .ok value) (rest : next value = .ok result) :
    (first >>= next) = .ok result := by
  rw [start, ok_bind, rest]

theorem bind_eq_ok_iff (first : Except ε α) (next : α → Except ε β) (result : β) :
    (first >>= next) = .ok result ↔
      ∃ value, first = .ok value ∧ next value = .ok result := by
  cases first with
  | error fault => simp
  | ok value => simp

/-! ### What a result satisfies, if there is one -/

/-- Whatever comes out satisfies a property. -/
def Ensures (property : α → Prop) (result : Except ε α) : Prop :=
  ∀ value, result = .ok value → property value

namespace Ensures

variable {property : α → Prop} {conclusion : β → Prop}

theorem ok {value : α} (holds : property value) :
    Ensures property (.ok value : Except ε α) := by
  intro found equal
  cases equal
  exact holds

theorem error (fault : ε) : Ensures property (.error fault : Except ε α) := by
  intro found impossible
  cases impossible

theorem bind {first : Except ε α} {next : α → Except ε β} (start : Ensures property first)
    (rest : ∀ value, property value → Ensures conclusion (next value)) :
    Ensures conclusion (first >>= next) := by
  intro result done
  rcases (bind_eq_ok_iff first next result).mp done with ⟨value, found, continued⟩
  exact rest value (start value found) result continued

/-- Of the first part nothing needs to be known. -/
theorem after {first : Except ε α} {next : α → Except ε β}
    (rest : ∀ value, Ensures conclusion (next value)) :
    Ensures conclusion (first >>= next) :=
  bind (fun _ _ => trivial : Ensures (fun _ => True) first) fun value _ => rest value

theorem map {first : Except ε α} {change : α → β}
    (holds : ∀ value, conclusion (change value)) :
    Ensures conclusion (change <$> first) := by
  cases first with
  | error fault => exact error fault
  | ok value => exact ok (holds value)

theorem and {other : α → Prop} {result : Except ε α} (left : Ensures property result)
    (right : Ensures other result) :
    Ensures (fun value => property value ∧ other value) result :=
  fun value found => ⟨left value found, right value found⟩

theorem mapM {read : α → Except ε β} {values : List α}
    (each : ∀ value ∈ values, Ensures conclusion (read value)) :
    Ensures (fun results => ∀ result ∈ results, conclusion result)
      (values.mapM read) := by
  induction values with
  | nil => exact ok (by simp)
  | cons value rest induction =>
      rw [List.mapM_cons]
      refine bind (each value List.mem_cons_self) fun result holds => ?_
      refine bind (induction fun later member =>
        each later (List.mem_cons_of_mem value member))
        fun results allHold => ok ?_
      exact List.forall_mem_cons.mpr ⟨holds, allHold⟩

end Ensures

/-! ### What a fault satisfies, if there is one -/

/-- Whatever fault comes out satisfies a property. -/
def Raises (property : ε → Prop) (result : Except ε α) : Prop :=
  ∀ fault, result = .error fault → property fault

namespace Raises

variable {property : ε → Prop}

theorem ok (value : α) : Raises property (.ok value : Except ε α) := by
  intro fault impossible
  cases impossible

theorem error {fault : ε} (holds : property fault) :
    Raises property (.error fault : Except ε α) := by
  intro found equal
  cases equal
  exact holds

theorem bind {first : Except ε α} {next : α → Except ε β}
    (start : Raises property first) (rest : ∀ value, Raises property (next value)) :
    Raises property (first >>= next) := by
  cases first with
  | error fault =>
      rw [error_bind]
      exact error (start fault rfl)
  | ok value => exact rest value

theorem map {first : Except ε α} (start : Raises property first) (change : α → β) :
    Raises property (change <$> first) := by
  cases first with
  | error fault => exact error (start fault rfl)
  | ok value => exact ok (change value)

theorem mapM {read : α → Except ε β} (each : ∀ value, Raises property (read value))
    (values : List α) : Raises property (values.mapM read) := by
  induction values with
  | nil => exact ok []
  | cons value rest induction =>
      rw [List.mapM_cons]
      exact bind (each value) fun result => bind induction fun results => ok _

end Raises

end Except

namespace EStateM

@[simp] theorem pure_apply (value : α) (state : σ) :
    (pure value : EStateM ε σ α) state = .ok value state := rfl

@[simp] theorem throw_apply (fault : ε) (state : σ) :
    (throw fault : EStateM ε σ α) state = .error fault state := rfl

@[simp] theorem get_apply (state : σ) :
    (get : EStateM ε σ σ) state = .ok state state := rfl

@[simp] theorem modify_apply (change : σ → σ) (state : σ) :
    (modify change : EStateM ε σ Unit) state = .ok () (change state) := rfl

theorem bind_apply (first : EStateM ε σ α) (next : α → EStateM ε σ β) (state : σ) :
    (first >>= next) state =
      match first state with
      | .ok value after => next value after
      | .error fault after => .error fault after := rfl

theorem ite_apply (condition : Prop) [Decidable condition]
    (consequence alternative : EStateM ε σ α) (state : σ) :
    (if condition then consequence else alternative) state =
      if condition then consequence state else alternative state := by
  split <;> rfl

theorem bind_eq_ok_iff (first : EStateM ε σ α) (next : α → EStateM ε σ β)
    (state final : σ) (result : β) :
    (first >>= next) state = .ok result final ↔
      ∃ value middle, first state = .ok value middle ∧
        next value middle = .ok result final := by
  rw [bind_apply]
  cases first state with
  | ok value middle => simp [and_assoc]
  | error fault middle => simp

theorem bind_eq_error_iff (first : EStateM ε σ α) (next : α → EStateM ε σ β)
    (state final : σ) (fault : ε) :
    (first >>= next) state = .error fault final ↔
      first state = .error fault final ∨
        ∃ value middle, first state = .ok value middle ∧
          next value middle = .error fault final := by
  rw [bind_apply]
  cases first state with
  | ok value middle => simp [and_assoc]
  | error fault middle => simp

end EStateM

end ZephirPhp
