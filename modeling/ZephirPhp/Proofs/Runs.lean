import Mathlib.Data.List.Forall2
import ZephirPhp.Proofs.Sequencing

/-! # Runs

A run of a computation ends with a value or with a fault, and in a state. A computation
moves along a relation if every run ends in a state that is related to its start. Two
computations are coupled if from related states they end alike. The rules follow how
computations are put together. Readings have no state, so two of them are compared by
their results alone.
-/

namespace ZephirPhp

/-! ## Two results side by side -/

namespace Except

variable {ε α β γ δ : Type}

/-- Two results that are related values or related faults. -/
inductive Alike (faults : ε → ε → Prop) (values : α → β → Prop) :
    Except ε α → Except ε β → Prop
  | ok {left : α} {right : β} (value : values left right) :
      Alike faults values (.ok left) (.ok right)
  | error {left right : ε} (fault : faults left right) :
      Alike faults values (.error left) (.error right)

namespace Alike

variable {faults : ε → ε → Prop} {values : α → β → Prop} {results : γ → δ → Prop}

theorem bind {first : Except ε α} {other : Except ε β} {next : α → Except ε γ}
    {otherNext : β → Except ε δ} (start : Alike faults values first other)
    (rest : ∀ left right, values left right →
      Alike faults results (next left) (otherNext right)) :
    Alike faults results (first >>= next) (other >>= otherNext) := by
  cases start with
  | ok value => exact rest _ _ value
  | error fault => exact .error fault

theorem eq_ok {value : α} {other : Except ε α}
    (alike : Alike faults Eq (.ok value) other) :
    other = .ok value := by
  cases alike with
  | ok same => rw [same]

theorem eq_error {fault : ε} {other : Except ε β}
    (alike : Alike faults values (.error fault) other) :
    ∃ otherFault, other = .error otherFault ∧ faults fault otherFault := by
  cases alike with
  | error related => exact ⟨_, rfl, related⟩

/-- The first part has the same value on both sides. -/
theorem bind_eq {first other : Except ε α} {next : α → Except ε γ}
    {otherNext : α → Except ε δ} (start : Alike faults Eq first other)
    (rest : ∀ value, Alike faults results (next value) (otherNext value)) :
    Alike faults results (first >>= next) (other >>= otherNext) := by
  refine start.bind fun value same equal => ?_
  rw [← equal]
  exact rest value

theorem mapM {read : α → Except ε γ} {otherRead : β → Except ε δ} {inputs : List α}
    {others : List β} (related : List.Forall₂ values inputs others)
    (each : ∀ left right, values left right →
      Alike faults results (read left) (otherRead right)) :
    Alike faults (List.Forall₂ results) (inputs.mapM read) (others.mapM otherRead) := by
  induction related with
  | nil => exact .ok .nil
  | cons head tail induction =>
      rw [List.mapM_cons, List.mapM_cons]
      refine .bind (each _ _ head) fun left right value => ?_
      exact .bind induction fun lefts rights rest => .ok (.cons value rest)

end Alike

end Except

namespace EStateM

variable {ε σ τ α β γ δ : Type}

/-- What a run ends with. -/
def outcome : EStateM.Result ε σ α → Except ε α
  | .ok value _ => .ok value
  | .error fault _ => .error fault

/-- The state that a run ends in, also after a fault. -/
def final : EStateM.Result ε σ α → σ
  | .ok _ state => state
  | .error _ state => state

/-! ## One run -/

/-- Every run ends in a state that is related to its start. -/
def Moves (relation : σ → σ → Prop) (action : EStateM ε σ α) : Prop :=
  ∀ state, relation state (final (action state))

theorem Moves.bind {relation : σ → σ → Prop} {first : EStateM ε σ α}
    {next : α → EStateM ε σ β}
    (trans : ∀ {one two three}, relation one two → relation two three →
      relation one three)
    (start : Moves relation first) (rest : ∀ value, Moves relation (next value)) :
    Moves relation (first >>= next) := by
  intro state
  have led := start state
  rw [bind_apply]
  cases run : first state with
  | ok value middle =>
      rw [run] at led
      exact trans led (rest value middle)
  | error fault middle =>
      rw [run] at led
      exact led

/-! ## Two runs side by side -/

/-- Two runs that end with related values or with the same fault, in related states. -/
inductive EndAlike (values : α → β → Prop) (states : σ → τ → Prop) :
    EStateM.Result ε σ α → EStateM.Result ε τ β → Prop
  | ok {left : α} {right : β} {state : σ} {other : τ} (value : values left right)
      (related : states state other) :
      EndAlike values states (.ok left state) (.ok right other)
  | error {fault : ε} {state : σ} {other : τ} (related : states state other) :
      EndAlike values states (.error fault state) (.error fault other)

/-- Two computations that end alike whenever they start in related states. -/
def Coupled (values : α → β → Prop) (states : σ → τ → Prop) (left : EStateM ε σ α)
    (right : EStateM ε τ β) : Prop :=
  ∀ state other, states state other → EndAlike values states (left state) (right other)

namespace EndAlike

variable {states : σ → τ → Prop}

theorem outcome_eq {left : EStateM.Result ε σ α} {right : EStateM.Result ε τ α}
    (alike : EndAlike Eq states left right) : outcome left = outcome right := by
  cases alike with
  | ok value related => rw [outcome, outcome, value]
  | error related => rfl

theorem final {values : α → β → Prop} {left : EStateM.Result ε σ α}
    {right : EStateM.Result ε τ β} (alike : EndAlike values states left right) :
    states (final left) (final right) := by
  cases alike with
  | ok value related => exact related
  | error related => exact related

theorem of_outcome_eq {left : EStateM.Result ε σ α} {right : EStateM.Result ε τ α}
    (same : outcome left = outcome right)
    (related : states (EStateM.final left) (EStateM.final right)) :
    EndAlike Eq states left right := by
  cases left <;> cases right <;> simp only [outcome, reduceCtorEq] at same
  · exact .ok (Except.ok.inj same) related
  · cases same
    exact .error related

end EndAlike

namespace Coupled

variable {values : α → β → Prop} {results : γ → δ → Prop} {states : σ → τ → Prop}

theorem pure {left : α} {right : β} (value : values left right) :
    Coupled values states (Pure.pure left : EStateM ε σ α) (Pure.pure right) :=
  fun _ _ related => .ok value related

theorem throw (fault : ε) :
    Coupled values states (MonadExcept.throw fault : EStateM ε σ α)
      (MonadExcept.throw fault) :=
  fun _ _ related => .error related

theorem bind {left : EStateM ε σ α} {right : EStateM ε τ β} {next : α → EStateM ε σ γ}
    {other : β → EStateM ε τ δ} (first : Coupled values states left right)
    (rest : ∀ value different, values value different →
      Coupled results states (next value) (other different)) :
    Coupled results states (left >>= next) (right >>= other) := by
  intro state second related
  have alike := first state second related
  rw [bind_apply, bind_apply]
  generalize left state = run at alike ⊢
  generalize right second = otherRun at alike ⊢
  cases alike with
  | ok value related => exact rest _ _ value _ _ related
  | error related => exact .error related

theorem bind_pure {left : EStateM ε σ α} {right : EStateM ε τ β} {change : α → γ}
    {other : β → δ} (first : Coupled values states left right)
    (holds : ∀ value different, values value different →
      results (change value) (other different)) :
    Coupled results states (left >>= fun value => Pure.pure (change value))
      (right >>= fun value => Pure.pure (other value)) :=
  first.bind fun value different related => .pure (holds value different related)

theorem map {left : EStateM ε σ α} {right : EStateM ε τ β} {change : α → γ}
    {other : β → δ} (first : Coupled values states left right)
    (holds : ∀ value different, values value different →
      results (change value) (other different)) :
    Coupled results states (change <$> left) (other <$> right) := by
  rw [map_eq_pure_bind, map_eq_pure_bind]
  exact first.bind_pure holds

end Coupled

end EStateM

end ZephirPhp
