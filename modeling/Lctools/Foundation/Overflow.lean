import Lctools.Foundation.Fallible
import Mathlib.Data.Int.Notation

/-! # Integers of a bounded type

A run that computes an integer its type cannot hold is stopped there. As long as
this does not happen, a model with unbounded integers describes the run.
-/

namespace Lctools.Overflow

inductive Stop (ε : Type) where
  /-- The type of the result cannot hold `value`. -/
  | overflow (value : ℤ)
  /-- The program itself fails. -/
  | fault (cause : ε)
  deriving DecidableEq, Repr

variable {ε α β : Type}

/-- A value computed in the type of the integers from `low` to `high`. -/
def within (low high value : ℤ) : Except (Stop ε) ℤ :=
  if low ≤ value ∧ value ≤ high then .ok value else .error (.overflow value)

def lift (result : Except ε α) : Except (Stop ε) α :=
  result.mapError .fault

/-- Every integer that was computed fits its type. -/
def Fits (result : Except (Stop ε) α) : Prop :=
  ∀ value, result ≠ .error (.overflow value)

theorem within_ok {low high value : ℤ} (lower : low ≤ value) (upper : value ≤ high) :
    within (ε := ε) low high value = .ok value :=
  if_pos ⟨lower, upper⟩

theorem within_overflow {low high value : ℤ} (above : high < value) :
    within (ε := ε) low high value = .error (.overflow value) :=
  if_neg fun inside => absurd inside.2 (Int.not_le.mpr above)

@[simp] theorem lift_ok (value : α) : lift (.ok value : Except ε α) = .ok value :=
  rfl

theorem of_lift_ok {result : Except ε α} {value : α} (computed : lift result = .ok value) :
    result = .ok value := by
  cases result with
  | error fault => cases computed
  | ok same => exact congrArg _ (Except.ok.inj computed)

theorem lift_map (change : α → β) (result : Except ε α) :
    lift (result.map change) = (lift result).map change := by
  cases result with
  | error fault => rfl
  | ok value => rfl

theorem fits_ok (value : α) : Fits (.ok value : Except (Stop ε) α) := by
  intro large overflows
  cases overflows

theorem fits_lift (result : Except ε α) : Fits (lift result) := by
  intro value overflows
  cases result with
  | error fault => cases overflows
  | ok value => cases overflows

theorem not_fits {result : Except (Stop ε) α} {value : ℤ}
    (overflows : result = .error (.overflow value)) : ¬Fits result :=
  fun fits => fits value overflows

theorem lift_bind_eq {first : Except ε α} {next : α → Except ε β}
    {checked : α → Except (Stop ε) β}
    (follows : ∀ value, first = .ok value → checked value = lift (next value)) :
    (lift first >>= checked) = lift (first >>= next) := by
  cases first with
  | error fault => rfl
  | ok value => exact follows value rfl

end Lctools.Overflow
