import Mathlib.Init

/-! # Chains of steps that may fail

Rules for a chain whose first step is known to succeed or to fail. Unfolding the
chain instead would make the kernel evaluate the first step.
-/

namespace Lctools.Fallible

variable {ε δ α β : Type} {first : Except ε α}

theorem bind_ok {value : α} (succeeds : first = .ok value) (next : α → Except ε β) :
    (first >>= next) = next value := by
  rw [succeeds]
  rfl

theorem bind_error {fault : ε} (fails : first = .error fault) (next : α → Except ε β) :
    (first >>= next) = .error fault := by
  rw [fails]
  rfl

theorem mapError_ok {value : α} (succeeds : first = .ok value) (translate : ε → δ) :
    first.mapError translate = .ok value := by
  rw [succeeds]
  rfl

theorem mapError_error {fault : ε} (fails : first = .error fault) (translate : ε → δ) :
    first.mapError translate = .error (translate fault) := by
  rw [fails]
  rfl

theorem of_bind_ok {next : α → Except ε β} {result : β} (succeeds : (first >>= next) = .ok result) :
    ∃ value, first = .ok value ∧ next value = .ok result := by
  cases first with
  | error fault => cases succeeds
  | ok value => exact ⟨value, rfl, succeeds⟩

end Lctools.Fallible
