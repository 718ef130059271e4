import Lctools.Csort.Lengths

/-! # `Heapsort` on arrays of any `int` length -/

namespace Lctools.Csort.Machine

open Cells Fallible Overflow

theorem heapsort_sorts_of_length {len : ℕ} (positive : 1 ≤ len) (short : len ≤ 2 ^ 30)
    (ori : ℤ → ℤ) : Sorts heapsort ori len := by
  rcases heapsort_ok ori len positive with ⟨out, computed, moved, ascending⟩
  have run : heapsort ori len = .ok out := by
    rw [heapsort_eq ori short, computed, lift_ok]
  exact sorts_of_rearranged run moved ascending

theorem not_heapsort_sorts {len : ℕ} (long : 2 ^ 30 < len) (range : len ≤ 2 ^ 31 - 1) :
    ¬Sorts heapsort (oneAt (len - 1)) len := by
  rintro ⟨out, computed, -⟩
  apply heapsort_oneAt long range
  rw [computed]
  exact fits_ok out

/-- `Heapsort` sorts every array of a length exactly when that length is at most `2 ^ 30`. -/
theorem heapsort_sorts_iff {len : ℕ} (positive : 1 ≤ len) (range : len ≤ 2 ^ 31 - 1) :
    (∀ ori : ℤ → ℤ, Sorts heapsort ori len) ↔ len ≤ 2 ^ 30 := by
  constructor
  · intro sorts
    by_contra long
    exact not_heapsort_sorts (Nat.lt_of_not_le long) range (sorts _)
  · exact fun short ori => heapsort_sorts_of_length positive short ori

theorem heapsort_sorts_million :
    1 ≤ 1000000 ∧ 1000000 ≤ 2 ^ 31 - 1 ∧ ∀ ori : ℤ → ℤ, Sorts heapsort ori 1000000 :=
  ⟨by omega, by omega, (heapsort_sorts_iff (by omega) (by omega)).mpr (by omega)⟩

/-- The last of `2 ^ 30 + 1` elements is the greatest one, and the node above it sinks
to its place. -/
theorem heapsort_fails_at_last_leaf : ¬Sorts heapsort (oneAt (2 ^ 30)) (2 ^ 30 + 1) := by
  have last : ((2 ^ 30 + 1 : ℕ) : ℤ) - 1 = 2 ^ 30 := by omega
  have fails := not_heapsort_sorts (show 2 ^ 30 < 2 ^ 30 + 1 by omega) (by omega)
  rw [last] at fails
  exact fails

/-! ## Staying inside the array -/

/-- No access of the run is outside of its array. An index that overflows counts as
outside: what is left of `2 * i + 1` then is negative, and `ori` is read there. -/
def StaysInside {β : Type} (result : Except (Stop Fault) β) : Prop :=
  Fits result ∧ ∀ index left right, result ≠ .error (.fault (.outside index left right))

/-- `Heapsort` stays inside every array of a length exactly when that length is from one
to `2 ^ 30`, and then it returns. -/
theorem heapsort_stays_inside_iff {len : ℕ} (range : len ≤ 2 ^ 31 - 1) :
    ((∀ ori : ℤ → ℤ, StaysInside (heapsort ori len)) ↔ 1 ≤ len ∧ len ≤ 2 ^ 30) ∧
    (1 ≤ len → len ≤ 2 ^ 30 → ∀ ori : ℤ → ℤ, ∃ out, heapsort ori len = .ok out) := by
  have returns : 1 ≤ len → len ≤ 2 ^ 30 → ∀ ori : ℤ → ℤ, ∃ out, heapsort ori len = .ok out := by
    intro positive short ori
    rcases heapsort_sorts_of_length positive short ori with ⟨out, computed, -⟩
    exact ⟨out, computed⟩
  refine ⟨⟨?_, ?_⟩, returns⟩
  · intro inside
    constructor
    · by_contra empty
      have noElement : len = 0 := by omega
      subst noElement
      apply (inside fun _ => 0).2 0 0 (-1)
      rw [heapsort_eq _ (by omega), heapsort_empty]
      rfl
    · by_contra long
      exact heapsort_oneAt (Nat.lt_of_not_le long) range (inside _).1
  · rintro ⟨positive, short⟩ ori
    rcases returns positive short ori with ⟨out, computed⟩
    rw [computed]
    refine ⟨fits_ok out, ?_⟩
    intro index left right outside
    cases outside

theorem heapsort_inside_million :
    1000000 ≤ 2 ^ 31 - 1 ∧ ∀ ori : ℤ → ℤ, StaysInside (heapsort ori 1000000) :=
  ⟨by omega, (heapsort_stays_inside_iff (by omega)).1.mpr ⟨by omega, by omega⟩⟩

/-- With no element at all, `ori[0]` is read. -/
theorem heapsort_leaves_the_empty_array : ¬StaysInside (heapsort (fun _ => (0 : ℤ)) 0) := by
  intro inside
  apply inside.2 0 0 (-1)
  rw [heapsort_eq _ (by omega), heapsort_empty]
  rfl

end Lctools.Csort.Machine
