import Lctools.Csort.Sorting
import Lctools.Foundation.Fallible

/-! # `csort/Bucketsort.c`

The array has `N` elements and `max` buckets are allocated, one too few for the
largest element. The allocation is taken to succeed; the source does not check
it.
-/

namespace Lctools.Csort

open Cells Fallible

/-! ## The program -/

section Model

variable (A : ℤ → ℤ) (N : ℕ)

/-- `for(i = 1; i < N; i++)` of `GetMax`, with `count` iterations left to run. -/
def getMaxLoop : (count i : ℕ) → (max : ℤ) → Except Fault ℤ
  | 0, _, max => .ok max
  | count + 1, i, max => do
      let value ← get 0 (N - 1) A i
      getMaxLoop count (i + 1) (if max < value then value else max)

/-- `GetMax(A, N)`. -/
def getMax : Except Fault ℤ := do
  let first ← get 0 (N - 1) A 0
  getMaxLoop A N (N - 1) 1 first

/-- `for(i = 0; i < N; i++) buckets[A[i]] = A[i];`, with `count` iterations left
to run. -/
def fillLoop (max : ℤ) : (count i : ℕ) → (buckets : ℤ → ℤ) → Except Fault (ℤ → ℤ)
  | 0, _, buckets => .ok buckets
  | count + 1, i, buckets => do
      let value ← get 0 (N - 1) A i
      let buckets ← put 0 (max - 1) buckets value value
      fillLoop max count (i + 1) buckets

/-- `for(i = 0; i < max; i++)`, with `count` iterations left to run: the used
buckets are copied back in order. -/
def collectLoop (max : ℤ) (buckets : ℤ → ℤ) : (count i j : ℕ) → (A : ℤ → ℤ) →
    Except Fault (ℤ → ℤ)
  | 0, _, _, A => .ok A
  | count + 1, i, j, A => do
      let value ← get 0 (max - 1) buckets i
      if value ≠ -1 then
        let A ← put 0 (N - 1) A j value
        collectLoop max buckets count (i + 1) (j + 1) A
      else
        collectLoop max buckets count (i + 1) j A

def bucketsort : Except Fault (ℤ → ℤ) := do
  let max ← getMax A N
  let buckets ← fillLoop A N max N 0 fun _ => -1
  collectLoop N max buckets max.toNat 0 0 A

end Model

/-! ## The largest element -/

/-- `max` is the largest of the first `N` elements of `A`. -/
structure Largest (A : ℤ → ℤ) (N : ℕ) (max : ℤ) : Prop where
  bound : ∀ index : ℕ, index < N → A index ≤ max
  attained : ∃ index : ℕ, index < N ∧ A index = max

theorem getMaxLoop_ok (A : ℤ → ℤ) (N : ℕ) : ∀ (count i : ℕ) (max : ℤ), i + count = N →
    Largest A i max → ∃ out, getMaxLoop A N count i max = .ok out ∧ Largest A N out
  | 0, i, max, total, largest => by
      have all : i = N := by omega
      rw [all] at largest
      exact ⟨max, rfl, largest⟩
  | count + 1, i, max, total, largest => by
      rcases largest with ⟨bound, source, below, attained⟩
      rw [getMaxLoop, bind_ok (get_ok A (by omega) (by omega))]
      apply getMaxLoop_ok A N count (i + 1) _ (by omega)
      by_cases larger : max < A i
      · rw [if_pos larger]
        refine ⟨?_, i, by omega, rfl⟩
        intro index inside
        by_cases last : index = i
        · rw [last]
        · exact (bound index (by omega)).trans larger.le
      · rw [if_neg larger]
        refine ⟨?_, source, by omega, attained⟩
        intro index inside
        by_cases last : index = i
        · rw [last]
          exact not_lt.mp larger
        · exact bound index (by omega)

theorem getMax_ok (A : ℤ → ℤ) {N : ℕ} (nonempty : 1 ≤ N) :
    ∃ max, getMax A N = .ok max ∧ Largest A N max := by
  rw [getMax, bind_ok (get_ok A (le_refl 0) (by omega))]
  apply getMaxLoop_ok A N (N - 1) 1 (A 0) (by omega)
  refine ⟨?_, 0, by omega, by simp⟩
  intro index inside
  have first : index = 0 := by omega
  rw [first]
  exact le_refl _

/-! ## The bucket that is missing -/

/-- The filling loop leaves the buckets at the first largest element it meets. -/
theorem fillLoop_outside {A : ℤ → ℤ} {N : ℕ} {max : ℤ}
    (positive : ∀ index : ℕ, index < N → 0 < A index) (largest : Largest A N max) :
    ∀ (count i : ℕ) (buckets : ℤ → ℤ), i + count = N →
    (∃ index : ℕ, i ≤ index ∧ index < N ∧ A index = max) →
    fillLoop A N max count i buckets = .error (.outside max 0 (max - 1))
  | 0, i, _, total, ahead => by
      rcases ahead with ⟨index, above, below, -⟩
      omega
  | count + 1, i, buckets, total, ahead => by
      have valuePositive := positive i (by omega)
      have valueBound := largest.bound i (by omega)
      rw [fillLoop, bind_ok (get_ok A (by omega) (by omega))]
      by_cases here : A i = max
      · have refused : put 0 (max - 1) buckets (A i) (A i) = .error (.outside max 0 (max - 1)) := by
          rw [here]
          exact if_neg (by omega)
        exact bind_error refused _
      · rw [bind_ok (put_ok buckets _ (by omega) (by omega))]
        apply fillLoop_outside positive largest count (i + 1) _ (by omega)
        rcases ahead with ⟨index, above, below, equal⟩
        have later : index ≠ i := by
          rintro rfl
          exact here equal
        exact ⟨index, by omega, below, equal⟩

/-- `Bucketsort` sorts no array of positive integers: the largest element has no
bucket, and it is written behind the allocated ones. -/
theorem bucketsort_never_sorts (A : ℤ → ℤ) (N : ℕ) (nonempty : 1 ≤ N)
    (positive : ∀ index : ℕ, index < N → 0 < A index) :
    (∃ max, Largest A N max ∧ bucketsort A N = .error (.outside max 0 (max - 1))) ∧
      ¬Sorts bucketsort A N := by
  rcases getMax_ok A nonempty with ⟨max, maxOk, largest⟩
  have ahead : ∃ index : ℕ, 0 ≤ index ∧ index < N ∧ A index = max := by
    rcases largest.attained with ⟨index, inside, equal⟩
    exact ⟨index, by omega, inside, equal⟩
  have fails : bucketsort A N = .error (.outside max 0 (max - 1)) := by
    rw [bucketsort, bind_ok maxOk]
    exact bind_error (fillLoop_outside positive largest N 0 _ (by omega) ahead) _
  refine ⟨⟨max, largest, fails⟩, ?_⟩
  rintro ⟨out, computed, -⟩
  rw [fails] at computed
  cases computed

theorem bucketsort_never_sorts_at_21 :
    (1 ≤ 2 ∧ ∀ index : ℕ, index < 2 → (0 : ℤ) < [2, 1].getD (index : ℤ).toNat 1) ∧
      ¬Sorts bucketsort (fun index => [2, 1].getD index.toNat 1) 2 :=
  ⟨⟨by decide, by decide⟩, (bucketsort_never_sorts _ 2 (by decide) (by decide)).2⟩

/-- For the single element `1` one bucket is allocated, and bucket `1` is written. -/
theorem bucketsort_fails_on_1 : ¬Sorts bucketsort (fun _ => 1) 1 := by
  rintro ⟨out, computed, -⟩
  have result : (bucketsort (fun _ => 1) 1).map (contents 1) = .error (.outside 1 0 0) := by
    decide
  rw [computed] at result
  cases result

end Lctools.Csort
