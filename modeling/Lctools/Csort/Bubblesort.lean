import Lctools.Csort.Insertsort
import Lctools.Csort.Sorting

/-! # `csort/Bubblesort.c`

Both `Bubblesort` and `Insertsort` exchange adjacent inversions until none is
left, so they compute the same array.
-/

namespace Lctools.Csort

open Cells Fallible StableOrder

variable {α κ : Type} [LinearOrder κ]

section Model

variable (key : α → κ) (len : ℤ)

/-- `if(ori[j] > ori[j+1])`, exchange the two. -/
def bubbleStep (ori : ℤ → α) (j : ℤ) : Except Fault (ℤ → α) := do
  let first ← get 0 (len - 1) ori j
  let second ← get 0 (len - 1) ori (j + 1)
  if key second < key first then swap 0 (len - 1) ori (j + 1) j else .ok ori

/-- `for(j = 0; j < i; j++)`, with `count` iterations left to run. -/
def bubblePass : (count j : ℕ) → (ℤ → α) → Except Fault (ℤ → α)
  | 0, _, ori => .ok ori
  | count + 1, j, ori => do
      let ori ← bubbleStep key len ori j
      bubblePass count (j + 1) ori

/-- `for(i = len-1; i > 0; i--)`. -/
def bubbleLoop : (i : ℕ) → (ℤ → α) → Except Fault (ℤ → α)
  | 0, ori => .ok ori
  | i + 1, ori => do
      let ori ← bubblePass key len (i + 1) 0 ori
      bubbleLoop i ori

end Model

def bubblesort (key : α → κ) (ori : ℤ → α) (len : ℕ) : Except Fault (ℤ → α) :=
  bubbleLoop key len (len - 1) ori

variable (key : α → κ) (len : ℤ)

theorem bubbleStep_ok (ori : ℤ → α) {j : ℤ} (nonneg : 0 ≤ j) (inside : j + 1 < len) :
    ∃ after, bubbleStep key len ori j = .ok after ∧ Bubbled key 0 (j + 1) ori after ∧
      key (ori j) ≤ key (after (j + 1)) ∧ key (after j) ≤ key (after (j + 1)) ∧
      ∀ index, index < j → after index = ori index := by
  rw [bubbleStep, bind_ok (get_ok ori (by omega) (by omega)),
    bind_ok (get_ok ori (by omega) (by omega))]
  by_cases inverted : key (ori (j + 1)) < key (ori j)
  · refine ⟨ori ∘ Equiv.swap j (j + 1), ?_, ?_, ?_, ?_, ?_⟩
    · rw [if_pos inverted, Equiv.swap_comm]
      exact swap_ok ori ⟨by omega, by omega⟩ ⟨by omega, by omega⟩
    · exact Relation.ReflTransGen.single ⟨j, nonneg, le_refl _, inverted, rfl⟩
    · simp
    · simpa using inverted.le
    · intro index below
      rw [Function.comp_apply, Equiv.swap_apply_of_ne_of_ne (by omega) (by omega)]
  · have ordered := not_lt.mp inverted
    exact ⟨ori, if_neg inverted, Bubbled.refl _ _ _, ordered, ordered, fun _ _ => rfl⟩

theorem bubblePass_ok : ∀ (count j : ℕ) (ori : ℤ → α), (j : ℤ) + count < len →
    (∀ index : ℤ, 0 ≤ index → index ≤ j → key (ori index) ≤ key (ori j)) →
    ∃ after, bubblePass key len count j ori = .ok after ∧
      Bubbled key 0 (j + count) ori after ∧
      ∀ index : ℤ, 0 ≤ index → index ≤ j + count → key (after index) ≤ key (after (j + count))
  | 0, j, ori, _, largest => by
      refine ⟨ori, rfl, Bubbled.refl _ _ _, ?_⟩
      simpa using largest
  | count + 1, j, ori, inside, largest => by
      push_cast at inside
      rcases bubbleStep_ok key len ori (Int.natCast_nonneg j) (by omega) with
        ⟨middle, stepped, firstBubbled, carried, atLast, kept⟩
      have carriedOn : ∀ index : ℤ, 0 ≤ index → index ≤ ((j + 1 : ℕ) : ℤ) →
          key (middle index) ≤ key (middle ((j + 1 : ℕ) : ℤ)) := by
        intro index nonneg atMost
        push_cast at atMost ⊢
        by_cases below : index < j
        · rw [kept index below]
          exact (largest index nonneg (by omega)).trans carried
        · by_cases here : index = j
          · rw [here]
            exact atLast
          · have last : index = j + 1 := by omega
            rw [last]
      rcases bubblePass_ok count (j + 1) middle (by push_cast; omega) carriedOn with
        ⟨after, computed, restBubbled, top⟩
      have total : (((j + 1 : ℕ) : ℤ) + count) = j + (count + 1 : ℕ) := by
        push_cast
        omega
      rw [total] at restBubbled top
      refine ⟨after, ?_, (firstBubbled.widen (le_refl _) (by push_cast; omega)).trans
        restBubbled, top⟩
      rw [bubblePass, bind_ok stepped]
      exact computed

/-- Invariant of the outer loop: the cells above `i` are settled. -/
theorem bubbleLoop_ok : ∀ (i : ℕ) (ori : ℤ → α), (i : ℤ) ≤ len - 1 →
    Settled key 0 i (len - 1) ori →
    ∃ after, bubbleLoop key len i ori = .ok after ∧ Bubbled key 0 (len - 1) ori after ∧
      Ascending key 0 (len - 1) after
  | 0, ori, _, settled => ⟨ori, rfl, Bubbled.refl _ _ _, settled.ascending⟩
  | i + 1, ori, inside, settled => by
      push_cast at inside
      have first : ∀ index : ℤ, 0 ≤ index → index ≤ ((0 : ℕ) : ℤ) →
          key (ori index) ≤ key (ori ((0 : ℕ) : ℤ)) := by
        intro index nonneg atMost
        push_cast at atMost ⊢
        have root : index = 0 := by omega
        rw [root]
      rcases bubblePass_ok key len (i + 1) 0 ori (by push_cast; omega) first with
        ⟨middle, passed, firstBubbled, largest⟩
      rw [Int.natCast_zero, Int.zero_add] at firstBubbled largest
      have lowered := settled.extend firstBubbled.rearranged largest
      have next : (((i + 1 : ℕ) : ℤ) - 1) = i := by
        push_cast
        omega
      rw [next] at lowered
      rcases bubbleLoop_ok i middle (by omega) lowered with
        ⟨after, computed, restBubbled, ascending⟩
      refine ⟨after, ?_, (firstBubbled.widen (le_refl _) (by push_cast; omega)).trans
        restBubbled, ascending⟩
      rw [bubbleLoop, bind_ok passed]
      exact computed

theorem bubblesort_ok (key : α → κ) (ori : ℤ → α) (len : ℕ) :
    ∃ after, bubblesort key ori len = .ok after ∧ Bubbled key 0 (len - 1) ori after ∧
      Ascending key 0 (len - 1) after := by
  cases len with
  | zero =>
      refine ⟨ori, rfl, Bubbled.refl _ _ _, ?_⟩
      intro lower upper lowerInside ordered upperInside
      push_cast at upperInside
      omega
  | succ last =>
      apply bubbleLoop_ok key
      · push_cast
        omega
      · intro lower upper lowerInside ordered above upperInside
        push_cast at above upperInside
        omega

/-- `Bubblesort` and `Insertsort` end with the identical array, whose elements
are the one stable ascending rearrangement of the input. -/
theorem bubblesort_agrees_insertsort (key : α → κ) (ori : ℤ → α) (len : ℕ) :
    ∃ out, bubblesort key ori len = .ok out ∧ insertsort key 0 len ori = .ok out ∧
      StablySorted key (contents len ori) (contents len out) ∧
      (contents len out).Perm (contents len ori) ∧
      ∀ other, StablySorted key (contents len ori) other → other = contents len out := by
  rcases bubblesort_ok key ori len with ⟨out, bubbleOk, bubbled, ascending⟩
  rcases insertsort_ok key 0 len ori with ⟨inserted, insertOk, -, insertAscending⟩
  have insertBubbled := insertsort_bubbled insertOk
  rw [Int.zero_add] at insertBubbled insertAscending
  have sorted := bubbled.stablySorted ascending
  have same : inserted = out :=
    insertBubbled.rearranged.eq_of_contents bubbled.rearranged
      (sorted.unique (insertBubbled.stablySorted insertAscending))
  rw [same] at insertOk
  exact ⟨out, bubbleOk, insertOk, sorted, sorted.perm, fun other also => sorted.unique also⟩

end Lctools.Csort
