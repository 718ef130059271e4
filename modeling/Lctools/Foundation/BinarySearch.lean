import Mathlib.Data.List.TakeDrop
import Mathlib.Data.List.TakeWhile

/-! # Binary search

In a list whose elements with a property come first, `lowerBound` finds the place of the first
element without it.
-/

namespace Lctools.BinarySearch

variable {α : Type}

/-- The loop of `std::lower_bound` over the `len` places from `first` on. -/
def lowerBoundLoop (below : ℕ → Bool) : (fuel first len : ℕ) → ℕ
  | 0, first, _ => first
  | fuel + 1, first, len =>
      if len = 0 then first
      else if below (first + len / 2) then
        lowerBoundLoop below fuel (first + len / 2 + 1) (len - len / 2 - 1)
      else lowerBoundLoop below fuel first (len / 2)

/-- `std::lower_bound`, where `p` tells the elements that are less than the value. -/
def lowerBound (p : α → Bool) (list : List α) : ℕ :=
  lowerBoundLoop (fun index => list[index]?.any p) list.length 0 list.length

/-- The elements before the point are those with the property. -/
structure Splits (p : α → Bool) (list : List α) (point : ℕ) : Prop where
  inside : point ≤ list.length
  before : ∀ index x, index < point → list[index]? = some x → p x = true
  behind : ∀ index x, point ≤ index → list[index]? = some x → p x = false

/-- The elements with the property come first. -/
def Partitioned (p : α → Bool) (list : List α) : Prop :=
  list.Pairwise fun x y => p y = true → p x = true

section Loop

variable {below : ℕ → Bool}

/-- Everything before `first` has the property and everything from the end of the range on does
not; the loop keeps this while it halves the range. -/
theorem lowerBoundLoop_splits (down : ∀ i j, i ≤ j → below j = true → below i = true) (fuel : ℕ) :
    ∀ first len, len ≤ fuel → (∀ i, i < first → below i = true) →
      (∀ i, first + len ≤ i → below i = false) →
      lowerBoundLoop below fuel first len ≤ first + len ∧
      (∀ i, i < lowerBoundLoop below fuel first len → below i = true) ∧
      ∀ i, lowerBoundLoop below fuel first len ≤ i → below i = false := by
  induction fuel with
  | zero =>
      intro first len enough before behind
      have none : len = 0 := Nat.le_zero.mp enough
      rw [none] at behind
      exact ⟨Nat.le_add_right _ _, before, behind⟩
  | succ fuel induction =>
      intro first len enough before behind
      rw [lowerBoundLoop]
      split_ifs with none here
      · rw [none] at behind
        exact ⟨Nat.le_add_right _ _, before, behind⟩
      · -- The middle has the property, and so has all that is before it.
        have left : ∀ i, i < first + len / 2 + 1 → below i = true := by
          intro i less
          exact down i (first + len / 2) (Nat.le_of_lt_succ less) here
        have right : ∀ i, first + len / 2 + 1 + (len - len / 2 - 1) ≤ i → below i = false := by
          intro i more
          exact behind i (by omega)
        rcases induction _ _ (by omega) left right with ⟨high, all, no⟩
        exact ⟨by omega, all, no⟩
      · have right : ∀ i, first + len / 2 ≤ i → below i = false := by
          intro i more
          apply Bool.of_not_eq_true
          intro less
          exact here (down _ i more less)
        rcases induction _ _ (by omega) before right with ⟨high, all, no⟩
        exact ⟨by omega, all, no⟩

end Loop

variable {p : α → Bool} {list : List α}

theorem Partitioned.down (partitioned : Partitioned p list) {i j : ℕ} (less : i ≤ j)
    (here : list[j]?.any p = true) : list[i]?.any p = true := by
  rcases Nat.eq_or_lt_of_le less with rfl | less
  · exact here
  cases found : list[j]? with
  | none =>
      rw [found] at here
      cases here
  | some y =>
      rw [found] at here
      rcases List.getElem?_eq_some_iff.mp found with ⟨inside, rfl⟩
      rw [List.getElem?_eq_getElem (by omega)]
      exact List.pairwise_iff_getElem.mp partitioned i j _ inside less here

theorem lowerBound_splits (partitioned : Partitioned p list) :
    Splits p list (lowerBound p list) := by
  have outside : ∀ i, 0 + list.length ≤ i → list[i]?.any p = false := by
    intro i more
    rw [List.getElem?_eq_none (by omega)]
    rfl
  rcases lowerBoundLoop_splits (fun i j => partitioned.down) list.length 0 list.length
    (Nat.le_refl _) (fun i less => absurd less (Nat.not_lt_zero i)) outside with ⟨high, all, no⟩
  refine ⟨by rw [lowerBound]; omega, ?_, ?_⟩
  · intro index x less found
    have holds := all index less
    rwa [found] at holds
  · intro index x more found
    have fails := no index more
    rwa [found] at fails

theorem Splits.unique {point other : ℕ} (first : Splits p list point)
    (second : Splits p list other) : point = other := by
  have impossible : ∀ low high, Splits p list low → Splits p list high → ¬low < high := by
    intro low high lower higher less
    have inside : low < list.length := Nat.lt_of_lt_of_le less higher.inside
    have found := List.getElem?_eq_getElem inside
    have holds := higher.before low _ less found
    rw [lower.behind low _ (Nat.le_refl _) found] at holds
    cases holds
  exact Nat.le_antisymm (Nat.le_of_not_lt (impossible other point second first))
    (Nat.le_of_not_lt (impossible point other first second))

/-- In a list with the elements of the property first, only the two neighbours of a point matter. -/
theorem Partitioned.splits {point : ℕ} (partitioned : Partitioned p list)
    (inside : point ≤ list.length)
    (left : ∀ x, 0 < point → list[point - 1]? = some x → p x = true)
    (right : ∀ x, list[point]? = some x → p x = false) : Splits p list point := by
  refine ⟨inside, ?_, ?_⟩
  · intro index x less found
    have last : point - 1 < list.length := by omega
    have holds := left _ (by omega) (List.getElem?_eq_getElem last)
    have here : list[index]?.any p = true := by
      apply @Partitioned.down _ _ _ partitioned index (point - 1) (by omega)
      rw [List.getElem?_eq_getElem last]
      exact holds
    rwa [found] at here
  · intro index x more found
    apply Bool.of_not_eq_true
    intro holds
    have here : list[point]?.any p = true := by
      apply partitioned.down more
      rw [found]
      exact holds
    cases first : list[point]? with
    | none =>
        rw [first] at here
        cases here
    | some y =>
        rw [first, Option.any_some, right y first] at here
        cases here

end Lctools.BinarySearch
