import Lctools.Csort.Lengths

/-! # `Mergesort` on arrays of any `int` length -/

namespace Lctools.Csort.Machine

open Cells Fallible Overflow StableOrder

section Lengths

variable {α κ : Type} [LinearOrder κ] (key : α → κ) (tmpA ori : ℤ → α) {len : ℕ}

theorem mergesort_ok_of_length (short : len ≤ 2 ^ 30 + 1) :
    ∃ out, mergesort key (some tmpA) ori len = .ok out ∧
      StablySorted key (contents len ori).reverse (contents len out) := by
  rcases mergesort_ok key tmpA ori len with ⟨out, computed, sorted⟩
  refine ⟨out, ?_, sorted⟩
  rw [mergesort_eq key (some tmpA) ori short, computed, lift_ok]

theorem length_of_mergesort_ok (range : len ≤ 2 ^ 31 - 1) {out : ℤ → α}
    (computed : mergesort key (some tmpA) ori len = .ok out) : len ≤ 2 ^ 30 + 1 := by
  apply (mergesort_fits_iff key tmpA ori range).mp
  rw [computed]
  exact fits_ok out

end Lengths

/-- Once its scratch array is allocated, `Mergesort` sorts an array exactly when it has at
most `2 ^ 30 + 1` elements. A returned array says too that neither array was left. -/
theorem mergesort_sorts_iff (tmpA ori : ℤ → ℤ) {len : ℕ} (range : len ≤ 2 ^ 31 - 1) :
    Sorts (mergesort id (some tmpA)) ori len ↔ len ≤ 2 ^ 30 + 1 := by
  constructor
  · rintro ⟨out, computed, -⟩
    exact length_of_mergesort_ok id tmpA ori range computed
  · intro short
    rcases mergesort_ok_of_length id tmpA ori short with ⟨out, computed, sorted⟩
    exact ⟨out, computed, sorted.perm.trans (List.reverse_perm _), sorted.ascending⟩

theorem mergesort_sorts_million :
    1000000 ≤ 2 ^ 31 - 1 ∧
      Sorts (mergesort id (some fun _ => (0 : ℤ))) (fun index => -index) 1000000 :=
  ⟨by omega, (mergesort_sorts_iff _ _ (by omega)).mpr (by omega)⟩

/-- The last call with several elements adds `2 ^ 30` and `2 ^ 30 + 1`. -/
theorem mergesort_fails_on_zeros :
    ¬Sorts (mergesort id (some fun _ => (0 : ℤ))) (fun _ => 0) (2 ^ 30 + 2) := by
  rintro ⟨out, computed, -⟩
  have short := length_of_mergesort_ok id _ _ (show 2 ^ 30 + 2 ≤ 2 ^ 31 - 1 by omega) computed
  omega

/-! ## Stability -/

/-- `Mergesort` keeps elements of equal keys in their order exactly when the array has at
most `2 ^ 30 + 1` elements and those of each key read the same in reverse. -/
theorem mergesort_stable_iff {α κ : Type} [LinearOrder κ] (key : α → κ) (tmpA ori : ℤ → α)
    {len : ℕ} (range : len ≤ 2 ^ 31 - 1) :
    (∃ out, mergesort key (some tmpA) ori len = .ok out ∧
      ∀ k, group key k (contents len out) = group key k (contents len ori)) ↔
    len ≤ 2 ^ 30 + 1 ∧
      ∀ k, (group key k (contents len ori)).reverse = group key k (contents len ori) := by
  constructor
  · rintro ⟨out, computed, kept⟩
    have short := length_of_mergesort_ok key tmpA ori range computed
    refine ⟨short, ?_⟩
    intro k
    rcases mergesort_ok_of_length key tmpA ori short with ⟨out', computed', sorted⟩
    rw [computed] at computed'
    cases computed'
    rw [← group_reverse, ← sorted.groups, kept]
  · rintro ⟨short, symmetric⟩
    rcases mergesort_ok_of_length key tmpA ori short with ⟨out, computed, sorted⟩
    refine ⟨out, computed, ?_⟩
    intro k
    rw [sorted.groups, group_reverse, symmetric]

/-- The two elements with the key `2` are alike. -/
theorem mergesort_stable_at_three :
    3 ≤ 2 ^ 31 - 1 ∧ ∃ out, mergesort Prod.fst (some fun _ => (0, 0))
        (fun index => [(2, 7), (1, 8), (2, 7)].getD index.toNat ((0, 0) : ℕ × ℕ)) 3 = .ok out ∧
      ∀ k, group Prod.fst k (contents 3 out) = group Prod.fst k (contents 3
        fun index => [(2, 7), (1, 8), (2, 7)].getD index.toNat ((0, 0) : ℕ × ℕ)) := by
  refine ⟨by omega, (mergesort_stable_iff _ _ _ (by omega)).mpr ⟨by omega, ?_⟩⟩
  intro k
  have listed : contents 3 (fun index => [(2, 7), (1, 8), (2, 7)].getD index.toNat
      ((0, 0) : ℕ × ℕ)) = [(2, 7), (1, 8), (2, 7)] := rfl
  rw [listed]
  by_cases two : k = 2
  · subst two
    rfl
  · by_cases one : k = 1
    · subst one
      rfl
    · have none : group Prod.fst k [(2, 7), (1, 8), (2, 7)] = [] := by
        rw [group, List.filter_eq_nil_iff]
        intro element member
        simp only [List.mem_cons, List.not_mem_nil, or_false] at member
        rcases member with rfl | rfl | rfl <;> simp [Ne.symm two, Ne.symm one]
      rw [none]
      rfl

/-- Two elements with the same key change places. -/
theorem mergesort_exchanges_equal_keys :
    ¬∃ out, mergesort Prod.fst (some fun _ => (0, 0))
        (fun index => [(1, 1), (1, 2)].getD index.toNat ((0, 0) : ℕ × ℕ)) 2 = .ok out ∧
      ∀ k, group Prod.fst k (contents 2 out) = group Prod.fst k
        (contents 2 fun index => [(1, 1), (1, 2)].getD index.toNat ((0, 0) : ℕ × ℕ)) := by
  rintro ⟨out, computed, kept⟩
  have result : (Csort.mergesort Prod.fst (some fun _ => (0, 0))
      (fun index => [(1, 1), (1, 2)].getD index.toNat ((0, 0) : ℕ × ℕ)) 2).map (contents 2) =
        .ok [(1, 2), (1, 1)] := by
    decide
  rw [mergesort_eq _ _ _ (by omega)] at computed
  rw [of_lift_ok computed] at result
  have exchanged := kept 1
  rw [Except.ok.inj result] at exchanged
  revert exchanged
  decide

end Lctools.Csort.Machine
