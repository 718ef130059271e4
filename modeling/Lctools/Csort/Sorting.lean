import Lctools.Foundation.Cells

/-! # What the sorting routines share

The operations of these modules work on unbounded indices. `Csort.Machine` computes
every index of `Mergesort`, `Quicksort` and `Heapsort` as an `int`, and tells where the
two agree.
-/

namespace Lctools.Csort

open Cells

variable {α : Type}

section Model

variable (left right : ℤ)

def swap (ori : ℤ → α) (a b : ℤ) : Except Fault (ℤ → α) := do
  let tmp ← get left right ori a
  let other ← get left right ori b
  let ori ← put left right ori a other
  put left right ori b tmp

/-- The middle index of the range; C division truncates. -/
def centor : ℤ := (left + right).tdiv 2

end Model

variable {left right : ℤ}

theorem swap_ok (ori : ℤ → α) {a b : ℤ} (aInside : left ≤ a ∧ a ≤ right)
    (bInside : left ≤ b ∧ b ≤ right) :
    swap left right ori a b = .ok (ori ∘ Equiv.swap a b) := by
  simp only [swap, get_ok ori aInside.1 aInside.2, get_ok ori bInside.1 bInside.2,
    put_ok _ _ aInside.1 aInside.2, bind, Except.bind]
  rw [put_ok _ _ bInside.1 bInside.2, update_update_eq_swap]

/-- The purpose of a sorting routine on the first `len` cells of an array. -/
def Sorts [LinearOrder α] {ε : Type} (sort : (ℤ → α) → ℕ → Except ε (ℤ → α)) (ori : ℤ → α)
    (len : ℕ) : Prop :=
  ∃ out, sort ori len = .ok out ∧ (contents len out).Perm (contents len ori) ∧
    (contents len out).Pairwise (· ≤ ·)

theorem sorts_of_rearranged [LinearOrder α] {ε : Type} {sort : (ℤ → α) → ℕ → Except ε (ℤ → α)}
    {ori out : ℤ → α} {len : ℕ} (computed : sort ori len = .ok out)
    (rearranged : Rearranged 0 (len - 1) ori out) (ascending : Ascending id 0 (len - 1) out) :
    Sorts sort ori len :=
  ⟨out, computed, rearranged.contents_perm, (contents_pairwise_iff id len out).mpr ascending⟩

end Lctools.Csort
