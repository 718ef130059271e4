import Lctools.Csort.Machine

/-! # The lengths that the sorting routines can handle

An array may have up to `2 ^ 31 - 1` elements, but sums of two indices and the
children of a heap node go beyond that. Which lengths are safe is settled here for
`Mergesort`, `Quicksort` and `Heapsort`.
-/

namespace Lctools.Csort.Machine

open Cells Fallible Overflow

/-! ## Runs that overflow -/

theorem int_overflow {value : ℤ} (above : 2 ^ 31 - 1 < value) :
    int value = .error (.overflow value) :=
  within_overflow above

theorem centor_overflow {left right : ℤ} (above : 2 ^ 31 - 1 < left + right) :
    centor left right = .error (.overflow (left + right)) := by
  rw [centor, bind_error (int_overflow above)]

theorem lift_get_ok {α : Type} {left right index : ℤ} (cells : ℤ → α) (lower : left ≤ index)
    (upper : index ≤ right) : lift (get left right cells index) = .ok (cells index) := by
  rw [get_ok cells lower upper, lift_ok]

theorem lift_put_ok {α : Type} {left right index : ℤ} (cells : ℤ → α) (value : α)
    (lower : left ≤ index) (upper : index ≤ right) :
    lift (put left right cells index value) = .ok (Function.update cells index value) := by
  rw [put_ok cells value lower upper, lift_ok]

section Heapsort

variable {α : Type} [LinearOrder α] {ori : ℤ → α} {len : ℤ}

/-- The children of a node from `2 ^ 30` on have no `int` index, and the loop asks
for them before it compares with the length. -/
theorem perceLoop_overflow {size : ℤ} (tmp : α) (budget : ℕ) (ori : ℤ → α) {i : ℤ}
    (large : 2 ^ 30 ≤ i) :
    perceLoop id size len tmp (budget + 1) ori i = .error (.overflow (2 * i)) := by
  have doubled : leftChild i = .error (.overflow (2 * i)) := by
    rw [leftChild, bind_error (int_overflow (by omega))]
  rw [perceLoop, bind_error doubled]

theorem perceDownMax_leaf {pos : ℤ} (nonneg : 0 ≤ pos) (small : pos < 2 ^ 30)
    (inside : pos < len) (leaf : len ≤ 2 * pos + 1) :
    perceDownMax len ori pos len = .ok ori := by
  have stays : perceLoop id len len (ori pos) (len.toNat + 1) ori pos = .ok (ori, pos) := by
    rw [perceLoop, bind_ok (leftChild_ok nonneg small)]
    exact if_neg (Int.not_lt.mpr leaf)
  rw [perceDownMax, perceDown, bind_ok (lift_get_ok ori nonneg (by omega)), bind_ok stays]
  dsimp only
  rw [lift_put_ok ori (ori pos) nonneg (by omega), Function.update_eq_self]

variable (greatest : ∀ index, 0 ≤ index → index < len - 1 → ori index < ori (len - 1))

include greatest

theorem largerChild_last {parent : ℤ} (nonneg : 0 ≤ parent) (small : parent < 2 ^ 30)
    (fits : len ≤ 2 ^ 31 - 1) (isParent : len = 2 * parent + 2 ∨ len = 2 * parent + 3) :
    largerChild id len len ori parent = .ok (len - 1) := by
  have child : Csort.leftChild parent = 2 * parent + 1 := rfl
  rw [largerChild, bind_ok (leftChild_ok nonneg small), bind_ok (int_ok (by omega) (by omega))]
  cases isParent with
  | inl single =>
      rw [if_neg (by omega), child, single]
      congr 1
      omega
  | inr both =>
      have last : Csort.leftChild parent + 1 = len - 1 := by omega
      rw [if_pos (by omega), bind_ok (lift_get_ok ori (by omega) (by omega)),
        bind_ok (int_ok (by omega) (by omega)), last,
        bind_ok (lift_get_ok ori (by omega) (by omega))]
      exact (if_pos (greatest _ (by omega) (by omega))).trans (int_ok (by omega) (by omega))

theorem perceDownMax_overflow {parent : ℤ} (nonneg : 0 ≤ parent) (large : 2 ^ 30 < len)
    (fits : len ≤ 2 ^ 31 - 1) (isParent : len = 2 * parent + 2 ∨ len = 2 * parent + 3) :
    perceDownMax len ori parent len = .error (.overflow (2 * (len - 1))) := by
  have small : parent < 2 ^ 30 := by omega
  have child : Csort.leftChild parent = 2 * parent + 1 := rfl
  have less : ori parent < ori (len - 1) := greatest parent nonneg (by omega)
  obtain ⟨budget, enough⟩ : ∃ budget, len.toNat = budget + 1 := ⟨len.toNat - 1, by omega⟩
  have sinks : perceLoop id len len (ori parent) (len.toNat + 1) ori parent =
      .error (.overflow (2 * (len - 1))) := by
    rw [perceLoop, bind_ok (leftChild_ok nonneg small), if_pos (by omega),
      bind_ok (largerChild_last greatest nonneg small fits isParent),
      bind_ok (lift_get_ok ori (by omega) (by omega)),
      if_pos (show id (ori parent) < id (ori (len - 1)) from less),
      bind_ok (lift_put_ok ori _ nonneg (by omega)), enough]
    exact perceLoop_overflow _ budget _ (by omega)
  rw [perceDownMax, perceDown, bind_ok (lift_get_ok ori nonneg (by omega)), bind_error sinks]

end Heapsort

theorem heapsort_overflow {α : Type} [LinearOrder α] {ori : ℤ → α} {len : ℕ}
    (large : 2 ^ 30 < len) (fits : len ≤ 2 ^ 31 - 1)
    (greatest : ∀ index : ℤ, 0 ≤ index → index < len - 1 → ori index < ori (len - 1)) :
    heapsort ori len = .error (.overflow (2 * (len - 1))) := by
  obtain ⟨parent, half⟩ : ∃ parent, len / 2 = parent + 1 := ⟨len / 2 - 1, by omega⟩
  -- The first node of the loop is a leaf, the second one the parent of the last cell.
  have leaf : perceDownMax (len : ℤ) ori ((parent + 1 : ℕ) : ℤ) len = .ok ori :=
    perceDownMax_leaf (by omega) (by omega) (by omega) (by omega)
  have sinks : perceDownMax (len : ℤ) ori (parent : ℤ) len =
      .error (.overflow (2 * (len - 1))) :=
    perceDownMax_overflow greatest (by omega) (by omega) (by omega) (by omega)
  rw [heapsort, half, buildLoop, bind_ok leaf, bind_ok (int_ok (by omega) (by omega)), buildLoop,
    bind_error sinks]
  rfl

section Mergesort

variable {α κ : Type} [LinearOrder κ] (key : α → κ) {len : ℤ} (fits : len ≤ 2 ^ 31 - 1)

include fits

theorem merge_succeeds (ori tmpA : ℤ → α) {left middle right : ℤ} (nonneg : 0 ≤ left)
    (leftLe : left ≤ middle) (middleLt : middle < right) (inside : right < len) :
    ∃ arrays, merge key len ori tmpA left (middle + 1) right = .ok arrays := by
  obtain ⟨lefts, leftsEq⟩ : ∃ lefts : ℕ, left + lefts = middle + 1 :=
    ⟨(middle + 1 - left).toNat, by omega⟩
  obtain ⟨rights, rightsEq⟩ : ∃ rights : ℕ, middle + 1 + rights = right + 1 :=
    ⟨(right - middle).toNat, by omega⟩
  obtain ⟨after, filled, mergeOk, -⟩ := merge_ok key len ori tmpA nonneg leftsEq rightsEq inside
  use (after, filled)
  rw [merge_eq key fits ori tmpA left (by omega) (by omega), mergeOk, lift_ok]

/-- `Msort` either sorts or overflows. The calls for the right halves get ever closer
to `right`, up to a range of two or three elements, so that it does not sort where
`2 * right - 2` is too large. -/
theorem msort_ok_or_overflow : ∀ (budget : ℕ) (ori tmpA : ℤ → α) (left right : ℤ), 0 ≤ left →
    left ≤ right + 1 → right < len → right - left + 1 < budget →
    (∃ arrays, msort key len budget ori tmpA left right = .ok arrays ∧
      (left < right → 2 * right - 2 ≤ 2 ^ 31 - 1)) ∨
      ∃ value, msort key len budget ori tmpA left right = .error (.overflow value)
  | 0, _, _, _, _, _, sized, _, enough => by
      push_cast at enough
      omega
  | budget + 1, ori, tmpA, left, right, nonneg, sized, inside, enough => by
      push_cast at enough
      rw [msort]
      split_ifs with several
      · by_cases small : left + right ≤ 2 ^ 31 - 1
        · have split := centor_split nonneg several
          have middle : Csort.centor left right = (left + right) / 2 :=
            Int.tdiv_eq_ediv_of_nonneg (by omega)
          rw [bind_ok (centor_ok nonneg (by omega) small)]
          obtain ⟨⟨lower, lowerTmp⟩, lowerOk, -⟩ | ⟨value, lowerOverflow⟩ :=
            msort_ok_or_overflow budget ori tmpA left (Csort.centor left right) nonneg (by omega)
              (by omega) (by omega)
          · rw [bind_ok lowerOk]
            dsimp only
            rw [bind_ok (int_ok (by omega) (by omega))]
            obtain ⟨⟨upper, upperTmp⟩, upperOk, bounded⟩ | ⟨value, upperOverflow⟩ :=
              msort_ok_or_overflow budget lower lowerTmp (Csort.centor left right + 1) right
                (by omega) (by omega) inside (by omega)
            · obtain ⟨arrays, mergeOk⟩ :=
                merge_succeeds key fits upper upperTmp nonneg split.1 split.2 inside
              rw [bind_ok upperOk]
              dsimp only
              rw [bind_ok (int_ok (by omega) (by omega))]
              exact .inl ⟨arrays, mergeOk, fun _ => by omega⟩
            · exact .inr ⟨value, bind_error upperOverflow _⟩
          · exact .inr ⟨value, bind_error lowerOverflow _⟩
        · exact .inr ⟨left + right, bind_error (centor_overflow (by omega)) _⟩
      · exact .inl ⟨(ori, tmpA), rfl, fun ordered => absurd ordered several⟩

end Mergesort

/-- Which elements the array holds makes no difference to `Mergesort`. -/
theorem mergesort_fits_iff {α κ : Type} [LinearOrder κ] (key : α → κ) (tmpA ori : ℤ → α)
    {len : ℕ} (range : len ≤ 2 ^ 31 - 1) :
    Fits (mergesort key (some tmpA) ori len) ↔ len ≤ 2 ^ 30 + 1 := by
  constructor
  · intro fits
    obtain ⟨arrays, -, bounded⟩ | ⟨value, overflows⟩ :=
      msort_ok_or_overflow key (show (len : ℤ) ≤ 2 ^ 31 - 1 by omega) (len + 1) ori tmpA 0
        (len - 1) (by omega) (by omega) (by omega) (by omega)
    · omega
    · refine absurd ?_ (fits value)
      rw [mergesort, bind_ok (int_ok (by omega) (by omega)), bind_error overflows]
  · intro small
    rw [mergesort_eq key (some tmpA) ori small]
    exact fits_lift _

/-! ## Which lengths are safe -/

/-- Whatever an array of `len` elements holds, every index that the three routines
compute for it is an `int`. -/
def IndicesFit (len : ℕ) : Prop :=
  ∀ (ori : ℤ → ℤ) (tmpA : Option (ℤ → ℤ)),
    Fits (mergesort id tmpA ori len) ∧ Fits (quicksort ori len) ∧ Fits (heapsort ori len)

/-- Zeros, except for a one at `last`. -/
def oneAt (last : ℤ) : ℤ → ℤ :=
  fun index => if index = last then 1 else 0

theorem heapsort_oneAt {len : ℕ} (large : 2 ^ 30 < len) (range : len ≤ 2 ^ 31 - 1) :
    ¬Fits (heapsort (oneAt (len - 1)) len) := by
  apply not_fits
  apply heapsort_overflow large range
  intro index nonneg before
  have zero : oneAt (len - 1) index = 0 := if_neg (by omega)
  have one : oneAt (len - 1) (len - 1) = 1 := if_pos rfl
  rw [zero, one]
  exact Int.zero_lt_one

/-- `Heapsort` is the first of the three to overflow. -/
theorem indicesFit_iff {len : ℕ} (range : len ≤ 2 ^ 31 - 1) :
    IndicesFit len ↔ len ≤ 2 ^ 30 := by
  constructor
  · intro fits
    by_contra large
    exact heapsort_oneAt (Nat.lt_of_not_le large) range (fits (oneAt (len - 1)) none).2.2
  · intro small ori tmpA
    rw [mergesort_eq id tmpA ori (by omega), quicksort_eq ori (by omega), heapsort_eq ori small]
    exact ⟨fits_lift _, fits_lift _, fits_lift _⟩

theorem indicesFit_million : 1000000 ≤ 2 ^ 31 - 1 ∧ IndicesFit 1000000 :=
  ⟨by omega, (indicesFit_iff (by omega)).mpr (by omega)⟩

/-- The last leaf of `2 ^ 30 + 1` elements has the index `2 ^ 30`, and twice that is
not an `int`. -/
theorem heapsort_overflows_at_last_leaf :
    ¬Fits (heapsort (oneAt (2 ^ 30)) (2 ^ 30 + 1)) := by
  have last : ((2 ^ 30 + 1 : ℕ) : ℤ) - 1 = 2 ^ 30 := by omega
  have overflows := heapsort_oneAt (show 2 ^ 30 < 2 ^ 30 + 1 by omega) (by omega)
  rw [last] at overflows
  exact overflows

end Lctools.Csort.Machine
