import Lctools.Csort.Heapsort
import Lctools.Csort.Mergesort
import Lctools.Csort.Quicksort
import Lctools.Foundation.Overflow
import Mathlib.Algebra.Order.Ring.Int
import Mathlib.Logic.Relation

/-! # The index arithmetic of the sorting routines

`Mergesort`, `Quicksort` and `Heapsort` once more, now with every sum, difference
and product of indices computed as a 32-bit `int`. A run stops at the first result
that does not fit.
-/

namespace Lctools.Csort.Machine

open Cells Fallible Overflow BinaryHeap
open Relation (ReflTransGen)

variable {α κ : Type} [LinearOrder κ]

/-! ## The program -/

/-- The value of an expression of type `int`. -/
def int (value : ℤ) : Except (Stop Fault) ℤ :=
  within (-2 ^ 31) (2 ^ 31 - 1) value

/-- `(left + right)/2` -/
def centor (left right : ℤ) : Except (Stop Fault) ℤ := do
  let sum ← int (left + right)
  int (sum.tdiv 2)

/-! ### `Mergesort.c` -/

section Mergesort

variable (key : α → κ) (len : ℤ)

def mergeLoop (leftEnd rightEnd : ℤ) (ori : ℤ → α) : (budget : ℕ) → (tmpA : ℤ → α) →
    (left right : ℤ) → (count : ℕ) → Except (Stop Fault) ((ℤ → α) × ℤ × ℤ × ℕ)
  | 0, _, _, _, _ => .error (.fault .unfinished)
  | budget + 1, tmpA, left, right, count =>
      if left ≤ leftEnd ∧ right ≤ rightEnd then do
        let first ← lift (get 0 (len - 1) ori left)
        let second ← lift (get 0 (len - 1) ori right)
        if key first < key second then
          let tmpA ← lift (put 0 (len - 1) tmpA count first)
          let _ ← int (count + 1)
          let left ← int (left + 1)
          mergeLoop leftEnd rightEnd ori budget tmpA left right (count + 1)
        else
          let tmpA ← lift (put 0 (len - 1) tmpA count second)
          let _ ← int (count + 1)
          let right ← int (right + 1)
          mergeLoop leftEnd rightEnd ori budget tmpA left right (count + 1)
      else
        .ok (tmpA, left, right, count)

def drainLoop (last : ℤ) (ori : ℤ → α) : (budget : ℕ) → (tmpA : ℤ → α) → (next : ℤ) →
    (count : ℕ) → Except (Stop Fault) ((ℤ → α) × ℕ)
  | 0, _, _, _ => .error (.fault .unfinished)
  | budget + 1, tmpA, next, count =>
      if next ≤ last then do
        let value ← lift (get 0 (len - 1) ori next)
        let tmpA ← lift (put 0 (len - 1) tmpA count value)
        let _ ← int (count + 1)
        let next ← int (next + 1)
        drainLoop last ori budget tmpA next (count + 1)
      else
        .ok (tmpA, count)

def copyBack (tmpA : ℤ → α) : (count : ℕ) → (rightEnd : ℤ) → (ori : ℤ → α) →
    Except (Stop Fault) (ℤ → α)
  | 0, _, ori => .ok ori
  | j + 1, rightEnd, ori => do
      let value ← lift (get 0 (len - 1) tmpA j)
      let ori ← lift (put 0 (len - 1) ori rightEnd value)
      let rightEnd ← int (rightEnd - 1)
      let _ ← int (j - 1)
      copyBack tmpA j rightEnd ori

def merge (ori tmpA : ℤ → α) (left right rightEnd : ℤ) :
    Except (Stop Fault) ((ℤ → α) × (ℤ → α)) := do
  let leftEnd ← int (right - 1)
  let (tmpA, nextLeft, nextRight, count) ←
    mergeLoop key len leftEnd rightEnd ori (len.toNat + 1) tmpA left right 0
  let (tmpA, count) ← drainLoop len leftEnd ori (len.toNat + 1) tmpA nextLeft count
  let (tmpA, count) ← drainLoop len rightEnd ori (len.toNat + 1) tmpA nextRight count
  let _ ← int (count - 1)
  let ori ← copyBack len tmpA count rightEnd ori
  .ok (ori, tmpA)

def msort : (budget : ℕ) → (ori tmpA : ℤ → α) → (left right : ℤ) →
    Except (Stop Fault) ((ℤ → α) × (ℤ → α))
  | 0, _, _, _, _ => .error (.fault .unfinished)
  | budget + 1, ori, tmpA, left, right =>
      if left < right then do
        let centor ← centor left right
        let (ori, tmpA) ← msort budget ori tmpA left centor
        let next ← int (centor + 1)
        let (ori, tmpA) ← msort budget ori tmpA next right
        let next ← int (centor + 1)
        merge key len ori tmpA left next right
      else
        .ok (ori, tmpA)

end Mergesort

def mergesort (key : α → κ) (tmpA : Option (ℤ → α)) (ori : ℤ → α) (len : ℕ) :
    Except (Stop Fault) (ℤ → α) :=
  match tmpA with
  | none => .ok ori
  | some tmpA => do
      let right ← int (len - 1)
      let (ori, _) ← msort key len (len + 1) ori tmpA 0 right
      .ok ori

/-! ### `Insertsort.c` -/

section Insertsort

variable (key : α → κ) (base len : ℤ)

def insertShift (tmp : α) : (j : ℕ) → (ℤ → α) → Except (Stop Fault) ((ℤ → α) × ℕ)
  | 0, ori => .ok (ori, 0)
  | j + 1, ori => do
      let before ← int (j + 1 - 1)
      let previous ← lift (get base (base + len - 1) ori (base + before))
      if key tmp < key previous then
        let ori ← lift (put base (base + len - 1) ori (base + j + 1) previous)
        insertShift tmp j ori
      else
        .ok (ori, j + 1)

def insertElement (i : ℕ) (ori : ℤ → α) : Except (Stop Fault) (ℤ → α) := do
  let tmp ← lift (get base (base + len - 1) ori (base + i))
  let (ori, j) ← insertShift key base len tmp i ori
  lift (put base (base + len - 1) ori (base + j) tmp)

def insertLoop : (count i : ℕ) → (ℤ → α) → Except (Stop Fault) (ℤ → α)
  | 0, _, ori => .ok ori
  | count + 1, i, ori => do
      let ori ← insertElement key base len i ori
      let _ ← int (i + 1)
      insertLoop count (i + 1) ori

def insertsort (ori : ℤ → α) : Except (Stop Fault) (ℤ → α) :=
  insertLoop key base len (len - 1).toNat 1 ori

end Insertsort

/-! ### `Quicksort.c` -/

section Quicksort

variable [LinearOrder α] (left right : ℤ)

def median3 (ori : ℤ → α) : Except (Stop Fault) ((ℤ → α) × α) := do
  let centor ← centor left right
  let ori ← lift (swapIfLess left right ori centor left left right)
  let ori ← lift (swapIfLess left right ori right centor right centor)
  let ori ← lift (swapIfLess left right ori centor left centor left)
  let last ← int (right - 1)
  let ori ← lift (swap left right ori centor last)
  let last ← int (right - 1)
  let pivot ← lift (get left right ori last)
  .ok (ori, pivot)

variable (pivot : α)

def scanUp (ori : ℤ → α) : (budget : ℕ) → ℤ → Except (Stop Fault) ℤ
  | 0, _ => .error (.fault .unfinished)
  | budget + 1, i => do
      let i ← int (i + 1)
      let value ← lift (get left right ori i)
      if value < pivot then scanUp ori budget i else .ok i

def scanDown (ori : ℤ → α) : (budget : ℕ) → ℤ → Except (Stop Fault) ℤ
  | 0, _ => .error (.fault .unfinished)
  | budget + 1, j => do
      let j ← int (j - 1)
      let value ← lift (get left right ori j)
      if pivot < value then scanDown ori budget j else .ok j

def partitionLoop : (budget : ℕ) → (ℤ → α) → (i j : ℤ) → Except (Stop Fault) ((ℤ → α) × ℤ)
  | 0, _, _, _ => .error (.fault .unfinished)
  | budget + 1, ori, i, j => do
      let i ← scanUp left right pivot ori (right - left + 1).toNat i
      let j ← scanDown left right pivot ori (right - left + 1).toNat j
      if i < j then
        let ori ← lift (swap left right ori i j)
        partitionLoop budget ori i j
      else
        .ok (ori, i)

def qsortSplit (ori : ℤ → α) : Except (Stop Fault) ((ℤ → α) × ℤ) := do
  let (ori, pivot) ← median3 left right ori
  let j ← int (right - 1)
  let (ori, i) ← partitionLoop left right pivot (right - left + 1).toNat ori left j
  let last ← int (right - 1)
  let ori ← lift (swap left right ori i last)
  .ok (ori, i)

end Quicksort

def qsort [LinearOrder α] : (budget : ℕ) → (ℤ → α) → (left right : ℤ) →
    Except (Stop Fault) (ℤ → α)
  | 0, _, _, _ => .error (.fault .unfinished)
  | budget + 1, ori, left, right => do
      let least ← int (left + cutoff)
      if least ≤ right then
        let (ori, i) ← qsortSplit left right ori
        let last ← int (i - 1)
        let ori ← qsort budget ori left last
        let first ← int (i + 1)
        qsort budget ori first right
      else
        let difference ← int (right - left)
        let count ← int (difference + 1)
        insertsort id left count ori

def quicksort [LinearOrder α] (ori : ℤ → α) (len : ℕ) : Except (Stop Fault) (ℤ → α) := do
  let right ← int (len - 1)
  qsort (len + 1) ori 0 right

/-! ### `Heapsort.c` -/

/-- The macro `LeftChild(i)`. -/
def leftChild (i : ℤ) : Except (Stop Fault) ℤ := do
  let doubled ← int (2 * i)
  int (doubled + 1)

section Heapsort

variable (key : α → κ) (size len : ℤ)

def largerChild (ori : ℤ → α) (i : ℤ) : Except (Stop Fault) ℤ := do
  let child ← leftChild i
  let last ← int (len - 1)
  if child < last then
    let first ← lift (get 0 (size - 1) ori child)
    let next ← int (child + 1)
    let second ← lift (get 0 (size - 1) ori next)
    if key first < key second then int (child + 1) else .ok child
  else
    .ok child

def perceLoop (tmp : α) : (budget : ℕ) → (ℤ → α) → (i : ℤ) →
    Except (Stop Fault) ((ℤ → α) × ℤ)
  | 0, _, _ => .error (.fault .unfinished)
  | budget + 1, ori, i => do
      let first ← leftChild i
      if first < len then
        let child ← largerChild key size len ori i
        let value ← lift (get 0 (size - 1) ori child)
        if key tmp < key value then
          let ori ← lift (put 0 (size - 1) ori i value)
          perceLoop tmp budget ori child
        else
          .ok (ori, i)
      else
        .ok (ori, i)

def perceDown (ori : ℤ → α) (pos : ℤ) : Except (Stop Fault) (ℤ → α) := do
  let tmp ← lift (get 0 (size - 1) ori pos)
  let (ori, i) ← perceLoop key size len tmp (len.toNat + 1) ori pos
  lift (put 0 (size - 1) ori i tmp)

end Heapsort

variable [LinearOrder α]

/-- `perceDownMax(ori, pos, len)` on an array of `size` elements. -/
def perceDownMax (size : ℤ) (ori : ℤ → α) (pos len : ℤ) : Except (Stop Fault) (ℤ → α) :=
  perceDown id size len ori pos

def buildLoop (len : ℤ) : (count : ℕ) → (ℤ → α) → Except (Stop Fault) (ℤ → α)
  | 0, ori => .ok ori
  | i + 1, ori => do
      let ori ← perceDownMax len ori i len
      let _ ← int (i - 1)
      buildLoop len i ori

def extractLoop (len : ℤ) : (i : ℕ) → (ℤ → α) → Except (Stop Fault) (ℤ → α)
  | 0, ori => .ok ori
  | i + 1, ori => do
      let ori ← lift (swap 0 (len - 1) ori 0 (i + 1))
      let ori ← perceDownMax len ori 0 (i + 1)
      let _ ← int (i + 1 - 1)
      extractLoop len i ori

def heapsort (ori : ℤ → α) (len : ℕ) : Except (Stop Fault) (ℤ → α) := do
  let ori ← buildLoop len (len / 2 + 1) ori
  let _ ← int (len - 1)
  extractLoop len (len - 1) ori

/-! ## Runs without overflow -/

theorem int_ok {value : ℤ} (lower : -2 ^ 31 ≤ value) (upper : value ≤ 2 ^ 31 - 1) :
    int value = .ok value :=
  within_ok lower upper

theorem centor_ok {left right : ℤ} (nonneg : 0 ≤ left) (ordered : left ≤ right)
    (small : left + right ≤ 2 ^ 31 - 1) :
    centor left right = .ok (Csort.centor left right) := by
  have half : (left + right).tdiv 2 = (left + right) / 2 :=
    Int.tdiv_eq_ediv_of_nonneg (by omega)
  rw [centor, bind_ok (int_ok (by omega) small), Csort.centor]
  exact int_ok (by omega) (by omega)

/-! ### Merging -/

section Mergesort

variable {α κ : Type} [LinearOrder κ] (key : α → κ) {len : ℤ} (fits : len ≤ 2 ^ 31 - 1)

include fits in
theorem mergeLoop_eq (leftEnd rightEnd : ℤ) (ori : ℤ → α) :
    ∀ (budget : ℕ) (tmpA : ℤ → α) (left right : ℤ) (count : ℕ),
    mergeLoop key len leftEnd rightEnd ori budget tmpA left right count =
      lift (Csort.mergeLoop key len leftEnd rightEnd ori budget tmpA left right count)
  | 0, _, _, _, _ => rfl
  | budget + 1, tmpA, left, right, count => by
      rw [mergeLoop, Csort.mergeLoop]
      split_ifs with both
      · apply lift_bind_eq
        intro first leftRead
        apply lift_bind_eq
        intro second rightRead
        have leftInside := inside_of_get leftRead
        have rightInside := inside_of_get rightRead
        split_ifs with less
        · apply lift_bind_eq
          intro tmpA written
          have countInside := inside_of_put written
          rw [bind_ok (int_ok (by omega) (by omega)), bind_ok (int_ok (by omega) (by omega))]
          exact mergeLoop_eq leftEnd rightEnd ori budget tmpA (left + 1) right (count + 1)
        · apply lift_bind_eq
          intro tmpA written
          have countInside := inside_of_put written
          rw [bind_ok (int_ok (by omega) (by omega)), bind_ok (int_ok (by omega) (by omega))]
          exact mergeLoop_eq leftEnd rightEnd ori budget tmpA left (right + 1) (count + 1)
      · rfl

include fits in
theorem drainLoop_eq (last : ℤ) (ori : ℤ → α) :
    ∀ (budget : ℕ) (tmpA : ℤ → α) (next : ℤ) (count : ℕ),
    drainLoop len last ori budget tmpA next count =
      lift (Csort.drainLoop len last ori budget tmpA next count)
  | 0, _, _, _ => rfl
  | budget + 1, tmpA, next, count => by
      rw [drainLoop, Csort.drainLoop]
      split_ifs with more
      · apply lift_bind_eq
        intro value read
        apply lift_bind_eq
        intro tmpA written
        have nextInside := inside_of_get read
        have countInside := inside_of_put written
        rw [bind_ok (int_ok (by omega) (by omega)), bind_ok (int_ok (by omega) (by omega))]
        exact drainLoop_eq last ori budget tmpA (next + 1) (count + 1)
      · rfl

include fits in
theorem copyBack_eq (tmpA : ℤ → α) : ∀ (count : ℕ) (rightEnd : ℤ) (ori : ℤ → α),
    copyBack len tmpA count rightEnd ori = lift (Csort.copyBack len tmpA count rightEnd ori)
  | 0, _, _ => rfl
  | j + 1, rightEnd, ori => by
      rw [copyBack, Csort.copyBack]
      apply lift_bind_eq
      intro value read
      apply lift_bind_eq
      intro ori written
      have readInside := inside_of_get read
      have writeInside := inside_of_put written
      rw [bind_ok (int_ok (by omega) (by omega)), bind_ok (int_ok (by omega) (by omega))]
      exact copyBack_eq tmpA j (rightEnd - 1) ori

/-! `count` is the number of cells of the scratch array that are filled. -/

theorem count_le_of_mergeLoop {leftEnd rightEnd : ℤ} {ori : ℤ → α} {after : ℤ → α}
    {nextLeft nextRight : ℤ} {filled : ℕ} :
    ∀ {budget : ℕ} {tmpA : ℤ → α} {left right : ℤ} {count : ℕ}, (count : ℤ) ≤ len →
    Csort.mergeLoop key len leftEnd rightEnd ori budget tmpA left right count =
      .ok (after, nextLeft, nextRight, filled) → (filled : ℤ) ≤ len
  | 0, _, _, _, _, _, computed => by cases computed
  | budget + 1, tmpA, left, right, count, room, computed => by
      rw [Csort.mergeLoop] at computed
      split_ifs at computed with both
      · rcases of_bind_ok computed with ⟨first, -, afterFirst⟩
        rcases of_bind_ok afterFirst with ⟨second, -, afterSecond⟩
        split_ifs at afterSecond with less
        · rcases of_bind_ok afterSecond with ⟨written, put, rest⟩
          have inside := inside_of_put put
          exact count_le_of_mergeLoop (by push_cast; omega) rest
        · rcases of_bind_ok afterSecond with ⟨written, put, rest⟩
          have inside := inside_of_put put
          exact count_le_of_mergeLoop (by push_cast; omega) rest
      · injection computed with computed
        simp only [Prod.mk.injEq] at computed
        omega

theorem count_le_of_drainLoop {last : ℤ} {ori after : ℤ → α} {filled : ℕ} :
    ∀ {budget : ℕ} {tmpA : ℤ → α} {next : ℤ} {count : ℕ}, (count : ℤ) ≤ len →
    Csort.drainLoop len last ori budget tmpA next count = .ok (after, filled) →
    (filled : ℤ) ≤ len
  | 0, _, _, _, _, computed => by cases computed
  | budget + 1, tmpA, next, count, room, computed => by
      rw [Csort.drainLoop] at computed
      split_ifs at computed with more
      · rcases of_bind_ok computed with ⟨value, -, afterRead⟩
        rcases of_bind_ok afterRead with ⟨written, put, rest⟩
        have inside := inside_of_put put
        exact count_le_of_drainLoop (by push_cast; omega) rest
      · injection computed with computed
        simp only [Prod.mk.injEq] at computed
        omega

include fits in
theorem merge_eq (ori tmpA : ℤ → α) (left : ℤ) {right rightEnd : ℤ} (nonneg : 0 ≤ right)
    (inside : right < len) :
    merge key len ori tmpA left right rightEnd =
      lift (Csort.merge key len ori tmpA left right rightEnd) := by
  rw [merge, Csort.merge, bind_ok (int_ok (by omega) (by omega)),
    mergeLoop_eq key fits]
  apply lift_bind_eq
  rintro ⟨merged, nextLeft, nextRight, count⟩ mergeOk
  have mergedCount := count_le_of_mergeLoop key (by push_cast; omega) mergeOk
  dsimp only
  rw [drainLoop_eq fits]
  apply lift_bind_eq
  rintro ⟨lower, lowerCount⟩ lowerOk
  have lowerBound := count_le_of_drainLoop mergedCount lowerOk
  dsimp only
  rw [drainLoop_eq fits]
  apply lift_bind_eq
  rintro ⟨upper, upperCount⟩ upperOk
  have upperBound := count_le_of_drainLoop lowerBound upperOk
  dsimp only
  rw [bind_ok (int_ok (by omega) (by omega)), copyBack_eq fits]
  apply lift_bind_eq
  intro after copied
  rfl

/-- `left + right` is the only sum in `Msort` that can be too large: the rest is
bounded by the length of the array. -/
theorem msort_eq (fits : len ≤ 2 ^ 30 + 1) :
    ∀ (budget : ℕ) (ori tmpA : ℤ → α) (left right : ℤ), 0 ≤ left → right < len →
    msort key len budget ori tmpA left right =
      lift (Csort.msort key len budget ori tmpA left right)
  | 0, _, _, _, _, _, _ => rfl
  | budget + 1, ori, tmpA, left, right, nonneg, inside => by
      rw [msort, Csort.msort]
      split_ifs with several
      · have split := centor_split nonneg several
        rw [bind_ok (centor_ok nonneg (by omega) (by omega)),
          msort_eq fits budget ori tmpA left _ nonneg (by omega)]
        apply lift_bind_eq
        rintro ⟨lower, lowerTmp⟩ lowerOk
        dsimp only
        rw [bind_ok (int_ok (by omega) (by omega)),
          msort_eq fits budget lower lowerTmp _ right (by omega) inside]
        apply lift_bind_eq
        rintro ⟨upper, upperTmp⟩ upperOk
        dsimp only
        rw [bind_ok (int_ok (by omega) (by omega))]
        exact merge_eq key (by omega) upper upperTmp left (by omega) (by omega)
      · rfl

theorem mergesort_eq (tmpA : Option (ℤ → α)) (ori : ℤ → α) {len : ℕ}
    (fits : len ≤ 2 ^ 30 + 1) :
    mergesort key tmpA ori len = lift (Csort.mergesort key tmpA ori len) := by
  cases tmpA with
  | none => rfl
  | some tmpA =>
      rw [mergesort, Csort.mergesort, bind_ok (int_ok (by omega) (by omega)),
        msort_eq key (by omega) (len + 1) ori tmpA 0 (len - 1) (by omega) (by omega)]
      apply lift_bind_eq
      intro sorted computed
      rfl

end Mergesort

/-! ### Inserting -/

section Insertsort

variable {α κ : Type} [LinearOrder κ] (key : α → κ) {base len : ℤ} (fits : len ≤ 2 ^ 31 - 1)

include fits in
theorem insertShift_eq (tmp : α) : ∀ (j : ℕ) (ori : ℤ → α), (j : ℤ) < len →
    insertShift key base len tmp j ori = lift (Csort.insertShift key base len tmp j ori)
  | 0, _, _ => rfl
  | j + 1, ori, small => by
      have before : ((j : ℤ) + 1 - 1) = j := by omega
      push_cast at small
      rw [insertShift, Csort.insertShift, bind_ok (int_ok (by omega) (by omega)), before]
      apply lift_bind_eq
      intro previous read
      split_ifs with larger
      · apply lift_bind_eq
        intro ori written
        exact insertShift_eq tmp j ori (by omega)
      · rfl

include fits in
theorem insertLoop_eq : ∀ (count i : ℕ) (ori : ℤ → α),
    insertLoop key base len count i ori = lift (Csort.insertLoop key base len count i ori)
  | 0, _, _ => rfl
  | count + 1, i, ori => by
      rw [insertLoop, Csort.insertLoop, insertElement, Csort.insertElement]
      simp only [bind_assoc]
      apply lift_bind_eq
      intro tmp read
      have inside := inside_of_get read
      rw [insertShift_eq key fits tmp i ori (by omega)]
      apply lift_bind_eq
      rintro ⟨shifted, j⟩ moved
      apply lift_bind_eq
      intro ori written
      rw [bind_ok (int_ok (by omega) (by omega))]
      exact insertLoop_eq count (i + 1) ori

end Insertsort

/-! ### Partitioning -/

section Quicksort

variable {α : Type} [LinearOrder α] {left right : ℤ}

theorem scanUp_inside {pivot : α} {ori : ℤ → α} {found : ℤ} : ∀ {budget : ℕ} {i : ℤ},
    Csort.scanUp left right pivot ori budget i = .ok found → left ≤ found ∧ found ≤ right
  | 0, _, computed => by cases computed
  | budget + 1, i, computed => by
      rw [Csort.scanUp] at computed
      rcases of_bind_ok computed with ⟨value, read, rest⟩
      split_ifs at rest with less
      · exact scanUp_inside rest
      · injection rest with equal
        rw [← equal]
        exact inside_of_get read

theorem scanDown_inside {pivot : α} {ori : ℤ → α} {found : ℤ} : ∀ {budget : ℕ} {j : ℤ},
    Csort.scanDown left right pivot ori budget j = .ok found → left ≤ found ∧ found ≤ right
  | 0, _, computed => by cases computed
  | budget + 1, j, computed => by
      rw [Csort.scanDown] at computed
      rcases of_bind_ok computed with ⟨value, read, rest⟩
      split_ifs at rest with larger
      · exact scanDown_inside rest
      · injection rest with equal
        rw [← equal]
        exact inside_of_get read

variable (nonneg : 0 ≤ left) (fits : right < 2 ^ 31 - 1)

include nonneg fits

theorem scanUp_eq (pivot : α) (ori : ℤ → α) : ∀ (budget : ℕ) (i : ℤ), left ≤ i → i ≤ right →
    scanUp left right pivot ori budget i = lift (Csort.scanUp left right pivot ori budget i)
  | 0, _, _, _ => rfl
  | budget + 1, i, lower, upper => by
      rw [scanUp, Csort.scanUp, bind_ok (int_ok (by omega) (by omega))]
      apply lift_bind_eq
      intro value read
      have inside := inside_of_get read
      split_ifs with less
      · exact scanUp_eq pivot ori budget (i + 1) inside.1 inside.2
      · rfl

theorem scanDown_eq (pivot : α) (ori : ℤ → α) : ∀ (budget : ℕ) (j : ℤ), left ≤ j → j ≤ right →
    scanDown left right pivot ori budget j =
      lift (Csort.scanDown left right pivot ori budget j)
  | 0, _, _, _ => rfl
  | budget + 1, j, lower, upper => by
      rw [scanDown, Csort.scanDown, bind_ok (int_ok (by omega) (by omega))]
      apply lift_bind_eq
      intro value read
      have inside := inside_of_get read
      split_ifs with larger
      · exact scanDown_eq pivot ori budget (j - 1) inside.1 inside.2
      · rfl

theorem partitionLoop_eq (pivot : α) : ∀ (budget : ℕ) (ori : ℤ → α) (i j : ℤ),
    left ≤ i → i ≤ right → left ≤ j → j ≤ right →
    partitionLoop left right pivot budget ori i j =
      lift (Csort.partitionLoop left right pivot budget ori i j)
  | 0, _, _, _, _, _, _, _ => rfl
  | budget + 1, ori, i, j, iLower, iUpper, jLower, jUpper => by
      rw [partitionLoop, Csort.partitionLoop, scanUp_eq nonneg fits pivot ori _ i iLower iUpper]
      apply lift_bind_eq
      intro up upOk
      have upInside := scanUp_inside upOk
      rw [scanDown_eq nonneg fits pivot ori _ j jLower jUpper]
      apply lift_bind_eq
      intro down downOk
      have downInside := scanDown_inside downOk
      split_ifs with apart
      · apply lift_bind_eq
        intro cells swapped
        exact partitionLoop_eq pivot budget cells up down upInside.1 upInside.2 downInside.1
          downInside.2
      · rfl

omit fits in
theorem median3_eq (ori : ℤ → α) (ordered : left ≤ right) (small : left + right ≤ 2 ^ 31 - 1) :
    median3 left right ori = lift (Csort.median3 left right ori) := by
  rw [median3, Csort.median3, bind_ok (centor_ok nonneg ordered small)]
  apply lift_bind_eq
  intro first firstSwap
  apply lift_bind_eq
  intro second secondSwap
  apply lift_bind_eq
  intro third thirdSwap
  rw [bind_ok (int_ok (by omega) (by omega))]
  apply lift_bind_eq
  intro parked parking
  rw [bind_ok (int_ok (by omega) (by omega))]
  apply lift_bind_eq
  intro pivot read
  rfl

theorem qsortSplit_eq (ori : ℤ → α) (large : left + cutoff ≤ right)
    (small : left + right ≤ 2 ^ 31 - 1) :
    qsortSplit left right ori = lift (Csort.qsortSplit left right ori) := by
  rw [cutoff] at large
  rw [qsortSplit, Csort.qsortSplit, median3_eq nonneg ori (by omega) small]
  apply lift_bind_eq
  rintro ⟨sampled, pivot⟩ sampling
  dsimp only
  rw [bind_ok (int_ok (by omega) (by omega)),
    partitionLoop_eq nonneg fits pivot _ sampled left (right - 1) (by omega) (by omega)
      (by omega) (by omega)]
  apply lift_bind_eq
  rintro ⟨cells, split⟩ partitioned
  dsimp only
  rw [bind_ok (int_ok (by omega) (by omega))]
  apply lift_bind_eq
  intro restored restoring
  rfl

end Quicksort

theorem qsort_eq {α : Type} [LinearOrder α] {len : ℤ} (fits : len ≤ 2 ^ 30 + 2) :
    ∀ (budget : ℕ) (ori : ℤ → α) (left right : ℤ), 0 ≤ left → left ≤ len → -1 ≤ right →
    right < len → qsort budget ori left right = lift (Csort.qsort budget ori left right)
  | 0, _, _, _, _, _, _, _ => rfl
  | budget + 1, ori, left, right, nonneg, leftLe, rightGe, inside => by
      have three : cutoff = 3 := rfl
      rw [qsort, Csort.qsort, bind_ok (int_ok (by omega) (by omega))]
      split_ifs with large
      · rcases qsortSplit_ok ori nonneg large with
          ⟨cells, split, splitOk, -, leftSplit, splitRight, -⟩
        rw [qsortSplit_eq nonneg (by omega) ori large (by omega), splitOk]
        apply lift_bind_eq
        rintro _ ⟨⟩
        dsimp only
        rw [bind_ok (int_ok (by omega) (by omega)),
          qsort_eq fits budget cells left (split - 1) nonneg leftLe (by omega) (by omega)]
        apply lift_bind_eq
        intro lowerSorted lowerOk
        rw [bind_ok (int_ok (by omega) (by omega))]
        exact qsort_eq fits budget lowerSorted (split + 1) right (by omega) (by omega) rightGe
          inside
      · rw [bind_ok (int_ok (by omega) (by omega)), bind_ok (int_ok (by omega) (by omega))]
        exact insertLoop_eq id (by omega) _ _ ori

theorem quicksort_eq {α : Type} [LinearOrder α] (ori : ℤ → α) {len : ℕ}
    (fits : len ≤ 2 ^ 30 + 2) : quicksort ori len = lift (Csort.quicksort ori len) := by
  rw [quicksort, Csort.quicksort, bind_ok (int_ok (by omega) (by omega))]
  exact qsort_eq (show (len : ℤ) ≤ 2 ^ 30 + 2 by omega) (len + 1) ori 0 (len - 1) (by omega)
    (by omega) (by omega) (by omega)

/-! ### Sifting down -/

theorem leftChild_ok {i : ℤ} (nonneg : 0 ≤ i) (small : i < 2 ^ 30) :
    leftChild i = .ok (Csort.leftChild i) := by
  rw [leftChild, bind_ok (int_ok (by omega) (by omega)), Csort.leftChild]
  exact int_ok (by omega) (by omega)

/-- The nodes below `len` that a sift-down from `i` can come to have children with an
`int` index. -/
def SubtreeFits (len i : ℤ) : Prop :=
  ∀ node, ReflTransGen Child i node → node < len → node < 2 ^ 30

theorem subtreeFits_of_length {len : ℤ} (short : len ≤ 2 ^ 30) (i : ℤ) : SubtreeFits len i :=
  fun _ _ inside => by omega

theorem SubtreeFits.child {len i child : ℤ} (fits : SubtreeFits len i) (related : Child i child) :
    SubtreeFits len child :=
  fun node below inside => fits node (.head related below) inside

section Heapsort

variable {α κ : Type} [LinearOrder κ] (key : α → κ) {size len : ℤ} (lenNonneg : 0 ≤ len)
  (range : len ≤ 2 ^ 31 - 1)

include lenNonneg range

theorem largerChild_eq (ori : ℤ → α) {i : ℤ} (nonneg : 0 ≤ i) (small : i < 2 ^ 30) :
    largerChild key size len ori i = lift (Csort.largerChild key size len ori i) := by
  rw [largerChild, Csort.largerChild, bind_ok (leftChild_ok nonneg small),
    bind_ok (int_ok (by omega) (by omega))]
  have child : Csort.leftChild i = 2 * i + 1 := rfl
  split_ifs with both
  · apply lift_bind_eq
    intro first firstRead
    rw [bind_ok (int_ok (by omega) (by omega))]
    apply lift_bind_eq
    intro second secondRead
    split_ifs with less
    · exact int_ok (by omega) (by omega)
    · rfl
  · rfl

theorem perceLoop_eq (tmp : α) : ∀ (budget : ℕ) (ori : ℤ → α) (i : ℤ), 0 ≤ i → i < 2 ^ 30 →
    SubtreeFits len i →
    perceLoop key size len tmp budget ori i = lift (Csort.perceLoop key size len tmp budget ori i)
  | 0, _, _, _, _, _ => rfl
  | budget + 1, ori, i, nonneg, small, fits => by
      rw [perceLoop, Csort.perceLoop, bind_ok (leftChild_ok nonneg small)]
      split_ifs with hasChild
      · rw [largerChild_eq key lenNonneg range ori nonneg small]
        apply lift_bind_eq
        intro child chosen
        apply lift_bind_eq
        intro value read
        have related := largerChild_child chosen
        have inside := largerChild_lt hasChild chosen
        split_ifs with larger
        · apply lift_bind_eq
          intro ori written
          exact perceLoop_eq tmp budget ori child (by have := related.lt nonneg; omega)
            (fits child (.single related) inside) (fits.child related)
        · rfl
      · rfl

theorem perceDown_eq (ori : ℤ → α) {pos : ℤ} (small : pos < 2 ^ 30) (fits : SubtreeFits len pos) :
    perceDown key size len ori pos = lift (Csort.perceDown key size len ori pos) := by
  rw [perceDown, Csort.perceDown]
  apply lift_bind_eq
  intro tmp read
  have inside := inside_of_get read
  rw [perceLoop_eq key lenNonneg range tmp _ ori pos inside.1 small fits]
  apply lift_bind_eq
  rintro ⟨cells, stop⟩ looped
  rfl

end Heapsort

section Heapsort

variable {α : Type} [LinearOrder α] {len : ℤ} (short : len ≤ 2 ^ 30) (nonneg : 0 ≤ len)

include short nonneg

theorem buildLoop_eq : ∀ (count : ℕ) (ori : ℤ → α), 2 * (count : ℤ) ≤ len + 2 →
    buildLoop len count ori = lift (Csort.buildLoop len count ori)
  | 0, _, _ => rfl
  | i + 1, ori, small => by
      push_cast at small
      rw [buildLoop, Csort.buildLoop, perceDownMax,
        perceDown_eq id nonneg (by omega) ori (by omega) (subtreeFits_of_length short _)]
      apply lift_bind_eq
      intro ori sifted
      rw [bind_ok (int_ok (by omega) (by omega))]
      exact buildLoop_eq i ori (by omega)

theorem extractLoop_eq : ∀ (i : ℕ) (ori : ℤ → α), (i : ℤ) ≤ len →
    extractLoop len i ori = lift (Csort.extractLoop len i ori)
  | 0, _, _ => rfl
  | i + 1, ori, small => by
      push_cast at small
      rw [extractLoop, Csort.extractLoop]
      apply lift_bind_eq
      intro ori swapped
      rw [perceDownMax, perceDown_eq id (by omega) (by omega) ori (by omega)
        (subtreeFits_of_length (by omega) 0)]
      apply lift_bind_eq
      intro ori sifted
      rw [bind_ok (int_ok (by omega) (by omega))]
      exact extractLoop_eq i ori (by omega)

end Heapsort

theorem heapsort_eq {α : Type} [LinearOrder α] (ori : ℤ → α) {len : ℕ} (fits : len ≤ 2 ^ 30) :
    heapsort ori len = lift (Csort.heapsort ori len) := by
  rw [heapsort, Csort.heapsort, buildLoop_eq (by omega) (by omega) _ ori (by omega)]
  apply lift_bind_eq
  intro heap built
  rw [bind_ok (int_ok (by omega) (by omega))]
  exact extractLoop_eq (by omega) (by omega) (len - 1) heap (by omega)

end Lctools.Csort.Machine
