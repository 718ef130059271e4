import Lctools.Csort.Insertsort
import Lctools.Csort.Sorting

/-! # `csort/Quicksort.c`

Every access made by a call is checked against the range `left .. right` of
that call. Loops and recursion carry an iteration budget; the specifications
show that the budgets given here are never used up. Indices are unbounded integers
here; `Csort.Machine` has the `int` arithmetic of the source.
-/

namespace Lctools.Csort

open Cells

variable {α : Type}

/-! ## The program -/

section Model

variable (left right : ℤ)

variable [LinearOrder α]

/-- The guarded swap `if(ori[a] < ori[b]) swap(&ori[x], &ori[y]);`. -/
def swapIfLess (ori : ℤ → α) (a b x y : ℤ) : Except Fault (ℤ → α) := do
  let first ← get left right ori a
  let second ← get left right ori b
  if first < second then swap left right ori x y else .ok ori

/-- `median3(ori, left, right)`. The first guarded swap exchanges the two ends,
as the source does, and not the two cells that it compares. -/
def median3 (ori : ℤ → α) : Except Fault ((ℤ → α) × α) := do
  let ori ← swapIfLess left right ori (centor left right) left left right
  let ori ← swapIfLess left right ori right (centor left right) right (centor left right)
  let ori ← swapIfLess left right ori (centor left right) left (centor left right) left
  let ori ← swap left right ori (centor left right) (right - 1)
  let pivot ← get left right ori (right - 1)
  .ok (ori, pivot)

def cutoff : ℤ := 3

variable (pivot : α)

/-- `while(ori[++i] < pivot);` -/
def scanUp (ori : ℤ → α) : (budget : ℕ) → ℤ → Except Fault ℤ
  | 0, _ => .error .unfinished
  | budget + 1, i => do
      let value ← get left right ori (i + 1)
      if value < pivot then scanUp ori budget (i + 1) else .ok (i + 1)

/-- `while(ori[--j] > pivot);` -/
def scanDown (ori : ℤ → α) : (budget : ℕ) → ℤ → Except Fault ℤ
  | 0, _ => .error .unfinished
  | budget + 1, j => do
      let value ← get left right ori (j - 1)
      if pivot < value then scanDown ori budget (j - 1) else .ok (j - 1)

/-- The `for(;;)` loop of `Qsort`; returns the cells and the final `i`. -/
def partitionLoop : (budget : ℕ) → (ℤ → α) → (i j : ℤ) → Except Fault ((ℤ → α) × ℤ)
  | 0, _, _, _ => .error .unfinished
  | budget + 1, ori, i, j => do
      let i ← scanUp left right pivot ori (right - left + 1).toNat i
      let j ← scanDown left right pivot ori (right - left + 1).toNat j
      if i < j then
        let ori ← swap left right ori i j
        partitionLoop budget ori i j
      else
        .ok (ori, i)

/-- The body of `Qsort` before its two recursive calls. -/
def qsortSplit (ori : ℤ → α) : Except Fault ((ℤ → α) × ℤ) := do
  let (ori, pivot) ← median3 left right ori
  let (ori, i) ← partitionLoop left right pivot (right - left + 1).toNat ori left (right - 1)
  let ori ← swap left right ori i (right - 1)
  .ok (ori, i)

end Model

variable [LinearOrder α]

/-- `Qsort(ori, left, right)` with at most `budget` nested calls. -/
def qsort : (budget : ℕ) → (ℤ → α) → (left right : ℤ) → Except Fault (ℤ → α)
  | 0, _, _, _ => .error .unfinished
  | budget + 1, ori, left, right =>
      if left + cutoff ≤ right then do
        let (ori, i) ← qsortSplit left right ori
        let ori ← qsort budget ori left (i - 1)
        qsort budget ori (i + 1) right
      else
        insertsort id left (right - left + 1) ori

def quicksort (ori : ℤ → α) (len : ℕ) : Except Fault (ℤ → α) :=
  qsort (len + 1) ori 0 (len - 1)

/-! ## Median of three -/

variable {left right : ℤ}

theorem swapIfLess_ok (ori : ℤ → α) {a b x y : ℤ} (aInside : left ≤ a ∧ a ≤ right)
    (bInside : left ≤ b ∧ b ≤ right) (xInside : left ≤ x ∧ x ≤ right)
    (yInside : left ≤ y ∧ y ≤ right) :
    swapIfLess left right ori a b x y =
      .ok (if ori a < ori b then ori ∘ Equiv.swap x y else ori) := by
  simp only [swapIfLess, get_ok ori aInside.1 aInside.2, get_ok ori bInside.1 bInside.2,
    bind, Except.bind]
  split_ifs with less
  · exact swap_ok ori xInside yInside
  · rfl

theorem centor_bounds (nonneg : 0 ≤ left) (large : left + cutoff ≤ right) :
    left < centor left right ∧ centor left right < right - 1 := by
  unfold cutoff at large
  rw [centor, Int.tdiv_eq_ediv_of_nonneg (by omega)]
  omega

/-- The order of the three sampled cells on which `median3` goes wrong: it then
returns the largest of them as the pivot. -/
def Misordered (ori : ℤ → α) (left right : ℤ) : Prop :=
  ori (centor left right) < ori left ∧ ori left < ori right

private theorem guardedSwaps_order {ori first second third : ℤ → α} {middle : ℤ}
    (leftMiddle : left < middle) (middleRight : middle < right - 1)
    (firstEqual : first = if ori middle < ori left then ori ∘ Equiv.swap left right else ori)
    (secondEqual : second =
      if first right < first middle then first ∘ Equiv.swap right middle else first)
    (thirdEqual : third =
      if second middle < second left then second ∘ Equiv.swap middle left else second) :
    third left ≤ third middle ∧
      (ori middle < ori left ∧ ori left < ori right → third right < third middle) ∧
      (¬(ori middle < ori left ∧ ori left < ori right) → third middle ≤ third right) := by
  have middleNeLeft : middle ≠ left := by omega
  have middleNeRight : middle ≠ right := by omega
  have leftNeRight : left ≠ right := by omega
  have firstLeft : first left = if ori middle < ori left then ori right else ori left := by
    rw [firstEqual, swapIf_apply_left]
  have firstMiddle : first middle = ori middle := by
    rw [firstEqual, swapIf_apply_of_ne _ _ middleNeLeft middleNeRight]
  have firstRight : first right = if ori middle < ori left then ori left else ori right := by
    rw [firstEqual, swapIf_apply_right]
  have secondLeft : second left = first left := by
    rw [secondEqual, swapIf_apply_of_ne _ _ leftNeRight middleNeLeft.symm]
  have secondMiddle : second middle =
      if first right < first middle then first right else first middle := by
    rw [secondEqual, swapIf_apply_right]
  have secondRight : second right =
      if first right < first middle then first middle else first right := by
    rw [secondEqual, swapIf_apply_left]
  have thirdLeft : third left =
      if second middle < second left then second middle else second left := by
    rw [thirdEqual, swapIf_apply_right]
  have thirdMiddle : third middle =
      if second middle < second left then second left else second middle := by
    rw [thirdEqual, swapIf_apply_left]
  have thirdRight : third right = second right := by
    rw [thirdEqual, swapIf_apply_of_ne _ _ middleNeRight.symm leftNeRight.symm]
  rw [thirdLeft, thirdMiddle, thirdRight]
  clear firstEqual secondEqual thirdEqual thirdLeft thirdMiddle thirdRight
  split_ifs at firstLeft firstRight with exchanged <;>
    split_ifs at secondMiddle secondRight with lowered <;>
    split_ifs with raised <;>
    refine ⟨?_, ?_, ?_⟩ <;>
    intros <;>
    grind

theorem median3_ok (ori : ℤ → α) (nonneg : 0 ≤ left) (large : left + cutoff ≤ right) :
    ∃ cells pivot, median3 left right ori = .ok (cells, pivot) ∧
      Rearranged left right ori cells ∧ cells (right - 1) = pivot ∧ cells left ≤ pivot ∧
      (Misordered ori left right → cells right < pivot) ∧
      (¬Misordered ori left right → pivot ≤ cells right) := by
  have bounds := centor_bounds nonneg large
  unfold Misordered median3
  generalize centor left right = middle at bounds ⊢
  have leftInside : left ≤ left ∧ left ≤ right := ⟨le_refl _, by omega⟩
  have middleInside : left ≤ middle ∧ middle ≤ right := ⟨by omega, by omega⟩
  have rightInside : left ≤ right ∧ right ≤ right := ⟨by omega, le_refl _⟩
  have pivotInside : left ≤ right - 1 ∧ right - 1 ≤ right := ⟨by omega, by omega⟩
  generalize firstEqual :
    (if ori middle < ori left then ori ∘ Equiv.swap left right else ori) = first
  generalize secondEqual : (if first right < first middle then
    first ∘ Equiv.swap right middle else first) = second
  generalize thirdEqual : (if second middle < second left then
    second ∘ Equiv.swap middle left else second) = third
  have order := guardedSwaps_order bounds.1 bounds.2 firstEqual.symm secondEqual.symm
    thirdEqual.symm
  have firstMove : Rearranged left right ori first := by
    rw [← firstEqual]
    exact Rearranged.swapIf ori _ leftInside rightInside
  have secondMove : Rearranged left right first second := by
    rw [← secondEqual]
    exact Rearranged.swapIf first _ rightInside middleInside
  have thirdMove : Rearranged left right second third := by
    rw [← thirdEqual]
    exact Rearranged.swapIf second _ middleInside leftInside
  have parked : ∀ index, index ≠ middle → index ≠ right - 1 →
      (third ∘ Equiv.swap middle (right - 1)) index = third index := by
    intro index notMiddle notPivot
    rw [Function.comp_apply, Equiv.swap_apply_of_ne_of_ne notMiddle notPivot]
  refine ⟨third ∘ Equiv.swap middle (right - 1), third middle, ?_, ?_, ?_, ?_, ?_, ?_⟩
  · simp only [bind, Except.bind]
    rw [swapIfLess_ok ori middleInside leftInside leftInside rightInside, firstEqual]
    simp only
    rw [swapIfLess_ok first rightInside middleInside rightInside middleInside, secondEqual]
    simp only
    rw [swapIfLess_ok second middleInside leftInside middleInside leftInside, thirdEqual]
    simp only
    rw [swap_ok third middleInside pivotInside]
    simp only
    rw [get_ok _ pivotInside.1 pivotInside.2]
    simp
  · exact ((firstMove.trans secondMove).trans thirdMove).trans
      (Rearranged.swap _ middleInside pivotInside)
  · simp
  · rw [parked left (by omega) (by omega)]
    exact order.1
  · rw [parked right (by omega) (by omega)]
    exact order.2.1
  · rw [parked right (by omega) (by omega)]
    exact order.2.2

/-! ## Partitioning -/

theorem scanUp_ok (left right : ℤ) (pivot : α) (ori : ℤ → α) {stop : ℤ} (stopInside : stop ≤ right)
    (stops : pivot ≤ ori stop) : ∀ (budget : ℕ) (i : ℤ), left ≤ i → i < stop →
    stop - i ≤ budget →
    ∃ found, scanUp left right pivot ori budget i = .ok found ∧
      i < found ∧ found ≤ stop ∧ pivot ≤ ori found ∧
      ∀ index, i < index → index < found → ori index < pivot
  | 0, i, _, before, enough => by
      push_cast at enough
      omega
  | budget + 1, i, inside, before, enough => by
      push_cast at enough
      rw [scanUp, get_ok ori (by omega) (by omega)]
      simp only [bind, Except.bind]
      by_cases small : ori (i + 1) < pivot
      · have notStop : i + 1 ≠ stop := by
          intro equal
          rw [equal] at small
          exact absurd stops (not_le.mpr small)
        rcases scanUp_ok left right pivot ori stopInside stops budget (i + 1) (by omega) (by omega)
            (by omega) with ⟨found, computed, above, atMost, large, skipped⟩
        refine ⟨found, by rw [if_pos small, computed], by omega, atMost, large, ?_⟩
        intro index after below
        by_cases next : index = i + 1
        · rwa [next]
        · exact skipped index (by omega) below
      · refine ⟨i + 1, by rw [if_neg small], by omega, by omega, not_lt.mp small, ?_⟩
        intro index after below
        omega

theorem scanDown_ok (left right : ℤ) (pivot : α) (ori : ℤ → α) {stop : ℤ} (stopInside : left ≤ stop)
    (stops : ori stop ≤ pivot) : ∀ (budget : ℕ) (j : ℤ), j ≤ right → stop < j →
    j - stop ≤ budget →
    ∃ found, scanDown left right pivot ori budget j = .ok found ∧
      found < j ∧ stop ≤ found ∧ ori found ≤ pivot ∧
      ∀ index, found < index → index < j → pivot < ori index
  | 0, j, _, before, enough => by
      push_cast at enough
      omega
  | budget + 1, j, inside, before, enough => by
      push_cast at enough
      rw [scanDown, get_ok ori (by omega) (by omega)]
      simp only [bind, Except.bind]
      by_cases large : pivot < ori (j - 1)
      · have notStop : j - 1 ≠ stop := by
          intro equal
          rw [equal] at large
          exact absurd stops (not_le.mpr large)
        rcases scanDown_ok left right pivot ori stopInside stops budget (j - 1) (by omega) (by omega)
            (by omega) with ⟨found, computed, below, atLeast, small, skipped⟩
        refine ⟨found, by rw [if_pos large, computed], by omega, atLeast, small, ?_⟩
        intro index above before
        by_cases next : index = j - 1
        · rwa [next]
        · exact skipped index above (by omega)
      · refine ⟨j - 1, by rw [if_neg large], by omega, by omega, not_lt.mp large, ?_⟩
        intro index above before
        omega

/-- The state of the partition loop: everything up to `i` is at most the pivot
and everything from `j` to the parked pivot is at least the pivot. -/
structure Partitioning (pivot : α) (left right : ℤ) (ori : ℤ → α) (i j : ℤ) : Prop where
  left_le : left ≤ i
  ordered : i < j
  le_right : j ≤ right - 1
  lower : ∀ index, left ≤ index → index ≤ i → ori index ≤ pivot
  upper : ∀ index, j ≤ index → index ≤ right - 1 → pivot ≤ ori index

private theorem Partitioning.exchange {pivot : α} {ori : ℤ → α} {i j up down : ℤ}
    (state : Partitioning pivot left right ori i j)
    (iUp : i < up) (downJ : down < j) (crossed : up < down)
    (small : ∀ index, i < index → index < up → ori index < pivot)
    (large : ∀ index, down < index → index < j → pivot < ori index)
    (upLarge : pivot ≤ ori up) (downSmall : ori down ≤ pivot) :
    Partitioning pivot left right (ori ∘ Equiv.swap up down) up down := by
  have leftLe := state.left_le
  have leRight := state.le_right
  have other : ∀ index, index ≠ up → index ≠ down →
      (ori ∘ Equiv.swap up down) index = ori index := by
    intro index notUp notDown
    rw [Function.comp_apply, Equiv.swap_apply_of_ne_of_ne notUp notDown]
  refine ⟨by omega, crossed, by omega, ?_, ?_⟩
  · intro index lower upper
    by_cases atUp : index = up
    · rw [atUp, Function.comp_apply, Equiv.swap_apply_left]
      exact downSmall
    · rw [other index atUp (by omega)]
      by_cases old : index ≤ i
      · exact state.lower index lower old
      · exact (small index (by omega) (by omega)).le
  · intro index lower upper
    by_cases atDown : index = down
    · rw [atDown, Function.comp_apply, Equiv.swap_apply_right]
      exact upLarge
    · rw [other index (by omega) atDown]
      by_cases old : j ≤ index
      · exact state.upper index old upper
      · exact (large index (by omega) (by omega)).le

theorem partitionLoop_ok (pivot : α) : ∀ (budget : ℕ) (ori : ℤ → α) (i j : ℤ),
    Partitioning pivot left right ori i j → j - i ≤ budget →
    ∃ cells split, partitionLoop left right pivot budget ori i j = .ok (cells, split) ∧
      Rearranged (i + 1) (j - 1) ori cells ∧ i < split ∧ split ≤ j ∧
      (∀ index, left ≤ index → index ≤ split - 1 → cells index ≤ pivot) ∧
      (∀ index, split ≤ index → index ≤ right - 1 → pivot ≤ cells index)
  | 0, ori, i, j, state, enough => by
      have ordered := state.ordered
      push_cast at enough
      omega
  | budget + 1, ori, i, j, state, enough => by
      have leftLe := state.left_le
      have ordered := state.ordered
      have leRight := state.le_right
      push_cast at enough
      rcases scanUp_ok left right pivot ori (by omega)
          (state.upper j (le_refl _) leRight) (right - left + 1).toNat i leftLe ordered
          (by omega) with ⟨up, upScan, iUp, upJ, upLarge, small⟩
      rcases scanDown_ok left right pivot ori leftLe
          (state.lower i leftLe (le_refl _)) (right - left + 1).toNat j (by omega) ordered
          (by omega) with ⟨down, downScan, downJ, iDown, downSmall, large⟩
      rw [partitionLoop, upScan]
      simp only [bind, Except.bind]
      rw [downScan]
      by_cases crossed : up < down
      · have exchanged := state.exchange iUp downJ crossed small large upLarge downSmall
        rcases partitionLoop_ok pivot budget _ up down exchanged (by omega) with
          ⟨cells, split, computed, moved, upSplit, splitDown, lower, upper⟩
        refine ⟨cells, split, ?_, ?_, by omega, by omega, lower, upper⟩
        · simp only
          rw [if_pos crossed, swap_ok ori ⟨by omega, by omega⟩ ⟨by omega, by omega⟩]
          exact computed
        · exact (Rearranged.swap ori ⟨by omega, by omega⟩ ⟨by omega, by omega⟩).trans
            (moved.widen (by omega) (by omega))
      · refine ⟨ori, up, by simp only [if_neg crossed], Rearranged.refl _ _ _, iUp, upJ,
          ?_, ?_⟩
        · intro index lower upper
          by_cases old : index ≤ i
          · exact state.lower index lower old
          · exact (small index (by omega) (by omega)).le
        · intro index lower upper
          by_cases atUp : index = up
          · rwa [atUp]
          · by_cases old : j ≤ index
            · exact state.upper index old upper
            · exact (large index (by omega) (by omega)).le

/-- The array between the partition and the recursive calls: the pivot sits at
`split`, smaller elements are before it, and the elements after it are larger
with the possible exception of the last one. -/
theorem qsortSplit_ok (ori : ℤ → α) (nonneg : 0 ≤ left) (large : left + cutoff ≤ right) :
    ∃ cells split, qsortSplit left right ori = .ok (cells, split) ∧
      Rearranged left right ori cells ∧ left < split ∧ split < right ∧
      (∀ index, left ≤ index → index ≤ split - 1 → cells index ≤ cells split) ∧
      (∀ index, split + 1 ≤ index → index ≤ right - 1 → cells split ≤ cells index) ∧
      (Misordered ori left right → cells right < cells split) ∧
      (¬Misordered ori left right → cells split ≤ cells right) := by
  rcases median3_ok ori nonneg large with
    ⟨sampled, pivot, medianOk, sampledMove, parked, leftSmall, wrong, fine⟩
  unfold cutoff at large
  have start : Partitioning pivot left right sampled left (right - 1) := by
    refine ⟨le_refl _, by omega, le_refl _, ?_, ?_⟩
    · intro index lower upper
      have equal : index = left := by omega
      rwa [equal]
    · intro index lower upper
      have equal : index = right - 1 := by omega
      rw [equal, parked]
  rcases partitionLoop_ok pivot (right - left + 1).toNat sampled left (right - 1) start
      (by omega) with
    ⟨parted, split, loopOk, partedMove, leftSplit, splitRight, lower, upper⟩
  have pivotInside : left ≤ right - 1 ∧ right - 1 ≤ right := ⟨by omega, by omega⟩
  have splitInside : left ≤ split ∧ split ≤ right := ⟨by omega, by omega⟩
  have partedPivot : parted (right - 1) = pivot := by
    rw [partedMove.eq_outside (by omega), parked]
  have partedRight : parted right = sampled right := partedMove.eq_outside (by omega)
  have other : ∀ index, index ≠ split → index ≠ right - 1 →
      (parted ∘ Equiv.swap split (right - 1)) index = parted index := by
    intro index notSplit notPivot
    rw [Function.comp_apply, Equiv.swap_apply_of_ne_of_ne notSplit notPivot]
  have atSplit : (parted ∘ Equiv.swap split (right - 1)) split = pivot := by
    rw [Function.comp_apply, Equiv.swap_apply_left, partedPivot]
  refine ⟨parted ∘ Equiv.swap split (right - 1), split, ?_, ?_, leftSplit, by omega, ?_, ?_,
    ?_, ?_⟩
  · rw [qsortSplit, medianOk]
    simp only [bind, Except.bind]
    rw [loopOk]
    simp only
    rw [swap_ok parted splitInside pivotInside]
  · exact (sampledMove.trans (partedMove.widen (by omega) (by omega))).trans
      (Rearranged.swap parted splitInside pivotInside)
  · intro index above below
    rw [atSplit, other index (by omega) (by omega)]
    exact lower index above below
  · intro index above below
    rw [atSplit]
    by_cases atPivot : index = right - 1
    · rw [atPivot, Function.comp_apply, Equiv.swap_apply_right]
      exact upper split (le_refl _) (by omega)
    · rw [other index (by omega) atPivot]
      exact upper index (by omega) below
  · intro misordered
    rw [atSplit, other right (by omega) (by omega), partedRight]
    exact wrong misordered
  · intro ordered
    rw [atSplit, other right (by omega) (by omega), partedRight]
    exact fine ordered

/-! ## The recursion -/

/-- A call of `Qsort` together with the array it starts from. -/
structure QsortCall (α : Type) where
  ori : ℤ → α
  left : ℤ
  right : ℤ

/-- The call samples its pivot from cells in the order that `median3` gets
wrong. -/
def QsortCall.Misordered (call : QsortCall α) : Prop :=
  call.left + cutoff ≤ call.right ∧ Csort.Misordered call.ori call.left call.right

/-- `Enters budget call inner`: executing `call` executes the call `inner`,
directly or through nested calls. -/
inductive Enters : ℕ → QsortCall α → QsortCall α → Prop
  | self {budget call} : Enters (budget + 1) call call
  | lower {budget call inner cells split} :
      call.left + cutoff ≤ call.right →
      qsortSplit call.left call.right call.ori = .ok (cells, split) →
      Enters budget ⟨cells, call.left, split - 1⟩ inner →
      Enters (budget + 1) call inner
  | upper {budget call inner cells split sorted} :
      call.left + cutoff ≤ call.right →
      qsortSplit call.left call.right call.ori = .ok (cells, split) →
      qsort budget cells call.left (split - 1) = .ok sorted →
      Enters budget ⟨sorted, split + 1, call.right⟩ inner →
      Enters (budget + 1) call inner

theorem qsort_ok : ∀ (budget : ℕ) (ori : ℤ → α) (left right : ℤ), 0 ≤ left →
    left ≤ right + 1 → right - left + 1 < budget →
    ∃ out, qsort budget ori left right = .ok out ∧ Rearranged left right ori out
  | 0, _, left, right, _, sized, enough => by
      push_cast at enough
      omega
  | budget + 1, ori, left, right, nonneg, sized, enough => by
      push_cast at enough
      rw [qsort]
      by_cases large : left + cutoff ≤ right
      · rcases qsortSplit_ok ori nonneg large with
          ⟨cells, split, splitOk, splitMove, leftSplit, splitRight, -⟩
        rcases qsort_ok budget cells left (split - 1) nonneg (by omega) (by omega) with
          ⟨lowerSorted, lowerOk, lowerMove⟩
        rcases qsort_ok budget lowerSorted (split + 1) right (by omega) (by omega)
          (by omega) with ⟨out, upperOk, upperMove⟩
        refine ⟨out, ?_, ?_⟩
        · rw [if_pos large, splitOk]
          simp only [bind, Except.bind]
          rw [lowerOk]
          exact upperOk
        · exact (splitMove.trans (lowerMove.widen (le_refl _) (by omega))).trans
            (upperMove.widen (by omega) (le_refl _))
      · rcases insertsort_ok id left (right - left + 1) ori with ⟨out, sortOk, moved, -⟩
        refine ⟨out, by rw [if_neg large, sortOk], ?_⟩
        exact moved.widen (le_refl _) (by omega)

private theorem qsort_large {budget : ℕ} {ori out : ℤ → α} {left right : ℤ}
    (nonneg : 0 ≤ left) (enough : right - left + 1 < ((budget + 1 : ℕ) : ℤ))
    (large : left + cutoff ≤ right) (computed : qsort (budget + 1) ori left right = .ok out) :
    ∃ cells split lowerSorted, qsortSplit left right ori = .ok (cells, split) ∧
      qsort budget cells left (split - 1) = .ok lowerSorted ∧
      qsort budget lowerSorted (split + 1) right = .ok out ∧
      left < split ∧ split < right ∧
      Rearranged left (split - 1) cells lowerSorted ∧
      Rearranged (split + 1) right lowerSorted out := by
  push_cast at enough
  rcases qsortSplit_ok ori nonneg large with
    ⟨cells, split, splitOk, -, leftSplit, splitRight, -⟩
  rcases qsort_ok budget cells left (split - 1) nonneg (by omega) (by omega) with
    ⟨lowerSorted, lowerOk, lowerMove⟩
  rcases qsort_ok budget lowerSorted (split + 1) right (by omega) (by omega) (by omega) with
    ⟨upperSorted, upperOk, upperMove⟩
  have same : upperSorted = out := by
    rw [qsort, if_pos large, splitOk] at computed
    simp only [bind, Except.bind] at computed
    rw [lowerOk] at computed
    simp only at computed
    rw [upperOk] at computed
    exact Except.ok.inj computed
  subst same
  exact ⟨cells, split, lowerSorted, splitOk, lowerOk, upperOk, leftSplit, splitRight,
    lowerMove, upperMove⟩

/-- If no call that is executed samples a misordered triple, the range ends up
in ascending order. -/
theorem qsort_ascending : ∀ (budget : ℕ) (ori out : ℤ → α) (left right : ℤ), 0 ≤ left →
    left ≤ right + 1 → right - left + 1 < budget →
    qsort budget ori left right = .ok out →
    (∀ inner, Enters budget ⟨ori, left, right⟩ inner → ¬inner.Misordered) →
    Ascending id left right out
  | 0, _, _, left, right, _, sized, enough, _, _ => by
      push_cast at enough
      omega
  | budget + 1, ori, out, left, right, nonneg, sized, enough, computed, ordered => by
      by_cases large : left + cutoff ≤ right
      · rcases qsort_large nonneg enough large computed with
          ⟨cells, split, lowerSorted, splitOk, lowerOk, upperOk, leftSplit, splitRight,
            lowerMove, upperMove⟩
        push_cast at enough
        have lowerAscending : Ascending id left (split - 1) lowerSorted :=
          qsort_ascending budget cells lowerSorted left (split - 1) nonneg (by omega)
            (by omega) lowerOk
            fun inner enters => ordered inner (.lower large splitOk enters)
        have upperAscending : Ascending id (split + 1) right out :=
          qsort_ascending budget lowerSorted out (split + 1) right (by omega) (by omega)
            (by omega) upperOk
            fun inner enters => ordered inner (.upper large splitOk lowerOk enters)
        have fine : ¬Misordered ori left right :=
          fun wrong => ordered ⟨ori, left, right⟩ .self ⟨large, wrong⟩
        rcases qsortSplit_ok ori nonneg large with
          ⟨cells', split', splitOk', -, -, -, lower, upper, -, last⟩
        rw [splitOk] at splitOk'
        cases splitOk'
        -- The upper call leaves everything up to `split` alone, the lower call
        -- everything from `split` on.
        have keptLow : ∀ index, index ≤ split → out index = lowerSorted index :=
          fun index below => upperMove.eq_outside (by omega)
        have keptHigh : ∀ index, split ≤ index → lowerSorted index = cells index :=
          fun index above => lowerMove.eq_outside (by omega)
        have pivotCell : out split = cells split := by
          rw [keptLow split (le_refl _), keptHigh split (le_refl _)]
        have lowerBound : ∀ index, left ≤ index → index ≤ split - 1 →
            lowerSorted index ≤ cells split :=
          lowerMove.forall_inside (fun value => value ≤ cells split) lower
        have upperBound : ∀ index, split + 1 ≤ index → index ≤ right →
            cells split ≤ out index := by
          apply upperMove.forall_inside (fun value => cells split ≤ value)
          intro index above atMost
          rw [keptHigh index (by omega)]
          by_cases atLast : index = right
          · rw [atLast]
            exact last fine
          · exact upper index above (by omega)
        apply Ascending.join split
        · exact lowerAscending.congr fun index _ below => keptLow index (by omega)
        · exact upperAscending
        · intro index above below
          rw [keptLow index (by omega), pivotCell]
          exact lowerBound index above below
        · intro index above atMost
          rw [pivotCell]
          exact upperBound index above atMost
      · rcases insertsort_ok id left (right - left + 1) ori with
          ⟨sorted, sortOk, -, ascending⟩
        rw [qsort, if_neg large, sortOk] at computed
        cases computed
        exact ascending.narrow (le_refl _) (by omega)

/-- A misordered call leaves its own range unsorted: the last cell was smaller
than the pivot and stays on the upper side. -/
private theorem qsort_not_ascending_of_misordered {budget : ℕ} {ori out : ℤ → α}
    {left right : ℤ} (nonneg : 0 ≤ left)
    (enough : right - left + 1 < ((budget + 1 : ℕ) : ℤ))
    (computed : qsort (budget + 1) ori left right = .ok out)
    (misordered : QsortCall.Misordered ⟨ori, left, right⟩) :
    ¬Ascending id left right out := by
  intro ascending
  have large : left + cutoff ≤ right := misordered.1
  rcases qsort_large nonneg enough large computed with
    ⟨cells, split, lowerSorted, splitOk, -, -, leftSplit, splitRight, lowerMove, upperMove⟩
  rcases qsortSplit_ok ori nonneg large with
    ⟨cells', split', splitOk', -, -, -, -, -, last, -⟩
  rw [splitOk] at splitOk'
  cases splitOk'
  have pivotCell : out split = cells split := by
    rw [upperMove.eq_outside (by omega), lowerMove.eq_outside (by omega)]
  have keptLast : lowerSorted right = cells right := lowerMove.eq_outside (by omega)
  rcases upperMove.symm.exists_source right ⟨by omega, le_refl _⟩ with
    ⟨target, inside, moved⟩
  have bound : out split ≤ out target :=
    ascending split target (by omega) (by omega) (by omega)
  rw [pivotCell, ← moved, keptLast] at bound
  exact absurd bound (not_le.mpr (last misordered.2))

/-- A misordered call anywhere below a call leaves that call's range unsorted,
because the other nested calls never touch the misordered one's range. -/
theorem qsort_not_ascending {budget : ℕ} {call inner : QsortCall α}
    (enters : Enters budget call inner) (misordered : inner.Misordered) :
    ∀ {out : ℤ → α}, 0 ≤ call.left → call.right - call.left + 1 < budget →
      qsort budget call.ori call.left call.right = .ok out →
      ¬Ascending id call.left call.right out := by
  induction enters with
  | self =>
      intro out nonneg enough computed
      exact qsort_not_ascending_of_misordered nonneg enough computed misordered
  | @lower budget call inner cells split large splitOk _ induction =>
      intro out nonneg enough computed ascending
      rcases qsort_large nonneg enough large computed with
        ⟨cells', split', lowerSorted, splitOk', lowerOk, -, leftSplit, splitRight, -,
          upperMove⟩
      rw [splitOk] at splitOk'
      cases splitOk'
      push_cast at enough
      refine induction misordered nonneg (by dsimp only; omega) lowerOk ?_
      refine (ascending.narrow (le_refl _) (by dsimp only; omega)).congr ?_
      intro index _ below
      dsimp only at below
      exact (upperMove.eq_outside (by omega)).symm
  | @upper budget call inner cells split sorted large splitOk lowerOk _ induction =>
      intro out nonneg enough computed ascending
      rcases qsort_large nonneg enough large computed with
        ⟨cells', split', lowerSorted, splitOk', lowerOk', upperOk, leftSplit, splitRight,
          -, -⟩
      rw [splitOk] at splitOk'
      cases splitOk'
      rw [lowerOk] at lowerOk'
      cases lowerOk'
      push_cast at enough
      exact induction misordered (by dsimp only; omega) (by dsimp only; omega) upperOk
        (ascending.narrow (by dsimp only; omega) (le_refl _))

/-! ## The whole sort -/

theorem quicksort_ok (ori : ℤ → α) (len : ℕ) :
    ∃ out, quicksort ori len = .ok out ∧ Rearranged 0 (len - 1) ori out :=
  qsort_ok (len + 1) ori 0 (len - 1) (le_refl 0) (by omega) (by push_cast; omega)

theorem Enters.contained {budget : ℕ} {call inner : QsortCall α}
    (enters : Enters budget call inner) : 0 ≤ call.left → call.left ≤ call.right + 1 →
      call.right - call.left + 1 < budget →
      call.left ≤ inner.left ∧ inner.left ≤ inner.right + 1 ∧ inner.right ≤ call.right ∧
      ∃ budget out, qsort budget inner.ori inner.left inner.right = .ok out ∧
        Rearranged inner.left inner.right inner.ori out := by
  induction enters with
  | @self budget call =>
      intro nonneg sized enough
      exact ⟨le_refl _, sized, le_refl _, budget + 1,
        qsort_ok (budget + 1) call.ori call.left call.right nonneg sized enough⟩
  | @lower budget call inner cells split large splitOk _ induction =>
      intro nonneg sized enough
      push_cast at enough
      rcases qsortSplit_ok call.ori nonneg large with
        ⟨cells', split', splitOk', -, leftSplit, splitRight, -⟩
      rw [splitOk] at splitOk'
      cases splitOk'
      rcases induction nonneg (by dsimp only; omega) (by dsimp only; omega) with
        ⟨leftLe, innerSized, leRight, finished⟩
      dsimp only at leftLe leRight
      exact ⟨leftLe, innerSized, by omega, finished⟩
  | @upper budget call inner cells split sorted large splitOk lowerOk _ induction =>
      intro nonneg sized enough
      push_cast at enough
      rcases qsortSplit_ok call.ori nonneg large with
        ⟨cells', split', splitOk', -, leftSplit, splitRight, -⟩
      rw [splitOk] at splitOk'
      cases splitOk'
      rcases induction (by dsimp only; omega) (by dsimp only; omega) (by dsimp only; omega) with
        ⟨leftLe, innerSized, leRight, finished⟩
      dsimp only at leftLe leRight
      exact ⟨by omega, innerSized, leRight, finished⟩

/-! ## Ascending arrays

On a range in strictly ascending order the pivot is the middle element, and the range
is put back as it was.
-/

section Ascending

variable {ori : ℤ → α} (nonneg : 0 ≤ left) (large : left + cutoff ≤ right)
  (ascending : ∀ first second, left ≤ first → first < second → second ≤ right →
    ori first < ori second)

include nonneg large ascending

private theorem median3_ascending :
    median3 left right ori =
      .ok (ori ∘ Equiv.swap (centor left right) (right - 1), ori (centor left right)) := by
  have bounds := centor_bounds nonneg large
  unfold median3
  generalize centor left right = middle at bounds ⊢
  have leftInside : left ≤ left ∧ left ≤ right := ⟨le_refl _, by omega⟩
  have middleInside : left ≤ middle ∧ middle ≤ right := ⟨by omega, by omega⟩
  have rightInside : left ≤ right ∧ right ≤ right := ⟨by omega, le_refl _⟩
  have pivotInside : left ≤ right - 1 ∧ right - 1 ≤ right := ⟨by omega, by omega⟩
  have leftMiddle : ori left < ori middle := ascending _ _ (le_refl _) bounds.1 middleInside.2
  have middleRight : ori middle < ori right :=
    ascending _ _ middleInside.1 (by omega) (le_refl _)
  simp only [bind, Except.bind]
  rw [swapIfLess_ok ori middleInside leftInside leftInside rightInside, if_neg leftMiddle.not_gt]
  simp only
  rw [swapIfLess_ok ori rightInside middleInside rightInside middleInside,
    if_neg middleRight.not_gt]
  simp only
  rw [swapIfLess_ok ori middleInside leftInside middleInside leftInside, if_neg leftMiddle.not_gt]
  simp only
  rw [swap_ok ori middleInside pivotInside]
  simp only
  rw [get_ok _ pivotInside.1 pivotInside.2, Function.comp_apply, Equiv.swap_apply_right]

private theorem partitionLoop_ascending :
    partitionLoop left right (ori (centor left right)) (right - left + 1).toNat
      (ori ∘ Equiv.swap (centor left right) (right - 1)) left (right - 1) =
        .ok (ori ∘ Equiv.swap (centor left right) (right - 1), centor left right) := by
  have bounds := centor_bounds nonneg large
  generalize centor left right = middle at bounds ⊢
  generalize partedEqual : ori ∘ Equiv.swap middle (right - 1) = parted
  have atMiddle : parted middle = ori (right - 1) := by
    rw [← partedEqual, Function.comp_apply, Equiv.swap_apply_left]
  have other : ∀ index, index ≠ middle → index ≠ right - 1 → parted index = ori index := by
    intro index notMiddle notPivot
    rw [← partedEqual, Function.comp_apply, Equiv.swap_apply_of_ne_of_ne notMiddle notPivot]
  -- The scans meet at once: the upward one stops at the middle, where the greater
  -- element of the pivot's place is now, the downward one just below it.
  rcases scanUp_ok left right (ori middle) parted (show middle ≤ right by omega)
      (by rw [atMiddle]; exact (ascending _ _ (by omega) (by omega) (by omega)).le)
      (right - left + 1).toNat left (le_refl _) (by omega) (by omega) with
    ⟨up, upOk, upAbove, upAtMost, upLarge, -⟩
  have upStop : up = middle := by
    by_contra before
    rw [other up before (by omega)] at upLarge
    exact absurd (ascending _ _ (by omega) (show up < middle by omega) (by omega)) (not_lt.mpr upLarge)
  rcases scanDown_ok left right (ori middle) parted (show left ≤ middle - 1 by omega)
      (by
        rw [other (middle - 1) (by omega) (by omega)]
        exact (ascending _ _ (by omega) (by omega) (by omega)).le)
      (right - left + 1).toNat (right - 1) (by omega) (by omega) (by omega) with
    ⟨down, downOk, downBelow, downAtLeast, downSmall, -⟩
  have downStop : down = middle - 1 := by
    by_contra after
    by_cases there : down = middle
    · rw [there, atMiddle] at downSmall
      exact absurd (ascending _ _ (by omega) (show middle < right - 1 by omega) (by omega))
        (not_lt.mpr downSmall)
    · rw [other down there (by omega)] at downSmall
      exact absurd (ascending _ _ (by omega) (show middle < down by omega) (by omega))
        (not_lt.mpr downSmall)
  obtain ⟨budget, positive⟩ : ∃ budget, (right - left + 1).toNat = budget + 1 :=
    ⟨(right - left).toNat, by omega⟩
  rw [upStop, positive] at upOk
  rw [downStop, positive] at downOk
  rw [positive, partitionLoop, positive, upOk]
  simp only [bind, Except.bind]
  rw [downOk]
  exact if_neg (by omega)

theorem qsortSplit_ascending : qsortSplit left right ori = .ok (ori, centor left right) := by
  have bounds := centor_bounds nonneg large
  have restored : (ori ∘ Equiv.swap (centor left right) (right - 1)) ∘
      Equiv.swap (centor left right) (right - 1) = ori := by
    funext index
    simp only [Function.comp_apply, Equiv.swap_apply_self]
  rw [qsortSplit, median3_ascending nonneg large ascending]
  simp only [bind, Except.bind]
  rw [partitionLoop_ascending nonneg large ascending]
  simp only
  rw [swap_ok _ ⟨by omega, by omega⟩ ⟨by omega, by omega⟩, restored]

end Ascending

end Lctools.Csort
