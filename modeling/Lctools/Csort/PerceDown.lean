import Lctools.Csort.Heapsort
import Mathlib.Logic.Relation
import Mathlib.Order.OrderDual

/-! # The two sift-downs of `csort/Heapsort.c`

`perceDownMax` and `perceDownMin` are written out apart from each other in the
source. The positions that the variable `i` of the loop goes through are kept as
a list here, so that the two can be compared step by step. Indices are unbounded, as
in `Csort.Heapsort`.
-/

namespace Lctools.Csort

open Cells BinaryHeap Fallible OrderDual
open Relation (ReflTransGen)

/-! ## The program -/

section Model

variable {α : Type} [LinearOrder α] (size len : ℤ)

/-- `child = LeftChild(i); if(child < len-1 && ori[child] > ori[child+1]) child++;` -/
def smallerChild (ori : ℤ → α) (i : ℤ) : Except Fault ℤ :=
  if leftChild i < len - 1 then do
    let first ← get 0 (size - 1) ori (leftChild i)
    let second ← get 0 (size - 1) ori (leftChild i + 1)
    if first > second then .ok (leftChild i + 1) else .ok (leftChild i)
  else
    .ok (leftChild i)

/-- The `for` loop of `perceDownMin`; returns the cells and the final `i`. -/
def perceLoopMin (tmp : α) : (budget : ℕ) → (ℤ → α) → (i : ℤ) → Except Fault ((ℤ → α) × ℤ)
  | 0, _, _ => .error .unfinished
  | budget + 1, ori, i =>
      if leftChild i < len then do
        let child ← smallerChild size len ori i
        let value ← get 0 (size - 1) ori child
        if tmp > value then
          let ori ← put 0 (size - 1) ori i value
          perceLoopMin tmp budget ori child
        else
          .ok (ori, i)
      else
        .ok (ori, i)

/-- The values that `i` takes in the loop of `perceDownMax`. -/
def positionsLoopMax (tmp : α) : (budget : ℕ) → (ℤ → α) → (i : ℤ) → Except Fault (List ℤ)
  | 0, _, _ => .error .unfinished
  | budget + 1, ori, i =>
      if leftChild i < len then do
        let child ← largerChild id size len ori i
        let value ← get 0 (size - 1) ori child
        if tmp < value then
          let ori ← put 0 (size - 1) ori i value
          let later ← positionsLoopMax tmp budget ori child
          .ok (i :: later)
        else
          .ok [i]
      else
        .ok [i]

/-- The values that `i` takes in the loop of `perceDownMin`. -/
def positionsLoopMin (tmp : α) : (budget : ℕ) → (ℤ → α) → (i : ℤ) → Except Fault (List ℤ)
  | 0, _, _ => .error .unfinished
  | budget + 1, ori, i =>
      if leftChild i < len then do
        let child ← smallerChild size len ori i
        let value ← get 0 (size - 1) ori child
        if tmp > value then
          let ori ← put 0 (size - 1) ori i value
          let later ← positionsLoopMin tmp budget ori child
          .ok (i :: later)
        else
          .ok [i]
      else
        .ok [i]

end Model

section Runs

variable {α : Type} [LinearOrder α] (size : ℤ) (ori : ℤ → α) (pos len : ℤ)

/-- `perceDownMin(ori, pos, len)` on an array of `size` elements. -/
def perceDownMin : Except Fault (ℤ → α) := do
  let tmp ← get 0 (size - 1) ori pos
  let (ori, i) ← perceLoopMin size len tmp (len.toNat + 1) ori pos
  put 0 (size - 1) ori i tmp

/-- The positions of `i` in the run `perceDownMax(ori, pos, len)`. -/
def positionsMax : Except Fault (List ℤ) := do
  let tmp ← get 0 (size - 1) ori pos
  positionsLoopMax size len tmp (len.toNat + 1) ori pos

/-- The positions of `i` in the run `perceDownMin(ori, pos, len)`. -/
def positionsMin : Except Fault (List ℤ) := do
  let tmp ← get 0 (size - 1) ori pos
  positionsLoopMin size len tmp (len.toNat + 1) ori pos

end Runs

/-! ## Where a sift-down writes -/

section Frame

variable {α : Type} [LinearOrder α] {size len : ℤ}

/-- The recorded positions are those of the loop: they go down from `i` along
children to the position at which the loop stops, and no other cell is written. -/
theorem perceLoop_positions {tmp : α} (budget : ℕ) {ori : ℤ → α} {i : ℤ} {after : ℤ → α} {stop : ℤ}
    (computed : perceLoop id size len tmp budget ori i = .ok (after, stop)) :
    ∃ path, positionsLoopMax size len tmp budget ori i = .ok path ∧ path.getLast? = some stop ∧
      (∀ index ∈ path, ReflTransGen Child i index) ∧
      ∀ index, index ∉ path → after index = ori index := by
  have stays : ∀ {cells : ℤ → α} {last : ℤ},
      Except.ok (ε := Fault) (cells, last) = .ok (after, stop) →
      [last].getLast? = some stop ∧ (∀ index ∈ [last], ReflTransGen Child last index) ∧
        ∀ index, index ∉ [last] → after index = cells index := by
    intro cells last equal
    injection equal with equal
    injection equal with sameCells sameIndex
    subst sameCells sameIndex
    refine ⟨rfl, ?_, fun _ _ => rfl⟩
    intro index member
    rw [List.mem_singleton.mp member]
  induction budget generalizing ori i with
  | zero => cases computed
  | succ budget induction =>
      rw [perceLoop] at computed
      rw [positionsLoopMax]
      by_cases hasChild : leftChild i < len
      · rw [if_pos hasChild] at computed ⊢
        rcases of_bind_ok computed with ⟨child, chosen, afterChoice⟩
        rcases of_bind_ok afterChoice with ⟨value, read, afterRead⟩
        rw [bind_ok chosen, bind_ok read]
        by_cases larger : tmp < value
        · rw [if_pos (show id tmp < id value from larger)] at afterRead
          rw [if_pos larger]
          rcases of_bind_ok afterRead with ⟨cells, written, afterWrite⟩
          rcases induction afterWrite with ⟨later, followed, last, descending, frame⟩
          have isChild := largerChild_child chosen
          refine ⟨i :: later, ?_, ?_, ?_, ?_⟩
          · rw [bind_ok written, bind_ok followed]
          · rw [List.getLast?_cons, last]
            rfl
          · intro index member
            rcases List.mem_cons.mp member with rfl | deeper
            · exact ReflTransGen.refl
            · exact ReflTransGen.head isChild (descending index deeper)
          · intro index notMember
            have apart := List.ne_of_not_mem_cons notMember
            rw [frame index (List.not_mem_of_not_mem_cons notMember)]
            unfold put at written
            split_ifs at written
            injection written with written
            rw [← written, Function.update_of_ne apart]
        · rw [if_neg (show ¬id tmp < id value from larger)] at afterRead
          rw [if_neg larger]
          exact ⟨[i], rfl, stays afterRead⟩
      · rw [if_neg hasChild] at computed ⊢
        exact ⟨[i], rfl, stays computed⟩

theorem perceDownMax_frame {ori after : ℤ → α} {pos : ℤ}
    (computed : perceDownMax size ori pos len = .ok after) {index : ℤ}
    (elsewhere : ¬ReflTransGen Child pos index) : after index = ori index := by
  unfold perceDownMax perceDown at computed
  rcases of_bind_ok computed with ⟨tmp, -, afterRead⟩
  rcases of_bind_ok afterRead with ⟨⟨cells, stop⟩, looped, written⟩
  rcases perceLoop_positions _ looped with ⟨path, -, last, descending, frame⟩
  have notPath : index ∉ path := fun member => elsewhere (descending index member)
  have apart : index ≠ stop := by
    intro equal
    rw [equal] at notPath
    exact notPath (List.mem_of_getLast? last)
  simp only [put] at written
  split_ifs at written
  injection written with written
  rw [← written, Function.update_of_ne apart]
  exact frame index notPath

end Frame

/-! ## The two versions are dual -/

section Dual

variable {α : Type} [LinearOrder α] (size len : ℤ)

theorem largerChild_dual (ori : ℤ → α) (i : ℤ) :
    largerChild id size len (toDual ∘ ori) i = smallerChild size len ori i := by
  unfold largerChild smallerChild
  rw [get_comp, get_comp]
  split_ifs
  · cases get 0 (size - 1) ori (leftChild i) with
    | error fault => rfl
    | ok first =>
        cases get 0 (size - 1) ori (leftChild i + 1) with
        | error fault => rfl
        | ok second => exact if_congr Iff.rfl rfl rfl
  · rfl

theorem smallerChild_child {size len : ℤ} {ori : ℤ → α} {i child : ℤ}
    (chosen : smallerChild size len ori i = .ok child) : Child i child := by
  rw [← largerChild_dual] at chosen
  exact largerChild_child chosen

theorem smallerChild_lt {size len : ℤ} {ori : ℤ → α} {i child : ℤ} (hasChild : leftChild i < len)
    (chosen : smallerChild size len ori i = .ok child) : child < len := by
  rw [← largerChild_dual] at chosen
  exact largerChild_lt hasChild chosen

theorem perceLoop_dual (tmp : α) (budget : ℕ) (ori : ℤ → α) (i : ℤ) :
    perceLoop id size len (toDual tmp) budget (toDual ∘ ori) i =
      (perceLoopMin size len tmp budget ori i).map (Prod.map (toDual ∘ ·) id) := by
  induction budget generalizing ori i with
  | zero => rfl
  | succ budget induction =>
      rw [perceLoop, perceLoopMin, largerChild_dual]
      split_ifs
      · cases smallerChild size len ori i with
        | error fault => rfl
        | ok child =>
            simp only [bind, Except.bind]
            rw [get_comp]
            cases get 0 (size - 1) ori child with
            | error fault => rfl
            | ok value =>
                change (if toDual tmp < toDual value then _ else _) = _
                simp only [toDual_lt_toDual, Except.map]
                rw [put_comp]
                split_ifs
                · cases put 0 (size - 1) ori i value with
                  | error fault => rfl
                  | ok cells => exact induction cells child
                · rfl
      · rfl

theorem positionsLoop_dual (tmp : α) (budget : ℕ) (ori : ℤ → α) (i : ℤ) :
    positionsLoopMax size len (toDual tmp) budget (toDual ∘ ori) i =
      positionsLoopMin size len tmp budget ori i := by
  induction budget generalizing ori i with
  | zero => rfl
  | succ budget induction =>
      rw [positionsLoopMax, positionsLoopMin, largerChild_dual]
      split_ifs
      · cases smallerChild size len ori i with
        | error fault => rfl
        | ok child =>
            simp only [bind, Except.bind]
            rw [get_comp]
            cases get 0 (size - 1) ori child with
            | error fault => rfl
            | ok value =>
                change (if toDual tmp < toDual value then _ else _) = _
                simp only [toDual_lt_toDual]
                rw [put_comp]
                split_ifs
                · cases put 0 (size - 1) ori i value with
                  | error fault => rfl
                  | ok cells =>
                      simp only [Except.map]
                      rw [induction cells child]
                · rfl
      · rfl

variable (ori : ℤ → α) (pos : ℤ)

theorem perceDownMax_dual :
    perceDownMax size (toDual ∘ ori) pos len =
      (perceDownMin size ori pos len).map (toDual ∘ ·) := by
  unfold perceDownMax perceDown perceDownMin
  rw [get_comp]
  cases get 0 (size - 1) ori pos with
  | error fault => rfl
  | ok tmp =>
      simp only [Except.map, bind, Except.bind]
      rw [perceLoop_dual]
      cases perceLoopMin size len tmp (len.toNat + 1) ori pos with
      | error fault => rfl
      | ok result => exact put_comp toDual 0 (size - 1) result.1 result.2 tmp

theorem positionsMax_dual :
    positionsMax size (toDual ∘ ori) pos len = positionsMin size ori pos len := by
  unfold positionsMax positionsMin
  rw [get_comp]
  cases get 0 (size - 1) ori pos with
  | error fault => rfl
  | ok tmp => exact positionsLoop_dual size len tmp (len.toNat + 1) ori pos

end Dual

/-! ## What a sift-down is for -/

section Purpose

variable {α : Type} [LinearOrder α]

/-- `result` is what a sift-down of the node `pos` has to return on an array of
`size` elements, for the order in which children are `atMost` their parents. -/
def SiftsDown {ε : Type} (atMost : α → α → Prop) (size : ℕ) (ori : ℤ → α) (pos len : ℤ)
    (result : Except ε (ℤ → α)) : Prop :=
  (∀ node child, pos < node → node < len → Child node child → child < len →
    atMost (ori child) (ori node)) →
  ∃ after, result = .ok after ∧
    (∀ node child, pos ≤ node → node < len → Child node child → child < len →
      atMost (after child) (after node)) ∧
    (∀ index, ¬ReflTransGen Child pos index ∨ len ≤ index → after index = ori index) ∧
    (contents size after).Perm (contents size ori)

variable {size : ℕ} {pos len : ℤ}

theorem perceDownMax_siftsDown (ori : ℤ → α) (nonneg : 0 ≤ pos) (inside : pos < len)
    (lenLe : len ≤ size) :
    SiftsDown (· ≤ ·) size ori pos len (perceDownMax size ori pos len) := by
  intro heap
  have below : HeapFrom id (pos + 1) len ori := by
    intro node child above isChild childInside
    have smaller := isChild.lt (by omega)
    exact heap node child (by omega) (by omega) isChild childInside
  rcases perceDown_ok id size len ori nonneg (by omega) lenLe below with
    ⟨after, computed, extended, rearranged⟩
  refine ⟨after, computed, ?_, ?_, ?_⟩
  · intro node child above _ isChild childInside
    exact extended node child above isChild childInside
  · intro index untouched
    rcases untouched with elsewhere | beyond
    · exact perceDownMax_frame computed elsewhere
    · exact rearranged.eq_outside (by omega)
  · apply Rearranged.contents_perm
    exact rearranged.widen nonneg (by omega)

theorem SiftsDown.of_dual {ε : Type} {ori : ℤ → α} {result : Except ε (ℤ → α)}
    (sifts : SiftsDown (· ≤ ·) size (toDual ∘ ori) pos len (result.map (toDual ∘ ·))) :
    SiftsDown (· ≥ ·) size ori pos len result := by
  intro heap
  rcases sifts heap with ⟨after, computed, extended, frame, permuted⟩
  cases result with
  | error fault => cases computed
  | ok cells =>
      injection computed with same
      subst same
      refine ⟨cells, rfl, extended, ?_, ?_⟩
      · intro index untouched
        exact toDual.injective (frame index untouched)
      · have unmapped := permuted.map ofDual
        unfold contents at unmapped ⊢
        rw [List.map_map, List.map_map] at unmapped
        exact unmapped

theorem perceDown_sifts_dually (ori : ℤ → α) (nonneg : 0 ≤ pos) (inside : pos < len)
    (lenLe : len ≤ size) :
    SiftsDown (· ≤ ·) size ori pos len (perceDownMax size ori pos len) ∧
    SiftsDown (· ≥ ·) size ori pos len (perceDownMin size ori pos len) ∧
    perceDownMax size (toDual ∘ ori) pos len =
      (perceDownMin size ori pos len).map (toDual ∘ ·) ∧
    positionsMax size (toDual ∘ ori) pos len = positionsMin size ori pos len := by
  have dual := perceDownMax_dual size len ori pos
  refine ⟨perceDownMax_siftsDown ori nonneg inside lenLe, ?_, dual,
    positionsMax_dual size len ori pos⟩
  apply SiftsDown.of_dual
  rw [← dual]
  exact perceDownMax_siftsDown (toDual ∘ ori) nonneg inside lenLe

end Purpose

end Lctools.Csort
