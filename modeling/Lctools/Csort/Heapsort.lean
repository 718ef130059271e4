import Lctools.Csort.Sorting
import Lctools.Foundation.BinaryHeap
import Lctools.Foundation.Fallible

/-! # `csort/Heapsort.c`

The array has `size` elements and every access is checked against it, also when
the sift-down is told of a shorter length. Indices are unbounded integers here;
`Csort.Machine` has the `int` arithmetic of the source.
-/

namespace Lctools.Csort

open Cells BinaryHeap Fallible

/-! ## The program -/

/-- The macro `LeftChild(i)`. -/
def leftChild (i : ℤ) : ℤ := 2 * i + 1

section Model

variable {α κ : Type} [LinearOrder κ] (key : α → κ) (size len : ℤ)

/-- `child = LeftChild(i); if(child < len-1 && ori[child] < ori[child+1]) child++;` -/
def largerChild (ori : ℤ → α) (i : ℤ) : Except Fault ℤ :=
  if leftChild i < len - 1 then do
    let first ← get 0 (size - 1) ori (leftChild i)
    let second ← get 0 (size - 1) ori (leftChild i + 1)
    if key first < key second then .ok (leftChild i + 1) else .ok (leftChild i)
  else
    .ok (leftChild i)

/-- The `for` loop of the sift-down; returns the cells and the final `i`. -/
def perceLoop (tmp : α) : (budget : ℕ) → (ℤ → α) → (i : ℤ) → Except Fault ((ℤ → α) × ℤ)
  | 0, _, _ => .error .unfinished
  | budget + 1, ori, i =>
      if leftChild i < len then do
        let child ← largerChild key size len ori i
        let value ← get 0 (size - 1) ori child
        if key tmp < key value then
          let ori ← put 0 (size - 1) ori i value
          perceLoop tmp budget ori child
        else
          .ok (ori, i)
      else
        .ok (ori, i)

/-- The sift-down of element `pos`, with elements compared through `key`. -/
def perceDown (ori : ℤ → α) (pos : ℤ) : Except Fault (ℤ → α) := do
  let tmp ← get 0 (size - 1) ori pos
  let (ori, i) ← perceLoop key size len tmp (len.toNat + 1) ori pos
  put 0 (size - 1) ori i tmp

end Model

variable {α : Type} [LinearOrder α]

/-- `perceDownMax(ori, pos, len)` on an array of `size` elements. -/
def perceDownMax (size : ℤ) (ori : ℤ → α) (pos len : ℤ) : Except Fault (ℤ → α) :=
  perceDown id size len ori pos

/-- `for(i = len/2; i >= 0; i--)`, with `count` iterations left to run. -/
def buildLoop (len : ℤ) : (count : ℕ) → (ℤ → α) → Except Fault (ℤ → α)
  | 0, ori => .ok ori
  | i + 1, ori => do
      let ori ← perceDownMax len ori i len
      buildLoop len i ori

/-- `for(i = len - 1; i>0; i--)`. -/
def extractLoop (len : ℤ) : (i : ℕ) → (ℤ → α) → Except Fault (ℤ → α)
  | 0, ori => .ok ori
  | i + 1, ori => do
      let ori ← swap 0 (len - 1) ori 0 (i + 1)
      let ori ← perceDownMax len ori 0 (i + 1)
      extractLoop len i ori

def heapsort (ori : ℤ → α) (len : ℕ) : Except Fault (ℤ → α) := do
  let ori ← buildLoop len (len / 2 + 1) ori
  extractLoop len (len - 1) ori

/-! ## Sifting down -/

section Sift

variable {κ : Type} [LinearOrder κ] {β : Type} (key : β → κ) (size len : ℤ)

theorem largerChild_ok (ori : ℤ → β) {i : ℤ} (nonneg : 0 ≤ i) (lenLe : len ≤ size)
    (hasChild : leftChild i < len) :
    ∃ child, largerChild key size len ori i = .ok child ∧ Child i child ∧ child < len ∧
      ∀ other, Child i other → other < len → key (ori other) ≤ key (ori child) := by
  unfold leftChild at hasChild
  unfold largerChild leftChild
  by_cases both : 2 * i + 1 < len - 1
  · rw [if_pos both, bind_ok (get_ok ori (by omega) (by omega)),
      bind_ok (get_ok ori (by omega) (by omega))]
    by_cases less : key (ori (2 * i + 1)) < key (ori (2 * i + 1 + 1))
    · rw [if_pos less]
      refine ⟨2 * i + 1 + 1, rfl, Or.inr (by omega), by omega, ?_⟩
      intro other isChild inside
      rcases isChild with rfl | rfl
      · exact less.le
      · exact le_of_eq (by congr 2; omega)
    · rw [if_neg less]
      refine ⟨2 * i + 1, rfl, Or.inl rfl, by omega, ?_⟩
      intro other isChild inside
      rcases isChild with rfl | rfl
      · exact le_refl _
      · have second : 2 * i + 2 = 2 * i + 1 + 1 := by omega
        rw [second]
        exact not_lt.mp less
  · rw [if_neg both]
    refine ⟨2 * i + 1, rfl, Or.inl rfl, hasChild, ?_⟩
    intro other isChild inside
    rcases isChild with rfl | rfl
    · exact le_refl _
    · omega

variable {key size len}

theorem largerChild_child {ori : ℤ → β} {i child : ℤ}
    (chosen : largerChild key size len ori i = .ok child) : Child i child := by
  unfold largerChild leftChild at chosen
  split_ifs at chosen with both
  · rcases of_bind_ok chosen with ⟨first, -, rest⟩
    rcases of_bind_ok rest with ⟨second, -, answer⟩
    split_ifs at answer
    · injection answer with equal
      exact Or.inr (by omega)
    · injection answer with equal
      exact Or.inl (by omega)
  · injection chosen with equal
    exact Or.inl (by omega)

theorem largerChild_lt {ori : ℤ → β} {i child : ℤ} (hasChild : leftChild i < len)
    (chosen : largerChild key size len ori i = .ok child) : child < len := by
  unfold largerChild at chosen
  split_ifs at chosen with both
  · rcases of_bind_ok chosen with ⟨first, -, rest⟩
    rcases of_bind_ok rest with ⟨second, -, answer⟩
    split_ifs at answer
    · injection answer with equal
      omega
    · injection answer with equal
      omega
  · injection chosen with equal
    omega

variable (key size len)

theorem perceLoop_ok (tmp : β) {start : ℤ} (nonneg : 0 ≤ start) (lenLe : len ≤ size) :
    ∀ (budget : ℕ) (ori : ℤ → β) (i : ℤ), start ≤ i → i < size → len - i < budget →
    0 < budget → Sinking key start len ori i tmp →
    ∃ after stop, perceLoop key size len tmp budget ori i = .ok (after, stop) ∧
      0 ≤ stop ∧ stop < size ∧
      HeapFrom key start len (Function.update after stop tmp) ∧
      Rearranged start (len - 1) (Function.update ori i tmp) (Function.update after stop tmp)
  | 0, _, _, _, _, _, positive, _ => absurd positive (by omega)
  | budget + 1, ori, i, startLe, inside, enough, _, sinking => by
      push_cast at enough
      rw [perceLoop]
      by_cases hasChild : leftChild i < len
      · rcases largerChild_ok key size len ori (by omega) lenLe hasChild with
          ⟨child, chosen, isChild, childInside, largest⟩
        have below := isChild.lt (by omega)
        rw [if_pos hasChild, bind_ok chosen, bind_ok (get_ok ori (by omega) (by omega))]
        by_cases larger : key tmp < key (ori child)
        · have moved := sinking.move nonneg startLe isChild childInside largest larger
          rcases perceLoop_ok tmp nonneg lenLe budget _ child (by omega) (by omega) (by omega)
              (by omega) moved with ⟨after, stop, computed, stopNonneg, stopInside, heap, rest⟩
          refine ⟨after, stop, ?_, stopNonneg, stopInside, heap, ?_⟩
          · rw [if_pos larger, bind_ok (put_ok ori _ (by omega) (by omega))]
            exact computed
          · refine Rearranged.trans ?_ rest
            rw [update_hole_eq_swap ori tmp (by omega)]
            exact Rearranged.swap _ ⟨by omega, by omega⟩ ⟨by omega, by omega⟩
        · refine ⟨ori, i, if_neg larger, by omega, inside, ?_, Rearranged.refl _ _ _⟩
          apply sinking.fill nonneg
          intro other related otherInside
          exact (largest other related otherInside).trans (not_lt.mp larger)
      · refine ⟨ori, i, if_neg hasChild, by omega, inside, ?_, Rearranged.refl _ _ _⟩
        apply sinking.fill nonneg
        intro other related otherInside
        unfold leftChild at hasChild
        unfold Child at related
        omega

/-- A sift-down extends a heap by the node that it starts from and rearranges
nothing before that node. -/
theorem perceDown_ok (ori : ℤ → β) {pos : ℤ} (nonneg : 0 ≤ pos) (inside : pos < size)
    (lenLe : len ≤ size) (heap : HeapFrom key (pos + 1) len ori) :
    ∃ after, perceDown key size len ori pos = .ok after ∧ HeapFrom key pos len after ∧
      Rearranged pos (len - 1) ori after := by
  rcases perceLoop_ok key size len (ori pos) nonneg lenLe (len.toNat + 1) ori pos (le_refl _)
      inside (by push_cast; omega) (by omega) (Sinking.of_heap nonneg heap (ori pos)) with
    ⟨after, stop, computed, stopNonneg, stopInside, extended, rearranged⟩
  rw [Function.update_eq_self] at rearranged
  refine ⟨Function.update after stop (ori pos), ?_, extended, rearranged⟩
  rw [perceDown, bind_ok (get_ok ori nonneg (by omega)), bind_ok computed]
  exact put_ok _ _ stopNonneg (by omega)

end Sift

/-! ## The two loops -/

theorem buildLoop_ok (len : ℤ) : ∀ (count : ℕ) (ori : ℤ → α), (count : ℤ) ≤ len →
    HeapFrom id count len ori →
    ∃ after, buildLoop len count ori = .ok after ∧ HeapFrom id 0 len after ∧
      Rearranged 0 (len - 1) ori after
  | 0, ori, _, heap => ⟨ori, rfl, heap, Rearranged.refl _ _ _⟩
  | count + 1, ori, bound, heap => by
      push_cast at bound heap
      rcases perceDown_ok id len len ori (Int.natCast_nonneg count) (by omega) (le_refl _) heap with
        ⟨middle, sifted, extended, firstMove⟩
      rcases buildLoop_ok len count middle (by omega) extended with
        ⟨after, computed, built, restMove⟩
      refine ⟨after, ?_, built, (firstMove.widen (by omega) (le_refl _)).trans restMove⟩
      rw [buildLoop]
      exact (bind_ok sifted _).trans computed

private theorem extract_ok {len : ℤ} {i : ℕ} {ori : ℤ → α} (inside : (i : ℤ) + 1 < len)
    (heap : HeapFrom id 0 (i + 1 + 1) ori) :
    ∃ swapped after, swap 0 (len - 1) ori 0 (i + 1) = .ok swapped ∧
      perceDownMax len swapped 0 (i + 1) = .ok after ∧ HeapFrom id 0 (i + 1) after ∧
      Rearranged 0 (i + 1) ori after ∧
      ∀ index : ℤ, 0 ≤ index → index ≤ i + 1 → after index ≤ after (i + 1) := by
  have swapped : swap 0 (len - 1) ori 0 (i + 1) = .ok (ori ∘ Equiv.swap 0 ((i : ℤ) + 1)) :=
    swap_ok ori ⟨by omega, by omega⟩ ⟨by omega, by omega⟩
  rcases perceDown_ok id len (i + 1) (ori ∘ Equiv.swap 0 ((i : ℤ) + 1)) (le_refl 0) (by omega)
      (by omega) heap.swap_root with ⟨after, sifted, extended, moved⟩
  have wide : Rearranged 0 ((i : ℤ) + 1) ori after :=
    (Rearranged.swap ori ⟨by omega, by omega⟩ ⟨by omega, by omega⟩).trans
      (moved.widen (le_refl _) (by omega))
  refine ⟨ori ∘ Equiv.swap 0 ((i : ℤ) + 1), after, swapped, sifted, extended, wide, ?_⟩
  have top : after ((i : ℤ) + 1) = ori 0 := by
    rw [moved.eq_outside (by omega), Function.comp_apply, Equiv.swap_apply_right]
  rw [top]
  apply wide.forall_inside (fun value => value ≤ ori 0)
  intro index lower upper
  have bound := heap.le_root index.toNat (by omega)
  rwa [Int.toNat_of_nonneg lower] at bound

/-- Extraction: a heap up to `i`, and settled cells above it. -/
theorem extractLoop_ok (len : ℤ) : ∀ (i : ℕ) (ori : ℤ → α), (i : ℤ) < len →
    HeapFrom id 0 (i + 1) ori → Settled id 0 i (len - 1) ori →
    ∃ after, extractLoop len i ori = .ok after ∧ Rearranged 0 (len - 1) ori after ∧
      Ascending id 0 (len - 1) after
  | 0, ori, _, _, settled => ⟨ori, rfl, Rearranged.refl _ _ _, settled.ascending⟩
  | i + 1, ori, inside, heap, settled => by
      push_cast at inside heap settled
      rcases extract_ok inside heap with
        ⟨swapped, middle, exchanged, sifted, extended, firstMove, largest⟩
      have lowered := settled.extend firstMove largest
      rw [Int.add_sub_cancel] at lowered
      rcases extractLoop_ok len i middle (by omega) extended lowered with
        ⟨after, computed, restMove, ascending⟩
      refine ⟨after, ?_, (firstMove.widen (le_refl _) (by omega)).trans restMove, ascending⟩
      rw [extractLoop, bind_ok exchanged]
      exact (bind_ok sifted _).trans computed

/-! ## The whole sort -/

theorem heapsort_ok (ori : ℤ → α) (len : ℕ) (positive : 1 ≤ len) :
    ∃ out, heapsort ori len = .ok out ∧ Rearranged 0 (len - 1) ori out ∧
      Ascending id 0 (len - 1) out := by
  -- The nodes above `len / 2` have no children.
  have leaves : HeapFrom id ((len / 2 + 1 : ℕ) : ℤ) len ori := by
    intro node child above isChild inside
    unfold Child at isChild
    omega
  rcases buildLoop_ok len (len / 2 + 1) ori (by omega) leaves with
    ⟨heap, built, ordered, buildMove⟩
  have whole : (((len - 1 : ℕ) : ℤ) + 1) = len := by omega
  rcases extractLoop_ok len (len - 1) heap (by omega) (by rwa [whole]) (by intro _ _ _ _ _ _; omega)
    with ⟨out, computed, extractMove, ascending⟩
  refine ⟨out, ?_, buildMove.trans extractMove, ascending⟩
  rw [heapsort, bind_ok built]
  exact computed

/-- On the empty array the building loop still sifts down the root. -/
theorem heapsort_empty (ori : ℤ → α) : heapsort ori 0 = .error (.outside 0 0 (-1)) :=
  rfl

end Lctools.Csort
