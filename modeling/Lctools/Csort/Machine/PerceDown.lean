import Lctools.Csort.Lengths
import Lctools.Csort.PerceDown
import Mathlib.Algebra.Notation.Indicator

/-! # The two sift-downs with `int` indices

A sift-down computes the children of each node that it comes to, and the children of
the nodes from `2 ^ 30` on have no `int` index.
-/

namespace Lctools.Csort.Machine

open Cells Fallible Overflow BinaryHeap OrderDual
open Relation (ReflTransGen)

/-! ## The program -/

section Model

variable {α : Type} [LinearOrder α] (size len : ℤ)

def smallerChild (ori : ℤ → α) (i : ℤ) : Except (Stop Fault) ℤ := do
  let child ← leftChild i
  let last ← int (len - 1)
  if child < last then
    let first ← lift (get 0 (size - 1) ori child)
    let next ← int (child + 1)
    let second ← lift (get 0 (size - 1) ori next)
    if first > second then int (child + 1) else .ok child
  else
    .ok child

def perceLoopMin (tmp : α) : (budget : ℕ) → (ℤ → α) → (i : ℤ) →
    Except (Stop Fault) ((ℤ → α) × ℤ)
  | 0, _, _ => .error (.fault .unfinished)
  | budget + 1, ori, i => do
      let first ← leftChild i
      if first < len then
        let child ← smallerChild size len ori i
        let value ← lift (get 0 (size - 1) ori child)
        if tmp > value then
          let ori ← lift (put 0 (size - 1) ori i value)
          perceLoopMin tmp budget ori child
        else
          .ok (ori, i)
      else
        .ok (ori, i)

/-- The values that `i` takes in the loop of `perceDownMax`. -/
def positionsLoopMax (tmp : α) : (budget : ℕ) → (ℤ → α) → (i : ℤ) →
    Except (Stop Fault) (List ℤ)
  | 0, _, _ => .error (.fault .unfinished)
  | budget + 1, ori, i => do
      let first ← leftChild i
      if first < len then
        let child ← largerChild id size len ori i
        let value ← lift (get 0 (size - 1) ori child)
        if tmp < value then
          let ori ← lift (put 0 (size - 1) ori i value)
          let later ← positionsLoopMax tmp budget ori child
          .ok (i :: later)
        else
          .ok [i]
      else
        .ok [i]

/-- The values that `i` takes in the loop of `perceDownMin`. -/
def positionsLoopMin (tmp : α) : (budget : ℕ) → (ℤ → α) → (i : ℤ) →
    Except (Stop Fault) (List ℤ)
  | 0, _, _ => .error (.fault .unfinished)
  | budget + 1, ori, i => do
      let first ← leftChild i
      if first < len then
        let child ← smallerChild size len ori i
        let value ← lift (get 0 (size - 1) ori child)
        if tmp > value then
          let ori ← lift (put 0 (size - 1) ori i value)
          let later ← positionsLoopMin tmp budget ori child
          .ok (i :: later)
        else
          .ok [i]
      else
        .ok [i]

end Model

section Runs

variable {α : Type} [LinearOrder α] (size : ℤ) (ori : ℤ → α) (pos len : ℤ)

/-- `perceDownMin(ori, pos, len)` on an array of `size` elements. -/
def perceDownMin : Except (Stop Fault) (ℤ → α) := do
  let tmp ← lift (get 0 (size - 1) ori pos)
  let (ori, i) ← perceLoopMin size len tmp (len.toNat + 1) ori pos
  lift (put 0 (size - 1) ori i tmp)

/-- The positions of `i` in the run `perceDownMax(ori, pos, len)`. -/
def positionsMax : Except (Stop Fault) (List ℤ) := do
  let tmp ← lift (get 0 (size - 1) ori pos)
  positionsLoopMax size len tmp (len.toNat + 1) ori pos

/-- The positions of `i` in the run `perceDownMin(ori, pos, len)`. -/
def positionsMin : Except (Stop Fault) (List ℤ) := do
  let tmp ← lift (get 0 (size - 1) ori pos)
  positionsLoopMin size len tmp (len.toNat + 1) ori pos

end Runs

/-! ## Agreement with the unbounded model -/

section Agreement

variable {α : Type} [LinearOrder α] {size len : ℤ} (lenNonneg : 0 ≤ len)
  (range : len ≤ 2 ^ 31 - 1)

include lenNonneg range

theorem smallerChild_eq (ori : ℤ → α) {i : ℤ} (nonneg : 0 ≤ i) (small : i < 2 ^ 30) :
    smallerChild size len ori i = lift (Csort.smallerChild size len ori i) := by
  rw [smallerChild, Csort.smallerChild, bind_ok (leftChild_ok nonneg small),
    bind_ok (int_ok (by omega) (by omega))]
  have child : Csort.leftChild i = 2 * i + 1 := rfl
  split_ifs with both
  · apply lift_bind_eq
    intro first firstRead
    rw [bind_ok (int_ok (by omega) (by omega))]
    apply lift_bind_eq
    intro second secondRead
    split_ifs with less
    · exact int_ok (by omega) (by omega)
    · rfl
  · rfl

theorem positionsLoopMax_eq (tmp : α) : ∀ (budget : ℕ) (ori : ℤ → α) (i : ℤ), 0 ≤ i →
    i < 2 ^ 30 → SubtreeFits len i →
    positionsLoopMax size len tmp budget ori i =
      lift (Csort.positionsLoopMax size len tmp budget ori i)
  | 0, _, _, _, _, _ => rfl
  | budget + 1, ori, i, nonneg, small, fits => by
      rw [positionsLoopMax, Csort.positionsLoopMax, bind_ok (leftChild_ok nonneg small)]
      split_ifs with hasChild
      · rw [largerChild_eq id lenNonneg range ori nonneg small]
        apply lift_bind_eq
        intro child chosen
        apply lift_bind_eq
        intro value read
        have related := largerChild_child chosen
        have inside := largerChild_lt hasChild chosen
        have below := related.lt nonneg
        split_ifs with larger
        · apply lift_bind_eq
          intro ori written
          rw [positionsLoopMax_eq tmp budget ori child (by omega)
            (fits child (.single related) inside) (fits.child related)]
          apply lift_bind_eq
          intro later followed
          rfl
        · rfl
      · rfl

theorem perceLoopMin_eq (tmp : α) : ∀ (budget : ℕ) (ori : ℤ → α) (i : ℤ), 0 ≤ i →
    i < 2 ^ 30 → SubtreeFits len i →
    perceLoopMin size len tmp budget ori i = lift (Csort.perceLoopMin size len tmp budget ori i)
  | 0, _, _, _, _, _ => rfl
  | budget + 1, ori, i, nonneg, small, fits => by
      rw [perceLoopMin, Csort.perceLoopMin, bind_ok (leftChild_ok nonneg small)]
      split_ifs with hasChild
      · rw [smallerChild_eq lenNonneg range ori nonneg small]
        apply lift_bind_eq
        intro child chosen
        apply lift_bind_eq
        intro value read
        have related := smallerChild_child chosen
        have inside := smallerChild_lt hasChild chosen
        have below := related.lt nonneg
        split_ifs with smaller
        · apply lift_bind_eq
          intro ori written
          exact perceLoopMin_eq tmp budget ori child (by omega)
            (fits child (.single related) inside) (fits.child related)
        · rfl
      · rfl

theorem positionsLoopMin_eq (tmp : α) : ∀ (budget : ℕ) (ori : ℤ → α) (i : ℤ), 0 ≤ i →
    i < 2 ^ 30 → SubtreeFits len i →
    positionsLoopMin size len tmp budget ori i =
      lift (Csort.positionsLoopMin size len tmp budget ori i)
  | 0, _, _, _, _, _ => rfl
  | budget + 1, ori, i, nonneg, small, fits => by
      rw [positionsLoopMin, Csort.positionsLoopMin, bind_ok (leftChild_ok nonneg small)]
      split_ifs with hasChild
      · rw [smallerChild_eq lenNonneg range ori nonneg small]
        apply lift_bind_eq
        intro child chosen
        apply lift_bind_eq
        intro value read
        have related := smallerChild_child chosen
        have inside := smallerChild_lt hasChild chosen
        have below := related.lt nonneg
        split_ifs with smaller
        · apply lift_bind_eq
          intro ori written
          rw [positionsLoopMin_eq tmp budget ori child (by omega)
            (fits child (.single related) inside) (fits.child related)]
          apply lift_bind_eq
          intro later followed
          rfl
        · rfl
      · rfl

variable (ori : ℤ → α) {pos : ℤ} (nonneg : 0 ≤ pos) (small : pos < 2 ^ 30)
  (fits : SubtreeFits len pos)

include nonneg small fits

theorem perceDownMin_eq :
    perceDownMin size ori pos len = lift (Csort.perceDownMin size ori pos len) := by
  rw [perceDownMin, Csort.perceDownMin]
  apply lift_bind_eq
  intro tmp read
  rw [perceLoopMin_eq lenNonneg range tmp _ ori pos nonneg small fits]
  apply lift_bind_eq
  rintro ⟨cells, stop⟩ looped
  rfl

theorem positionsMax_eq :
    positionsMax size ori pos len = lift (Csort.positionsMax size ori pos len) := by
  rw [positionsMax, Csort.positionsMax]
  apply lift_bind_eq
  intro tmp read
  exact positionsLoopMax_eq lenNonneg range tmp _ ori pos nonneg small fits

theorem positionsMin_eq :
    positionsMin size ori pos len = lift (Csort.positionsMin size ori pos len) := by
  rw [positionsMin, Csort.positionsMin]
  apply lift_bind_eq
  intro tmp read
  exact positionsLoopMin_eq lenNonneg range tmp _ ori pos nonneg small fits

end Agreement

/-! ## A node whose children have no index

An array whose greater elements are those on the way down to such a node leads the
sift-down there.
-/

section Way

variable {pos last : ℤ}

/-- The nodes below `pos` from which `last` is reached. -/
def way (pos last : ℤ) : Set ℤ := {index | index ≠ pos ∧ ReflTransGen Child index last}

/-- Ones on the way down to `last`, and zeros elsewhere. -/
noncomputable def wayTo (pos last : ℤ) : ℤ → ℤ := (way pos last).indicator 1

theorem wayTo_on {index : ℤ} (on : index ∈ way pos last) : wayTo pos last index = 1 :=
  Set.indicator_of_mem on 1

theorem wayTo_off {index : ℤ} (off : index ∉ way pos last) : wayTo pos last index = 0 :=
  Set.indicator_of_notMem off 1

theorem wayTo_le_one (index : ℤ) : wayTo pos last index ≤ 1 := by
  by_cases on : index ∈ way pos last
  · exact (wayTo_on on).le
  · rw [wayTo_off on]
    exact Int.zero_le_ofNat 1

theorem le_of_descends {first second : ℤ} (nonneg : 0 ≤ first)
    (descends : ReflTransGen Child first second) : first ≤ second := by
  induction descends with
  | refl => exact le_refl _
  | tail _ related below => exact below.trans (related.lt (by omega)).le

theorem not_descends_sister {i : ℤ} (nonneg : 0 ≤ i)
    (second : ReflTransGen Child (2 * i + 2) last) : ¬ReflTransGen Child (2 * i + 1) last := by
  intro first
  have unique : Relator.RightUnique (Function.swap Child) :=
    fun _ _ _ ofFirst ofSecond => Child.parent_unique ofFirst ofSecond
  rcases ReflTransGen.total_of_right_unique unique (Relation.reflTransGen_swap.mpr first)
    (Relation.reflTransGen_swap.mpr second) with backwards | forwards
  · have ordered := le_of_descends (by omega) (Relation.reflTransGen_swap.mp backwards)
    omega
  · rcases (Relation.reflTransGen_swap.mp forwards).cases_head with same | ⟨child, related, rest⟩
    · omega
    · have after := related.lt (by omega)
      have ordered := le_of_descends (by omega) rest
      unfold Child at related
      omega

theorem wayTo_heap {node child : ℤ} (above : pos < node)
    (related : Child node child) : wayTo pos last child ≤ wayTo pos last node := by
  by_cases on : child ∈ way pos last
  · have nodeOn : node ∈ way pos last := ⟨by omega, .head related on.2⟩
    rw [wayTo_on on, wayTo_on nodeOn]
  · rw [wayTo_off on]
    by_cases nodeOn : node ∈ way pos last
    · rw [wayTo_on nodeOn]
      exact Int.zero_le_ofNat 1
    · rw [wayTo_off nodeOn]

variable {size len : ℤ} (nonneg : 0 ≤ pos) (range : len ≤ 2 ^ 31 - 1) (lenLe : len ≤ size)
  (inside : last < len)

include nonneg range lenLe inside

theorem largerChild_way {ori : ℤ → ℤ} {i child : ℤ} (posLe : pos ≤ i) (small : i < 2 ^ 30)
    (below : ∀ index, i < index → ori index = wayTo pos last index) (related : Child i child)
    (descends : ReflTransGen Child child last) :
    largerChild id size len ori i = .ok child := by
  have first : Csort.leftChild i = 2 * i + 1 := rfl
  have after := related.lt (by omega)
  have childLe := le_of_descends (by omega) descends
  have childOn : child ∈ way pos last := ⟨by omega, descends⟩
  rw [largerChild, bind_ok (leftChild_ok (by omega) small), bind_ok (int_ok (by omega) (by omega))]
  cases related with
  | inl isFirst =>
      split_ifs with both
      · rw [bind_ok (lift_get_ok ori (by omega) (by omega)),
          bind_ok (int_ok (by omega) (by omega)), bind_ok (lift_get_ok ori (by omega) (by omega)),
          first, ← isFirst, below child after, wayTo_on childOn, below _ (by omega)]
        exact if_neg (not_lt.mpr (wayTo_le_one _))
      · rw [first, isFirst]
  | inr isSecond =>
      rw [isSecond] at descends
      have firstOff : 2 * i + 1 ∉ way pos last :=
        fun on => not_descends_sister (by omega) descends on.2
      have next : 2 * i + 1 + 1 = child := by omega
      rw [if_pos (by omega), bind_ok (lift_get_ok ori (by omega) (by omega)),
        bind_ok (int_ok (by omega) (by omega)), bind_ok (lift_get_ok ori (by omega) (by omega)),
        first, next, below child after, wayTo_on childOn, below _ (by omega), wayTo_off firstOff]
      exact (if_pos Int.zero_lt_one).trans (int_ok (by omega) (by omega))

theorem perceLoop_way (large : 2 ^ 30 ≤ last) {i : ℤ} (descends : ReflTransGen Child i last) :
    ∀ (budget : ℕ) (ori : ℤ → ℤ), pos ≤ i → last - i < budget →
      (∀ index, i < index → ori index = wayTo pos last index) →
      ∃ value, perceLoop id size len 0 budget ori i = .error (.overflow value) := by
  induction descends using ReflTransGen.head_induction_on with
  | refl =>
      intro budget ori posLe enough below
      cases budget with
      | zero => simp at enough
      | succ budget => exact ⟨_, perceLoop_overflow 0 budget ori large⟩
  | @head i child related descends induction =>
      intro budget ori posLe enough below
      have after := related.lt (by omega)
      have childLe := le_of_descends (by omega) descends
      cases budget with
      | zero =>
          push_cast at enough
          omega
      | succ budget =>
          push_cast at enough
          by_cases small : i < 2 ^ 30
          · have hasChild : Csort.leftChild i < len := by
              have first : Csort.leftChild i = 2 * i + 1 := rfl
              unfold Child at related
              omega
            have chosen := largerChild_way nonneg range lenLe inside posLe small below related
              descends
            have larger : id 0 < id (ori child) := by
              rw [below child after, wayTo_on ⟨by omega, descends⟩]
              exact Int.zero_lt_one
            have kept : ∀ index, child < index →
                Function.update ori i (ori child) index = wayTo pos last index := by
              intro index further
              rw [Function.update_of_ne (by omega), below index (by omega)]
            rcases induction budget (Function.update ori i (ori child)) (by omega) (by omega) kept
              with ⟨value, overflows⟩
            use value
            rw [perceLoop, bind_ok (leftChild_ok (by omega) small), if_pos hasChild,
              bind_ok chosen, bind_ok (lift_get_ok ori (by omega) (by omega)), if_pos larger,
              bind_ok (lift_put_ok ori _ (by omega) (by omega))]
            exact overflows
          · exact ⟨_, perceLoop_overflow 0 budget ori (by omega)⟩

theorem perceDownMax_way (large : 2 ^ 30 ≤ last) (descends : ReflTransGen Child pos last) :
    ∃ value, perceDownMax size (wayTo pos last) pos len = .error (.overflow value) := by
  have posLe := le_of_descends nonneg descends
  have start : wayTo pos last pos = 0 := wayTo_off fun on => on.1 rfl
  rcases perceLoop_way nonneg range lenLe inside large descends (len.toNat + 1) (wayTo pos last)
    (le_refl _) (by omega) (fun _ _ => rfl) with ⟨value, overflows⟩
  use value
  rw [perceDownMax, perceDown, bind_ok (lift_get_ok _ nonneg (by omega)), start,
    bind_error overflows]

end Way

/-! ## When the sift-downs work -/

/-- What the two sift-downs of `pos` are for, on every array of at least `len` elements:
each extends the heap, and they go through the same positions with the order reversed. -/
def SiftDownsWork (pos len : ℤ) : Prop :=
  ∀ (size : ℕ) (ori : ℤ → ℤ), len ≤ size →
    SiftsDown (· ≤ ·) size ori pos len (perceDownMax size ori pos len) ∧
    SiftsDown (· ≥ ·) size ori pos len (perceDownMin size ori pos len) ∧
    perceDownMax size (toDual ∘ ori) pos len =
      (perceDownMin size ori pos len).map (toDual ∘ ·) ∧
    positionsMax size (toDual ∘ ori) pos len = positionsMin size ori pos len

theorem siftsDown_lift {α : Type} {atMost : α → α → Prop} {size : ℕ} {ori : ℤ → α} {pos len : ℤ}
    {result : Except Fault (ℤ → α)} (sifts : SiftsDown atMost size ori pos len result) :
    SiftsDown atMost size ori pos len (lift result) := by
  intro heap
  rcases sifts heap with ⟨after, computed, rest⟩
  exact ⟨after, by rw [computed, lift_ok], rest⟩

theorem not_siftDownsWork {pos len node : ℤ} (nonneg : 0 ≤ pos) (range : len ≤ 2 ^ 31 - 1)
    (descends : ReflTransGen Child pos node) (inside : node < len) (large : 2 ^ 30 ≤ node) :
    ¬SiftDownsWork pos len := by
  intro works
  have posLe := le_of_descends nonneg descends
  have size : len ≤ len.toNat := by omega
  rcases works len.toNat (wayTo pos node) size with ⟨sifts, -⟩
  rcases sifts fun parent child above _ related _ => wayTo_heap above related with
    ⟨after, computed, -⟩
  rcases perceDownMax_way nonneg range size inside large descends with ⟨value, overflows⟩
  rw [overflows] at computed
  cases computed

/-- The sift-downs of `pos` work on every array exactly when each node below `len` that
is `pos` or a descendant of it comes before `2 ^ 30`. -/
theorem perceDown_sifts_iff {pos len : ℤ} (nonneg : 0 ≤ pos) (inside : pos < len)
    (range : len ≤ 2 ^ 31 - 1) :
    SiftDownsWork pos len ↔ ∀ node, ReflTransGen Child pos node → node < len → node < 2 ^ 30 := by
  constructor
  · intro works node descends below
    by_contra large
    exact not_siftDownsWork nonneg range descends below (by omega) works
  · intro fits size ori lenLe
    have small := fits pos .refl inside
    rcases perceDown_sifts_dually ori nonneg inside lenLe with
      ⟨sifts, siftsMin, dual, samePositions⟩
    rw [perceDownMax, perceDown_eq id (by omega) range ori small fits, perceDownMax,
      perceDown_eq id (by omega) range (toDual ∘ ori) small fits,
      perceDownMin_eq (by omega) range ori nonneg small fits,
      positionsMax_eq (by omega) range (toDual ∘ ori) nonneg small fits,
      positionsMin_eq (by omega) range ori nonneg small fits]
    refine ⟨siftsDown_lift sifts, siftsDown_lift siftsMin, ?_, congrArg lift samePositions⟩
    rw [← lift_map, ← dual]
    rfl

theorem perceDown_sifts_million :
    (0 : ℤ) ≤ 5 ∧ (5 : ℤ) < 1000000 ∧ (1000000 : ℤ) ≤ 2 ^ 31 - 1 ∧ SiftDownsWork 5 1000000 :=
  ⟨by omega, by omega, by omega, (perceDown_sifts_iff (by omega) (by omega) (by omega)).mpr
    (subtreeFits_of_length (by omega) 5)⟩

/-- The parent of the last of `2 ^ 30 + 1` elements sinks to a node whose children have
no index. -/
theorem perceDown_overflows_at_last_parent : ¬SiftDownsWork (2 ^ 29 - 1) (2 ^ 30 + 1) :=
  not_siftDownsWork (by omega) (by omega)
    (.single (.inr (by omega))) (by omega) (le_refl _)

end Lctools.Csort.Machine
