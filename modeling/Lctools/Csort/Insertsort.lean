import Lctools.Foundation.Fallible
import Lctools.Foundation.StableOrder

/-! # `csort/Insertsort.c`

Elements are compared through `key`, so that the same definition serves arrays
of plain integers (`key` the identity) and of records sorted by one field.
Index arithmetic is carried out in `ℤ`.
-/

namespace Lctools.Csort

open Cells Fallible StableOrder

variable {α κ : Type} [LinearOrder κ]

section Model

variable (key : α → κ) (base len : ℤ)

/-- `for(j = i; j > 0 && ori[j-1] > tmp; j--) ori[j] = ori[j-1];` for the array
that starts at `base` and has `len` elements. Returns the cells and the final
`j`. -/
def insertShift (tmp : α) : (j : ℕ) → (ℤ → α) → Except Fault ((ℤ → α) × ℕ)
  | 0, ori => .ok (ori, 0)
  | j + 1, ori => do
      let previous ← get base (base + len - 1) ori (base + j)
      if key tmp < key previous then
        let ori ← put base (base + len - 1) ori (base + j + 1) previous
        insertShift tmp j ori
      else
        .ok (ori, j + 1)

/-- One iteration of the outer loop: element `i` is taken out and put back at
its place among the elements before it. -/
def insertElement (i : ℕ) (ori : ℤ → α) : Except Fault (ℤ → α) := do
  let tmp ← get base (base + len - 1) ori (base + i)
  let (ori, j) ← insertShift key base len tmp i ori
  put base (base + len - 1) ori (base + j) tmp

/-- `for(i = 1; i < len; i++)`, with `count` iterations left to run. -/
def insertLoop : (count i : ℕ) → (ℤ → α) → Except Fault (ℤ → α)
  | 0, _, ori => .ok ori
  | count + 1, i, ori => do
      let ori ← insertElement key base len i ori
      insertLoop count (i + 1) ori

/-- `Insertsort(ori + base, len)`. -/
def insertsort (ori : ℤ → α) : Except Fault (ℤ → α) :=
  insertLoop key base len (len - 1).toNat 1 ori

end Model

variable {key : α → κ} {base len : ℤ}

/-- What the shifting loop leaves behind when it started at `start` and stopped
at `stop`: the cells above `stop` moved up by one, their keys exceed the key of
`tmp`, and the cell below `stop` does not. -/
structure Shifted (key : α → κ) (base : ℤ) (tmp : α) (start : ℕ) (before : ℤ → α)
    (after : ℤ → α) (stop : ℕ) : Prop where
  stop_le : stop ≤ start
  moved : ∀ index, base + stop < index → index ≤ base + start →
    after index = before (index - 1) ∧ key tmp < key (before (index - 1))
  unmoved : ∀ index, ¬(base + stop < index ∧ index ≤ base + start) →
    after index = before index
  below : 0 < stop → key (before (base + stop - 1)) ≤ key tmp
  rearranged : Rearranged base (base + start)
    (Function.update before (base + start) tmp)
    (Function.update after (base + stop) tmp)

namespace Shifted

variable {tmp : α} {start : ℕ} {ori : ℤ → α}

theorem stay (below : 0 < start → key (ori (base + start - 1)) ≤ key tmp) :
    Shifted key base tmp start ori ori start := by
  refine ⟨le_refl start, ?_, fun _ _ => rfl, below, Rearranged.refl _ _ _⟩
  intro index above atMost
  omega

theorem move {after : ℤ → α} {stop : ℕ} (larger : key tmp < key (ori (base + start)))
    (shifted : Shifted key base tmp start
      (Function.update ori (base + start + 1) (ori (base + start))) after stop) :
    Shifted key base tmp (start + 1) ori after stop := by
  have stopLe := shifted.stop_le
  have same : ∀ index, index ≤ base + start →
      Function.update ori (base + start + 1) (ori (base + start)) index = ori index := by
    intro index atMost
    exact Function.update_of_ne (by omega) _ _
  refine ⟨by omega, ?_, ?_, ?_, ?_⟩
  · intro index above atMost
    by_cases atTop : index = base + start + 1
    · subst atTop
      rw [shifted.unmoved _ (by omega), Function.update_self]
      simpa using larger
    · have inner := shifted.moved index above (by push_cast at atMost; omega)
      rwa [same (index - 1) (by push_cast at atMost; omega)] at inner
  · intro index outside
    push_cast at outside
    rw [shifted.unmoved index (by omega)]
    exact Function.update_of_ne (by omega) _ _
  · intro positive
    rw [← same (base + stop - 1) (by omega)]
    exact shifted.below positive
  · push_cast
    rw [← Int.add_assoc]
    have step : Rearranged base (base + start + 1)
        (Function.update ori (base + start + 1) tmp)
        (Function.update (Function.update ori (base + start + 1) (ori (base + start)))
          (base + start) tmp) := by
      rw [update_hole_eq_swap _ _ (by omega)]
      exact Rearranged.swap _ ⟨by omega, by omega⟩ ⟨by omega, by omega⟩
    exact step.trans (shifted.rearranged.widen (le_refl _) (by omega))

end Shifted

variable (key base len)

theorem insertShift_ok (tmp : α) : ∀ (start : ℕ) (ori : ℤ → α), (start : ℤ) < len →
    ∃ after stop, insertShift key base len tmp start ori = .ok (after, stop) ∧
      Shifted key base tmp start ori after stop
  | 0, ori, _ => ⟨ori, 0, rfl, .stay fun positive => absurd positive (Nat.lt_irrefl 0)⟩
  | start + 1, ori, bound => by
      have room : (start : ℤ) + 1 < len := by exact_mod_cast bound
      rw [insertShift, bind_ok (get_ok ori (by omega) (by omega))]
      by_cases larger : key tmp < key (ori (base + start))
      · rcases insertShift_ok tmp start
            (Function.update ori (base + start + 1) (ori (base + start)))
            (by omega) with ⟨after, stop, computed, shifted⟩
        refine ⟨after, stop, ?_, shifted.move larger⟩
        rw [if_pos larger, bind_ok (put_ok _ _ (by omega) (by omega))]
        exact computed
      · refine ⟨ori, start + 1, if_neg larger, .stay ?_⟩
        intro _
        have cell : base + ((start + 1 : ℕ) : ℤ) - 1 = base + start := by
          push_cast
          omega
        rw [cell]
        exact not_lt.mp larger

theorem insertElement_ok (i : ℕ) (ori : ℤ → α) (inside : (i : ℤ) < len) :
    ∃ after, insertElement key base len i ori = .ok after ∧
      Rearranged base (base + i) ori after ∧
      (Ascending key base (base + i - 1) ori → Ascending key base (base + i) after) := by
  rcases insertShift_ok key base len (ori (base + i)) i ori inside with
    ⟨shiftedCells, stop, computed, shifted⟩
  have stopLe := shifted.stop_le
  refine ⟨Function.update shiftedCells (base + stop) (ori (base + i)), ?_, ?_, ?_⟩
  · rw [insertElement, get_ok ori (by omega) (by omega)]
    simp only [bind, Except.bind]
    rw [computed]
    exact put_ok _ _ (by omega) (by omega)
  · have rearranged := shifted.rearranged
    rwa [Function.update_eq_self] at rearranged
  · intro ascending
    have lowerCells : ∀ index, index < base + stop →
        Function.update shiftedCells (base + stop) (ori (base + i)) index =
          ori index := by
      intro index below
      rw [Function.update_of_ne (by omega), shifted.unmoved index (by omega)]
    have upperCells : ∀ index, base + stop < index → index ≤ base + i →
        Function.update shiftedCells (base + stop) (ori (base + i)) index =
          ori (index - 1) := by
      intro index above atMost
      rw [Function.update_of_ne (by omega), (shifted.moved index above atMost).1]
    apply Ascending.join (base + stop)
    · exact (ascending.narrow (le_refl _) (by omega)).congr
        fun index _ atMost => lowerCells index (by omega)
    · intro lower upper lowerInside ordered upperInside
      rw [upperCells lower (by omega) (by omega), upperCells upper (by omega) upperInside]
      exact ascending (lower - 1) (upper - 1) (by omega) (by omega) (by omega)
    · intro index lowerInside atMost
      rw [lowerCells index (by omega), Function.update_self]
      have below := shifted.below (by omega)
      exact (ascending index (base + stop - 1) lowerInside (by omega)
        (by omega)).trans below
    · intro index above atMost
      rw [upperCells index (by omega) atMost, Function.update_self]
      exact (shifted.moved index (by omega) atMost).2.le

theorem insertLoop_ok : ∀ (count i : ℕ) (ori : ℤ → α), (i : ℤ) + count = len →
    Ascending key base (base + i - 1) ori →
    ∃ after, insertLoop key base len count i ori = .ok after ∧
      Rearranged base (base + len - 1) ori after ∧
      Ascending key base (base + len - 1) after
  | 0, i, ori, total, ascending => by
      refine ⟨ori, rfl, Rearranged.refl _ _ _, ?_⟩
      have allDone : base + i - 1 = base + len - 1 := by
        push_cast at total
        omega
      rwa [allDone] at ascending
  | count + 1, i, ori, total, ascending => by
      push_cast at total
      rcases insertElement_ok key base len i ori (by omega) with
        ⟨middle, inserted, firstMove, extended⟩
      have nextAscending : Ascending key base (base + (i + 1 : ℕ) - 1) middle := by
        have top : base + ((i + 1 : ℕ) : ℤ) - 1 = base + i := by
          push_cast
          omega
        rw [top]
        exact extended ascending
      rcases insertLoop_ok count (i + 1) middle (by push_cast; omega) nextAscending with
        ⟨after, computed, restMove, sorted⟩
      refine ⟨after, ?_, (firstMove.widen (le_refl _) (by omega)).trans restMove, sorted⟩
      rw [insertLoop]
      simp only [bind, Except.bind]
      rw [inserted]
      exact computed

theorem insertsort_ok (key : α → κ) (base len : ℤ) (ori : ℤ → α) :
    ∃ after, insertsort key base len ori = .ok after ∧
      Rearranged base (base + len - 1) ori after ∧
      Ascending key base (base + len - 1) after := by
  by_cases short : len ≤ 1
  · have noRounds : (len - 1).toNat = 0 := by omega
    refine ⟨ori, by rw [insertsort, noRounds]; rfl, Rearranged.refl _ _ _, ?_⟩
    intro lower upper lowerInside ordered upperInside
    have same : lower = upper := by omega
    rw [same]
  · apply insertLoop_ok
    · push_cast
      omega
    · intro lower upper lowerInside ordered upperInside
      have same : lower = upper := by
        push_cast at upperInside
        omega
      rw [same]

/-! ## Exchanges

Every move of the shifting loop exchanges an adjacent inversion of the array in
which the hole holds `tmp`.
-/

theorem insertShift_bubbled (tmp : α) : ∀ (start : ℕ) (ori after : ℤ → α) (stop : ℕ),
    (start : ℤ) < len → insertShift key base len tmp start ori = .ok (after, stop) →
    Bubbled key base (base + start) (Function.update ori (base + start) tmp)
      (Function.update after (base + stop) tmp)
  | 0, ori, after, stop, _, computed => by
      cases computed
      exact Bubbled.refl _ _ _
  | start + 1, ori, after, stop, inside, computed => by
      push_cast at inside
      rw [insertShift, bind_ok (get_ok ori (by omega) (by omega))] at computed
      by_cases larger : key tmp < key (ori (base + start))
      · rw [if_pos larger, bind_ok (put_ok ori _ (by omega) (by omega))] at computed
        have rest := insertShift_bubbled tmp start _ after stop (by omega) computed
        rw [update_hole_eq_swap ori tmp (by omega), Equiv.swap_comm] at rest
        push_cast
        rw [← Int.add_assoc]
        refine Bubbled.trans (Relation.ReflTransGen.single ?_)
          (rest.widen (le_refl _) (by omega))
        refine ⟨base + start, by omega, by omega, ?_, rfl⟩
        rwa [Function.update_self, Function.update_of_ne (by omega)]
      · rw [if_neg larger] at computed
        cases computed
        exact Bubbled.refl _ _ _

theorem insertElement_bubbled {i : ℕ} {ori after : ℤ → α} (inside : (i : ℤ) < len)
    (computed : insertElement key base len i ori = .ok after) :
    Bubbled key base (base + i) ori after := by
  rcases insertShift_ok key base len (ori (base + i)) i ori inside with
    ⟨shiftedCells, stop, shiftOk, shifted⟩
  have stopLe := shifted.stop_le
  rw [insertElement, bind_ok (get_ok ori (by omega) (by omega)), bind_ok shiftOk] at computed
  have written : put base (base + len - 1) shiftedCells (base + stop) (ori (base + i)) =
      .ok (Function.update shiftedCells (base + stop) (ori (base + i))) :=
    put_ok _ _ (by omega) (by omega)
  have result := Except.ok.inj (written.symm.trans computed)
  have bubbled := insertShift_bubbled key base len _ i ori shiftedCells stop inside shiftOk
  rwa [Function.update_eq_self, result] at bubbled

theorem insertLoop_bubbled : ∀ (count i : ℕ) (ori after : ℤ → α), (i : ℤ) + count = len →
    insertLoop key base len count i ori = .ok after →
    Bubbled key base (base + len - 1) ori after
  | 0, i, ori, after, _, computed => by
      cases computed
      exact Bubbled.refl _ _ _
  | count + 1, i, ori, after, total, computed => by
      push_cast at total
      rcases of_bind_ok computed with ⟨middle, inserted, rest⟩
      have first := insertElement_bubbled key base len (by omega) inserted
      exact (first.widen (le_refl _) (by omega)).trans
        (insertLoop_bubbled count (i + 1) middle after (by push_cast; omega) rest)

theorem insertsort_bubbled {key : α → κ} {base len : ℤ} {ori after : ℤ → α}
    (computed : insertsort key base len ori = .ok after) :
    Bubbled key base (base + len - 1) ori after := by
  by_cases short : len ≤ 1
  · have noRounds : (len - 1).toNat = 0 := by omega
    rw [insertsort, noRounds] at computed
    cases computed
    exact Bubbled.refl _ _ _
  · exact insertLoop_bubbled key base len _ 1 ori after (by push_cast; omega) computed

end Lctools.Csort
