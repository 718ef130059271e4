import Mathlib.Logic.Equiv.Basic
import Mathlib.Data.List.Perm.Basic
import Mathlib.Data.List.Range
import Mathlib.Data.List.Nodup
import Mathlib.Order.Lattice
import Mathlib.Tactic.SplitIfs

/-! # Integer-indexed cells

An array handed over as a bare pointer is a family of cells indexed by `ℤ`.
The reader and the writer below check every index against the window that the
running call may use. `Rearranged` says that one family is another with its
cells permuted inside a window; in-place algorithms are specified with it.
-/

namespace Lctools.Cells

/-! ## Checked access -/

inductive Fault where
  /-- Cell `index` was touched by a call that owns only `left .. right`. -/
  | outside (index left right : ℤ)
  /-- A loop did not finish within its iteration budget. -/
  | unfinished
  deriving DecidableEq, Repr

variable {α : Type}

def get (left right : ℤ) (cells : ℤ → α) (index : ℤ) : Except Fault α :=
  if left ≤ index ∧ index ≤ right then .ok (cells index)
  else .error (.outside index left right)

def put (left right : ℤ) (cells : ℤ → α) (index : ℤ) (value : α) :
    Except Fault (ℤ → α) :=
  if left ≤ index ∧ index ≤ right then .ok (Function.update cells index value)
  else .error (.outside index left right)

theorem get_ok {left right index : ℤ} (cells : ℤ → α)
    (lower : left ≤ index) (upper : index ≤ right) :
    get left right cells index = .ok (cells index) :=
  if_pos ⟨lower, upper⟩

theorem put_ok {left right index : ℤ} (cells : ℤ → α) (value : α)
    (lower : left ≤ index) (upper : index ≤ right) :
    put left right cells index value = .ok (Function.update cells index value) :=
  if_pos ⟨lower, upper⟩

theorem inside_of_get {left right index : ℤ} {cells : ℤ → α} {value : α}
    (read : get left right cells index = .ok value) : left ≤ index ∧ index ≤ right := by
  by_contra outside
  rw [get, if_neg outside] at read
  cases read

theorem inside_of_put {left right index : ℤ} {cells after : ℤ → α} {value : α}
    (written : put left right cells index value = .ok after) :
    left ≤ index ∧ index ≤ right := by
  by_contra outside
  rw [put, if_neg outside] at written
  cases written

/-! Reading and writing commute with a change of the cells' values. -/

theorem get_comp {β : Type} (convert : α → β) (left right : ℤ) (cells : ℤ → α) (index : ℤ) :
    get left right (convert ∘ cells) index = (get left right cells index).map convert := by
  unfold get
  split_ifs
  · rfl
  · rfl

theorem put_comp {β : Type} (convert : α → β) (left right : ℤ) (cells : ℤ → α) (index : ℤ)
    (value : α) :
    put left right (convert ∘ cells) index (convert value) =
      (put left right cells index value).map (convert ∘ ·) := by
  unfold put
  split_ifs
  · rw [← Function.comp_update]
    rfl
  · rfl

theorem update_update_eq_swap (cells : ℤ → α) (first second : ℤ) :
    Function.update (Function.update cells first (cells second)) second (cells first) =
      cells ∘ Equiv.swap first second := by
  funext index
  simp only [Function.update_apply, Function.comp_apply, Equiv.swap_apply_def]
  split_ifs with atSecond atFirst atFirst
  · rw [← atFirst, atSecond]
  · rfl
  · rfl
  · rfl

/-- A hole holds `value`. Filling it from `next` and leaving the hole there is a
transposition of the cells with the hole filled. -/
theorem update_hole_eq_swap (cells : ℤ → α) (value : α) {hole next : ℤ}
    (apart : next ≠ hole) :
    Function.update (Function.update cells hole (cells next)) next value =
      Function.update cells hole value ∘ Equiv.swap hole next := by
  funext index
  simp only [Function.update_apply, Function.comp_apply, Equiv.swap_apply_def]
  by_cases atHole : index = hole
  · simp [atHole, apart, apart.symm]
  · by_cases atNext : index = next
    · simp [atNext, apart]
    · simp [atHole, atNext]

/-! A guarded transposition, read cell by cell. -/

section SwapIf

variable (cells : ℤ → α) (condition : Prop) [Decidable condition]

theorem swapIf_apply_left (first second : ℤ) :
    (if condition then cells ∘ Equiv.swap first second else cells) first =
      if condition then cells second else cells first := by
  split_ifs <;> simp

theorem swapIf_apply_right (first second : ℤ) :
    (if condition then cells ∘ Equiv.swap first second else cells) second =
      if condition then cells first else cells second := by
  split_ifs <;> simp

theorem swapIf_apply_of_ne {first second index : ℤ} (notFirst : index ≠ first)
    (notSecond : index ≠ second) :
    (if condition then cells ∘ Equiv.swap first second else cells) index = cells index := by
  split_ifs <;> simp [Equiv.swap_apply_of_ne_of_ne, notFirst, notSecond]

end SwapIf

/-! ## Rearrangements of a window -/

/-- `after` holds the cells of `before`, permuted inside `left .. right` and
untouched everywhere else. -/
def Rearranged (left right : ℤ) (before after : ℤ → α) : Prop :=
  ∃ move : Equiv.Perm ℤ,
    (∀ index, ¬(left ≤ index ∧ index ≤ right) → move index = index) ∧
      after = before ∘ move

namespace Rearranged

variable {left right : ℤ} {before middle after : ℤ → α}

theorem refl (left right : ℤ) (cells : ℤ → α) : Rearranged left right cells cells :=
  ⟨Equiv.refl ℤ, fun _ _ => rfl, rfl⟩

theorem trans (first : Rearranged left right before middle)
    (second : Rearranged left right middle after) :
    Rearranged left right before after := by
  rcases first with ⟨firstMove, firstFixed, rfl⟩
  rcases second with ⟨secondMove, secondFixed, rfl⟩
  refine ⟨secondMove.trans firstMove, ?_, rfl⟩
  intro index outside
  rw [Equiv.trans_apply, secondFixed index outside, firstFixed index outside]

theorem widen {innerLeft innerRight : ℤ}
    (inner : Rearranged innerLeft innerRight before after)
    (leftLe : left ≤ innerLeft) (leRight : innerRight ≤ right) :
    Rearranged left right before after := by
  rcases inner with ⟨move, fixed, rfl⟩
  refine ⟨move, ?_, rfl⟩
  intro index outside
  apply fixed
  intro inside
  exact outside ⟨by omega, by omega⟩

theorem swap (cells : ℤ → α) {first second : ℤ}
    (firstInside : left ≤ first ∧ first ≤ right)
    (secondInside : left ≤ second ∧ second ≤ right) :
    Rearranged left right cells (cells ∘ Equiv.swap first second) := by
  refine ⟨Equiv.swap first second, ?_, rfl⟩
  intro index outside
  apply Equiv.swap_apply_of_ne_of_ne
  · rintro rfl
    exact outside firstInside
  · rintro rfl
    exact outside secondInside

theorem swapIf (cells : ℤ → α) (condition : Prop) [Decidable condition] {first second : ℤ}
    (firstInside : left ≤ first ∧ first ≤ right)
    (secondInside : left ≤ second ∧ second ≤ right) :
    Rearranged left right cells
      (if condition then cells ∘ Equiv.swap first second else cells) := by
  split_ifs
  · exact swap cells firstInside secondInside
  · exact refl _ _ _

theorem eq_outside (rearranged : Rearranged left right before after) {index : ℤ}
    (outside : ¬(left ≤ index ∧ index ≤ right)) : after index = before index := by
  rcases rearranged with ⟨move, fixed, rfl⟩
  rw [Function.comp_apply, fixed index outside]

private theorem move_inside {move : Equiv.Perm ℤ}
    (fixed : ∀ index, ¬(left ≤ index ∧ index ≤ right) → move index = index)
    (index : ℤ) (inside : left ≤ index ∧ index ≤ right) :
    left ≤ move index ∧ move index ≤ right := by
  by_contra outside
  have same : move index = index := move.injective (fixed _ outside)
  rw [same] at outside
  exact outside inside

theorem exists_source (rearranged : Rearranged left right before after) (index : ℤ)
    (inside : left ≤ index ∧ index ≤ right) :
    ∃ source, (left ≤ source ∧ source ≤ right) ∧ after index = before source := by
  rcases rearranged with ⟨move, fixed, rfl⟩
  exact ⟨move index, move_inside fixed index inside, rfl⟩

theorem symm (rearranged : Rearranged left right before after) :
    Rearranged left right after before := by
  rcases rearranged with ⟨move, fixed, rfl⟩
  refine ⟨move.symm, ?_, ?_⟩
  · intro index outside
    rw [Equiv.symm_apply_eq, fixed index outside]
  · funext index
    simp

theorem forall_inside (rearranged : Rearranged left right before after)
    (property : α → Prop)
    (holds : ∀ index, left ≤ index → index ≤ right → property (before index)) :
    ∀ index, left ≤ index → index ≤ right → property (after index) := by
  intro index lower upper
  rcases rearranged.exists_source index ⟨lower, upper⟩ with ⟨source, inside, equal⟩
  rw [equal]
  exact holds source inside.1 inside.2

end Rearranged

/-! ## Ascending windows -/

section Ascending

variable {κ : Type} [LinearOrder κ] (key : α → κ)

/-- Keys do not decrease from `left` to `right`. -/
def Ascending (left right : ℤ) (cells : ℤ → α) : Prop :=
  ∀ lower upper, left ≤ lower → lower ≤ upper → upper ≤ right →
    key (cells lower) ≤ key (cells upper)

variable {key}

theorem Ascending.narrow {left right innerLeft innerRight : ℤ} {cells : ℤ → α}
    (ascending : Ascending key left right cells)
    (leftLe : left ≤ innerLeft) (leRight : innerRight ≤ right) :
    Ascending key innerLeft innerRight cells := by
  intro lower upper lowerInside ordered upperInside
  exact ascending lower upper (by omega) ordered (by omega)

theorem Ascending.congr {left right : ℤ} {before after : ℤ → α}
    (ascending : Ascending key left right before)
    (equal : ∀ index, left ≤ index → index ≤ right → after index = before index) :
    Ascending key left right after := by
  intro lower upper lowerInside ordered upperInside
  rw [equal lower lowerInside (by omega), equal upper (by omega) upperInside]
  exact ascending lower upper lowerInside ordered upperInside

theorem Ascending.join {left right : ℤ} (middle : ℤ) {cells : ℤ → α}
    (lowerAscending : Ascending key left (middle - 1) cells)
    (upperAscending : Ascending key (middle + 1) right cells)
    (lowerBound : ∀ index, left ≤ index → index ≤ middle - 1 →
      key (cells index) ≤ key (cells middle))
    (upperBound : ∀ index, middle + 1 ≤ index → index ≤ right →
      key (cells middle) ≤ key (cells index)) :
    Ascending key left right cells := by
  intro lower upper lowerInside ordered upperInside
  rcases lt_trichotomy upper middle with upperBelow | rfl | upperAbove
  · exact lowerAscending lower upper lowerInside ordered (by omega)
  · rcases eq_or_lt_of_le ordered with rfl | below
    · exact le_refl _
    · exact lowerBound lower lowerInside (by omega)
  · rcases lt_trichotomy lower middle with lowerBelow | rfl | lowerAbove
    · exact (lowerBound lower lowerInside (by omega)).trans
        (upperBound upper (by omega) upperInside)
    · exact upperBound upper (by omega) upperInside
    · exact upperAscending lower upper (by omega) ordered upperInside

/-! ## Settled cells -/

variable (key) in
/-- The keys of the cells above `top` are at least those of all cells before
them. -/
def Settled (left top right : ℤ) (cells : ℤ → α) : Prop :=
  ∀ lower upper, left ≤ lower → lower ≤ upper → top < upper → upper ≤ right →
    key (cells lower) ≤ key (cells upper)

theorem Settled.ascending {left right : ℤ} {cells : ℤ → α}
    (settled : Settled key left left right cells) : Ascending key left right cells := by
  intro lower upper lowerInside ordered upperInside
  rcases eq_or_lt_of_le ordered with rfl | below
  · exact le_refl _
  · exact settled lower upper lowerInside ordered (by omega) upperInside

/-- Bringing a largest key to `top` by rearranging the cells up to it settles
`top` as well. -/
theorem Settled.extend {left top right : ℤ} {before after : ℤ → α}
    (settled : Settled key left top right before)
    (rearranged : Rearranged left top before after)
    (largest : ∀ index, left ≤ index → index ≤ top → key (after index) ≤ key (after top)) :
    Settled key left (top - 1) right after := by
  intro lower upper lowerInside ordered above upperInside
  by_cases atTop : upper = top
  · rw [atTop]
    exact largest lower lowerInside (by omega)
  · rw [rearranged.eq_outside (show ¬(left ≤ upper ∧ upper ≤ top) by omega)]
    by_cases lowerAbove : top < lower
    · rw [rearranged.eq_outside (show ¬(left ≤ lower ∧ lower ≤ top) by omega)]
      exact settled lower upper lowerInside ordered (by omega) upperInside
    · rcases rearranged.exists_source lower ⟨lowerInside, by omega⟩ with
        ⟨source, inside, moved⟩
      rw [moved]
      exact settled source upper inside.1 (by omega) (by omega) upperInside

end Ascending

/-! ## Contents as a list -/

/-- The first `length` cells in order. -/
def contents (length : ℕ) (cells : ℤ → α) : List α :=
  (List.range length).map fun index : ℕ => cells index

@[simp] theorem contents_length (length : ℕ) (cells : ℤ → α) :
    (contents length cells).length = length := by
  simp [contents]

theorem contents_getElem (length : ℕ) (cells : ℤ → α) (index : ℕ)
    (inside : index < (contents length cells).length) :
    (contents length cells)[index] = cells index := by
  simp [contents]

theorem contents_congr {length : ℕ} {first second : ℤ → α}
    (equal : ∀ index : ℕ, index < length → first index = second index) :
    contents length first = contents length second := by
  apply List.map_congr_left
  intro index member
  exact equal index (List.mem_range.mp member)

theorem contents_add (first second : ℕ) (cells : ℤ → α) :
    contents (first + second) cells =
      contents first cells ++ contents second fun index => cells (first + index) := by
  simp [contents, List.range_add, Function.comp_def]

theorem contents_succ (length : ℕ) (cells : ℤ → α) :
    contents (length + 1) cells = contents length cells ++ [cells length] := by
  simp [contents, List.range_succ]

theorem contents_update_succ (length : ℕ) (cells : ℤ → α) (value : α) :
    contents (length + 1) (Function.update cells length value) =
      contents length cells ++ [value] := by
  rw [contents_succ, Function.update_self]
  congr 1
  apply contents_congr
  intro index below
  exact Function.update_of_ne (by omega) _ _

/-- The `length` cells from `start` on, in order. -/
def segment (start : ℤ) (length : ℕ) (cells : ℤ → α) : List α :=
  contents length fun index => cells (start + index)

@[simp] theorem segment_zero (start : ℤ) (cells : ℤ → α) : segment start 0 cells = [] := rfl

theorem contents_eq_segment (length : ℕ) (cells : ℤ → α) :
    contents length cells = segment 0 length cells := by
  simp [segment]

theorem segment_congr {start : ℤ} {length : ℕ} {first second : ℤ → α}
    (equal : ∀ index, start ≤ index → index < start + length → first index = second index) :
    segment start length first = segment start length second := by
  apply contents_congr
  intro index below
  exact equal _ (by omega) (by omega)

theorem segment_append (start : ℤ) (first second : ℕ) (cells : ℤ → α) :
    segment start (first + second) cells =
      segment start first cells ++ segment (start + first) second cells := by
  simp only [segment, contents_add, Int.add_assoc]

theorem segment_cons (start : ℤ) (length : ℕ) (cells : ℤ → α) :
    segment start (length + 1) cells = cells start :: segment (start + 1) length cells := by
  rw [Nat.add_comm, segment_append]
  simp [segment, contents]

theorem Rearranged.contents_perm {length : ℕ} {before after : ℤ → α}
    (rearranged : Rearranged 0 (length - 1) before after) :
    (contents length after).Perm (contents length before) := by
  rcases rearranged with ⟨move, fixed, rfl⟩
  have moved : ((List.range length).map fun index : ℕ => (move index).toNat).Perm
      (List.range length) := by
    apply (List.perm_ext_iff_of_nodup _ List.nodup_range).mpr
    · intro target
      simp only [List.mem_map, List.mem_range]
      constructor
      · rintro ⟨source, sourceBound, rfl⟩
        have inside := move_inside fixed (source : ℤ)
          ⟨by omega, by omega⟩
        omega
      · intro targetBound
        have symmFixed : ∀ index : ℤ, ¬((0 : ℤ) ≤ index ∧ index ≤ length - 1) →
            move.symm index = index := by
          intro index outside
          rw [Equiv.symm_apply_eq, fixed index outside]
        have inside := move_inside symmFixed (target : ℤ)
          ⟨by omega, by omega⟩
        refine ⟨(move.symm target).toNat, by omega, ?_⟩
        rw [Int.toNat_of_nonneg inside.1]
        simp
    · apply List.Nodup.map_on _ List.nodup_range
      intro first firstBound second secondBound equal
      rw [List.mem_range] at firstBound secondBound
      have firstInside := move_inside fixed (first : ℤ)
        ⟨by omega, by omega⟩
      have secondInside := move_inside fixed (second : ℤ)
        ⟨by omega, by omega⟩
      have sameMove : move (first : ℤ) = move (second : ℤ) := by omega
      have same := move.injective sameMove
      omega
  have mapped := moved.map fun index : ℕ => before index
  rw [List.map_map] at mapped
  refine (List.Perm.of_eq ?_).trans mapped
  apply List.map_congr_left
  intro index member
  rw [List.mem_range] at member
  have inside := move_inside fixed (index : ℤ) ⟨by omega, by omega⟩
  simp [Int.toNat_of_nonneg inside.1]

theorem Rearranged.eq_of_contents {length : ℕ} {before first second : ℤ → α}
    (firstMove : Rearranged 0 (length - 1) before first)
    (secondMove : Rearranged 0 (length - 1) before second)
    (equal : contents length first = contents length second) : first = second := by
  funext index
  by_cases inside : 0 ≤ index ∧ index ≤ length - 1
  · have cell := congrArg (fun values => values[index.toNat]?) equal
    have bound : index.toNat < length := by omega
    simpa [contents, bound, inside.1] using cell
  · rw [firstMove.eq_outside inside, secondMove.eq_outside inside]

theorem contents_pairwise_iff {κ : Type} [LinearOrder κ] (key : α → κ) (length : ℕ)
    (cells : ℤ → α) :
    (contents length cells).Pairwise (fun first second => key first ≤ key second) ↔
      Ascending key 0 (length - 1) cells := by
  rw [List.pairwise_iff_getElem]
  simp only [contents_getElem, contents_length]
  constructor
  · intro pairwise lower upper lowerInside ordered upperInside
    rcases eq_or_lt_of_le ordered with rfl | below
    · exact le_refl _
    · have bound := pairwise lower.toNat upper.toNat (by omega) (by omega) (by omega)
      rwa [Int.toNat_of_nonneg lowerInside, Int.toNat_of_nonneg (by omega)] at bound
  · intro ascending lower upper lowerBound upperBound below
    exact ascending lower upper (by omega) (by omega) (by omega)

end Lctools.Cells
