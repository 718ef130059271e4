import Mathlib.Logic.Relation
import Lctools.Foundation.Cells

/-! # Stable rearrangements

A rearrangement of a list is stable when the elements of each key keep their
order. The stable ascending rearrangement is unique, so two sorting procedures
that both produce one agree. Exchanging adjacent inversions is stable.
-/

namespace Lctools.StableOrder

open Cells

variable {α κ : Type} [LinearOrder κ] (key : α → κ)

/-! ## Lists -/

/-- The elements with key `k`, in their order. -/
def group (k : κ) (values : List α) : List α :=
  values.filter fun value => key value = k

variable {key}

@[simp] theorem group_nil (k : κ) : group key k [] = [] := rfl

theorem group_cons_self (value : α) (values : List α) :
    group key (key value) (value :: values) = value :: group key (key value) values := by
  simp [group]

theorem group_cons_of_ne {k : κ} {value : α} (differs : key value ≠ k) (values : List α) :
    group key k (value :: values) = group key k values := by
  simp [group, differs]

@[simp] theorem group_append (k : κ) (first second : List α) :
    group key k (first ++ second) = group key k first ++ group key k second := by
  simp [group]

@[simp] theorem group_reverse (k : κ) (values : List α) :
    group key k values.reverse = (group key k values).reverse := by
  simp [group]

theorem group_eq_nil {k : κ} {values : List α} (absent : ∀ value ∈ values, key value ≠ k) :
    group key k values = [] := by
  simpa [group] using absent

theorem perm_of_groups {before after : List α}
    (groups : ∀ k, group key k after = group key k before) : after.Perm before := by
  classical
  apply List.perm_iff_count.mpr
  intro value
  have counted := congrArg (List.count value) (groups (key value))
  rwa [group, group, List.count_filter (by simp), List.count_filter (by simp)] at counted

theorem head_le {head value : α} {tail : List α}
    (ascending : (head :: tail).Pairwise fun lower upper => key lower ≤ key upper)
    (member : value ∈ head :: tail) : key head ≤ key value := by
  rcases List.mem_cons.mp member with rfl | inTail
  · exact le_refl _
  · exact List.rel_of_pairwise_cons ascending inTail

theorem eq_of_groups (first : List α) : ∀ second : List α,
    first.Pairwise (fun lower upper => key lower ≤ key upper) →
    second.Pairwise (fun lower upper => key lower ≤ key upper) →
    (∀ k, group key k first = group key k second) → first = second := by
  induction first with
  | nil =>
      intro second _ _ groups
      have empty := (perm_of_groups groups).symm
      exact (List.perm_nil.mp empty).symm
  | cons head tail induction =>
      intro second firstAscending secondAscending groups
      cases second with
      | nil => exact List.perm_nil.mp (perm_of_groups groups)
      | cons other rest =>
          have perm := perm_of_groups groups
          have headLe : key head ≤ key other :=
            head_le firstAscending (perm.symm.subset List.mem_cons_self)
          have otherLe : key other ≤ key head :=
            head_le secondAscending (perm.subset List.mem_cons_self)
          have sameKey : key other = key head := le_antisymm otherLe headLe
          have heads := groups (key head)
          rw [group_cons_self, ← sameKey, group_cons_self] at heads
          have same : head = other := (List.cons.inj heads).1
          subst same
          congr 1
          apply induction rest firstAscending.tail secondAscending.tail
          intro k
          by_cases atHead : key head = k
          · subst atHead
            exact (List.cons.inj heads).2
          · have both := groups k
            rwa [group_cons_of_ne atHead, group_cons_of_ne atHead] at both

variable (key) in
/-- `after` is the stable ascending rearrangement of `before`. -/
structure StablySorted (before after : List α) : Prop where
  ascending : after.Pairwise fun lower upper => key lower ≤ key upper
  groups : ∀ k, group key k after = group key k before

namespace StablySorted

variable {before after other : List α}

theorem perm (sorted : StablySorted key before after) : after.Perm before :=
  perm_of_groups sorted.groups

theorem unique (sorted : StablySorted key before after)
    (alsoSorted : StablySorted key before other) : other = after := by
  apply eq_of_groups other after alsoSorted.ascending sorted.ascending
  intro k
  rw [alsoSorted.groups k, sorted.groups k]

end StablySorted

/-! ## Merging

Of two elements with the same key the merge takes the one of the second list.
-/

variable (key) in
/-- The merge of two lists that prefers the second one. -/
def mergeSecond (first second : List α) : List α :=
  first.merge second fun left right => decide (key left < key right)

theorem mergeSecond_perm (first second : List α) :
    (mergeSecond key first second).Perm (first ++ second) :=
  List.merge_perm_append _

theorem mergeSecond_cons (head other : α) (first second : List α) :
    mergeSecond key (head :: first) (other :: second) =
      if key head < key other then head :: mergeSecond key first (other :: second)
      else other :: mergeSecond key (head :: first) second := by
  simp [mergeSecond, List.cons_merge_cons]

theorem mergeSecond_groups {first : List α} : ∀ {second : List α},
    second.Pairwise (fun lower upper => key lower ≤ key upper) → ∀ k,
    group key k (mergeSecond key first second) = group key k second ++ group key k first := by
  induction first with
  | nil =>
      intro second _ k
      simp [mergeSecond]
  | cons head tail outer =>
      intro second
      induction second with
      | nil =>
          intro _ k
          simp [mergeSecond]
      | cons other rest inner =>
          intro ascending k
          rw [mergeSecond_cons]
          by_cases less : key head < key other
          · rw [if_pos less]
            by_cases atHead : key head = k
            · -- Everything in the second list is larger than the head taken.
              have absent : group key k (other :: rest) = [] := by
                apply group_eq_nil
                intro value member
                rw [← atHead]
                exact (less.trans_le (head_le ascending member)).ne'
              subst atHead
              rw [group_cons_self, group_cons_self, outer ascending, absent, List.nil_append,
                List.nil_append]
            · rw [group_cons_of_ne atHead, group_cons_of_ne atHead, outer ascending]
          · rw [if_neg less]
            by_cases atOther : key other = k
            · subst atOther
              rw [group_cons_self, group_cons_self, inner ascending.tail, List.cons_append]
            · rw [group_cons_of_ne atOther, group_cons_of_ne atOther, inner ascending.tail]

theorem mergeSecond_ascending {first : List α} : ∀ {second : List α},
    first.Pairwise (fun lower upper => key lower ≤ key upper) →
    second.Pairwise (fun lower upper => key lower ≤ key upper) →
    (mergeSecond key first second).Pairwise fun lower upper => key lower ≤ key upper := by
  induction first with
  | nil =>
      intro second _ ascending
      simpa [mergeSecond] using ascending
  | cons head tail outer =>
      intro second
      induction second with
      | nil =>
          intro ascending _
          simpa [mergeSecond] using ascending
      | cons other rest inner =>
          intro firstAscending secondAscending
          rw [mergeSecond_cons]
          by_cases less : key head < key other
          · rw [if_pos less]
            apply List.Pairwise.cons _ (outer firstAscending.tail secondAscending)
            intro value member
            rcases List.mem_append.mp ((mergeSecond_perm _ _).subset member) with inFirst | inSecond
            · exact List.rel_of_pairwise_cons firstAscending inFirst
            · exact less.le.trans (head_le secondAscending inSecond)
          · rw [if_neg less]
            apply List.Pairwise.cons _ (inner firstAscending secondAscending.tail)
            intro value member
            rcases List.mem_append.mp ((mergeSecond_perm _ _).subset member) with inFirst | inSecond
            · exact (not_lt.mp less).trans (head_le firstAscending inFirst)
            · exact List.rel_of_pairwise_cons secondAscending inSecond

/-- Merging the stably sorted reversals of two parts sorts the reversal of the
whole stably. -/
theorem StablySorted.mergeSecond {first second sortedFirst sortedSecond : List α}
    (firstSorted : StablySorted key first.reverse sortedFirst)
    (secondSorted : StablySorted key second.reverse sortedSecond) :
    StablySorted key (first ++ second).reverse (mergeSecond key sortedFirst sortedSecond) := by
  constructor
  · exact mergeSecond_ascending firstSorted.ascending secondSorted.ascending
  · intro k
    rw [mergeSecond_groups secondSorted.ascending, firstSorted.groups, secondSorted.groups,
      List.reverse_append, group_append]

/-! ## Adjacent exchanges -/

variable (key) in
/-- An adjacent inversion inside `left .. right` is exchanged. -/
def Exchanged (left right : ℤ) (before after : ℤ → α) : Prop :=
  ∃ index, left ≤ index ∧ index + 1 ≤ right ∧ key (before (index + 1)) < key (before index) ∧
    after = before ∘ Equiv.swap index (index + 1)

variable (key) in
/-- Adjacent inversions are exchanged one after another. -/
def Bubbled (left right : ℤ) : (ℤ → α) → (ℤ → α) → Prop :=
  Relation.ReflTransGen (Exchanged key left right)

namespace Bubbled

variable {left right : ℤ} {before middle after : ℤ → α}

theorem refl (left right : ℤ) (cells : ℤ → α) : Bubbled key left right cells cells :=
  Relation.ReflTransGen.refl

theorem trans (first : Bubbled key left right before middle)
    (second : Bubbled key left right middle after) : Bubbled key left right before after :=
  Relation.ReflTransGen.trans first second

theorem widen {innerLeft innerRight : ℤ}
    (inner : Bubbled key innerLeft innerRight before after)
    (leftLe : left ≤ innerLeft) (leRight : innerRight ≤ right) :
    Bubbled key left right before after := by
  induction inner with
  | refl => exact refl _ _ _
  | tail _ exchanged earlier =>
      rcases exchanged with ⟨index, lower, upper, inverted, rfl⟩
      exact earlier.tail ⟨index, by omega, by omega, inverted, rfl⟩

theorem rearranged (bubbled : Bubbled key left right before after) :
    Rearranged left right before after := by
  induction bubbled with
  | refl => exact Rearranged.refl _ _ _
  | tail _ exchanged earlier =>
      rcases exchanged with ⟨index, lower, upper, _, rfl⟩
      exact earlier.trans (Rearranged.swap _ ⟨lower, by omega⟩ ⟨by omega, upper⟩)

private theorem contents_around (index rest : ℕ) (cells : ℤ → α) :
    contents (index + 2 + rest) cells =
      contents index cells ++ [cells index, cells (index + 1)] ++
        contents rest fun offset => cells (index + 2 + offset) := by
  rw [contents_add, contents_add]
  simp [contents, List.range_succ]

theorem groups {length : ℕ} (bubbled : Bubbled key 0 (length - 1) before after) (k : κ) :
    group key k (contents length after) = group key k (contents length before) := by
  induction bubbled with
  | refl => rfl
  | @tail middle after _ exchanged earlier =>
      rw [← earlier]
      rcases exchanged with ⟨index, lower, upper, inverted, rfl⟩
      lift index to ℕ using lower
      have kept : ∀ other : ℤ, other ≠ index → other ≠ index + 1 →
          (middle ∘ Equiv.swap (index : ℤ) (index + 1)) other = middle other := by
        intro other notFirst notSecond
        rw [Function.comp_apply, Equiv.swap_apply_of_ne_of_ne notFirst notSecond]
      have total : length = index + 2 + (length - index - 2) := by omega
      rw [total, contents_around, contents_around]
      have prefixes : contents index (middle ∘ Equiv.swap (index : ℤ) (index + 1)) =
          contents index middle := by
        apply contents_congr
        intro other below
        exact kept other (by omega) (by omega)
      have suffixes : contents (length - index - 2) (fun offset =>
            (middle ∘ Equiv.swap (index : ℤ) (index + 1)) (index + 2 + offset)) =
          contents (length - index - 2) (fun offset => middle (index + 2 + offset)) := by
        apply contents_congr
        intro other below
        exact kept _ (by omega) (by omega)
      -- Of the two exchanged elements at most one has key `k`.
      have exchangedPair : group key k
            [(middle ∘ Equiv.swap (index : ℤ) (index + 1)) index,
              (middle ∘ Equiv.swap (index : ℤ) (index + 1)) (index + 1)] =
          group key k [middle index, middle (index + 1)] := by
        rw [Function.comp_apply, Function.comp_apply, Equiv.swap_apply_left,
          Equiv.swap_apply_right]
        by_cases first : key (middle (index + 1)) = k
        · have second : key (middle index) ≠ k := by
            rw [← first]
            exact inverted.ne'
          simp [group, first, second]
        · simp [group, List.filter_cons, first]
      simp only [group_append, prefixes, suffixes, exchangedPair]

/-- Exchanging adjacent inversions until none is left sorts stably. -/
theorem stablySorted {length : ℕ} (bubbled : Bubbled key 0 (length - 1) before after)
    (ascending : Ascending key 0 (length - 1) after) :
    StablySorted key (contents length before) (contents length after) :=
  ⟨(contents_pairwise_iff key length after).mpr ascending, bubbled.groups⟩

end Bubbled

end Lctools.StableOrder
