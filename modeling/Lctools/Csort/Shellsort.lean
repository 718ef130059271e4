import Lctools.Csort.Insertsort
import Lctools.Csort.Sorting

/-! # `csort/Shellsort.c`

The comparison of the innermost loop moves smaller elements up, so every pass
orders the elements one gap apart downwards.
-/

namespace Lctools.Csort

open Cells Fallible

variable {α : Type} [LinearOrder α]

/-! ## The program -/

section Model

variable (len : ℕ) (increment : ℕ)

/-- `for(j = i; j >= increment; j-= increment)`; returns the cells and the final
`j`. -/
def shellShift (tmp : α) : (budget : ℕ) → (ℤ → α) → (j : ℤ) → Except Fault ((ℤ → α) × ℤ)
  | 0, _, _ => .error .unfinished
  | budget + 1, ori, j =>
      if increment ≤ j then do
        let previous ← get 0 (len - 1) ori (j - increment)
        if previous < tmp then
          let ori ← put 0 (len - 1) ori j previous
          shellShift tmp budget ori (j - increment)
        else
          .ok (ori, j)
      else
        .ok (ori, j)

/-- The body of the loop over `i`. -/
def shellElement (i : ℕ) (ori : ℤ → α) : Except Fault (ℤ → α) := do
  let tmp ← get 0 (len - 1) ori i
  let (ori, j) ← shellShift len increment tmp (i + 1) ori i
  put 0 (len - 1) ori j tmp

/-- `for(i = increment; i<len; i++)`, with `count` iterations left to run. -/
def shellElements : (count i : ℕ) → (ℤ → α) → Except Fault (ℤ → α)
  | 0, _, ori => .ok ori
  | count + 1, i, ori => do
      let ori ← shellElement len increment i ori
      shellElements count (i + 1) ori

def shellPass (ori : ℤ → α) : Except Fault (ℤ → α) :=
  shellElements len increment (len - increment) increment ori

end Model

/-- `for(increment = len/2; increment > 0; increment /=2)`. -/
def shellLoop (len : ℕ) : (budget increment : ℕ) → (ℤ → α) → Except Fault (ℤ → α)
  | 0, _, _ => .error .unfinished
  | budget + 1, increment, ori =>
      if 0 < increment then do
        let ori ← shellPass len increment ori
        shellLoop len budget (increment / 2) ori
      else
        .ok ori

def shellsort (ori : ℤ → α) (len : ℕ) : Except Fault (ℤ → α) :=
  shellLoop len (len + 1) (len / 2) ori

/-- The run of the outer loop is about to test `increment` on `cells`, with
`budget` tests left. -/
inductive ShellReaches (len : ℕ) (ori : ℤ → α) : (budget increment : ℕ) → (ℤ → α) → Prop where
  | start : ShellReaches len ori (len + 1) (len / 2) ori
  | pass {budget increment : ℕ} {cells after : ℤ → α}
      (earlier : ShellReaches len ori (budget + 1) increment cells) (positive : 0 < increment)
      (passed : shellPass len increment cells = .ok after) :
      ShellReaches len ori budget (increment / 2) after

/-! ## One pass -/

/-- The elements up to `top` that lie one gap apart do not increase. -/
def GapOrdered (gap top : ℤ) (cells : ℤ → α) : Prop :=
  ∀ index, gap ≤ index → index ≤ top → cells index ≤ cells (index - gap)

/-- Elements one gap apart are in order except that the one at `hole` may have to
go further down its chain. -/
structure GapSliding (gap top hole : ℤ) (cells : ℤ → α) : Prop where
  ordered : ∀ index, gap ≤ index → index ≤ top → index ≠ hole →
    cells index ≤ cells (index - gap)
  skipped : gap ≤ hole → hole + gap ≤ top → cells (hole + gap) ≤ cells (hole - gap)

namespace GapSliding

variable {gap top hole : ℤ} {cells : ℤ → α}

theorem move (sliding : GapSliding gap top hole cells) (positive : 0 < gap)
    (further : gap ≤ hole) (inside : hole ≤ top) (less : cells (hole - gap) < cells hole) :
    GapSliding gap top (hole - gap) (cells ∘ Equiv.swap hole (hole - gap)) := by
  have atHole : (cells ∘ Equiv.swap hole (hole - gap)) hole = cells (hole - gap) := by
    rw [Function.comp_apply, Equiv.swap_apply_left]
  have atNext : (cells ∘ Equiv.swap hole (hole - gap)) (hole - gap) = cells hole := by
    rw [Function.comp_apply, Equiv.swap_apply_right]
  have kept : ∀ index, index ≠ hole → index ≠ hole - gap →
      (cells ∘ Equiv.swap hole (hole - gap)) index = cells index := by
    intro index notHole notNext
    rw [Function.comp_apply, Equiv.swap_apply_of_ne_of_ne notHole notNext]
  constructor
  · intro index above atMost notNext
    by_cases here : index = hole
    · rw [here, atHole, atNext]
      exact less.le
    · rw [kept index here notNext]
      by_cases overHole : index - gap = hole
      · have next : index = hole + gap := by omega
        rw [overHole, atHole, next]
        exact sliding.skipped further (by omega)
      · rw [kept (index - gap) overHole (by omega)]
        exact sliding.ordered index above atMost here
  · intro above atMost
    have back : hole - gap + gap = hole := by omega
    rw [back, atHole, kept (hole - gap - gap) (by omega) (by omega)]
    exact sliding.ordered (hole - gap) above (by omega) (by omega)

theorem finish (sliding : GapSliding gap top hole cells)
    (stops : gap ≤ hole → cells hole ≤ cells (hole - gap)) : GapOrdered gap top cells := by
  intro index above atMost
  by_cases here : index = hole
  · subst here
    exact stops above
  · exact sliding.ordered index above atMost here

end GapSliding

theorem shellShift_ok (len : ℕ) {increment : ℕ} (positive : 0 < increment) (tmp : α) {top : ℤ} :
    ∀ (budget : ℕ) (ori : ℤ → α) (j : ℤ), 0 ≤ j → j ≤ top → j < len → j < budget →
    GapSliding increment top j (Function.update ori j tmp) →
    ∃ after stop, shellShift len increment tmp budget ori j = .ok (after, stop) ∧
      0 ≤ stop ∧ stop < len ∧
      GapOrdered increment top (Function.update after stop tmp) ∧
      Rearranged 0 (len - 1) (Function.update ori j tmp) (Function.update after stop tmp)
  | 0, _, _, _, _, _, enough, _ => by
      push_cast at enough
      omega
  | budget + 1, ori, j, nonneg, atMost, inside, enough, sliding => by
      push_cast at enough
      have filled : Function.update ori j tmp j = tmp := Function.update_self _ _ _
      have below : Function.update ori j tmp (j - increment) = ori (j - increment) :=
        Function.update_of_ne (by omega) _ _
      rw [shellShift]
      by_cases further : (increment : ℤ) ≤ j
      · rw [if_pos further, bind_ok (get_ok ori (by omega) (by omega))]
        by_cases less : ori (j - increment) < tmp
        · rw [if_pos less, bind_ok (put_ok ori _ nonneg (by omega))]
          have moved := sliding.move (by omega) further atMost (by rwa [filled, below])
          rw [← update_hole_eq_swap ori tmp (by omega)] at moved
          rcases shellShift_ok len positive tmp budget _ (j - increment) (by omega) (by omega)
              (by omega) (by omega) moved with
            ⟨after, stop, computed, stopNonneg, stopInside, ordered, rest⟩
          refine ⟨after, stop, computed, stopNonneg, stopInside, ordered, ?_⟩
          refine Rearranged.trans ?_ rest
          rw [update_hole_eq_swap ori tmp (by omega)]
          exact Rearranged.swap _ ⟨by omega, by omega⟩ ⟨by omega, by omega⟩
        · refine ⟨ori, j, if_neg less, nonneg, inside, ?_, Rearranged.refl _ _ _⟩
          apply sliding.finish
          intro _
          rw [filled, below]
          exact not_lt.mp less
      · refine ⟨ori, j, if_neg further, nonneg, inside, ?_, Rearranged.refl _ _ _⟩
        apply sliding.finish
        intro above
        exact absurd above further

theorem shellElement_ok (len : ℕ) {increment : ℕ} (positive : 0 < increment) {i : ℕ} (ori : ℤ → α)
    (inside : i < len) (ordered : GapOrdered increment (i - 1) ori) :
    ∃ after, shellElement len increment i ori = .ok after ∧ GapOrdered increment i after ∧
      Rearranged 0 (len - 1) ori after := by
  have sliding : GapSliding increment i i (Function.update ori i (ori i)) := by
    rw [Function.update_eq_self]
    constructor
    · intro index above atMost notHole
      exact ordered index above (by omega)
    · intro _ beyond
      omega
  rcases shellShift_ok len positive (ori i) (i + 1) ori i (by omega) (le_refl _) (by omega)
      (by push_cast; omega) sliding with
    ⟨after, stop, computed, stopNonneg, stopInside, extended, rearranged⟩
  rw [Function.update_eq_self] at rearranged
  refine ⟨Function.update after stop (ori i), ?_, extended, rearranged⟩
  rw [shellElement, bind_ok (get_ok ori (by omega) (by omega)), bind_ok computed]
  exact put_ok _ _ stopNonneg (by omega)

/-- The sweep over `i` keeps all chains below `i` in order at once. -/
theorem shellElements_ok (len : ℕ) {increment : ℕ} (positive : 0 < increment) :
    ∀ (count i : ℕ) (ori : ℤ → α), i + count = len →
    GapOrdered increment (i - 1) ori →
    ∃ after, shellElements len increment count i ori = .ok after ∧
      GapOrdered increment (len - 1) after ∧ Rearranged 0 (len - 1) ori after
  | 0, i, ori, total, ordered => by
      refine ⟨ori, rfl, ?_, Rearranged.refl _ _ _⟩
      have all : i = len := by omega
      rwa [all] at ordered
  | count + 1, i, ori, total, ordered => by
      rcases shellElement_ok len positive ori (by omega) ordered with
        ⟨middle, inserted, extended, firstMove⟩
      have next : ((i + 1 : ℕ) : ℤ) - 1 = i := by
        push_cast
        omega
      rcases shellElements_ok len positive count (i + 1) middle (by omega) (by rwa [next]) with
        ⟨after, computed, finished, restMove⟩
      refine ⟨after, ?_, finished, firstMove.trans restMove⟩
      rw [shellElements, bind_ok inserted]
      exact computed

theorem shellPass_ok (len : ℕ) {increment : ℕ} (positive : 0 < increment) (small : increment ≤ len)
    (ori : ℤ → α) :
    ∃ after, shellPass len increment ori = .ok after ∧ GapOrdered increment (len - 1) after ∧
      Rearranged 0 (len - 1) ori after := by
  apply shellElements_ok len positive
  · omega
  · intro index above atMost
    omega

/-! ## The whole run -/

theorem ShellReaches.continues {len : ℕ} {ori cells : ℤ → α} {budget increment : ℕ}
    (reaches : ShellReaches len ori budget increment cells) :
    shellLoop len budget increment cells = shellsort ori len := by
  induction reaches with
  | start => rfl
  | pass earlier positive passed induction =>
      rw [← induction, shellLoop, if_pos positive, bind_ok passed]

theorem ShellReaches.rearranged {len : ℕ} {ori cells : ℤ → α} {budget increment : ℕ}
    (reaches : ShellReaches len ori budget increment cells) :
    increment ≤ len ∧ Rearranged 0 (len - 1) ori cells := by
  induction reaches with
  | start => exact ⟨by omega, Rearranged.refl _ _ _⟩
  | @pass budget increment cells after earlier positive passed induction =>
      rcases shellPass_ok len positive induction.1 cells with ⟨after', passed', -, moved⟩
      rw [passed] at passed'
      cases passed'
      exact ⟨by omega, induction.2.trans moved⟩

theorem shellLoop_ok (len : ℕ) : ∀ (budget increment : ℕ) (ori : ℤ → α), increment < budget →
    increment ≤ len →
    ∃ out, shellLoop len budget increment ori = .ok out ∧ Rearranged 0 (len - 1) ori out ∧
      (0 < increment → GapOrdered 1 (len - 1) out)
  | 0, _, _, enough, _ => absurd enough (by omega)
  | budget + 1, increment, ori, enough, small => by
      rw [shellLoop]
      by_cases positive : 0 < increment
      · rcases shellPass_ok len positive small ori with ⟨middle, passed, ordered, firstMove⟩
        rcases shellLoop_ok len budget (increment / 2) middle (by omega) (by omega) with
          ⟨out, computed, restMove, sorted⟩
        refine ⟨out, ?_, firstMove.trans restMove, ?_⟩
        · rw [if_pos positive, bind_ok passed]
          exact computed
        · intro _
          by_cases last : increment = 1
          · subst last
            rw [shellLoop.eq_def] at computed
            cases budget with
            | zero => omega
            | succ budget =>
                cases computed
                exact ordered
          · exact sorted (by omega)
      · exact ⟨ori, if_neg positive, Rearranged.refl _ _ _, fun wrong => absurd wrong positive⟩

private theorem GapOrdered.descending {right : ℤ} {cells : ℤ → α}
    (ordered : GapOrdered 1 right cells) {lower : ℤ} (nonneg : 0 ≤ lower) :
    ∀ distance : ℕ, lower + distance ≤ right → cells (lower + distance) ≤ cells lower
  | 0, _ => by simp
  | distance + 1, inside => by
      push_cast at inside ⊢
      have step := ordered (lower + distance + 1) (by omega) (by omega)
      rw [Int.add_sub_cancel] at step
      rw [← Int.add_assoc]
      exact step.trans (ordered.descending nonneg distance (by omega))

theorem shellsort_ok (ori : ℤ → α) (len : ℕ) :
    ∃ out, shellsort ori len = .ok out ∧ Rearranged 0 (len - 1) ori out ∧
      (contents len out).Pairwise (· ≥ ·) := by
  rcases shellLoop_ok len (len + 1) (len / 2) ori (by omega) (by omega) with
    ⟨out, computed, moved, sorted⟩
  refine ⟨out, computed, moved, ?_⟩
  rw [List.pairwise_iff_getElem]
  simp only [contents_getElem, contents_length]
  intro lower upper lowerInside upperInside below
  have ordered := sorted (by omega)
  have bound := ordered.descending (Int.natCast_nonneg lower) (upper - lower) (by omega)
  have reached : (lower : ℤ) + ((upper - lower : ℕ) : ℤ) = upper := by omega
  rwa [reached] at bound

private theorem eq_of_ascending {first second : List α} (perm : first.Perm second)
    (firstAscending : first.Pairwise (· ≤ ·)) (secondAscending : second.Pairwise (· ≤ ·)) :
    first = second :=
  perm.eq_of_pairwise (fun _ _ _ _ => le_antisymm) firstAscending secondAscending

/-- Each pass of the run, with gap `increment`, stays inside the array and leaves
a permutation of the input in which elements one gap apart do not increase. The
result does not increase: it is the reverse of what `Insertsort` returns. -/
theorem shellsort_passes (ori : ℤ → ℤ) (len : ℕ) :
    (∀ budget increment cells, ShellReaches len ori budget increment cells →
      shellLoop len budget increment cells = shellsort ori len ∧
        (0 < increment → ∃ after, shellPass len increment cells = .ok after ∧
          (contents len after).Perm (contents len ori) ∧
          ∀ index : ℤ, increment ≤ index → index < len →
            after index ≤ after (index - increment))) ∧
    ∃ out inserted, shellsort ori len = .ok out ∧ insertsort id 0 len ori = .ok inserted ∧
      (contents len out).Perm (contents len ori) ∧ (contents len out).Pairwise (· ≥ ·) ∧
      contents len out = (contents len inserted).reverse := by
  constructor
  · intro budget increment cells reaches
    refine ⟨reaches.continues, ?_⟩
    intro positive
    rcases shellPass_ok len positive reaches.rearranged.1 cells with
      ⟨after, passed, ordered, moved⟩
    refine ⟨after, passed, (reaches.rearranged.2.trans moved).contents_perm, ?_⟩
    intro index above below
    exact ordered index above (by omega)
  · rcases shellsort_ok ori len with ⟨out, computed, moved, descending⟩
    rcases insertsort_ok id 0 len ori with ⟨inserted, insertOk, insertMoved, ascending⟩
    rw [Int.zero_add] at insertMoved ascending
    refine ⟨out, inserted, computed, insertOk, moved.contents_perm, descending, ?_⟩
    have reversed : (contents len out).reverse = contents len inserted := by
      apply eq_of_ascending
      · exact ((List.reverse_perm _).trans moved.contents_perm).trans
          insertMoved.contents_perm.symm
      · rwa [List.pairwise_reverse]
      · exact (contents_pairwise_iff id len inserted).mpr ascending
    rw [← reversed, List.reverse_reverse]

private theorem ascending_iff_constant {values : List α} (descending : values.Pairwise (· ≥ ·)) :
    values.Pairwise (· ≤ ·) ↔ ∀ first ∈ values, ∀ second ∈ values, first = second := by
  constructor
  · intro ascending
    have equal : values.Pairwise (· = ·) :=
      (ascending.and descending).imp fun both => le_antisymm both.1 both.2
    intro first firstMember second secondMember
    exact equal.forall_of_forall (fun _ _ => rfl) firstMember secondMember
  · intro equal
    apply List.pairwise_of_forall_mem_list
    intro first firstMember second secondMember
    exact (equal first firstMember second secondMember).le

/-- `Shellsort` sorts upwards, or agrees with `Insertsort`, exactly when all
elements are equal. -/
theorem shellsort_ascends_iff (ori : ℤ → ℤ) (len : ℕ) :
    (Sorts shellsort ori len ↔
      ∀ first ∈ contents len ori, ∀ second ∈ contents len ori, first = second) ∧
    (shellsort ori len = insertsort id 0 len ori ↔
      ∀ first ∈ contents len ori, ∀ second ∈ contents len ori, first = second) := by
  rcases shellsort_ok ori len with ⟨out, computed, moved, descending⟩
  rcases insertsort_ok id 0 len ori with ⟨inserted, insertOk, insertMoved, insertAscending⟩
  rw [Int.zero_add] at insertMoved insertAscending
  have insertPairwise := (contents_pairwise_iff id len inserted).mpr insertAscending
  have perm := moved.contents_perm
  have constant : (contents len out).Pairwise (· ≤ ·) ↔
      ∀ first ∈ contents len ori, ∀ second ∈ contents len ori, first = second := by
    rw [ascending_iff_constant descending]
    simp only [perm.mem_iff]
  rw [← constant]
  constructor
  · constructor
    · rintro ⟨out', computed', -, ascending⟩
      rw [computed] at computed'
      cases computed'
      exact ascending
    · intro ascending
      exact ⟨out, computed, perm, ascending⟩
  · rw [computed, insertOk]
    constructor
    · intro same
      cases same
      exact insertPairwise
    · intro ascending
      congr 1
      apply moved.eq_of_contents insertMoved
      exact eq_of_ascending (perm.trans insertMoved.contents_perm.symm) ascending insertPairwise

/-- The two cells `1, 2` come back as `2, 1`. -/
theorem shellsort_descends_12 :
    ¬Sorts shellsort (fun index => [1, 2].getD index.toNat (0 : ℤ)) 2 := by
  rintro ⟨out, computed, -, ascending⟩
  have result : (shellsort (fun index => [1, 2].getD index.toNat (0 : ℤ)) 2).map (contents 2) =
      .ok [2, 1] := by
    decide
  rw [computed] at result
  rw [Except.ok.inj result] at ascending
  revert ascending
  decide

end Lctools.Csort
