import Lctools.Csort.Sorting
import Lctools.Foundation.Fallible
import Lctools.Foundation.StableOrder

/-! # `csort/Mergesort.c`

Both the array and the scratch array `tmpA` have `len` elements; `tmpA` starts
with arbitrary contents. Elements are compared through `key`. Indices are unbounded
integers here; `Csort.Machine` has the `int` arithmetic of the source.
-/

namespace Lctools.Csort

open Cells Fallible StableOrder

variable {α κ : Type} [LinearOrder κ]

/-! ## The program -/

section Model

variable (key : α → κ) (len : ℤ)

/-- `while(left <= leftEnd && right <= rightEnd)`; returns the scratch array and
the final `left`, `right` and `count`. -/
def mergeLoop (leftEnd rightEnd : ℤ) (ori : ℤ → α) : (budget : ℕ) → (tmpA : ℤ → α) →
    (left right : ℤ) → (count : ℕ) → Except Fault ((ℤ → α) × ℤ × ℤ × ℕ)
  | 0, _, _, _, _ => .error .unfinished
  | budget + 1, tmpA, left, right, count =>
      if left ≤ leftEnd ∧ right ≤ rightEnd then do
        let first ← get 0 (len - 1) ori left
        let second ← get 0 (len - 1) ori right
        if key first < key second then
          let tmpA ← put 0 (len - 1) tmpA count first
          mergeLoop leftEnd rightEnd ori budget tmpA (left + 1) right (count + 1)
        else
          let tmpA ← put 0 (len - 1) tmpA count second
          mergeLoop leftEnd rightEnd ori budget tmpA left (right + 1) (count + 1)
      else
        .ok (tmpA, left, right, count)

/-- `while(next <= last) tmpA[count++] = ori[next++];` -/
def drainLoop (last : ℤ) (ori : ℤ → α) : (budget : ℕ) → (tmpA : ℤ → α) → (next : ℤ) →
    (count : ℕ) → Except Fault ((ℤ → α) × ℕ)
  | 0, _, _, _ => .error .unfinished
  | budget + 1, tmpA, next, count =>
      if next ≤ last then do
        let value ← get 0 (len - 1) ori next
        let tmpA ← put 0 (len - 1) tmpA count value
        drainLoop last ori budget tmpA (next + 1) (count + 1)
      else
        .ok (tmpA, count)

/-- `for(j = count-1; j >=0; j--) ori[rightEnd--] = tmpA[j];` -/
def copyBack (tmpA : ℤ → α) : (count : ℕ) → (rightEnd : ℤ) → (ori : ℤ → α) →
    Except Fault (ℤ → α)
  | 0, _, ori => .ok ori
  | j + 1, rightEnd, ori => do
      let value ← get 0 (len - 1) tmpA j
      let ori ← put 0 (len - 1) ori rightEnd value
      copyBack tmpA j (rightEnd - 1) ori

/-- `Merge(ori, tmpA, left, right, rightEnd)`; returns both arrays. -/
def merge (ori tmpA : ℤ → α) (left right rightEnd : ℤ) :
    Except Fault ((ℤ → α) × (ℤ → α)) := do
  let leftEnd := right - 1
  let (tmpA, nextLeft, nextRight, count) ←
    mergeLoop key len leftEnd rightEnd ori (len.toNat + 1) tmpA left right 0
  let (tmpA, count) ← drainLoop len leftEnd ori (len.toNat + 1) tmpA nextLeft count
  let (tmpA, count) ← drainLoop len rightEnd ori (len.toNat + 1) tmpA nextRight count
  let ori ← copyBack len tmpA count rightEnd ori
  .ok (ori, tmpA)

/-- `Msort(ori, tmpA, left, right)` with at most `budget` nested calls. -/
def msort : (budget : ℕ) → (ori tmpA : ℤ → α) → (left right : ℤ) →
    Except Fault ((ℤ → α) × (ℤ → α))
  | 0, _, _, _, _ => .error .unfinished
  | budget + 1, ori, tmpA, left, right =>
      if left < right then do
        let (ori, tmpA) ← msort budget ori tmpA left (centor left right)
        let (ori, tmpA) ← msort budget ori tmpA (centor left right + 1) right
        merge key len ori tmpA left (centor left right + 1) right
      else
        .ok (ori, tmpA)

end Model

/-- `Mergesort(ori, len)`. The first argument is what the allocation of the
scratch array returns: nothing, or an array of `len` elements. -/
def mergesort (key : α → κ) (tmpA : Option (ℤ → α)) (ori : ℤ → α) (len : ℕ) :
    Except Fault (ℤ → α) :=
  match tmpA with
  | none => .ok ori
  | some tmpA => do
      let (ori, _) ← msort key len (len + 1) ori tmpA 0 (len - 1)
      .ok ori

/-! ## Merging -/

variable (key : α → κ) (len : ℤ)

/-- The state of a merge of `size` elements: `lefts` elements from `left` on and
`rights` elements from `right` on are left, and their merge completes the first
`count` cells of the scratch array to `goal`. -/
structure Merging (leftEnd rightEnd : ℤ) (ori : ℤ → α) (size : ℕ) (goal : List α)
    (tmpA : ℤ → α) (left right : ℤ) (count lefts rights : ℕ) : Prop where
  leftNonneg : 0 ≤ left
  rightNonneg : 0 ≤ right
  leftTotal : left + lefts = leftEnd + 1
  rightTotal : right + rights = rightEnd + 1
  total : count + lefts + rights = size
  merged : contents count tmpA ++
    mergeSecond key (segment left lefts ori) (segment right rights ori) = goal

namespace Merging

variable {key} {leftEnd rightEnd left right : ℤ} {ori tmpA : ℤ → α} {goal : List α}
  {size count lefts rights : ℕ}

theorem takeLeft (merging : Merging key leftEnd rightEnd ori size goal tmpA left right count
    (lefts + 1) (rights + 1)) (less : key (ori left) < key (ori right)) :
    Merging key leftEnd rightEnd ori size goal (Function.update tmpA count (ori left)) (left + 1)
      right (count + 1) lefts (rights + 1) := by
  have leftNonneg := merging.leftNonneg
  have leftTotal := merging.leftTotal
  have total := merging.total
  push_cast at leftTotal
  refine ⟨by omega, merging.rightNonneg, by omega, merging.rightTotal, by omega, ?_⟩
  rw [← merging.merged, segment_cons left, segment_cons right, mergeSecond_cons, if_pos less,
    contents_update_succ, List.append_assoc]
  rfl

theorem takeRight (merging : Merging key leftEnd rightEnd ori size goal tmpA left right count
    (lefts + 1) (rights + 1)) (notLess : ¬key (ori left) < key (ori right)) :
    Merging key leftEnd rightEnd ori size goal (Function.update tmpA count (ori right)) left
      (right + 1) (count + 1) (lefts + 1) rights := by
  have rightNonneg := merging.rightNonneg
  have rightTotal := merging.rightTotal
  have total := merging.total
  push_cast at rightTotal
  refine ⟨merging.leftNonneg, by omega, merging.leftTotal, by omega, by omega, ?_⟩
  rw [← merging.merged, segment_cons left, segment_cons right, mergeSecond_cons, if_neg notLess,
    contents_update_succ, List.append_assoc]
  rfl

theorem finish (merging : Merging key leftEnd rightEnd ori size goal tmpA left right count
    lefts rights) (usedUp : lefts = 0 ∨ rights = 0) :
    contents count tmpA ++ segment left lefts ori ++ segment right rights ori = goal := by
  rw [← merging.merged, List.append_assoc]
  rcases usedUp with rfl | rfl
  · simp [mergeSecond]
  · simp [mergeSecond]

end Merging

theorem mergeLoop_ok {leftEnd rightEnd : ℤ} (leftInside : leftEnd < len)
    (rightInside : rightEnd < len) (ori : ℤ → α) {size : ℕ} (room : size ≤ len)
    {goal : List α} : ∀ (budget : ℕ) (tmpA : ℤ → α) (left right : ℤ) (count lefts rights : ℕ),
    Merging key leftEnd rightEnd ori size goal tmpA left right count lefts rights →
    lefts + rights < budget →
    ∃ (filled : ℤ → α) (nextLeft nextRight : ℤ) (stop leftRest rightRest : ℕ),
      mergeLoop key len leftEnd rightEnd ori budget tmpA left right count =
        .ok (filled, nextLeft, nextRight, stop) ∧
      Merging key leftEnd rightEnd ori size goal filled nextLeft nextRight stop leftRest
        rightRest ∧
      (leftRest = 0 ∨ rightRest = 0)
  | 0, _, _, _, _, _, _, _, enough => absurd enough (by omega)
  | budget + 1, tmpA, left, right, count, lefts, rights, merging, enough => by
      have leftNonneg := merging.leftNonneg
      have rightNonneg := merging.rightNonneg
      have leftTotal := merging.leftTotal
      have rightTotal := merging.rightTotal
      have total := merging.total
      rw [mergeLoop]
      by_cases usedUp : lefts = 0 ∨ rights = 0
      · exact ⟨tmpA, left, right, count, lefts, rights, if_neg (by omega), merging, usedUp⟩
      · rw [if_pos ⟨by omega, by omega⟩, bind_ok (get_ok ori leftNonneg (by omega)),
          bind_ok (get_ok ori rightNonneg (by omega))]
        obtain ⟨lefts, rfl⟩ : ∃ fewer, lefts = fewer + 1 := Nat.exists_eq_succ_of_ne_zero (by omega)
        obtain ⟨rights, rfl⟩ : ∃ fewer, rights = fewer + 1 :=
          Nat.exists_eq_succ_of_ne_zero (by omega)
        by_cases less : key (ori left) < key (ori right)
        · rw [if_pos less, bind_ok (put_ok tmpA _ (by omega) (by omega))]
          exact mergeLoop_ok leftInside rightInside ori room budget _ _ _ _ _ _
            (merging.takeLeft less) (by omega)
        · rw [if_neg less, bind_ok (put_ok tmpA _ (by omega) (by omega))]
          exact mergeLoop_ok leftInside rightInside ori room budget _ _ _ _ _ _
            (merging.takeRight less) (by omega)

omit [LinearOrder κ] in
theorem drainLoop_ok {last : ℤ} (inside : last < len) (ori : ℤ → α) :
    ∀ (budget : ℕ) (tmpA : ℤ → α) (next : ℤ) (count rest : ℕ), 0 ≤ next →
    next + rest = last + 1 → count + rest ≤ len → rest < budget →
    ∃ filled, drainLoop len last ori budget tmpA next count = .ok (filled, count + rest) ∧
      contents (count + rest) filled = contents count tmpA ++ segment next rest ori
  | 0, _, _, _, _, _, _, _, enough => absurd enough (by omega)
  | budget + 1, tmpA, next, count, rest, nonneg, total, room, enough => by
      rw [drainLoop]
      cases rest with
      | zero =>
          refine ⟨tmpA, if_neg (by omega), ?_⟩
          simp
      | succ rest =>
          push_cast at total room
          rw [if_pos (by omega), bind_ok (get_ok ori nonneg (by omega)),
            bind_ok (put_ok tmpA _ (by omega) (by omega))]
          rcases drainLoop_ok inside ori budget (Function.update tmpA count (ori next)) (next + 1)
              (count + 1) rest (by omega) (by omega) (by push_cast; omega) (by omega) with
            ⟨filled, computed, copied⟩
          have shifted : count + 1 + rest = count + (rest + 1) := by omega
          rw [shifted] at computed copied
          refine ⟨filled, computed, ?_⟩
          rw [copied, contents_update_succ, List.append_assoc, segment_cons next]
          rfl

theorem copyBack_ok (tmpA : ℤ → α) : ∀ (count : ℕ) (rightEnd : ℤ) (ori : ℤ → α),
    (count : ℤ) ≤ rightEnd + 1 → rightEnd < len →
    ∃ after, copyBack len tmpA count rightEnd ori = .ok after ∧
      segment (rightEnd + 1 - count) count after = contents count tmpA ∧
      ∀ index, ¬(rightEnd - count < index ∧ index ≤ rightEnd) → after index = ori index
  | 0, _, ori, _, _ => ⟨ori, rfl, rfl, fun _ _ => rfl⟩
  | count + 1, rightEnd, ori, room, inside => by
      push_cast at room
      rcases copyBack_ok tmpA count (rightEnd - 1) (Function.update ori rightEnd (tmpA count))
          (by omega) (by omega) with ⟨after, computed, copied, kept⟩
      refine ⟨after, ?_, ?_, ?_⟩
      · rw [copyBack, bind_ok (get_ok tmpA (by omega) (by omega)),
          bind_ok (put_ok ori _ (by omega) (by omega))]
        exact computed
      · have start : rightEnd + 1 - ((count + 1 : ℕ) : ℤ) = rightEnd - 1 + 1 - count := by
          push_cast
          omega
        have top : rightEnd - 1 + 1 - (count : ℤ) + count = rightEnd := by omega
        have last : after rightEnd = tmpA count := by
          rw [kept rightEnd (by omega), Function.update_self]
        rw [start, segment_append, copied, top, segment_cons, segment_zero, last, contents_succ]
      · intro index outside
        push_cast at outside
        rw [kept index (by omega), Function.update_of_ne (by omega)]

theorem merge_ok (ori tmpA : ℤ → α) {left right rightEnd : ℤ} {lefts rights : ℕ}
    (nonneg : 0 ≤ left) (middle : left + lefts = right) (total : right + rights = rightEnd + 1)
    (inside : rightEnd < len) :
    ∃ after filled, merge key len ori tmpA left right rightEnd = .ok (after, filled) ∧
      segment left (lefts + rights) after =
        mergeSecond key (segment left lefts ori) (segment right rights ori) ∧
      ∀ index, ¬(left ≤ index ∧ index ≤ rightEnd) → after index = ori index := by
  have start : Merging key (right - 1) rightEnd ori (lefts + rights)
      (mergeSecond key (segment left lefts ori) (segment right rights ori)) tmpA left right 0
      lefts rights := by
    refine ⟨nonneg, by omega, by omega, total, by omega, ?_⟩
    simp [contents]
  rcases mergeLoop_ok key len (show right - 1 < len by omega) inside ori (by push_cast; omega)
      (len.toNat + 1) tmpA left right 0 lefts rights start (by omega) with
    ⟨merged, nextLeft, nextRight, stop, leftRest, rightRest, mergeOk, merging, usedUp⟩
  have moved := merging.total
  rcases drainLoop_ok len (show right - 1 < len by omega) ori (len.toNat + 1) merged nextLeft stop
      leftRest merging.leftNonneg merging.leftTotal (by omega) (by omega) with
    ⟨lower, lowerOk, lowerCopied⟩
  rcases drainLoop_ok len inside ori (len.toNat + 1) lower nextRight (stop + leftRest)
      rightRest merging.rightNonneg merging.rightTotal (by push_cast; omega) (by omega) with
    ⟨upper, upperOk, upperCopied⟩
  rcases copyBack_ok len upper (lefts + rights) rightEnd ori (by push_cast; omega) inside with
    ⟨after, copyOk, copied, kept⟩
  refine ⟨after, upper, ?_, ?_, ?_⟩
  · rw [merge, bind_ok mergeOk]
    dsimp only
    rw [bind_ok lowerOk]
    dsimp only
    rw [bind_ok upperOk, moved]
    exact bind_ok copyOk _
  · have first : rightEnd + 1 - ((lefts + rights : ℕ) : ℤ) = left := by
      push_cast
      omega
    rw [first] at copied
    rw [moved] at upperCopied
    rw [copied, upperCopied, lowerCopied]
    exact merging.finish usedUp
  · intro index outside
    apply kept
    push_cast
    omega

/-! ## The recursion -/

theorem centor_split {left right : ℤ} (nonneg : 0 ≤ left) (several : left < right) :
    left ≤ centor left right ∧ centor left right < right := by
  rw [centor, Int.tdiv_eq_ediv_of_nonneg (by omega)]
  omega

private theorem stablySorted_short (start : ℤ) {length : ℕ} (short : length ≤ 1) (cells : ℤ → α) :
    StablySorted key (segment start length cells).reverse (segment start length cells) := by
  cases length with
  | zero => exact ⟨List.Pairwise.nil, fun _ => rfl⟩
  | succ rest =>
      have single : rest = 0 := by omega
      subst single
      rw [segment_cons, segment_zero]
      exact ⟨List.pairwise_singleton _ _, fun _ => rfl⟩

/-- `Msort` sorts its range, with the elements of each key in reverse order, and
changes nothing outside of it. -/
theorem msort_ok : ∀ (budget : ℕ) (ori tmpA : ℤ → α) (left right : ℤ) (length : ℕ), 0 ≤ left →
    left + length = right + 1 → right < len → length < budget →
    ∃ after filled, msort key len budget ori tmpA left right = .ok (after, filled) ∧
      StablySorted key (segment left length ori).reverse (segment left length after) ∧
      ∀ index, ¬(left ≤ index ∧ index ≤ right) → after index = ori index
  | 0, _, _, _, _, _, _, _, _, enough => absurd enough (by omega)
  | budget + 1, ori, tmpA, left, right, length, nonneg, total, inside, enough => by
      rw [msort]
      by_cases several : left < right
      · have split := centor_split nonneg several
        rw [if_pos several]
        generalize centor left right = middle at split ⊢
        obtain ⟨lefts, leftsEq⟩ : ∃ lefts : ℕ, (lefts : ℤ) = middle + 1 - left :=
          ⟨(middle + 1 - left).toNat, by omega⟩
        obtain ⟨rights, rightsEq⟩ : ∃ rights : ℕ, (rights : ℤ) = right - middle :=
          ⟨(right - middle).toNat, by omega⟩
        have sum : length = lefts + rights := by omega
        subst sum
        rcases msort_ok budget ori tmpA left middle lefts nonneg (by omega) (by omega) (by omega)
          with ⟨lower, lowerTmp, lowerOk, lowerSorted, lowerKept⟩
        rcases msort_ok budget lower lowerTmp (middle + 1) right rights (by omega) (by omega) inside
          (by omega) with ⟨upper, upperTmp, upperOk, upperSorted, upperKept⟩
        rcases merge_ok key len upper upperTmp nonneg (show left + lefts = middle + 1 by omega)
          (show middle + 1 + rights = right + 1 by omega) inside with
          ⟨after, filled, mergeOk, merged, mergeKept⟩
        -- The second call leaves the first half alone and finds the second half
        -- as it was.
        have firstHalf : segment left lefts upper = segment left lefts lower :=
          segment_congr fun index _ below => upperKept index (by omega)
        have secondHalf : segment (middle + 1) rights lower = segment (middle + 1) rights ori :=
          segment_congr fun index above _ => lowerKept index (by omega)
        refine ⟨after, filled, ?_, ?_, ?_⟩
        · rw [bind_ok lowerOk]
          dsimp only
          rw [bind_ok upperOk]
          exact mergeOk
        · rw [secondHalf] at upperSorted
          have next : left + (lefts : ℤ) = middle + 1 := by omega
          rw [merged, firstHalf, segment_append, next]
          exact lowerSorted.mergeSecond upperSorted
        · intro index outside
          rw [mergeKept index outside, upperKept index (by omega), lowerKept index (by omega)]
      · exact ⟨ori, tmpA, if_neg several, stablySorted_short key left (by omega) ori,
          fun _ _ => rfl⟩

theorem mergesort_ok (key : α → κ) (tmpA ori : ℤ → α) (len : ℕ) :
    ∃ out, mergesort key (some tmpA) ori len = .ok out ∧
      StablySorted key (contents len ori).reverse (contents len out) := by
  rcases msort_ok key len (len + 1) ori tmpA 0 (len - 1) len (le_refl 0) (by omega) (by omega)
    (by omega) with ⟨out, filled, computed, sorted, -⟩
  refine ⟨out, ?_, ?_⟩
  · rw [mergesort, bind_ok computed]
  · rwa [contents_eq_segment, contents_eq_segment]

end Lctools.Csort
