import Lctools.Csort.Lengths

/-! # `Quicksort` on arrays of any `int` length

Up to `2 ^ 30 + 2` elements no sum of indices is too large, and the routine does what
`Csort.quicksort` does. On longer arrays this depends on the ranges that the recursion
comes to.
-/

namespace Lctools.Csort.Machine

open Cells Fallible Overflow

variable {α : Type} [LinearOrder α]

/-! ## The calls of a run -/

/-- `Enters budget call inner`: executing `call` executes the call `inner`,
directly or through nested calls. -/
inductive Enters : ℕ → QsortCall α → QsortCall α → Prop
  | self {budget call} : Enters (budget + 1) call call
  | lower {budget call inner cells split} :
      call.left + cutoff ≤ call.right →
      qsortSplit call.left call.right call.ori = .ok (cells, split) →
      Enters budget ⟨cells, call.left, split - 1⟩ inner →
      Enters (budget + 1) call inner
  | upper {budget call inner cells split sorted} :
      call.left + cutoff ≤ call.right →
      qsortSplit call.left call.right call.ori = .ok (cells, split) →
      qsort budget cells call.left (split - 1) = .ok sorted →
      Enters budget ⟨sorted, split + 1, call.right⟩ inner →
      Enters (budget + 1) call inner

/-- The two sums that `Qsort` makes of the bounds of its range fit an `int`; the second
one is only made for a range of at least four elements. -/
def SumsFit (call : QsortCall α) : Prop :=
  call.left + cutoff ≤ 2 ^ 31 - 1 ∧
    (call.left + cutoff ≤ call.right → call.left + call.right ≤ 2 ^ 31 - 1)

section Bounds

variable {budget : ℕ} {ori : ℤ → α} {left right : ℤ}

theorem qsortSplit_overflow (ori : ℤ → α) (above : 2 ^ 31 - 1 < left + right) :
    qsortSplit left right ori = .error (.overflow (left + right)) := by
  rw [qsortSplit, median3, bind_error (centor_overflow above)]
  rfl

/-- The run does what the model does, and all its sums fit. -/
def Follows (budget : ℕ) (ori : ℤ → α) (left right : ℤ) : Prop :=
  qsort budget ori left right = lift (Csort.qsort budget ori left right) ∧
    ∀ call, Csort.Enters budget ⟨ori, left, right⟩ call →
      Enters budget ⟨ori, left, right⟩ call ∧ SumsFit call

def Overflows (budget : ℕ) (ori : ℤ → α) (left right : ℤ) : Prop :=
  ∃ value call, qsort budget ori left right = .error (.overflow value) ∧
    Enters budget ⟨ori, left, right⟩ call ∧ ¬SumsFit call

section Large

variable {cells sorted : ℤ → α} {split : ℤ} (nonneg : 0 ≤ left) (inside : right < 2 ^ 31 - 1)
  (large : left + cutoff ≤ right) (small : left + right ≤ 2 ^ 31 - 1)
  (splitOk : Csort.qsortSplit left right ori = .ok (cells, split))
  (leftSplit : left < split) (splitRight : split < right)
  (lowerOk : Csort.qsort budget cells left (split - 1) = .ok sorted)

include nonneg inside large small splitOk leftSplit splitRight

variable (budget) in
theorem qsort_lower : qsort (budget + 1) ori left right = (do
    let ori ← qsort budget cells left (split - 1)
    qsort budget ori (split + 1) right) := by
  have three : cutoff = 3 := rfl
  have splitSame : qsortSplit left right ori = .ok (cells, split) := by
    rw [qsortSplit_eq nonneg inside ori large small, splitOk, lift_ok]
  rw [qsort, bind_ok (int_ok (by omega) (by omega)), if_pos large, bind_ok splitSame]
  dsimp only
  rw [bind_ok (int_ok (by omega) (by omega))]
  apply bind_congr
  intro sorted
  rw [bind_ok (int_ok (by omega) (by omega))]

include lowerOk

theorem Follows.join (lower : Follows budget cells left (split - 1))
    (upper : Follows budget sorted (split + 1) right) : Follows (budget + 1) ori left right := by
  have three : cutoff = 3 := rfl
  have fit : SumsFit ⟨ori, left, right⟩ := ⟨by dsimp only; omega, fun _ => small⟩
  have splitSame : qsortSplit left right ori = .ok (cells, split) := by
    rw [qsortSplit_eq nonneg inside ori large small, splitOk, lift_ok]
  have lowerSame : qsort budget cells left (split - 1) = .ok sorted := by
    rw [lower.1, lowerOk, lift_ok]
  constructor
  · rw [qsort_lower budget nonneg inside large small splitOk leftSplit splitRight, bind_ok lowerSame,
      upper.1, Csort.qsort, if_pos large, bind_ok splitOk]
    dsimp only
    rw [bind_ok lowerOk]
  · intro call enters
    cases enters with
    | self => exact ⟨.self, fit⟩
    | lower _ splitOk' enters =>
        rw [splitOk] at splitOk'
        cases splitOk'
        have inner := lower.2 call enters
        exact ⟨.lower large splitSame inner.1, inner.2⟩
    | upper _ splitOk' lowerOk' enters =>
        rw [splitOk] at splitOk'
        cases splitOk'
        rw [lowerOk] at lowerOk'
        cases lowerOk'
        have inner := upper.2 call enters
        exact ⟨.upper large splitSame lowerSame inner.1, inner.2⟩

end Large

/-- A run of `Qsort` follows the model up to the first sum that does not fit. -/
theorem follows_or_overflows : ∀ (budget : ℕ) (ori : ℤ → α) (left right : ℤ), 0 ≤ left →
    left ≤ right + 1 → right < 2 ^ 31 - 1 → right - left + 1 < budget →
    Follows budget ori left right ∨ Overflows budget ori left right
  | 0, _, _, _, _, _, _, enough => by
      push_cast at enough
      omega
  | budget + 1, ori, left, right, nonneg, sized, inside, enough => by
      push_cast at enough
      have three : cutoff = 3 := rfl
      by_cases least : left + cutoff ≤ 2 ^ 31 - 1
      · by_cases large : left + cutoff ≤ right
        · by_cases small : left + right ≤ 2 ^ 31 - 1
          · rcases qsortSplit_ok ori nonneg large with
              ⟨cells, split, splitOk, -, leftSplit, splitRight, -⟩
            rcases qsort_ok budget cells left (split - 1) nonneg (by omega) (by omega) with
              ⟨sorted, lowerOk, -⟩
            have splitSame : qsortSplit left right ori = .ok (cells, split) := by
              rw [qsortSplit_eq nonneg inside ori large small, splitOk, lift_ok]
            have opened := qsort_lower budget nonneg inside large small splitOk
              leftSplit splitRight
            rcases follows_or_overflows budget cells left (split - 1) nonneg (by omega) (by omega)
              (by omega) with lower | ⟨value, call, overflows, enters, unfit⟩
            · have lowerSame : qsort budget cells left (split - 1) = .ok sorted := by
                rw [lower.1, lowerOk, lift_ok]
              rcases follows_or_overflows budget sorted (split + 1) right (by omega) (by omega)
                inside (by omega) with upper | ⟨value, call, overflows, enters, unfit⟩
              · exact .inl (.join nonneg inside large small splitOk leftSplit splitRight lowerOk
                  lower upper)
              · refine .inr ⟨value, call, ?_, .upper large splitSame lowerSame enters, unfit⟩
                rw [opened, bind_ok lowerSame, overflows]
            · refine .inr ⟨value, call, ?_, .lower large splitSame enters, unfit⟩
              rw [opened, bind_error overflows]
          · refine .inr ⟨left + right, ⟨ori, left, right⟩, ?_, .self,
              fun fit => small (fit.2 large)⟩
            rw [qsort, bind_ok (int_ok (by omega) least), if_pos large,
              bind_error (qsortSplit_overflow ori (by omega))]
        · refine .inl ⟨?_, ?_⟩
          · rw [qsort, Csort.qsort, bind_ok (int_ok (by omega) least), if_neg large, if_neg large,
              bind_ok (int_ok (by omega) (by omega)), bind_ok (int_ok (by omega) (by omega))]
            exact insertLoop_eq id (by omega) _ _ ori
          · intro call enters
            cases enters with
            | self => exact ⟨.self, least, fun wide => absurd wide large⟩
            | lower wide _ _ => exact absurd wide large
            | upper wide _ _ _ => exact absurd wide large
      · refine .inr ⟨left + cutoff, ⟨ori, left, right⟩, ?_, .self, fun fit => least fit.1⟩
        rw [qsort, bind_error (int_overflow (by omega))]

theorem qsort_model {out : ℤ → α} (nonneg : 0 ≤ left) (sized : left ≤ right + 1)
    (inside : right < 2 ^ 31 - 1) (enough : right - left + 1 < budget)
    (computed : qsort budget ori left right = .ok out) : Follows budget ori left right ∧
      Csort.qsort budget ori left right = .ok out := by
  rcases follows_or_overflows budget ori left right nonneg sized inside enough with
    follows | ⟨value, call, overflows, -⟩
  · rw [follows.1] at computed
    exact ⟨follows, of_lift_ok computed⟩
  · rw [overflows] at computed
    cases computed

theorem qsortSplit_model {cells : ℤ → α} {split : ℤ} (nonneg : 0 ≤ left)
    (inside : right < 2 ^ 31 - 1) (large : left + cutoff ≤ right)
    (computed : qsortSplit left right ori = .ok (cells, split)) :
    Csort.qsortSplit left right ori = .ok (cells, split) ∧ left < split ∧ split < right := by
  by_cases small : left + right ≤ 2 ^ 31 - 1
  · rw [qsortSplit_eq nonneg inside ori large small] at computed
    have splitOk := of_lift_ok computed
    rcases qsortSplit_ok ori nonneg large with
      ⟨cells', split', splitOk', -, leftSplit, splitRight, -⟩
    rw [splitOk] at splitOk'
    cases splitOk'
    exact ⟨splitOk, leftSplit, splitRight⟩
  · rw [qsortSplit_overflow ori (by omega)] at computed
    cases computed

end Bounds

theorem Enters.model {budget : ℕ} {call inner : QsortCall α} (enters : Enters budget call inner) :
    0 ≤ call.left → call.left ≤ call.right + 1 → call.right < 2 ^ 31 - 1 →
      call.right - call.left + 1 < budget → Csort.Enters budget call inner := by
  induction enters with
  | self => exact fun _ _ _ _ => .self
  | @lower budget call inner cells split large split _ induction =>
      intro nonneg sized inside enough
      push_cast at enough
      have three : cutoff = 3 := rfl
      rcases qsortSplit_model nonneg inside large split with ⟨splitOk, leftSplit, splitRight⟩
      exact .lower large splitOk
        (induction nonneg (by dsimp only; omega) (by dsimp only; omega) (by dsimp only; omega))
  | @upper budget call inner cells split sorted large split lower _ induction =>
      intro nonneg sized inside enough
      push_cast at enough
      rcases qsortSplit_model nonneg inside large split with ⟨splitOk, leftSplit, splitRight⟩
      have lowerOk := (qsort_model nonneg (by omega) (by omega) (by omega) lower).2
      exact .upper large splitOk lowerOk
        (induction (by dsimp only; omega) (by dsimp only; omega) inside (by dsimp only; omega))

/-! ## The whole sort -/

section Whole

variable {len : ℕ}

theorem quicksort_unfold (ori : ℤ → α) (range : len ≤ 2 ^ 31 - 1) :
    quicksort ori len = qsort (len + 1) ori 0 (len - 1) := by
  rw [quicksort, bind_ok (int_ok (by omega) (by omega))]

theorem sumsFit_of_length {ori : ℤ → α} (short : len ≤ 2 ^ 30 + 2) {call : QsortCall α}
    (enters : Enters (len + 1) ⟨ori, 0, len - 1⟩ call) : SumsFit call := by
  have three : cutoff = 3 := rfl
  have modelled := enters.model (le_refl 0) (by dsimp only; omega) (by dsimp only; omega)
    (by push_cast; omega)
  rcases modelled.contained (le_refl 0) (by dsimp only; omega) (by push_cast; omega) with
    ⟨leftLe, sized, leRight, -⟩
  dsimp only at leftLe leRight
  exact ⟨by omega, fun large => by omega⟩

/-- `Quicksort` sorts an array exactly when none of the `Qsort` calls it executes samples
its pivot from a misordered triple and none makes a sum that does not fit. The latter
takes more than `2 ^ 30 + 2` elements. -/
theorem quicksort_sorts_iff (ori : ℤ → ℤ) (range : len ≤ 2 ^ 31 - 1) :
    (Sorts quicksort ori len ↔
      ∀ call, Enters (len + 1) ⟨ori, 0, len - 1⟩ call → ¬call.Misordered ∧ SumsFit call) ∧
    (len ≤ 2 ^ 30 + 2 → ∀ call, Enters (len + 1) ⟨ori, 0, len - 1⟩ call → SumsFit call) := by
  have unfolded := quicksort_unfold ori range
  have enough : ((len : ℤ) - 1) - 0 + 1 < ((len + 1 : ℕ) : ℤ) := by
    push_cast
    omega
  refine ⟨⟨?_, ?_⟩, fun short call enters => sumsFit_of_length short enters⟩
  · rintro ⟨out, computed, -, ascending⟩ call enters
    rw [unfolded] at computed
    rcases qsort_model (le_refl 0) (by omega) (by omega) enough computed with ⟨follows, outOk⟩
    have modelled := enters.model (le_refl 0) (by dsimp only; omega) (by dsimp only; omega) enough
    refine ⟨?_, (follows.2 call modelled).2⟩
    intro misordered
    exact qsort_not_ascending modelled misordered (le_refl 0) enough outOk
      ((contents_pairwise_iff id len out).mp ascending)
  · intro fine
    rcases qsort_ok (len + 1) ori 0 (len - 1) (le_refl 0) (by omega) enough with
      ⟨out, outOk, moved⟩
    rcases follows_or_overflows (len + 1) ori 0 (len - 1) (le_refl 0) (by omega) (by omega)
      enough with follows | ⟨value, call, -, enters, unfit⟩
    · have computed : quicksort ori len = .ok out := by
        rw [unfolded, follows.1, outOk, lift_ok]
      apply sorts_of_rearranged computed moved
      apply qsort_ascending (len + 1) ori out 0 (len - 1) (le_refl 0) (by omega) enough outOk
      intro inner enters
      exact (fine inner (follows.2 inner enters).1).1
    · exact absurd (fine call enters).2 unfit

end Whole

theorem Enters.eq_of_small {budget : ℕ} {call inner : QsortCall α}
    (enters : Enters budget call inner) (small : call.right < call.left + cutoff) :
    inner = call := by
  cases enters with
  | self => rfl
  | lower large _ _ => exact absurd large (by omega)
  | upper large _ _ _ => exact absurd large (by omega)

/-- The samples are `2, 3, 1`, and the ranges beside the pivot are small. -/
theorem quicksort_sorts_3201 :
    4 ≤ 2 ^ 31 - 1 ∧ Sorts quicksort (fun index => [3, 2, 0, 1].getD index.toNat (0 : ℤ)) 4 := by
  refine ⟨by decide, (quicksort_sorts_iff _ (by decide)).1.mpr ?_⟩
  intro call enters
  have three : cutoff = 3 := rfl
  refine ⟨?_, (quicksort_sorts_iff _ (by decide)).2 (by decide) call enters⟩
  cases enters with
  | self =>
      rintro ⟨-, misordered⟩
      revert misordered
      unfold Misordered
      decide
  | lower large splitOk enters =>
      rcases qsortSplit_model (le_refl 0) (by decide) large splitOk with ⟨-, -, splitRight⟩
      dsimp only at splitRight
      rw [enters.eq_of_small (by dsimp only; omega)]
      rintro ⟨wide, -⟩
      dsimp only at wide
      omega
  | upper large splitOk _ enters =>
      rcases qsortSplit_model (le_refl 0) (by decide) large splitOk with ⟨-, leftSplit, -⟩
      rw [enters.eq_of_small (by dsimp only; omega)]
      rintro ⟨wide, -⟩
      dsimp only at wide
      omega

/-- The four cells `2, 1, 0, 3` come back as `0, 1, 3, 2`. -/
theorem quicksort_leaves_2103_unsorted :
    ¬Sorts quicksort (fun index => [2, 1, 0, 3].getD index.toNat (0 : ℤ)) 4 := by
  rintro ⟨out, computed, -, ascending⟩
  have result : (Csort.quicksort (fun index => [2, 1, 0, 3].getD index.toNat (0 : ℤ)) 4).map
      (contents 4) = .ok [0, 1, 3, 2] := by
    decide
  rw [quicksort_eq _ (by decide)] at computed
  rw [of_lift_ok computed] at result
  rw [Except.ok.inj result] at ascending
  revert ascending
  decide

/-! ## Staying inside the range -/

/-- The run finishes with a permutation of the array. Each `Qsort` call that it executes
has a range inside the array, finishes without an access outside of that range, and
changes nothing outside of it. -/
def Contained (ori : ℤ → α) (len : ℕ) : Prop :=
  (∃ out, quicksort ori len = .ok out ∧ (contents len out).Perm (contents len ori)) ∧
    ∀ call, Enters (len + 1) ⟨ori, 0, len - 1⟩ call →
      0 ≤ call.left ∧ call.right < len ∧ ∃ budget out,
        qsort budget call.ori call.left call.right = .ok out ∧
          Rearranged call.left call.right call.ori out ∧
          ∀ index, ¬(call.left ≤ index ∧ index ≤ call.right) → out index = call.ori index

theorem contained_of_length (ori : ℤ → α) {len : ℕ} (short : len ≤ 2 ^ 30 + 2) :
    Contained ori len := by
  have enough : ((len : ℤ) - 1) - 0 + 1 < ((len + 1 : ℕ) : ℤ) := by
    push_cast
    omega
  constructor
  · rcases quicksort_ok ori len with ⟨out, computed, moved⟩
    refine ⟨out, ?_, moved.contents_perm⟩
    rw [quicksort_eq ori short, computed, lift_ok]
  · intro call enters
    have modelled := enters.model (le_refl 0) (by dsimp only; omega) (by dsimp only; omega) enough
    rcases modelled.contained (le_refl 0) (by dsimp only; omega) enough with
      ⟨leftLe, sized, leRight, budget, out, computed, moved⟩
    dsimp only at leftLe leRight
    refine ⟨leftLe, by omega, budget, out, ?_, moved, ?_⟩
    · rw [qsort_eq (show (len : ℤ) ≤ 2 ^ 30 + 2 by omega) budget call.ori call.left call.right
        leftLe (by omega) (by omega) (by omega), computed, lift_ok]
    · intro index outside
      exact moved.eq_outside outside

theorem qsort_overflow {budget : ℕ} {ori : ℤ → α} {left right : ℤ} (nonneg : 0 ≤ left)
    (large : left + cutoff ≤ right) (above : 2 ^ 31 - 1 < left + right) :
    ∃ value, qsort (budget + 1) ori left right = .error (.overflow value) := by
  have three : cutoff = 3 := rfl
  by_cases least : left + cutoff ≤ 2 ^ 31 - 1
  · use left + right
    rw [qsort, bind_ok (int_ok (by omega) least), if_pos large,
      bind_error (qsortSplit_overflow ori above)]
  · use left + cutoff
    rw [qsort, bind_error (int_overflow (by omega))]

/-- On an ascending array the calls for the upper parts have half as many elements each
time, so that the last large one has four to seven elements. -/
theorem ascending_overflows : ∀ (halvings budget : ℕ) (ori : ℤ → α) (left right : ℤ)
    (elements rest : ℕ), 0 ≤ left → right - left + 1 = elements → right < 2 ^ 31 - 1 →
    elements < budget →
    (∀ first second, left ≤ first → first < second → second ≤ right → ori first < ori second) →
    elements / 2 ^ halvings = rest → 4 ≤ rest → 2 ^ 31 + rest ≤ 2 * right + 1 →
    ∃ value, qsort budget ori left right = .error (.overflow value)
  | _, 0, _, _, _, _, _, _, _, _, enough, _, _, _, _ => absurd enough (Nat.not_lt_zero _)
  | 0, budget + 1, ori, left, right, elements, rest, nonneg, counted, inside, enough, ascending,
      halved, several, above => by
      have three : cutoff = 3 := rfl
      rw [Nat.pow_zero, Nat.div_one] at halved
      exact qsort_overflow nonneg (by omega) (by omega)
  | halvings + 1, budget + 1, ori, left, right, elements, rest, nonneg, counted, inside, enough,
      ascending, halved, several, above => by
      have three : cutoff = 3 := rfl
      have half : elements / 2 / 2 ^ halvings = rest := by
        rw [Nat.div_div_eq_div_mul, ← Nat.pow_succ', halved]
      have halfSeveral : rest ≤ elements / 2 := half ▸ Nat.div_le_self _ _
      have large : left + cutoff ≤ right := by omega
      by_cases small : left + right ≤ 2 ^ 31 - 1
      · have bounds := centor_bounds nonneg large
        have middle : Csort.centor left right = (left + right) / 2 :=
          Int.tdiv_eq_ediv_of_nonneg (by omega)
        have opened := qsort_lower budget nonneg inside large small
          (qsortSplit_ascending nonneg large ascending) bounds.1 (by omega)
        rcases qsort_ok budget ori left (Csort.centor left right - 1) nonneg (by omega) (by omega)
          with ⟨sorted, lowerOk, moved⟩
        rcases follows_or_overflows budget ori left (Csort.centor left right - 1) nonneg (by omega)
          (by omega) (by omega) with lower | ⟨value, -, overflows, -⟩
        · have upperAscending : ∀ first second, Csort.centor left right + 1 ≤ first →
              first < second → second ≤ right → sorted first < sorted second := by
            intro first second lower apart upper
            rw [moved.eq_outside (by omega), moved.eq_outside (by omega)]
            exact ascending first second (by omega) apart upper
          rw [opened, lower.1, lowerOk, lift_ok]
          exact ascending_overflows halvings budget sorted _ right (elements / 2) rest (by omega)
            (by omega) inside (by omega) upperAscending half several above
        · exact ⟨value, by rw [opened, bind_error overflows]⟩
      · exact qsort_overflow nonneg large (by omega)

theorem not_contained_ascending {len : ℕ} (long : 2 ^ 30 + 2 < len) (range : len ≤ 2 ^ 31 - 1) :
    ¬Contained (fun index : ℤ => index) len := by
  rintro ⟨⟨out, computed, -⟩, -⟩
  rcases ascending_overflows 28 (len + 1) (fun index : ℤ => index) 0 (len - 1) len (len / 2 ^ 28)
    (le_refl 0) (by omega) (by omega) (by omega) (fun _ _ _ less _ => less) rfl (by omega)
    (by omega) with ⟨value, overflows⟩
  rw [quicksort_unfold _ range, overflows] at computed
  cases computed

/-- `Quicksort` keeps inside of its ranges on every array of a length exactly when that
length is at most `2 ^ 30 + 2`: on longer ones the array `0, 1, 2, ..` makes a sum of
indices overflow. -/
theorem quicksort_contained_iff {len : ℕ} (range : len ≤ 2 ^ 31 - 1) :
    (∀ ori : ℤ → ℤ, Contained ori len) ↔ len ≤ 2 ^ 30 + 2 := by
  constructor
  · intro contained
    by_contra long
    exact not_contained_ascending (Nat.lt_of_not_le long) range (contained fun index => index)
  · exact fun short ori => contained_of_length ori short

theorem quicksort_contained_million :
    1000000 ≤ 2 ^ 31 - 1 ∧ ∀ ori : ℤ → ℤ, Contained ori 1000000 :=
  ⟨by omega, (quicksort_contained_iff (by omega)).mpr (by omega)⟩

/-- The last large call has the bounds `2 ^ 30 - 1` and `2 ^ 30 + 2`. -/
theorem quicksort_overflows_on_ascending :
    ¬Contained (fun index : ℤ => index) (2 ^ 30 + 3) :=
  not_contained_ascending (by omega) (by omega)

end Lctools.Csort.Machine
