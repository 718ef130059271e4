import Mathlib.Data.List.Basic

/-! # Independent flags of a record

A flag is one bit of a record with the functions that read and write it. Writing
several flags one after the other, and when that changes nothing.
-/

namespace Lctools

structure Flag (σ : Type) where
  get : σ → Bool
  set : Bool → σ → σ
  get_set : ∀ on record, get (set on record) = on
  set_get : ∀ record, set (get record) record = record

namespace Flag

variable {σ : Type}

def assign : List (Flag σ) → List Bool → σ → σ
  | flag :: flags, on :: values, record => assign flags values (flag.set on record)
  | _, _, record => record

/-- No flag is written by one that stands behind it. -/
def Independent (flags : List (Flag σ)) : Prop :=
  flags.Pairwise fun first later =>
    ∀ on record, first.get (later.set on record) = first.get record

@[simp] theorem assign_nil (flags : List (Flag σ)) (record : σ) :
    assign flags [] record = record := by
  cases flags <;> rfl

theorem get_assign_of_later : ∀ {flags : List (Flag σ)} (values : List Bool) (record : σ)
    {first : Flag σ}, (∀ flag ∈ flags, ∀ on record, first.get (flag.set on record) =
      first.get record) → first.get (assign flags values record) = first.get record
  | [], _, _, _, _ => rfl
  | flag :: flags, [], _, _, _ => rfl
  | flag :: flags, on :: values, record, first, apart => by
      have rest := get_assign_of_later values (flag.set on record)
        (fun other member => apart other (List.mem_cons_of_mem flag member))
      rw [assign, rest, apart flag (List.mem_cons_self ..)]

/-- Where no flag writes another one, each flag gets its value, and keeps the old
one if the values run out before it. -/
theorem get_assign : ∀ {flags : List (Flag σ)} (values : List Bool) (record : σ),
    Independent flags → Independent flags.reverse → ∀ {i : ℕ} (inside : i < flags.length),
    flags[i].get (assign flags values record) = values.getD i (flags[i].get record)
  | [], _, _, _, _, _, inside => absurd inside (Nat.not_lt_zero _)
  | flag :: flags, [], record, _, _, i, _ => rfl
  | flag :: flags, on :: values, record, independent, backwards, i, inside => by
      rcases List.pairwise_cons.mp independent with ⟨apart, restIndependent⟩
      rcases List.pairwise_cons.mp (List.pairwise_reverse.mp backwards) with
        ⟨untouched, restBackwards⟩
      cases i with
      | zero =>
          calc flag.get (assign flags values (flag.set on record))
              = flag.get (flag.set on record) := get_assign_of_later values _ apart
            _ = on := flag.get_set on record
      | succ i =>
          have shorter : i < flags.length := Nat.lt_of_succ_lt_succ inside
          have rest := get_assign values (flag.set on record) restIndependent
            (List.pairwise_reverse.mpr restBackwards) shorter
          rw [untouched flags[i] (List.getElem_mem shorter)] at rest
          exact rest

theorem assign_eq_self_iff : ∀ {flags : List (Flag σ)} {values : List Bool} (record : σ),
    Independent flags → values.length ≤ flags.length →
    (assign flags values record = record ↔
      values = (flags.take values.length).map fun flag => flag.get record)
  | flags, [], record, _, _ => by simp
  | [], on :: values, record, _, short => by simp at short
  | flag :: flags, on :: values, record, independent, short => by
      rcases List.pairwise_cons.mp independent with ⟨apart, restIndependent⟩
      have restShort : values.length ≤ flags.length := by
        simpa using short
      rw [List.length_cons, List.take_succ_cons, List.map_cons, List.cons.injEq, assign]
      constructor
      · intro unchanged
        -- What comes behind leaves the first flag alone, so it had its value before.
        have same : on = flag.get record := by
          calc on = flag.get (flag.set on record) := (flag.get_set on record).symm
            _ = flag.get (assign flags values (flag.set on record)) :=
                (get_assign_of_later values _ apart).symm
            _ = flag.get record := by rw [unchanged]
        rw [same, flag.set_get] at unchanged
        exact ⟨same, (assign_eq_self_iff record restIndependent restShort).mp unchanged⟩
      · rintro ⟨same, rest⟩
        rw [same, flag.set_get]
        exact (assign_eq_self_iff record restIndependent restShort).mpr rest

end Flag

end Lctools
