import Mathlib.Data.List.Induction
import Mathlib.Data.List.Perm.Basic

/-! # Options of a command line

What a command line says with its options when a later argument of an option replaces
an earlier one.
-/

namespace Lctools

/-- One option on a command line: a flag, or an option with its argument. -/
inductive Occurrence (φ κ α : Type) where
  | flag (flag : φ)
  | value (option : κ) (argument : α)
  deriving DecidableEq, Repr

/-- The flags that are there, and the arguments that count. -/
structure Given (φ κ α : Type) where
  flags : φ → Bool
  values : κ → Option α

namespace Occurrence

variable {φ κ α : Type}

def option : Occurrence φ κ α → φ ⊕ κ
  | .flag name => .inl name
  | .value name _ => .inr name

variable [DecidableEq κ]

/-- The argument that an occurrence gives to an option. -/
def argument (wanted : κ) : Occurrence φ κ α → Option α
  | .flag _ => none
  | .value name argument => if name = wanted then some argument else none

/-- The last argument of an option, `none` if the option does not occur. -/
def lastArgument (wanted : κ) (occurrences : List (Occurrence φ κ α)) : Option α :=
  (occurrences.filterMap (argument wanted)).getLast?

/-- The same options occur, with the same last arguments. -/
structure SameOptions (first second : List (Occurrence φ κ α)) : Prop where
  flags : ∀ flag, Occurrence.flag flag ∈ first ↔ Occurrence.flag flag ∈ second
  values : ∀ option, lastArgument option first = lastArgument option second

theorem SameOptions.symm {first second : List (Occurrence φ κ α)}
    (same : SameOptions first second) : SameOptions second first where
  flags := fun flag => (same.flags flag).symm
  values := fun option => (same.values option).symm

theorem SameOptions.eq_nil {first second : List (Occurrence φ κ α)}
    (same : SameOptions first second) (none : first = []) : second = [] := by
  cases second with
  | nil => rfl
  | cons occurrence rest =>
      rw [none] at same
      cases occurrence with
      | flag name => exact absurd ((same.flags name).mpr (List.mem_cons_self ..)) List.not_mem_nil
      | value name argument =>
          have given : Occurrence.argument name (.value name argument : Occurrence φ κ α) =
              some argument := if_pos rfl
          have last := same.values name
          rw [lastArgument, lastArgument, List.filterMap_cons_some given] at last
          exact absurd (List.getLast?_eq_none_iff.mp last.symm) (List.cons_ne_nil _ _)

/-! ## Another order -/

theorem option_of_argument {wanted : κ} {occurrence : Occurrence φ κ α} {content : α}
    (given : argument wanted occurrence = some content) : option occurrence = .inr wanted := by
  cases occurrence with
  | flag name => cases given
  | value name argument =>
      rw [Occurrence.argument] at given
      split at given
      · next same =>
          rw [option, same]
      · cases given

theorem length_arguments_le {occurrences : List (Occurrence φ κ α)}
    (distinct : (occurrences.map option).Nodup) (wanted : κ) :
    (occurrences.filterMap (argument wanted)).length ≤ 1 := by
  induction occurrences with
  | nil => exact Nat.zero_le 1
  | cons occurrence occurrences induction =>
      rw [List.map_cons, List.nodup_cons] at distinct
      cases given : argument wanted occurrence with
      | none =>
          rw [List.filterMap_cons_none given]
          exact induction distinct.2
      | some content =>
          have none : occurrences.filterMap (argument wanted) = [] := by
            rw [List.filterMap_eq_nil_iff]
            intro other member
            cases again : argument wanted other with
            | none => rfl
            | some more =>
                rw [option_of_argument given, ← option_of_argument again] at distinct
                exact absurd (List.mem_map_of_mem member) distinct.1
          rw [List.filterMap_cons_some given, none]
          exact Nat.le_refl 1

theorem sameOptions_of_perm {first second : List (Occurrence φ κ α)}
    (reordered : first.Perm second) (distinct : (first.map option).Nodup) :
    SameOptions first second where
  flags := fun flag => reordered.mem_iff
  values := by
    intro wanted
    have arguments := reordered.filterMap (argument wanted)
    have few := length_arguments_le distinct wanted
    rw [lastArgument, lastArgument]
    generalize first.filterMap (argument wanted) = before at *
    cases before with
    | nil => rw [arguments.nil_eq]
    | cons content rest =>
        have single : rest = [] := by
          rw [List.length_cons] at few
          exact List.eq_nil_of_length_eq_zero (Nat.le_zero.mp (Nat.le_of_succ_le_succ few))
        rw [single] at arguments ⊢
        rw [arguments.singleton_eq]

/-! ## One occurrence after the other -/

variable [DecidableEq φ]

def add (given : Given φ κ α) : Occurrence φ κ α → Given φ κ α
  | .flag name => { given with flags := fun other => given.flags other || name = other }
  | .value name argument =>
      { given with
        values := fun other => if name = other then some argument else given.values other }

def nothing : Given φ κ α := ⟨fun _ => false, fun _ => none⟩

def given (occurrences : List (Occurrence φ κ α)) : Given φ κ α :=
  occurrences.foldl add nothing

theorem given_append_singleton (occurrences : List (Occurrence φ κ α))
    (occurrence : Occurrence φ κ α) :
    given (occurrences ++ [occurrence]) = add (given occurrences) occurrence := by
  rw [given, given, List.foldl_append]
  rfl

theorem given_flags (occurrences : List (Occurrence φ κ α)) (flag : φ) :
    (given occurrences).flags flag = true ↔ .flag flag ∈ occurrences := by
  induction occurrences using List.reverseRecOn with
  | nil => exact iff_of_false Bool.false_ne_true List.not_mem_nil
  | append_singleton occurrences occurrence induction =>
      rw [given_append_singleton, List.mem_append, List.mem_singleton]
      cases occurrence with
      | flag last =>
          rw [add, Bool.or_eq_true, induction, decide_eq_true_eq, Occurrence.flag.injEq]
          exact or_congr_right eq_comm
      | value option argument =>
          rw [add, induction]
          simp only [reduceCtorEq, or_false]

theorem given_values (occurrences : List (Occurrence φ κ α)) (wanted : κ) :
    (given occurrences).values wanted = lastArgument wanted occurrences := by
  induction occurrences using List.reverseRecOn with
  | nil => rfl
  | append_singleton occurrences occurrence induction =>
      rw [given_append_singleton, lastArgument, List.filterMap_append]
      cases occurrence with
      | flag last =>
          rw [add, induction]
          simp only [List.filterMap_cons, argument, List.filterMap_nil, List.append_nil]
          rfl
      | value option argument =>
          rw [add]
          simp only [List.filterMap_cons, Occurrence.argument, List.filterMap_nil]
          split
          · next same =>
              rw [List.getLast?_append]
              rfl
          · next other =>
              rw [induction, List.append_nil]
              rfl

theorem SameOptions.given {first second : List (Occurrence φ κ α)}
    (same : SameOptions first second) : given first = given second := by
  have flags : (Occurrence.given first).flags = (Occurrence.given second).flags := by
    funext flag
    rw [Bool.eq_iff_iff, given_flags, given_flags]
    exact same.flags flag
  have values : (Occurrence.given first).values = (Occurrence.given second).values := by
    funext option
    rw [given_values, given_values]
    exact same.values option
  rw [Given.mk.injEq]
  exact ⟨flags, values⟩

/-- A loop over the occurrences whose state is always that of what was given so far ends
in the state of all that is given. -/
theorem foldlM_settings {σ ε : Type} {step : σ → Occurrence φ κ α → Except ε σ}
    {settings : Given φ κ α → σ} {occurrences : List (Occurrence φ κ α)}
    (steps : ∀ given, ∀ occurrence ∈ occurrences,
      step (settings given) occurrence = .ok (settings (add given occurrence))) :
    occurrences.foldlM step (settings nothing) = .ok (settings (given occurrences)) := by
  rw [given]
  -- The state that the loop starts in has to be arbitrary for the induction.
  generalize (nothing : Given φ κ α) = start
  induction occurrences generalizing start with
  | nil => rfl
  | cons occurrence occurrences induction =>
      rw [List.foldlM_cons, steps start occurrence (List.mem_cons_self ..), List.foldl_cons]
      exact induction (fun given other member => steps given other (List.mem_cons_of_mem _ member))
        (add start occurrence)

end Occurrence

end Lctools
