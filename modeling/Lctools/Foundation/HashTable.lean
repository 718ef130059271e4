import Mathlib.Data.List.Basic

/-! # Hash tables with replace-on-insert

A GLib style hash table seen through its entries. Keys are compared by their
label (the text a key pointer refers to), so two different key objects may be
equal. Inserting an equal key keeps the key object already in the table and
replaces only the value. Which order a traversal uses is left open: callers
quantify over permutations of the entries.
-/

namespace Lctools.HashTable

variable {κ υ θ : Type} [DecidableEq θ] (label : κ → θ)

def lookup (name : θ) : List (κ × υ) → Option υ
  | [] => none
  | (key, value) :: rest => if label key = name then some value else lookup name rest

def insert (key : κ) (value : υ) : List (κ × υ) → List (κ × υ)
  | [] => [(key, value)]
  | (present, previous) :: rest =>
      if label present = label key then (present, value) :: rest
      else (present, previous) :: insert key value rest

theorem lookup_insert (key : κ) (value : υ) (name : θ) (entries : List (κ × υ)) :
    lookup label name (insert label key value entries) =
      if label key = name then some value else lookup label name entries := by
  induction entries with
  | nil => simp [insert, lookup]
  | cons entry rest induction =>
      rcases entry with ⟨present, previous⟩
      by_cases same : label present = label key
      · by_cases wanted : label key = name
        · simp [insert, lookup, same, wanted]
        · simp [insert, lookup, same, wanted]
      · by_cases wanted : label present = name
        · have other : label key ≠ name := fun equal => same (wanted.trans equal.symm)
          simp [insert, lookup, wanted, other, other.symm]
        · simp [insert, lookup, same, wanted, induction]

theorem isSome_lookup_iff (name : θ) (entries : List (κ × υ)) :
    (lookup label name entries).isSome = true ↔ name ∈ entries.map fun entry => label entry.1 := by
  induction entries with
  | nil => simp [lookup]
  | cons entry rest induction =>
      rcases entry with ⟨present, value⟩
      rw [lookup, List.map_cons, List.mem_cons, ← induction]
      by_cases same : label present = name
      · simp [same]
      · simp [same, Ne.symm same]

theorem insert_of_absent {key : κ} {entries : List (κ × υ)}
    (absent : lookup label (label key) entries = none) (value : υ) :
    insert label key value entries = entries ++ [(key, value)] := by
  induction entries with
  | nil => rfl
  | cons entry rest induction =>
      rcases entry with ⟨present, previous⟩
      rw [lookup] at absent
      split at absent
      · cases absent
      · next different => rw [insert, if_neg different, induction absent, List.cons_append]

theorem length_insert_of_present {key : κ} {entries : List (κ × υ)}
    (present : lookup label (label key) entries ≠ none) (value : υ) :
    (insert label key value entries).length = entries.length := by
  induction entries with
  | nil => exact absurd rfl present
  | cons entry rest induction =>
      rcases entry with ⟨old, previous⟩
      rw [lookup] at present
      rw [insert]
      by_cases same : label old = label key
      · rw [if_pos same, List.length_cons, List.length_cons]
      · rw [if_neg same] at present
        rw [if_neg same, List.length_cons, List.length_cons, induction present]

theorem map_insert_of_present {γ : Type} (view : υ → γ) {key : κ} {previous : υ}
    {entries : List (κ × υ)} (present : lookup label (label key) entries = some previous)
    {value : υ} (same : view value = view previous) :
    (insert label key value entries).map (fun entry => view entry.2) =
      entries.map fun entry => view entry.2 := by
  induction entries with
  | nil => cases present
  | cons entry rest induction =>
      rcases entry with ⟨old, before⟩
      rw [lookup] at present
      rw [insert]
      split at present
      · next equal =>
          cases present
          rw [if_pos equal, List.map_cons, List.map_cons, same]
      · next different =>
          rw [if_neg different, List.map_cons, List.map_cons, induction present]

theorem mem_insert {key : κ} {value : υ} {entries : List (κ × υ)} {entry : κ × υ}
    (member : entry ∈ insert label key value entries) :
    entry ∈ entries ∨ label entry.1 = label key ∧ entry.2 = value := by
  induction entries with
  | nil =>
      rw [insert, List.mem_singleton] at member
      simp [member]
  | cons first rest induction =>
      rcases first with ⟨present, previous⟩
      rw [insert] at member
      by_cases same : label present = label key
      · rw [if_pos same, List.mem_cons] at member
        cases member with
        | inl replaced => simp [replaced, same]
        | inr later => exact .inl (List.mem_cons_of_mem _ later)
      · rw [if_neg same, List.mem_cons] at member
        cases member with
        | inl first => simp [first]
        | inr later =>
            cases induction later with
            | inl old => exact .inl (List.mem_cons_of_mem _ old)
            | inr new => exact .inr new

theorem nodup_insert {entries : List (κ × υ)}
    (distinct : (entries.map fun entry => label entry.1).Nodup) (key : κ) (value : υ) :
    ((insert label key value entries).map fun entry => label entry.1).Nodup := by
  induction entries with
  | nil => simp [insert]
  | cons first rest induction =>
      rcases first with ⟨present, previous⟩
      simp only [List.map_cons, List.nodup_cons, List.mem_map, not_exists, not_and] at distinct
      rw [insert]
      by_cases same : label present = label key
      · simpa [same] using distinct
      · rw [if_neg same, List.map_cons, List.nodup_cons]
        refine ⟨?_, induction distinct.2⟩
        intro member
        rcases List.mem_map.mp member with ⟨entry, inside, equal⟩
        cases mem_insert label inside with
        | inl old => exact distinct.1 entry old equal
        | inr new => exact same (equal.symm.trans new.1)

end Lctools.HashTable
