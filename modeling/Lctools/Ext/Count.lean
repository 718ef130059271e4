import Lctools.Ext.Answers
import Mathlib.Data.List.Dedup

/-! # The counter of `file_ext_t`

`add_file_ext` counts every addition, and the table keeps equal suffixes once.
-/

namespace Lctools.Ext

/-- The counter has counted the additions, and the table has each suffix once. -/
structure Counts (added : List (List Char)) (fileExt : FileExt) : Prop where
  holds : Holds added fileExt
  counted : fileExt.count = added.length
  distinct : (fileExt.extHs.map fun entry => entry.1).Nodup

def CountsAt (added : List (List Char)) : Option FileExt → Prop
  | none => True
  | some fileExt => Counts added fileExt

theorem counts_empty {fileExt : FileExt} (empty : fileExt.extHs = []) (zero : fileExt.count = 0) :
    Counts [] fileExt := by
  refine ⟨holds_empty empty, ?_, ?_⟩
  · rw [zero]
    rfl
  · rw [empty]
    exact List.nodup_nil

theorem countsAt_step {phase : Phase} {pointer next : Option FileExt} {added : List (List Char)}
    {call : Call} {reply : Option ℤ} (inPhase : InPhase phase pointer)
    (counts : CountsAt added pointer) (stepped : step pointer call = .ok (reply, next)) :
    CountsAt (remember added call) next := by
  cases pointer with
  | none =>
      rcases step_absent stepped with rfl | ⟨rfl, rfl⟩
      · trivial
      · exact counts_empty rfl rfl
  | some fileExt =>
      have holds := holdsAt_step inPhase counts.holds stepped
      rcases step_changed inPhase stepped with ⟨after, rfl, changed⟩
      cases changed with
      | init => exact counts_empty rfl rfl
      | @added ext _ table counted _ _ =>
          refine ⟨holds, ?_, ?_⟩
          · rw [counted, counts.counted, remember, List.length_append, List.length_singleton]
            push_cast
            rfl
          · rw [table]
            exact HashTable.nodup_insert (fun key => key) counts.distinct _ _
      | cleared table zero => exact counts_empty table zero
      | kept neutral table counted _ =>
          refine ⟨holds, ?_, ?_⟩
          · rw [counted, counts.counted, neutral added]
          · rw [table]
            exact counts.distinct

theorem Counts.length_extHs {added : List (List Char)} {fileExt : FileExt}
    (counts : Counts added fileExt) :
    fileExt.extHs.length = (added.map asciiStrdown).dedup.length := by
  have sameKeys : (fileExt.extHs.map fun entry => entry.1).Perm (added.map asciiStrdown).dedup := by
    apply (List.perm_ext_iff_of_nodup counts.distinct (List.nodup_dedup _)).mpr
    intro key
    rw [← HashTable.isSome_lookup_iff (fun key => key), counts.holds.stored key, List.mem_dedup,
      List.mem_map]
  rw [← sameKeys.length_eq, List.length_map]

theorem length_dedup_eq_iff {α : Type} [DecidableEq α] (values : List α) :
    values.dedup.length = values.length ↔ values.Nodup := by
  rw [← List.dedup_eq_self]
  constructor
  · intro sameLength
    exact (List.dedup_sublist values).eq_of_length sameLength
  · intro same
    rw [same]

/-- In every state that a run reaches, the counter is the number of stored suffixes
exactly when the suffixes added since the last `init_file_ext` or `clear_file_ext` are
different also in lower case. -/
theorem count_eq_stored_iff {calls : List Call} {replies : List (Option ℤ)} {fileExt : FileExt}
    (ran : run step none calls = .ok (replies, some fileExt)) :
    fileExt.count = fileExt.extHs.length ↔ ((history calls).map asciiStrdown).Nodup := by
  have counts : Counts (history calls) fileExt :=
    (run_history CountsAt countsAt_step calls .absent none (some fileExt) [] replies rfl
      trivial ran).2
  rw [counts.counted, counts.length_extHs, ← length_dedup_eq_iff, List.length_map]
  constructor
  · intro equal
    omega
  · intro equal
    omega

/-- Two suffixes, a cleared table and one of the suffixes again. -/
theorem count_eq_stored_after_clear :
    ∃ replies fileExt, run step none [.init, .add (some "exe".toList), .add (some "Docx".toList),
        .clear, .add (some "EXE".toList)] = .ok (replies, some fileExt) ∧
      fileExt.count = fileExt.extHs.length := by
  have ran : run step none [.init, .add (some "exe".toList), .add (some "Docx".toList),
      .clear, .add (some "EXE".toList)] =
      .ok ([none, some 0, some 0, none, some 0], some ⟨1, [("exe".toList, "exe".toList)],
        .live (List.replicate 4 none), 3, 0⟩) := by
    decide +kernel
  refine ⟨_, _, ran, ?_⟩
  exact (count_eq_stored_iff ran).mpr (by decide)

/-- `exe` and `EXE` are counted twice and stored once. -/
theorem count_exceeds_stored :
    ∃ replies fileExt, run step none [.init, .add (some "exe".toList), .add (some "EXE".toList)] =
        .ok (replies, some fileExt) ∧
      fileExt.count ≠ fileExt.extHs.length := by
  have ran : run step none [.init, .add (some "exe".toList), .add (some "EXE".toList)] =
      .ok ([none, some 0, some 0], some ⟨2, [("exe".toList, "exe".toList)],
        .live (List.replicate 6 (some CString.nul)), 5, 0⟩) := by
    decide +kernel
  exact ⟨_, _, ran, by decide⟩

end Lctools.Ext
