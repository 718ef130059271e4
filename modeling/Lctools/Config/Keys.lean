import Lctools.Conf.Stored
import Lctools.Config.Switch

/-! # What the table of sections holds

The table is filled by one insertion for each section of the file. An insertion
under a name that is in the table already keeps the key that is there, and the
key lies inside the section object that the insertion frees.
-/

namespace Lctools.Config

open Conf CString

/-! ## Insertions -/

/-- The state of the parser after the sections were handed to it one by one. -/
def inserted (sections : Sections) (read : List ConfPairs) : Sections :=
  read.foldl dialect.insertPairs sections

def Unused (sections : Sections) (name : List Char) : Prop :=
  HashTable.lookup Key.text name sections.table = none

/-- The key of every entry is the name inside the value of the same entry. -/
def KeysOwn (table : SectionTable) : Prop :=
  ∀ entry ∈ table, entry.1.owner = entry.2.address ∧
    entry.1.text = entry.2.confPairs.modeName

theorem inserted_cons (sections : Sections) (first : ConfPairs) (rest : List ConfPairs) :
    inserted sections (first :: rest) =
      inserted (dialect.insertPairs sections first) rest := rfl

theorem inserted_entries {holds : ConfPairs → Prop} (read : List ConfPairs) :
    ∀ sections : Sections, (∀ entry ∈ sections.table, holds entry.2.confPairs) →
      (∀ confPairs ∈ read, holds confPairs) →
      ∀ entry ∈ (inserted sections read).table, holds entry.2.confPairs := by
  induction read with
  | nil => exact fun sections old _ => old
  | cons first rest induction =>
      intro sections old new
      rw [inserted_cons]
      refine induction _ ?_ fun confPairs member => new confPairs (List.mem_cons_of_mem _ member)
      intro entry member
      rcases HashTable.mem_insert Key.text member with before | ⟨-, here⟩
      · exact old entry before
      · rw [here]
        exact new first (List.mem_cons_self ..)

theorem unused_insertPairs {sections : Sections} {confPairs : ConfPairs} {name : List Char} :
    Unused (dialect.insertPairs sections confPairs) name ↔
      confPairs.modeName ≠ name ∧ Unused sections name := by
  have found : HashTable.lookup Key.text name (dialect.insertPairs sections confPairs).table =
      if confPairs.modeName = name then some ⟨sections.modeCount, confPairs⟩
      else HashTable.lookup Key.text name sections.table :=
    HashTable.lookup_insert Key.text ⟨sections.modeCount, confPairs.modeName⟩ _ name _
  rw [Unused, Unused, found]
  split_ifs with same <;> simp [same]

theorem insertPairs_unused {sections : Sections} {confPairs : ConfPairs}
    (unused : Unused sections confPairs.modeName) :
    (dialect.insertPairs sections confPairs).table = sections.table ++
      [(⟨sections.modeCount, confPairs.modeName⟩, ⟨sections.modeCount, confPairs⟩)] := by
  have absent : HashTable.lookup Key.text
      (Key.text ⟨sections.modeCount, confPairs.modeName⟩) sections.table = none := unused
  exact HashTable.insert_of_absent Key.text absent _

theorem insertPairs_used {sections : Sections} {confPairs : ConfPairs}
    (used : ¬Unused sections confPairs.modeName) :
    (dialect.insertPairs sections confPairs).table.length = sections.table.length := by
  have present : HashTable.lookup Key.text
      (Key.text ⟨sections.modeCount, confPairs.modeName⟩) sections.table ≠ none := used
  exact HashTable.length_insert_of_present Key.text present _

theorem inserted_length (read : List ConfPairs) : ∀ sections : Sections,
    (inserted sections read).table.length ≤ sections.table.length + read.length ∧
      ((inserted sections read).table.length = sections.table.length + read.length ↔
        (read.map ConfPairs.modeName).Nodup ∧
          ∀ confPairs ∈ read, Unused sections confPairs.modeName) := by
  induction read with
  | nil => simp [inserted]
  | cons first rest induction =>
      intro sections
      rcases induction (dialect.insertPairs sections first) with ⟨atMost, exactly⟩
      rw [inserted_cons, List.length_cons, List.map_cons, List.nodup_cons]
      simp only [List.forall_mem_cons]
      by_cases unused : Unused sections first.modeName
      · rw [insertPairs_unused unused, List.length_append, List.length_singleton] at atMost exactly
        have count : sections.table.length + (rest.length + 1) =
            sections.table.length + 1 + rest.length := by omega
        rw [count, exactly]
        refine ⟨atMost, ?_⟩
        simp only [unused_insertPairs, List.mem_map, not_exists, not_and]
        constructor
        · rintro ⟨distinct, new⟩
          exact ⟨⟨fun other member => (new other member).1.symm, distinct⟩, unused,
            fun other member => (new other member).2⟩
        · rintro ⟨⟨different, distinct⟩, -, new⟩
          exact ⟨distinct, fun other member =>
            ⟨fun same => different other member same.symm, new other member⟩⟩
      · rw [insertPairs_used unused] at atMost
        refine ⟨by omega, ?_⟩
        constructor
        · intro equal
          omega
        · rintro ⟨-, new, -⟩
          exact absurd new unused

theorem inserted_keysOwn (read : List ConfPairs) : ∀ sections : Sections,
    KeysOwn sections.table → (read.map ConfPairs.modeName).Nodup →
    (∀ confPairs ∈ read, Unused sections confPairs.modeName) →
    KeysOwn (inserted sections read).table := by
  induction read with
  | nil => exact fun sections own _ _ => own
  | cons first rest induction =>
      intro sections own distinct new
      rw [List.map_cons, List.nodup_cons] at distinct
      have unused := new first (List.mem_cons_self ..)
      rw [inserted_cons]
      refine induction _ ?_ distinct.2 ?_
      · intro entry member
        rw [insertPairs_unused unused, List.mem_append, List.mem_singleton] at member
        rcases member with old | rfl
        · exact own entry old
        · exact ⟨rfl, rfl⟩
      · intro confPairs member
        refine unused_insertPairs.mpr ⟨?_, new confPairs (List.mem_cons_of_mem _ member)⟩
        intro same
        apply distinct.1
        rw [same]
        exact List.mem_map_of_mem member

/-! ## Parsed files -/

/-- What a name line that fits promises: in a small file whose name lines are
shorter than 256 bytes the parser ends, the table is filled with the sections of
the text, and every section that was ever stored is well stored. -/
theorem parsed_sections_wellStored (previous : Char) {file : List Char}
    (small : file.length < maxConfFileSize)
    (short : namesShort dialect (Lines.pieces '\n' file) none = true) :
    ∃ exit sections,
      parseFileUsing dialect (getStringFlat previous) file ⟨[], 0⟩ = .ok (exit, sections) ∧
      sections = inserted ⟨[], 0⟩ (sectionsRead dialect (Lines.pieces '\n' file) none) ∧
      (∀ confPairs ∈ sectionsRead dialect (Lines.pieces '\n' file) none,
        WellStored confPairs) ∧
      ∀ entry ∈ sections.table, WellStored entry.2.confPairs := by
  rcases parseFileUsing_flat_short previous small short with ⟨exit, parsed, -⟩
  have stored : ∀ confPairs ∈ sectionsRead dialect (Lines.pieces '\n' file) none,
      WellStored confPairs :=
    sectionsRead_stored dialect _ none Lines.separator_not_mem_pieces (by simp)
  exact ⟨exit, _, parsed, rfl, stored, inserted_entries _ ⟨[], 0⟩ (by simp) stored⟩

theorem parsed_sections_wellStored_empty_value :
    ∃ exit sections,
      parseFileUsing dialect (getStringFlat '\r') "-a\r\n k = 1 # x\nv=\n-end".toList ⟨[], 0⟩ =
        .ok (exit, sections) ∧
      sections = inserted ⟨[], 0⟩ (sectionsRead dialect
        (Lines.pieces '\n' "-a\r\n k = 1 # x\nv=\n-end".toList) none) ∧
      (∀ confPairs ∈ sectionsRead dialect
          (Lines.pieces '\n' "-a\r\n k = 1 # x\nv=\n-end".toList) none, WellStored confPairs) ∧
      ∀ entry ∈ sections.table, WellStored entry.2.confPairs :=
  parsed_sections_wellStored '\r' (by decide) (by decide)

/-- The table of a manager, while it is there: every key lies in the value it
leads to, and `mode_count` is the number of entries. -/
def KeysInside (manager : Manager) : Prop :=
  ∀ table, manager.iriConf = .live table →
    KeysOwn table ∧ manager.modeCount = table.length

theorem inserted_keysInside_iff (read : List ConfPairs) :
    (KeysOwn (inserted ⟨[], 0⟩ read).table ∧
        (inserted ⟨[], 0⟩ read).modeCount = (inserted ⟨[], 0⟩ read).table.length) ↔
      (read.map ConfPairs.modeName).Nodup := by
  have count : (inserted ⟨[], 0⟩ read).modeCount = 0 + read.length :=
    foldl_insert_modeCount read ⟨[], 0⟩
  have lengths := (inserted_length read ⟨[], 0⟩).2
  have new : ∀ confPairs ∈ read, Unused ⟨[], 0⟩ confPairs.modeName := fun _ _ => rfl
  simp only [List.length_nil, Nat.zero_add] at count lengths
  constructor
  · rintro ⟨-, counted⟩
    exact (lengths.mp (counted.symm.trans count)).1
  · intro distinct
    refine ⟨inserted_keysOwn read ⟨[], 0⟩ (by simp [KeysOwn]) distinct new, ?_⟩
    rw [count, lengths.mpr ⟨distinct, new⟩]

/-- After a file was parsed the keys lie in their own values and the sections are
counted right exactly when no name occurs twice among the sections that were
read, or a switch line had the table destroyed. -/
theorem keysInside_iff_names_distinct (previous : Char) {file : List Char} {manager : Manager}
    (fresh : manager.initFlag ≠ iriConfFinishInit) {code : ℤ} {after : Manager}
    (returned : getConfInfoFromFileUsing (getStringFlat previous) (.readable file) manager =
      .ok (code, after)) :
    KeysInside after ↔ turnsOff dialect (fileLines file) false = true ∨
      ((sectionsRead dialect (fileLines file) none).map ConfPairs.modeName).Nodup := by
  rw [getConfInfoFromFileUsing_readable _ fresh] at returned
  rcases parsed : parseFileUsing dialect (getStringFlat previous) file ⟨[], 0⟩ with
    fault | ⟨exit, sections⟩
  · rw [parsed] at returned
    cases returned
  have scanned := parseFileUsing_ok parsed
  have closes := scanLinesUsing_turnsOff _ _ _ scanned
  rw [Option.isSome_none] at closes
  have filledWith : sections = inserted ⟨[], 0⟩ (sectionsRead dialect (fileLines file) none) := by
    rcases short : namesShort dialect (fileLines file) none with _ | _
    · rw [scanLinesUsing_flat_long previous _ dialect_setSwitch _ _ _ short] at scanned
      cases scanned
    · rcases scanLinesUsing_flat_short previous maxConfFileSize dialect_closeAll
        dialect_setSwitch _ _ ⟨[], 0⟩ short with ⟨other, run⟩
      rw [run] at scanned
      cases scanned
      rfl
  rw [parsed, filledWith] at returned
  rw [← closes, ← inserted_keysInside_iff]
  cases exit with
  | closeAll =>
      cases returned
      simp [KeysInside]
  | finished =>
      cases returned
      simp [KeysInside, filled]
  | endError =>
      cases returned
      simp [KeysInside, filled]

theorem keysInside_two_sections :
    KeysInside
      (filled ⟨[(⟨0, ['a']⟩, ⟨0, ⟨['a'], []⟩⟩), (⟨1, ['b']⟩, ⟨1, ⟨['b'], []⟩⟩)], 2⟩) := by
  have fresh : Manager.cleared.initFlag ≠ iriConfFinishInit := by decide
  have returned : getConfInfoFromFileUsing (getStringFlat nul)
      (.readable "-a\n-end\n-b\n-end\n".toList) .cleared =
        .ok (0, filled ⟨[(⟨0, ['a']⟩, ⟨0, ⟨['a'], []⟩⟩), (⟨1, ['b']⟩, ⟨1, ⟨['b'], []⟩⟩)], 2⟩) := by
    decide +kernel
  exact (keysInside_iff_names_distinct nul fresh returned).mpr (.inr (by decide +kernel))

/-- The second section with the name replaces the first and frees the object that
the key lies in; both are counted. -/
theorem not_keysInside_repeated_name :
    getConfInfoFromFileUsing (getStringFlat nul)
        (.readable "-a\nk=1\n-end\n-a\nk=2\n-end\n".toList) .cleared =
      .ok (0, filled ⟨[(⟨0, ['a']⟩, ⟨1, ⟨['a'], [⟨['k'], ['2']⟩]⟩⟩)], 2⟩) ∧
    ¬KeysInside (filled ⟨[(⟨0, ['a']⟩, ⟨1, ⟨['a'], [⟨['k'], ['2']⟩]⟩⟩)], 2⟩) := by
  refine ⟨by decide +kernel, ?_⟩
  intro inside
  have counted := (inside _ rfl).2
  exact absurd counted (by decide)

end Lctools.Config
