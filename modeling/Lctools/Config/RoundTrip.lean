import Lctools.Conf.Render
import Lctools.Config.Manager

/-! # Round trip of configuration files

A configuration that was written in the documented format is found again section
by section and value by value.
-/

namespace Lctools.Config

open Conf CString

/-- The text of a file that holds the given sections, with or without a leading
switch line that says on, and with or without the newline at the very end. Empty lines
and comments may stand before the switch line. -/
def Written (sections : List ConfPairs) (file : List Char) : Prop :=
  ∃ fillers switch lines, (∀ line ∈ fillers, FillerLine line) ∧
    (switch = [] ∨ switch = ["@CONF_SWITCH=1".toList]) ∧ SectionLines sections lines ∧
    (file = Lines.join '\n' (fillers ++ (switch ++ lines)) ∨
      file ++ ['\n'] = Lines.join '\n' (fillers ++ (switch ++ lines)))

/-- The manager holds exactly the given sections, each with its pairs in order. -/
structure Holds (manager : Manager) (sections : List ConfPairs) : Prop where
  count : manager.modeCount = sections.length
  found : ∀ confPairs ∈ sections,
    getConfPairs manager confPairs.modeName = .ok (some confPairs)
  others : ∀ name, (∀ confPairs ∈ sections, confPairs.modeName ≠ name) →
    getConfPairs manager name = .ok none
  values : ∀ confPairs ∈ sections, ∀ before pair after,
    confPairs.pairs = before ++ pair :: after → (∀ other ∈ before, other.name ≠ pair.name) →
    getValue confPairs pair.name = some pair.value
  otherKeys : ∀ confPairs ∈ sections, ∀ key, (∀ pair ∈ confPairs.pairs, pair.name ≠ key) →
    getValue confPairs key = none

theorem getValue_first {confPairs : ConfPairs} {before after : List ConfPair} {pair : ConfPair}
    (split : confPairs.pairs = before ++ pair :: after)
    (first : ∀ other ∈ before, other.name ≠ pair.name) :
    getValue confPairs pair.name = some pair.value := by
  have skipped : before.find? (fun other => decide (other.name = pair.name)) = none := by
    simpa using first
  rw [getValue, split, List.find?_append, skipped]
  simp

theorem getValue_absent {confPairs : ConfPairs} {key : List Char}
    (absent : ∀ pair ∈ confPairs.pairs, pair.name ≠ key) : getValue confPairs key = none := by
  simpa [getValue] using absent

/-! ## Inserting sections -/

theorem lookupSection_insertNewNode (table : SectionTable) (address : ℕ)
    (confPairs : ConfPairs) (name : List Char) :
    lookupSection (insertNewNode table address confPairs) name =
      if confPairs.modeName = name then some confPairs else lookupSection table name := by
  rw [lookupSection, insertNewNode, HashTable.lookup_insert]
  by_cases wanted : confPairs.modeName = name
  · simp [wanted]
  · simp [wanted, lookupSection]

theorem lookupSection_foldl (name : List Char) : ∀ (sections : List ConfPairs)
    (start : Sections), sections.Pairwise (fun first second => first.modeName ≠ second.modeName) →
    lookupSection (sections.foldl dialect.insertPairs start).table name =
      (sections.find? fun confPairs => confPairs.modeName = name).or
        (lookupSection start.table name)
  | [], start, _ => by simp
  | confPairs :: sections, start, distinct => by
      rw [List.pairwise_cons] at distinct
      have rest := lookupSection_foldl name sections (dialect.insertPairs start confPairs)
        distinct.2
      have inserted : (dialect.insertPairs start confPairs).table =
          insertNewNode start.table start.modeCount confPairs := rfl
      rw [inserted, lookupSection_insertNewNode] at rest
      rw [List.foldl_cons, rest]
      by_cases wanted : confPairs.modeName = name
      · have others : sections.find? (fun other => decide (other.modeName = name)) = none := by
          rw [← wanted]
          simpa using fun other member => (distinct.1 other member).symm
        simp [wanted, others]
      · simp [wanted]

theorem find?_modeName {sections : List ConfPairs} {confPairs : ConfPairs}
    (distinct : sections.Pairwise fun first second => first.modeName ≠ second.modeName)
    (member : confPairs ∈ sections) :
    sections.find? (fun other => decide (other.modeName = confPairs.modeName)) =
      some confPairs := by
  induction sections with
  | nil => simp at member
  | cons first sections induction =>
      rw [List.pairwise_cons] at distinct
      rcases List.mem_cons.mp member with rfl | later
      · simp
      · have different := distinct.1 confPairs later
        simpa [different] using induction distinct.2 later

theorem getConfPairs_filled {sections : List ConfPairs}
    (distinct : sections.Pairwise fun first second => first.modeName ≠ second.modeName)
    (name : List Char) :
    getConfPairs (filled (sections.foldl dialect.insertPairs ⟨[], 0⟩)) name =
      .ok (sections.find? fun confPairs => confPairs.modeName = name) := by
  have found := lookupSection_foldl name sections ⟨[], 0⟩ distinct
  simp only [lookupSection, HashTable.lookup, Option.map_none, Option.or_none] at found
  simp [getConfPairs, filled, Ref.isNull, Ref.deref, lookupSection, found, bind, Except.bind]

/-! ## The round trip -/

private theorem scanLines_switch (lines : List (List Char)) (sections : Sections) :
    scanLines dialect false [] ("@CONF_SWITCH=1".toList :: lines) none sections =
      scanLines dialect false [] lines none sections := by
  rfl

private theorem scanLines_fillers {fillers : List (List Char)}
    (filled : ∀ line ∈ fillers, FillerLine line) (lines : List (List Char)) (sections : Sections) :
    scanLines dialect false [] (fillers ++ lines) none sections =
      scanLines dialect false [] lines none sections := by
  induction fillers with
  | nil => rfl
  | cons line fillers induction =>
      rw [List.forall_mem_cons] at filled
      rw [List.cons_append, scanLines_filler dialect filled.1]
      exact induction filled.2

theorem parseFile_written {sections : List ConfPairs} {file : List Char}
    (valid : ∀ confPairs ∈ sections, WellFormed confPairs) (written : Written sections file)
    (small : file.length < maxConfFileSize) :
    parseFile dialect file ⟨[], 0⟩ =
      .ok (.finished, sections.foldl dialect.insertPairs ⟨[], 0⟩) := by
  rcases written with ⟨fillers, switch, lines, filled, switched, sectionLines, joined⟩
  have clean : ∀ line ∈ fillers ++ (switch ++ lines), '\n' ∉ line := by
    intro line member
    rcases List.mem_append.mp member with inFillers | inRest
    · exact (filled line inFillers).noNewline
    rcases List.mem_append.mp inRest with inSwitch | inLines
    · rcases switched with rfl | rfl
      · simp at inSwitch
      · rw [List.mem_singleton.mp inSwitch]
        decide
    · exact sectionLines.noNewline valid line inLines
  rw [parseFile_lines dialect clean small joined, scanLines_fillers filled]
  rcases switched with rfl | rfl
  · exact scanLines_written dialect sectionLines _ valid
  · rw [List.singleton_append, scanLines_switch]
    exact scanLines_written dialect sectionLines _ valid

/-- Reading a written configuration succeeds and gives back its sections. -/
theorem getConfInfoFromFile_written {sections : List ConfPairs} {file : List Char}
    {manager : Manager} (fresh : manager.initFlag ≠ iriConfFinishInit)
    (valid : ∀ confPairs ∈ sections, WellFormed confPairs)
    (distinct : sections.Pairwise fun first second => first.modeName ≠ second.modeName)
    (written : Written sections file) (small : file.length < maxConfFileSize) :
    ∃ loaded, getConfInfoFromFile (.readable file) manager = .ok (0, loaded) ∧
      Holds loaded sections := by
  refine ⟨filled (sections.foldl dialect.insertPairs ⟨[], 0⟩), ?_, ?_⟩
  · rw [getConfInfoFromFile_readable fresh, parseFile_written valid written small]
  · refine ⟨?_, ?_, ?_, ?_, ?_⟩
    · simpa [filled] using foldl_insert_modeCount sections ⟨[], 0⟩
    · intro confPairs member
      rw [getConfPairs_filled distinct, find?_modeName distinct member]
    · intro name absent
      rw [getConfPairs_filled distinct]
      simpa using absent
    · intro confPairs _ before pair after split first
      exact getValue_first split first
    · intro confPairs _ key absent
      exact getValue_absent absent

theorem letter_keyToken (c : Char) (member : c ∈ "akvw".toList) : KeyToken [c] := by
  have cases : c = 'a' ∨ c = 'k' ∨ c = 'v' ∨ c = 'w' := by simpa using member
  rcases cases with rfl | rfl | rfl | rfl
  all_goals
    exact
      { nonempty := by decide
        short := by decide
        clean := by
          intro c member
          rw [List.mem_singleton.mp member]
          decide
        noEquals := by decide
        noDash := by decide
        noSwitch := by decide }

/-- A comment, an empty line, a switch line and one section with a comment, an empty
line, blanks and a key that is given twice. -/
theorem getConfInfoFromFile_written_example :
    ∃ loaded, getConfInfoFromFile
        (.readable "#g\n\n@CONF_SWITCH=1\n#c\n-a #n\nk = v\n\n\tk=w#\n-end\n".toList) .cleared =
          .ok (0, loaded) ∧
      Holds loaded [⟨"a".toList, [⟨"k".toList, "v".toList⟩, ⟨"k".toList, "w".toList⟩]⟩] := by
  refine getConfInfoFromFile_written (by decide) ?_ (by simp) ?_ (by decide)
  · intro confPairs member
    rw [List.mem_singleton.mp member]
    refine ⟨(letter_keyToken 'a' (by decide)).toToken, by decide, ?_, ?_⟩
    · intro pair inside
      have cases : pair = ⟨['k'], ['v']⟩ ∨ pair = ⟨['k'], ['w']⟩ := by simpa using inside
      rcases cases with rfl | rfl
      · exact letter_keyToken 'k' (by decide)
      · exact letter_keyToken 'k' (by decide)
    · intro pair inside
      have cases : pair = ⟨['k'], ['v']⟩ ∨ pair = ⟨['k'], ['w']⟩ := by simpa using inside
      rcases cases with rfl | rfl
      · exact (letter_keyToken 'v' (by decide)).toToken
      · exact (letter_keyToken 'w' (by decide)).toToken
  · have none : Blanks [] := by simp [Blanks]
    refine ⟨["#g".toList, []], ["@CONF_SWITCH=1".toList], ["#c".toList, "-a #n".toList,
      "k = v".toList, [], "\tk=w#".toList, "-end".toList], ?_, .inr rfl, ?_, .inl (by decide)⟩
    · intro line member
      have cases : line = '#' :: ['g'] ∨ line = [] := by simpa using member
      rcases cases with rfl | rfl
      · exact .comment none (by decide) (by decide)
      · exact .empty
    have space : Blanks [' '] := by simp [Blanks, isBlank]
    have tab : Blanks ['\t'] := by simp [Blanks, isBlank]
    have hash : Comment ['#'] := .inr ⟨[], rfl, by decide⟩
    have hashN : Comment ['#', 'n'] := .inr ⟨['n'], rfl, by decide⟩
    have name : NameLine "a".toList "-a #n".toList :=
      .mk none none space hashN (by decide) (by decide)
    have first : PairLine ⟨"k".toList, "v".toList⟩ "k = v".toList :=
      .mk none space space none (.inl rfl) (by decide) (by decide)
    have second : PairLine ⟨"k".toList, "w".toList⟩ "\tk=w#".toList :=
      .mk tab none none none hash (by decide) (by decide)
    have last : EndLine "-end".toList := .mk none none (.inl rfl) (by decide)
    have comment : FillerLine "#c".toList := .comment none (by decide) (by decide)
    have block : SectionLines
        [⟨"a".toList, [⟨"k".toList, "v".toList⟩, ⟨"k".toList, "w".toList⟩]⟩]
        ("-a #n".toList :: (["k = v".toList, [], "\tk=w#".toList] ++ ["-end".toList])) :=
      .block name (.pair first (.filler .empty (.pair second .done))) last .done
    exact .filler comment block

end Lctools.Config
