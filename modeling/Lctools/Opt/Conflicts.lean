import Lctools.Foundation.Fallible
import Lctools.Opt.Entry

/-! # Options that exclude each other

Which conflicts between options `check_filter_opts` finds. It compares what the
options come to and not whether they were given.
-/

namespace Lctools.Opt

open Numerals

/-! ## What the options should be -/

def occurs (wanted : Setting) (options : List EntryOption) : Bool :=
  options.any fun option => (option.argument wanted).isSome

/-- The options are such that `getopt_long_entry` calls `check_filter_opts`. -/
def checksFilter (options : List EntryOption) : Bool :=
  !occurs .r options || .flag .o ∈ options || occurs .f options || .flag .c ∈ options

/-- No option stands beside one that excludes it, and none lacks one it needs. -/
structure Consistent (options : List EntryOption) (result : FormatOpts) : Prop where
  ip : ¬(occurs .ip options = true ∧ (occurs .sip options = true ∨ occurs .dip options = true))
  port : ¬(occurs .port options = true ∧
    (occurs .sport options = true ∨ occurs .dport options = true))
  mac : ¬(occurs .mac options = true ∧
    (occurs .smac options = true ∨ occurs .dmac options = true))
  onlyOne : ¬(.flag .c ∈ options ∧ occurs .f options = true)
  key : .flag .c ∈ options ∨ occurs .f options = true → occurs .k options = true
  started : result.fOpt.startTimestamp ≠ 0
  ordered : result.fOpt.startTimestamp ≤ result.fOpt.endTimestamp

/-- The port that the last argument of an option comes to. -/
def portOf (wanted : Setting) (options : List EntryOption) : ℤ :=
  number (fun argument => wrapUnsigned 16 (atoi argument))
    (Occurrence.lastArgument wanted options)

/-- The pairs of options that are not looked at: `--mac` with `--dmac` alone, and
ports that come to zero. -/
def overlooked (options : List EntryOption) : Bool :=
  (occurs .mac options && occurs .dmac options && !occurs .smac options) ||
    (occurs .port options && (occurs .sport options || occurs .dport options) &&
      (portOf .port options = 0 || (portOf .sport options = 0 && portOf .dport options = 0)))

/-! ## What the checks find -/

theorem isSome_lastArgument (wanted : Setting) (options : List EntryOption) :
    (Occurrence.lastArgument wanted options).isSome = occurs wanted options := by
  rw [Bool.eq_iff_iff, Occurrence.lastArgument, List.getLast?_isSome, occurs, List.any_eq_true,
    ne_eq, List.filterMap_eq_nil_iff]
  simp only [not_forall, exists_prop, Option.isSome_iff_ne_none]

theorem foldlM_survives : ∀ {options : List EntryOption} {settings last : Settings},
    options.foldlM switchOption settings = .ok last →
    ∀ option ∈ options, ends option = false
  | [], _, _, _ => nofun
  | option :: options, settings, last, read => by
      rw [List.foldlM_cons] at read
      rcases stepped : switchOption settings option with status | next
      · simp [stepped, bind, Except.bind] at read
      · have first : ends option = false := by
          cases option with
          | value name optarg => rfl
          | flag name => cases name <;> first | rfl | cases stepped
        simp only [stepped, bind, Except.bind] at read
        intro other member
        rcases List.mem_cons.mp member with same | later
        · rw [same, first]
        · exact foldlM_survives read other later

theorem checked_ite {test : Prop} [Decidable test] (report : List Char)
    (rest : Except (List Char) Unit) :
    checked (if test then .error report else rest) = 0 ↔ ¬test ∧ checked rest = 0 := by
  by_cases holds : test
  · simp [holds, checked]
  · simp [holds]

theorem checkFilterOpts_accepts_iff (fOpt : FilterOption) :
    checked (checkFilterOpts fOpt) = 0 ↔
      (fOpt.startTimestamp ≠ 0 ∧ fOpt.endTimestamp ≠ 0) ∧
      fOpt.startTimestamp ≤ fOpt.endTimestamp ∧
      (fOpt.isOnlyCheck = true → fOpt.keyName.isSome = true) ∧
      (fOpt.downloadFileName.isSome = true → fOpt.keyName.isSome = true) ∧
      (fOpt.isOnlyCheck = true → ¬fOpt.downloadFileName.isSome = true) ∧
      (fOpt.sip.isSome = true ∨ fOpt.dip.isSome = true → ¬fOpt.ip.isSome = true) ∧
      (fOpt.sport ≠ 0 ∨ fOpt.dport ≠ 0 → fOpt.port = 0) ∧
      (fOpt.smac.isSome = true → ¬fOpt.mac.isSome = true) := by
  have accepts : checked (.ok ()) = 0 := rfl
  simp only [checkFilterOpts, checked_ite, accepts, and_true, Bool.or_eq_true, Bool.and_eq_true,
    decide_eq_true_eq, not_or, not_and, not_lt, gt_iff_lt, or_self, ne_eq, not_not,
    Option.isNone_iff_eq_none, Option.isSome_iff_ne_none]

theorem checkSettings_filter {settings : Settings}
    (calls : settings.isOnlyDeep = false ∨ settings.isOnlyFilterLib = true)
    (accepted : checkSettings settings = 0) : checked (checkFilterOpts settings.fOpt) = 0 := by
  by_contra rejected
  rcases calls with notDeep | filterLib
  · cases filterLib : settings.isOnlyFilterLib <;>
      simp [checkSettings, notDeep, filterLib, rejected] at accepted
  · simp [checkSettings, filterLib, rejected] at accepted

section Loop

variable (defaultAnalysisConfigFile : List Char)

theorem getoptLongEntry_accepts {line : CommandLine} {opts result : FormatOpts}
    (returned : getoptLongEntry defaultAnalysisConfigFile line opts = .ok (0, result)) :
    let settings := settingsOf defaultAnalysisConfigFile (Occurrence.given line.options)
    checkSettings settings = 0 ∧ result.fOpt = settings.fOpt := by
  have enough : ¬line.argc < 2 := by
    intro few
    simp [getoptLongEntry, few] at returned
  have survives : ∀ option ∈ line.options, ends option = false := by
    rw [getoptLongEntry, if_neg enough] at returned
    rcases read : line.options.foldlM switchOption (defaults defaultAnalysisConfigFile) with
      status | settings
    · simp [read, bind, Except.bind] at returned
    · exact foldlM_survives read
  rw [getoptLongEntry_eq defaultAnalysisConfigFile line opts survives, if_neg enough] at returned
  simp only [Except.ok.injEq, Prod.mk.injEq] at returned
  exact ⟨returned.1, by rw [← returned.2]⟩

theorem getoptLongEntry_accepted {line : CommandLine} {opts result : FormatOpts}
    (checks : checksFilter line.options = true)
    (returned : getoptLongEntry defaultAnalysisConfigFile line opts = .ok (0, result)) :
    (result.fOpt.startTimestamp ≠ 0 ∧ result.fOpt.endTimestamp ≠ 0) ∧
      result.fOpt.startTimestamp ≤ result.fOpt.endTimestamp ∧
      (.flag .c ∈ line.options → occurs .k line.options = true) ∧
      (occurs .f line.options = true → occurs .k line.options = true) ∧
      (.flag .c ∈ line.options → ¬occurs .f line.options = true) ∧
      (occurs .sip line.options = true ∨ occurs .dip line.options = true →
        ¬occurs .ip line.options = true) ∧
      (portOf .sport line.options ≠ 0 ∨ portOf .dport line.options ≠ 0 →
        portOf .port line.options = 0) ∧
      (occurs .smac line.options = true → ¬occurs .mac line.options = true) := by
  rcases getoptLongEntry_accepts defaultAnalysisConfigFile returned with ⟨accepted, same⟩
  have calls : (settingsOf defaultAnalysisConfigFile
        (Occurrence.given line.options)).isOnlyDeep = false ∨
      (settingsOf defaultAnalysisConfigFile
        (Occurrence.given line.options)).isOnlyFilterLib = true := by
    simp only [checksFilter, Bool.or_eq_true, Bool.not_eq_true', decide_eq_true_eq] at checks
    simp only [settingsOf, Bool.or_eq_true, Occurrence.given_flags, Occurrence.given_values,
      isSome_lastArgument]
    rcases checks with ((notRead | fromLibrary) | download) | onlyCheck
    · exact .inl notRead
    · exact .inr (.inl (.inl fromLibrary))
    · exact .inr (.inr download)
    · exact .inr (.inl (.inr onlyCheck))
  have passed := (checkFilterOpts_accepts_iff _).mp (checkSettings_filter calls accepted)
  rw [← same] at passed
  have filter := passed
  rw [same] at filter
  simp only [settingsOf, Occurrence.given_flags, Occurrence.given_values, isSome_lastArgument]
    at filter
  exact ⟨passed.1, passed.2.1, filter.2.2⟩

/-- A line that is accepted with a check of the filter options has all conflicts
excluded exactly when it has none of the pairs that the check overlooks. -/
theorem consistent_iff_not_overlooked (line : CommandLine) (opts result : FormatOpts)
    (checks : checksFilter line.options = true)
    (returned : getoptLongEntry defaultAnalysisConfigFile line opts = .ok (0, result)) :
    Consistent line.options result ↔ overlooked line.options = false := by
  rcases getoptLongEntry_accepted defaultAnalysisConfigFile checks returned with
    ⟨⟨started, _⟩, ordered, checkKey, downloadKey, onlyOne, ip, port, smac⟩
  rw [← Bool.not_eq_true, overlooked]
  simp only [Bool.or_eq_true, Bool.and_eq_true, Bool.not_eq_true', decide_eq_true_eq]
  constructor
  · intro consistent
    rintro (⟨⟨mac, dmac⟩, _⟩ | ⟨⟨portGiven, other⟩, _⟩)
    · exact consistent.mac ⟨mac, .inr dmac⟩
    · exact consistent.port ⟨portGiven, other⟩
  · intro found
    refine ⟨?_, ?_, ?_, ?_, ?_, started, ordered⟩
    · rintro ⟨ipGiven, other⟩
      exact ip other ipGiven
    · rintro ⟨portGiven, other⟩
      refine found (.inr ⟨⟨portGiven, other⟩, ?_⟩)
      by_cases zero : portOf .sport line.options = 0 ∧ portOf .dport line.options = 0
      · exact .inr zero
      · exact .inl (port (not_and_or.mp zero))
    · rintro ⟨macGiven, smacGiven | dmacGiven⟩
      · exact smac smacGiven macGiven
      · by_cases smacGiven : occurs .smac line.options = true
        · exact smac smacGiven macGiven
        · exact found (.inl ⟨⟨macGiven, dmacGiven⟩, by simpa using smacGiven⟩)
    · rintro ⟨onlyCheck, download⟩
      exact onlyOne onlyCheck download
    · rintro (onlyCheck | download)
      · exact checkKey onlyCheck
      · exact downloadKey download

end Loop

/-- `-o -a 1 -z 2 --mac 00:0c:29:01:02:03 --dmac 00:0c:29:04:05:06`. -/
def macLine : CommandLine where
  argc := 10
  options := [.flag .o, .value .a "1".toList, .value .z "2".toList,
    .value .mac "00:0c:29:01:02:03".toList, .value .dmac "00:0c:29:04:05:06".toList]
  counted := fun _ => by decide

/-- What `macLine` is read into. -/
def macResult : FormatOpts :=
  { confFile := some "all.conf".toList
    fOpt := { FilterOption.zero with
      mac := some "00:0c:29:01:02:03".toList
      dmac := some "00:0c:29:04:05:06".toList
      startTimestamp := 1
      endTimestamp := 2 }
    dOpt := ⟨false, none, false, some defaultTableTag, 0⟩
    isOnlyVersion := false }

theorem not_consistent_macLine :
    ¬∀ (line : CommandLine) (opts result : FormatOpts), checksFilter line.options = true →
      getoptLongEntry "all.conf".toList line opts = .ok (0, result) →
      Consistent line.options result := by
  intro excluded
  have consistent := excluded macLine ⟨none, .zero, ⟨false, none, false, none, 0⟩, false⟩
    macResult (by decide) (by decide)
  exact consistent.mac ⟨by decide, .inr (by decide)⟩

/-- `-o -a 1 -z 2 --mac 00:0c:29:01:02:03 --port 80`. -/
def portLine : CommandLine where
  argc := 10
  options := [.flag .o, .value .a "1".toList, .value .z "2".toList,
    .value .mac "00:0c:29:01:02:03".toList, .value .port "80".toList]
  counted := fun _ => by decide

/-- What `portLine` is read into. -/
def portResult : FormatOpts :=
  { macResult with
    fOpt := { macResult.fOpt with dmac := none, port := 80 } }

theorem consistent_portLine : Consistent portLine.options portResult :=
  (consistent_iff_not_overlooked "all.conf".toList portLine
    ⟨none, .zero, ⟨false, none, false, none, 0⟩, false⟩ portResult (by decide)
    (by decide)).mpr (by decide)

/-! ## Reading from the library and from a file

The check for `-r` beside `-o` is in `check_deep_opts`, and `-o` makes
`getopt_long_entry` call `check_filter_opts` alone.
-/

/-- The time that the last argument of an option comes to. -/
def timestampOf (wanted : Setting) (options : List EntryOption) : ℤ :=
  number (fun argument => wrapUnsigned 64 (atol argument))
    (Occurrence.lastArgument wanted options)

/-- What `check_filter_opts` complains about, said of the options. -/
def filterComplaint (options : List EntryOption) : Bool :=
  (timestampOf .a options = 0 || timestampOf .z options = 0) ||
  timestampOf .a options > timestampOf .z options ||
  (.flag .c ∈ options && !occurs .k options) ||
  (occurs .f options && !occurs .k options) ||
  (.flag .c ∈ options && occurs .f options) ||
  ((occurs .sip options || occurs .dip options) && occurs .ip options) ||
  ((portOf .sport options ≠ 0 || portOf .dport options ≠ 0) && portOf .port options ≠ 0) ||
  (occurs .smac options && occurs .mac options)

theorem checkFilterOpts_settingsOf (defaultAnalysisConfigFile : List Char)
    (options : List EntryOption) :
    checked (checkFilterOpts (settingsOf defaultAnalysisConfigFile
      (Occurrence.given options)).fOpt) = 0 ↔ filterComplaint options = false := by
  rw [checkFilterOpts_accepts_iff]
  simp only [filterComplaint, Bool.or_eq_false_iff, Bool.and_eq_false_imp, Bool.not_eq_false',
    decide_eq_false_iff_not, decide_eq_true_eq, Bool.or_eq_true, not_lt, gt_iff_lt, ne_eq, not_not,
    and_assoc]
  simp only [settingsOf, Occurrence.given_flags, Occurrence.given_values, isSome_lastArgument,
    timestampOf, portOf, Bool.not_eq_true]

theorem checkSettings_filterLib {settings : Settings} (filterLib : settings.isOnlyFilterLib = true) :
    checkSettings settings = -1 ↔ checked (checkFilterOpts settings.fOpt) ≠ 0 := by
  rw [checkSettings, filterLib]
  simp

/-- `getopt_long_entry` returns -1 for the line. -/
def Rejects (defaultAnalysisConfigFile : List Char) (line : CommandLine) (opts : FormatOpts) :
    Prop :=
  ∃ result, getoptLongEntry defaultAnalysisConfigFile line opts = .ok (-1, result)

/-- A line with `-o` and `-r` is rejected exactly if the program does not end before the checks,
and the options for the filter library are wrong in another way. -/
theorem rejects_both_sources_iff (defaultAnalysisConfigFile : List Char) (line : CommandLine)
    (opts : FormatOpts) (fromLibrary : .flag .o ∈ line.options)
    (_fromFile : occurs .r line.options = true) :
    Rejects defaultAnalysisConfigFile line opts ↔
      (∀ option ∈ line.options, ends option = false) ∧ filterComplaint line.options = true := by
  have enough : ¬line.argc < 2 := by
    have counted := line.counted (List.ne_nil_of_mem fromLibrary)
    omega
  have filterLib : (settingsOf defaultAnalysisConfigFile
      (Occurrence.given line.options)).isOnlyFilterLib = true := by
    simp [settingsOf, Occurrence.given_flags, fromLibrary]
  have decides : checkSettings (settingsOf defaultAnalysisConfigFile
      (Occurrence.given line.options)) = -1 ↔ filterComplaint line.options = true := by
    rw [checkSettings_filterLib filterLib, ne_eq, checkFilterOpts_settingsOf, Bool.not_eq_false]
  constructor
  · rintro ⟨result, returned⟩
    have survives : ∀ option ∈ line.options, ends option = false := by
      rw [getoptLongEntry, if_neg enough] at returned
      rcases Fallible.of_bind_ok returned with ⟨settings, read, _⟩
      exact foldlM_survives read
    rw [getoptLongEntry_eq defaultAnalysisConfigFile line opts survives, if_neg enough] at returned
    injection returned with pair
    injection pair with status _
    exact ⟨survives, decides.mp status⟩
  · intro complains
    rcases complains with ⟨survives, complaint⟩
    unfold Rejects
    rw [getoptLongEntry_eq defaultAnalysisConfigFile line opts survives, if_neg enough]
    simp only [decides.mpr complaint]
    exact ⟨_, rfl⟩

/-- `-o -r dump.pcap`, without the times that `-o` needs. -/
def untimedLine : CommandLine where
  argc := 4
  options := [.flag .o, .value .r "dump.pcap".toList]
  counted := fun _ => by decide

theorem rejects_untimedLine :
    Rejects "all.conf".toList untimedLine ⟨none, .zero, ⟨false, none, false, none, 0⟩, false⟩ :=
  (rejects_both_sources_iff "all.conf".toList untimedLine _ (by decide) (by decide)).mpr
    ⟨by decide, by decide⟩

/-- `-o -a 1 -z 2 -r dump.pcap`. -/
def bothSourcesLine : CommandLine where
  argc := 8
  options := [.flag .o, .value .a "1".toList, .value .z "2".toList,
    .value .r "dump.pcap".toList]
  counted := fun _ => by decide

/-- What `bothSourcesLine` is read into. -/
def bothSourcesResult : FormatOpts :=
  { confFile := some "all.conf".toList
    fOpt := { FilterOption.zero with startTimestamp := 1, endTimestamp := 2 }
    dOpt := ⟨false, some "dump.pcap".toList, false, some defaultTableTag, 0⟩
    isOnlyVersion := false }

theorem accepts_bothSourcesLine :
    .flag .o ∈ bothSourcesLine.options ∧ occurs .r bothSourcesLine.options = true ∧
    ¬Rejects "all.conf".toList bothSourcesLine
      ⟨none, .zero, ⟨false, none, false, none, 0⟩, false⟩ := by
  have accepted : getoptLongEntry "all.conf".toList bothSourcesLine
      ⟨none, .zero, ⟨false, none, false, none, 0⟩, false⟩ = .ok (0, bothSourcesResult) := by
    decide
  refine ⟨by decide, by decide, ?_⟩
  rintro ⟨result, rejected⟩
  rw [accepted] at rejected
  cases rejected

end Lctools.Opt
