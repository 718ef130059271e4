import Lctools.Foundation.Numerals
import Lctools.Foundation.Occurrences

/-! # The options of the program

`getopt_long_entry` of `opt_entry_inner.c`: a loop over the options that `getopt_long`
delivers, and checks of what they come to.
-/

namespace Lctools.Opt

open Numerals

/-! ## Data -/

/-- The values of `c` without an argument. The options `-n` and `?`, for what
`getopt_long` does not accept, are only reported. -/
inductive Flag where
  | v
  | V
  | h
  | o
  | n
  | m
  | c
  | ipv6
  | unknown
  deriving DecidableEq, Repr

/-- The values of `c` with an argument. `getopt_long` is not asked for `-p`. -/
inductive Setting where
  | r
  | s
  | a
  | z
  | t
  | p
  | f
  | k
  | ip
  | sip
  | dip
  | mac
  | smac
  | dmac
  | port
  | sport
  | dport
  | protocol
  | findType
  | domain
  | application
  deriving DecidableEq, Repr

/-- What one call of `getopt_long` delivers. -/
abbrev EntryOption := Occurrence Flag Setting (List Char)

structure FilterOption where
  sip : Option (List Char)
  dip : Option (List Char)
  sport : ℤ
  dport : ℤ
  smac : Option (List Char)
  dmac : Option (List Char)
  domainId : Option (List Char)
  appId : Option (List Char)
  port : ℤ
  ip : Option (List Char)
  isIpv6 : Bool
  mac : Option (List Char)
  protocol : Option (List Char)
  findType : ℤ
  startTimestamp : ℤ
  endTimestamp : ℤ
  isOnlyCheck : Bool
  downloadFileName : Option (List Char)
  keyName : Option (List Char)
  deriving DecidableEq, Repr

structure DeepDissectorOption where
  isFromPcap : Bool
  pcapFileName : Option (List Char)
  isNonDeamon : Bool
  dTableTag : Option (List Char)
  pktsNum : ℤ
  deriving DecidableEq, Repr

structure FormatOpts where
  confFile : Option (List Char)
  fOpt : FilterOption
  dOpt : DeepDissectorOption
  isOnlyVersion : Bool
  deriving DecidableEq, Repr

/-- The arguments of the program. An option is at least one argument. -/
structure CommandLine where
  argc : ℕ
  options : List EntryOption
  counted : options ≠ [] → 2 ≤ argc

def defaultTableTag : List Char := "01234567890123456789012345678912".toList

/-! ## The checks -/

/-- `check_filter_opts`, with what it reports when it fails. The source compares `smac`
twice and never `dmac`. -/
def checkFilterOpts (fOpt : FilterOption) : Except (List Char) Unit :=
  if fOpt.startTimestamp = 0 || fOpt.endTimestamp = 0 then
    .error "-a and -z is needed\n".toList
  else if fOpt.startTimestamp > fOpt.endTimestamp then
    .error ("start_timestamp[".toList ++ decimalInt fOpt.startTimestamp ++
      "] is bigger than end_timestamp[".toList ++ decimalInt fOpt.endTimestamp ++ "]\n".toList)
  else if fOpt.isOnlyCheck && fOpt.keyName.isNone then
    .error "-c and -k is needed\n".toList
  else if fOpt.downloadFileName.isSome && fOpt.keyName.isNone then
    .error "-f and -k is needed\n".toList
  else if fOpt.isOnlyCheck && fOpt.downloadFileName.isSome then
    .error "-c should not be with -f\n".toList
  else if (fOpt.sip.isSome || fOpt.dip.isSome) && fOpt.ip.isSome then
    .error "-ip should not be with --sip or/and --dip\n".toList
  else if (fOpt.sport ≠ 0 || fOpt.dport ≠ 0) && fOpt.port ≠ 0 then
    .error "-port should not be with --sport or/and --dport\n".toList
  else if (fOpt.smac.isSome || fOpt.smac.isSome) && fOpt.mac.isSome then
    .error "-mac should not be with --smac or/and --dmac\n".toList
  else
    .ok ()

def checkDeepOpts (dOpt : DeepDissectorOption) : Except (List Char) Unit :=
  if dOpt.isFromPcap && dOpt.pcapFileName.isNone then
    .error "No pcap file name\n".toList
  else if !dOpt.isFromPcap && dOpt.pcapFileName.isSome then
    .error "-r should not be with -o\n".toList
  else if dOpt.pktsNum ≤ 0 then
    .error ("-s error, pkts_num[".toList ++ decimalInt dOpt.pktsNum ++
      "] should be > 0\n".toList)
  else
    .ok ()

def checked (check : Except (List Char) Unit) : ℤ :=
  match check with
  | .error _ => -1
  | .ok _ => 0

/-! ## The loop -/

structure Settings where
  fOpt : FilterOption
  dOpt : DeepDissectorOption
  confFile : Option (List Char)
  isOnlyFilterLib : Bool
  isOnlyDeep : Bool
  deriving DecidableEq, Repr

/-- `memset`. -/
def FilterOption.zero : FilterOption :=
  ⟨none, none, 0, 0, none, none, none, none, 0, none, false, none, none, 0, 0, 0, false, none,
    none⟩

section Loop

-- `DEFAULT_ANALYSIS_CONFIG_FILE` comes from outside.
variable (defaultAnalysisConfigFile : List Char)

def defaults : Settings where
  fOpt := .zero
  dOpt := ⟨true, none, false, some defaultTableTag, 0⟩
  confFile := some defaultAnalysisConfigFile
  isOnlyFilterLib := false
  isOnlyDeep := false

/-- `switch(c)`; an error is the status that the program exits with. -/
def switchOption (settings : Settings) : EntryOption → Except ℤ Settings
  | .flag .v => .error 0
  | .flag .V => .error 0
  | .flag .h => .error 0
  | .flag .o =>
      .ok { settings with
        dOpt := { settings.dOpt with isFromPcap := false }, isOnlyFilterLib := true }
  | .flag .n => .ok settings
  | .flag .m => .ok { settings with dOpt := { settings.dOpt with isNonDeamon := true } }
  | .flag .c =>
      .ok { settings with
        fOpt := { settings.fOpt with isOnlyCheck := true }, isOnlyFilterLib := true }
  | .flag .ipv6 => .ok { settings with fOpt := { settings.fOpt with isIpv6 := true } }
  | .flag .unknown => .ok settings
  | .value .r optarg =>
      .ok { settings with
        dOpt := { settings.dOpt with pcapFileName := some optarg }, isOnlyDeep := true }
  | .value .s optarg =>
      .ok { settings with dOpt := { settings.dOpt with pktsNum := atoi optarg } }
  | .value .a optarg =>
      .ok { settings with
        fOpt := { settings.fOpt with startTimestamp := wrapUnsigned 64 (atol optarg) } }
  | .value .z optarg =>
      .ok { settings with
        fOpt := { settings.fOpt with endTimestamp := wrapUnsigned 64 (atol optarg) } }
  | .value .t optarg =>
      .ok { settings with dOpt := { settings.dOpt with dTableTag := some optarg } }
  | .value .p optarg => .ok { settings with confFile := some optarg }
  | .value .f optarg =>
      .ok { settings with
        fOpt := { settings.fOpt with downloadFileName := some optarg }, isOnlyFilterLib := true }
  | .value .k optarg =>
      .ok { settings with fOpt := { settings.fOpt with keyName := some optarg } }
  | .value .ip optarg => .ok { settings with fOpt := { settings.fOpt with ip := some optarg } }
  | .value .sip optarg => .ok { settings with fOpt := { settings.fOpt with sip := some optarg } }
  | .value .dip optarg => .ok { settings with fOpt := { settings.fOpt with dip := some optarg } }
  | .value .mac optarg => .ok { settings with fOpt := { settings.fOpt with mac := some optarg } }
  | .value .smac optarg =>
      .ok { settings with fOpt := { settings.fOpt with smac := some optarg } }
  | .value .dmac optarg =>
      .ok { settings with fOpt := { settings.fOpt with dmac := some optarg } }
  | .value .port optarg =>
      .ok { settings with
        fOpt := { settings.fOpt with port := wrapUnsigned 16 (atoi optarg) } }
  | .value .sport optarg =>
      .ok { settings with
        fOpt := { settings.fOpt with sport := wrapUnsigned 16 (atoi optarg) } }
  | .value .dport optarg =>
      .ok { settings with
        fOpt := { settings.fOpt with dport := wrapUnsigned 16 (atoi optarg) } }
  | .value .protocol optarg =>
      .ok { settings with fOpt := { settings.fOpt with protocol := some optarg } }
  | .value .findType optarg =>
      .ok { settings with fOpt := { settings.fOpt with findType := atoi optarg } }
  | .value .domain optarg =>
      .ok { settings with fOpt := { settings.fOpt with domainId := some optarg } }
  | .value .application optarg =>
      .ok { settings with fOpt := { settings.fOpt with appId := some optarg } }

/-- The checks after the loop: which of them are made depends on the options. -/
def checkSettings (settings : Settings) : ℤ :=
  let (fRet, dRet) :=
    if !settings.isOnlyFilterLib && !settings.isOnlyDeep then
      (checked (checkFilterOpts settings.fOpt), checked (checkDeepOpts settings.dOpt))
    else if settings.isOnlyFilterLib then (checked (checkFilterOpts settings.fOpt), 0)
    else (0, checked (checkDeepOpts settings.dOpt))
  if fRet = 0 && dRet = 0 then 0 else -1

/-- `getopt_long_entry`, for valid pointers. -/
def getoptLongEntry (line : CommandLine) (opts : FormatOpts) : Except ℤ (ℤ × FormatOpts) := do
  if line.argc < 2 then .ok (-1, opts)
  else
    let settings ← line.options.foldlM switchOption (defaults defaultAnalysisConfigFile)
    .ok (checkSettings settings, ⟨settings.confFile, settings.fOpt, settings.dOpt, false⟩)

/-! ## What the options come to -/

/-- The options with which the program ends before the checks. -/
def ends : EntryOption → Bool
  | .flag .v => true
  | .flag .V => true
  | .flag .h => true
  | _ => false

/-- The number an argument stands for, zero for an option that was not given. -/
def number (convert : List Char → ℤ) (argument : Option (List Char)) : ℤ :=
  (argument.map convert).getD 0

/-- What the loop computes, said without an order of the options. -/
def settingsOf (given : Given Flag Setting (List Char)) : Settings where
  fOpt :=
    { sip := given.values .sip
      dip := given.values .dip
      sport := number (fun argument => wrapUnsigned 16 (atoi argument)) (given.values .sport)
      dport := number (fun argument => wrapUnsigned 16 (atoi argument)) (given.values .dport)
      smac := given.values .smac
      dmac := given.values .dmac
      domainId := given.values .domain
      appId := given.values .application
      port := number (fun argument => wrapUnsigned 16 (atoi argument)) (given.values .port)
      ip := given.values .ip
      isIpv6 := given.flags .ipv6
      mac := given.values .mac
      protocol := given.values .protocol
      findType := number atoi (given.values .findType)
      startTimestamp := number (fun argument => wrapUnsigned 64 (atol argument)) (given.values .a)
      endTimestamp := number (fun argument => wrapUnsigned 64 (atol argument)) (given.values .z)
      isOnlyCheck := given.flags .c
      downloadFileName := given.values .f
      keyName := given.values .k }
  dOpt :=
    { isFromPcap := !given.flags .o
      pcapFileName := given.values .r
      isNonDeamon := given.flags .m
      dTableTag := some ((given.values .t).getD defaultTableTag)
      pktsNum := number atoi (given.values .s) }
  confFile := some ((given.values .p).getD defaultAnalysisConfigFile)
  isOnlyFilterLib := given.flags .o || given.flags .c || (given.values .f).isSome
  isOnlyDeep := (given.values .r).isSome

/-- One option changes the settings as it changes what is given. -/
theorem switchOption_settingsOf (given : Given Flag Setting (List Char)) (option : EntryOption)
    (goesOn : ends option = false) :
    switchOption (settingsOf defaultAnalysisConfigFile given) option =
      .ok (settingsOf defaultAnalysisConfigFile (Occurrence.add given option)) := by
  cases option with
  | flag name =>
      cases name with
      | v => cases goesOn
      | V => cases goesOn
      | h => cases goesOn
      | o => simp [switchOption, settingsOf, Occurrence.add]
      | n => simp [switchOption, settingsOf, Occurrence.add]
      | m => simp [switchOption, settingsOf, Occurrence.add]
      | c => simp [switchOption, settingsOf, Occurrence.add]
      | ipv6 => simp [switchOption, settingsOf, Occurrence.add]
      | unknown => simp [switchOption, settingsOf, Occurrence.add]
  | value name optarg =>
      cases name <;> simp [switchOption, settingsOf, Occurrence.add, number]

theorem getoptLongEntry_eq (line : CommandLine) (opts : FormatOpts)
    (goesOn : ∀ option ∈ line.options, ends option = false) :
    getoptLongEntry defaultAnalysisConfigFile line opts =
      if line.argc < 2 then .ok (-1, opts)
      else
        let settings := settingsOf defaultAnalysisConfigFile (Occurrence.given line.options)
        .ok (checkSettings settings, ⟨settings.confFile, settings.fOpt, settings.dOpt, false⟩) := by
  have loop : line.options.foldlM switchOption (defaults defaultAnalysisConfigFile) =
      .ok (settingsOf defaultAnalysisConfigFile (Occurrence.given line.options)) :=
    Occurrence.foldlM_settings fun given option member =>
      switchOption_settingsOf defaultAnalysisConfigFile given option (goesOn option member)
  rw [getoptLongEntry, loop]
  rfl

theorem argc_iff {first second : CommandLine}
    (same : Occurrence.SameOptions first.options second.options)
    (arguments : first.options = [] → (first.argc < 2 ↔ second.argc < 2)) :
    first.argc < 2 ↔ second.argc < 2 := by
  by_cases none : first.options = []
  · exact arguments none
  · have some : second.options ≠ [] := fun empty => none (same.symm.eq_nil empty)
    exact iff_of_false (Nat.not_lt.mpr (first.counted none)) (Nat.not_lt.mpr (second.counted some))

theorem getoptLongEntry_same {first second : CommandLine} (opts : FormatOpts)
    (goesOn : ∀ option ∈ first.options, ends option = false)
    (same : Occurrence.SameOptions first.options second.options)
    (arguments : first.options = [] → (first.argc < 2 ↔ second.argc < 2)) :
    getoptLongEntry defaultAnalysisConfigFile first opts =
      getoptLongEntry defaultAnalysisConfigFile second opts := by
  have goesOnSecond : ∀ option ∈ second.options, ends option = false := by
    intro option member
    cases option with
    | flag name => exact goesOn _ ((same.flags name).mpr member)
    | value name argument => rfl
  rw [getoptLongEntry_eq defaultAnalysisConfigFile first opts goesOn,
    getoptLongEntry_eq defaultAnalysisConfigFile second opts goesOnSecond, same.given]
  exact if_congr (argc_iff same arguments) rfl rfl

/-- The result depends on the options that occur and their last arguments, and not on
the order of the options. Two lines without an option are both empty or both not. -/
theorem getoptLongEntry_orderFree (first second : CommandLine) (opts : FormatOpts)
    (goesOn : ∀ option ∈ first.options, ends option = false)
    (arguments : first.options = [] → (first.argc < 2 ↔ second.argc < 2)) :
    (Occurrence.SameOptions first.options second.options →
      getoptLongEntry defaultAnalysisConfigFile first opts =
        getoptLongEntry defaultAnalysisConfigFile second opts) ∧
    (first.options.Perm second.options → (first.options.map Occurrence.option).Nodup →
      getoptLongEntry defaultAnalysisConfigFile first opts =
        getoptLongEntry defaultAnalysisConfigFile second opts) := by
  constructor
  · intro same
    exact getoptLongEntry_same defaultAnalysisConfigFile opts goesOn same arguments
  · intro reordered distinct
    exact getoptLongEntry_same defaultAnalysisConfigFile opts goesOn
      (Occurrence.sameOptions_of_perm reordered distinct) arguments

end Loop

/-- `-m -r x.pcap -s 5`. -/
def pcapLine : CommandLine where
  argc := 6
  options := [.flag .m, .value .r "x.pcap".toList, .value .s "5".toList]
  counted := fun _ => by decide

/-- `-s 3 -r x.pcap -s 5 -m`. -/
def reorderedLine : CommandLine where
  argc := 8
  options := [.value .s "3".toList, .value .r "x.pcap".toList, .value .s "5".toList, .flag .m]
  counted := fun _ => by decide

theorem getoptLongEntry_pcapLine :
    getoptLongEntry "all.conf".toList pcapLine ⟨none, .zero, ⟨false, none, false, none, 0⟩, false⟩ =
      getoptLongEntry "all.conf".toList reorderedLine
        ⟨none, .zero, ⟨false, none, false, none, 0⟩, false⟩ := by
  apply (getoptLongEntry_orderFree "all.conf".toList pcapLine reorderedLine _ (by decide)
    nofun).1
  constructor
  · intro flag
    simp [pcapLine, reorderedLine]
  · intro option
    cases option <;> rfl

end Lctools.Opt
