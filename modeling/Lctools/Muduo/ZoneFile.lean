import Lctools.Foundation.ByteMemory
import Lctools.Foundation.Reading
import Lctools.Muduo.LocalTime

/-! # The zone files of `muduo/base/TimeZone`

A zone is read from a file with its counts, the times of its transitions and their types, the types
of local time, and the text of their abbreviations. Numbers are big-endian.
-/

namespace Lctools.Muduo.TimeZone

open BinarySearch ByteMemory Numerals Reading

/-! ## The program -/

/-- The `logic_error` that stops the reading. The last one is that of `vector::reserve` for a
negative number. -/
inductive ReadError where
  | noEnoughData
  | badInt32
  | badUInt8
  | badHead
  | reserve
  deriving DecidableEq, Repr

def ReadError.what : ReadError → List Char
  | .noEnoughData => "no enough data".toList
  | .badInt32 => "bad int32_t data".toList
  | .badUInt8 => "bad uint8_t data".toList
  | .badHead => "bad head".toList
  | .reserve => "vector::reserve".toList

def readBytes (n : ℕ) : Reader UInt8 ReadError (List UInt8) := fun bytes =>
  if n ≤ bytes.length then .ok (bytes.take n, bytes.drop n) else .error .noEnoughData

def readInt32 : Reader UInt8 ReadError ℤ := fun bytes =>
  if 4 ≤ bytes.length then .ok (wrapSigned 32 (value (bytes.take 4).reverse), bytes.drop 4)
  else .error .badInt32

def readUInt8 : Reader UInt8 ReadError UInt8
  | [] => .error .badUInt8
  | byte :: bytes => .ok (byte, bytes)

/-- `TZif`. -/
def tzif : List UInt8 := [84, 90, 105, 102]

structure Header where
  timecnt : ℤ
  typecnt : ℤ
  charcnt : ℤ
  deriving DecidableEq, Repr

def readHeader : Reader UInt8 ReadError Header := do
  let head ← readBytes 4
  if head = tzif then
    let _version ← readBytes 1
    let _ ← readBytes 15
    let _isgmtcnt ← readInt32
    let _isstdcnt ← readInt32
    let _leapcnt ← readInt32
    let timecnt ← readInt32
    let typecnt ← readInt32
    let charcnt ← readInt32
    return ⟨timecnt, typecnt, charcnt⟩
  else throw .badHead

/-- The times of the transitions, and then their types. -/
def readTransitions (timecnt : ℤ) : Reader UInt8 ReadError (List (ℤ × UInt8)) :=
  if timecnt < 0 then throw .reserve
  else do
    let trans ← many readInt32 timecnt.toNat
    let localtimes ← many readUInt8 timecnt.toNat
    return trans.zip localtimes

def readLocaltime : Reader UInt8 ReadError Localtime := do
  let gmtoff ← readInt32
  let isdst ← readUInt8
  let abbrind ← readUInt8
  return ⟨gmtoff, isdst != 0, abbrind.toNat⟩

/-- `data->transitions`, with the local times of the transitions. -/
def makeTransitions (data : Data) : List (ℤ × UInt8) → Except ZoneFault (List Transition)
  | [] => .ok []
  | (gmttime, localIdx) :: times => do
      let found ← data.localtimeAt localIdx.toNat
      let transitions ← makeTransitions data times
      return ⟨gmttime, gmttime + found.gmtOffset, localIdx.toNat⟩ :: transitions

def text (bytes : List UInt8) : List Char :=
  bytes.map fun byte => Char.ofNat byte.toNat

def Data.empty : Data :=
  ⟨[], [], []⟩

/-- `readTimeZoneFile`, for a file that cannot be opened or has the given bytes. An error leaves in
the data what was read before it, and is printed; the result is always `true`. -/
def readTimeZoneFile (zonefile : Option (List UInt8)) :
    Except ZoneFault (Data × Option ReadError) :=
  match zonefile with
  | none => .ok (.empty, none)
  | some bytes =>
      match readHeader.run bytes with
      | .error fault => .ok (.empty, some fault)
      | .ok (header, bytes) =>
          match (readTransitions header.timecnt).run bytes with
          | .error fault => .ok (.empty, some fault)
          | .ok (times, bytes) =>
              match readMany readLocaltime header.typecnt.toNat bytes with
              | (localtimes, .error fault) =>
                  .ok ({ Data.empty with localtimes := localtimes }, some fault)
              | (localtimes, .ok bytes) => do
                  let data := { Data.empty with localtimes := localtimes }
                  let transitions ← makeTransitions data times
                  let data := { data with transitions := transitions }
                  if header.charcnt < 0 then .error .length
                  else
                    match (readBytes header.charcnt.toNat).run bytes with
                    | .error fault => .ok (data, some fault)
                    | .ok (abbreviation, _) =>
                        .ok ({ data with abbreviation := text abbreviation }, none)

def int32Bytes (number : ℤ) : List UInt8 :=
  (bytesOf 4 (wrapUnsigned 32 number).toNat).reverse

def Int32Range (number : ℤ) : Prop :=
  -2 ^ 31 ≤ number ∧ number < 2 ^ 31

/-- The contents of a zone file, without the parts behind the abbreviations. -/
structure ZoneFile where
  version : UInt8
  unused : List UInt8
  isgmtcnt : ℤ
  isstdcnt : ℤ
  leapcnt : ℤ
  transitions : List (ℤ × UInt8)
  localtimes : List Localtime
  abbreviation : List UInt8
  unused_length : unused.length = 15
  counts_range : Int32Range isgmtcnt ∧ Int32Range isstdcnt ∧ Int32Range leapcnt
  transitions_length : transitions.length < 2 ^ 31
  transition_range : ∀ transition ∈ transitions,
    Int32Range transition.1 ∧ transition.2.toNat < localtimes.length
  localtimes_ne : localtimes ≠ []
  localtimes_length : localtimes.length < 2 ^ 31
  localtime_range : ∀ found ∈ localtimes,
    Int32Range found.gmtOffset ∧ found.arrbIdx < 256 ∧ found.arrbIdx ≤ abbreviation.length
  abbreviation_length : abbreviation.length < 2 ^ 31

namespace ZoneFile

variable (zone : ZoneFile)

def localtimeBytes (found : Localtime) : List UInt8 :=
  int32Bytes found.gmtOffset ++ [if found.isDst then 1 else 0, UInt8.ofNat found.arrbIdx]

def headerBytes : List UInt8 :=
  tzif ++ ([zone.version] ++ (zone.unused ++ (int32Bytes zone.isgmtcnt ++
    (int32Bytes zone.isstdcnt ++ (int32Bytes zone.leapcnt ++
      (int32Bytes zone.transitions.length ++ (int32Bytes zone.localtimes.length ++
        (int32Bytes zone.abbreviation.length ++ []))))))))

def transitionBytes : List UInt8 :=
  (zone.transitions.map (·.1)).flatMap int32Bytes ++ zone.transitions.map (·.2)

def bytes : List UInt8 :=
  zone.headerBytes ++ (zone.transitionBytes ++
    (zone.localtimes.flatMap localtimeBytes ++ zone.abbreviation))

def data : Data where
  transitions := zone.transitions.map fun transition =>
    ⟨transition.1,
      transition.1 + (zone.localtimes.getD transition.2.toNat default).gmtOffset,
      transition.2.toNat⟩
  localtimes := zone.localtimes
  abbreviation := text zone.abbreviation

end ZoneFile

/-! ## Readers -/

section Readers

theorem reads_readBytes {n : ℕ} {bytes : List UInt8} (length : bytes.length = n) :
    Reads (readBytes n) bytes bytes := by
  intro rest
  change readBytes n _ = _
  rw [readBytes, if_pos (by rw [List.length_append]; omega), ← length, List.take_left,
    List.drop_left]

theorem local_readBytes (n : ℕ) : Local (readBytes n) := by
  intro input taken rest more succeeds
  change readBytes n input = _ at succeeds
  change readBytes n (input ++ more) = _
  rw [readBytes] at succeeds ⊢
  split_ifs at succeeds with enough
  cases succeeds
  rw [if_pos (by rw [List.length_append]; omega), List.take_append_of_le_length enough,
    List.drop_append_of_le_length enough]

theorem reads_readUInt8 (byte : UInt8) : Reads readUInt8 [byte] byte :=
  fun _ => rfl

theorem local_readUInt8 : Local readUInt8 := by
  intro input byte rest more succeeds
  cases input with
  | nil => cases succeeds
  | cons first input =>
      cases succeeds
      rfl

theorem local_readInt32 : Local readInt32 := by
  intro input taken rest more succeeds
  change readInt32 input = _ at succeeds
  change readInt32 (input ++ more) = _
  rw [readInt32] at succeeds ⊢
  split_ifs at succeeds with enough
  rw [Except.ok.injEq, Prod.mk.injEq] at succeeds
  rcases succeeds with ⟨rfl, rfl⟩
  rw [if_pos (by rw [List.length_append]; omega), List.take_append_of_le_length enough,
    List.drop_append_of_le_length enough]

theorem int32Bytes_length (number : ℤ) : (int32Bytes number).length = 4 :=
  rfl

theorem wrapSigned_of_bytes {number : ℤ} (range : Int32Range number) :
    wrapSigned 32 ((wrapUnsigned 32 number).toNat % 256 ^ 4 : ℕ) = number := by
  have inside := wrapUnsigned_mem 32 number
  have whole : ((wrapUnsigned 32 number).toNat % 256 ^ 4 : ℕ) = wrapUnsigned 32 number := by
    rcases inside with ⟨low, high⟩
    norm_num at high ⊢
    omega
  rw [whole]
  apply signedRange_unique (wrapSigned_mem 31 _) range
  exact (wrapSigned_modEq 32 _).trans (wrapUnsigned_modEq 32 number)

theorem value_bytesOf (width number : ℕ) : value (bytesOf width number) = number % 256 ^ width := by
  induction width generalizing number with
  | zero => rw [bytesOf, value, Nat.pow_zero, Nat.mod_one]
  | succ width induction =>
      rw [bytesOf, value, induction, UInt8.toNat_ofNat', Nat.mod_mod, Nat.pow_succ', Nat.mod_mul]

theorem reads_readInt32 {number : ℤ} (range : Int32Range number) :
    Reads readInt32 (int32Bytes number) number := by
  intro rest
  change readInt32 _ = _
  have front : (int32Bytes number ++ rest).take 4 = int32Bytes number :=
    List.take_left' (int32Bytes_length number)
  have back : (int32Bytes number ++ rest).drop 4 = rest :=
    List.drop_left' (int32Bytes_length number)
  rw [readInt32, if_pos (by rw [List.length_append, int32Bytes_length]; omega), front, back,
    int32Bytes, List.reverse_reverse, value_bytesOf, wrapSigned_of_bytes range]

theorem local_readHeader : Local readHeader := by
  refine (local_readBytes 4).bind fun head => ?_
  split
  · refine (local_readBytes 1).bind fun _ => ?_
    refine (local_readBytes 15).bind fun _ => ?_
    refine local_readInt32.bind fun _ => ?_
    refine local_readInt32.bind fun _ => ?_
    refine local_readInt32.bind fun _ => ?_
    refine local_readInt32.bind fun timecnt => ?_
    refine local_readInt32.bind fun typecnt => ?_
    exact local_readInt32.bind fun charcnt => Local.pure _
  · exact Local.throw _

theorem local_readTransitions (timecnt : ℤ) : Local (readTransitions timecnt) := by
  rw [readTransitions]
  split_ifs
  · exact Local.throw _
  · refine (local_readInt32.many _).bind fun times => ?_
    exact (local_readUInt8.many _).bind fun localtimes => Local.pure _

theorem local_readLocaltime : Local readLocaltime := by
  refine local_readInt32.bind fun gmtoff => ?_
  refine local_readUInt8.bind fun isdst => ?_
  exact local_readUInt8.bind fun abbrind => Local.pure _

theorem reads_readLocaltime {found : Localtime} (range : Int32Range found.gmtOffset)
    (small : found.arrbIdx < 256) :
    Reads readLocaltime (ZoneFile.localtimeBytes found) found := by
  rcases found with ⟨gmtOffset, isDst, arrbIdx⟩
  have flag : ((if isDst then 1 else 0 : UInt8) != 0) = isDst := by
    cases isDst <;> rfl
  have index : (UInt8.ofNat arrbIdx).toNat = arrbIdx := by
    rw [UInt8.toNat_ofNat']
    exact Nat.mod_eq_of_lt small
  have last : Reads (do
      let isdst ← readUInt8
      let abbrind ← readUInt8
      return (⟨gmtOffset, isdst != 0, abbrind.toNat⟩ : Localtime))
      [if isDst then 1 else 0, UInt8.ofNat arrbIdx] ⟨gmtOffset, isDst, arrbIdx⟩ := by
    intro rest
    change Except.ok ((⟨gmtOffset, _ != 0, _⟩ : Localtime), rest) = _
    rw [flag, index]
  exact (reads_readInt32 range).bind last

end Readers

section RoundTrip

variable (zone : ZoneFile)

theorem int32Range_length {length : ℕ} (small : length < 2 ^ 31) : Int32Range length :=
  ⟨by omega, by omega⟩

theorem reads_readHeader : Reads readHeader zone.headerBytes
    ⟨zone.transitions.length, zone.localtimes.length, zone.abbreviation.length⟩ := by
  rcases zone.counts_range with ⟨isgmt, isstd, leap⟩
  refine (reads_readBytes (rfl : tzif.length = 4)).bind ?_
  rw [if_pos rfl]
  refine (reads_readBytes (rfl : [zone.version].length = 1)).bind ?_
  refine (reads_readBytes zone.unused_length).bind ?_
  refine (reads_readInt32 isgmt).bind ?_
  refine (reads_readInt32 isstd).bind ?_
  refine (reads_readInt32 leap).bind ?_
  refine (reads_readInt32 (int32Range_length zone.transitions_length)).bind ?_
  refine (reads_readInt32 (int32Range_length zone.localtimes_length)).bind ?_
  refine (reads_readInt32 (int32Range_length zone.abbreviation_length)).bind ?_
  exact Reads.pure _

theorem reads_readTransitions :
    Reads (readTransitions zone.transitions.length) zone.transitionBytes zone.transitions := by
  have times : Reads (many readInt32 zone.transitions.length)
      ((zone.transitions.map (·.1)).flatMap int32Bytes) (zone.transitions.map (·.1)) := by
    rw [← @List.length_map _ _ zone.transitions (·.1)]
    apply Reads.many
    intro time member
    rcases List.mem_map.mp member with ⟨transition, inside, rfl⟩
    exact reads_readInt32 (zone.transition_range transition inside).1
  have types : Reads (many readUInt8 zone.transitions.length)
      (zone.transitions.map (·.2)) (zone.transitions.map (·.2)) := by
    rw [← @List.length_map _ _ zone.transitions (·.2)]
    have same : (zone.transitions.map (·.2)).flatMap (fun byte => [byte]) =
        zone.transitions.map (·.2) := List.flatMap_singleton' _
    have reads := @Reads.many _ _ _ readUInt8 (fun byte => [byte]) (zone.transitions.map (·.2))
      fun byte _ => reads_readUInt8 byte
    rwa [same] at reads
  have zipped : (zone.transitions.map (·.1)).zip (zone.transitions.map (·.2)) =
      zone.transitions := by
    rw [List.zip_map', List.map_id'']
    exact fun _ => rfl
  rw [readTransitions, if_neg (by omega), Int.toNat_natCast, ZoneFile.transitionBytes]
  refine times.bind ?_
  rw [← List.append_nil (zone.transitions.map (·.2))]
  refine types.bind ?_
  rw [zipped]
  exact Reads.pure _

theorem makeTransitions_eq :
    makeTransitions { Data.empty with localtimes := zone.localtimes } zone.transitions =
      .ok zone.data.transitions := by
  have inside : ∀ transition ∈ zone.transitions,
      transition.2.toNat < zone.localtimes.length :=
    fun transition member => (zone.transition_range transition member).2
  rw [ZoneFile.data]
  generalize zone.transitions = transitions at inside
  induction transitions with
  | nil => rfl
  | cons transition transitions induction =>
      have here := inside transition List.mem_cons_self
      have found : Data.localtimeAt { Data.empty with localtimes := zone.localtimes }
          transition.2.toNat = .ok (zone.localtimes.getD transition.2.toNat default) := by
        rw [Data.localtimeAt, List.getD_eq_getElem?_getD, List.getElem?_eq_getElem here]
        rfl
      have rest := induction fun later member => inside later (List.mem_cons_of_mem _ member)
      rw [makeTransitions, Fallible.bind_ok found, Fallible.bind_ok rest]
      rfl

theorem ZoneFile.data_wellFormed : zone.data.WellFormed where
  localtimes_ne := zone.localtimes_ne
  localtimeIdx_lt := by
    intro transition member
    rcases List.mem_map.mp member with ⟨entry, inside, rfl⟩
    exact (zone.transition_range entry inside).2
  localtime_eq := by
    intro transition member
    rcases List.mem_map.mp member with ⟨entry, inside, rfl⟩
    rfl
  arrbIdx_le := by
    intro found member
    rw [ZoneFile.data, text, List.length_map]
    exact (zone.localtime_range found member).2.2

theorem reads_localtimes (rest : List UInt8) :
    readMany readLocaltime zone.localtimes.length
      (zone.localtimes.flatMap ZoneFile.localtimeBytes ++ rest) = (zone.localtimes, .ok rest) := by
  apply readMany_encode
  intro found member
  rcases zone.localtime_range found member with ⟨range, small, _⟩
  exact reads_readLocaltime range small

/-- Every zone is read back from its file, whatever follows in it, and the types and texts that it
refers to exist. -/
theorem readTimeZoneFile_bytes (rest : List UInt8) :
    readTimeZoneFile (some (zone.bytes ++ rest)) = .ok (zone.data, none) ∧
      zone.data.WellFormed := by
  refine ⟨?_, zone.data_wellFormed⟩
  rw [readTimeZoneFile, ZoneFile.bytes, List.append_assoc, reads_readHeader zone]
  simp only
  rw [List.append_assoc, reads_readTransitions zone]
  simp only [Int.toNat_natCast]
  rw [List.append_assoc, reads_localtimes zone]
  simp only
  rw [Fallible.bind_ok (makeTransitions_eq zone), if_neg (by omega),
    reads_readBytes rfl rest]
  rfl

/-- From a file that ends too early, an error is printed, and the zone has no transitions or all of
them, with the first of its types and without abbreviations. -/
theorem readTimeZoneFile_cut {front more : List UInt8} (split : front ++ more = zone.bytes)
    (missing : more ≠ []) :
    ∃ data fault, readTimeZoneFile (some front) = .ok (data, some fault) ∧
      data.localtimes <+: zone.localtimes ∧ data.abbreviation = [] ∧
      (data.transitions = [] ∨
        data.transitions = zone.data.transitions ∧ data.localtimes = zone.localtimes) := by
  rw [readTimeZoneFile]
  rcases local_readHeader.cut (reads_readHeader zone) split with
    ⟨fault, fails⟩ | ⟨rest, taken, split⟩
  · simp only [fails]
    exact ⟨_, _, rfl, List.nil_prefix, rfl, .inl rfl⟩
  simp only [taken]
  rcases (local_readTransitions _).cut (reads_readTransitions zone) split with
    ⟨fault, fails⟩ | ⟨rest, taken, split⟩
  · simp only [fails]
    exact ⟨_, _, rfl, List.nil_prefix, rfl, .inl rfl⟩
  simp only [taken, Int.toNat_natCast]
  rcases local_readLocaltime.readMany_append zone.localtimes.length rest more with ⟨part, whole⟩
  rw [split, reads_localtimes zone] at part whole
  cases many : readMany readLocaltime zone.localtimes.length rest with
  | mk localtimes result =>
      rw [many] at part whole
      cases result with
      | error fault => exact ⟨_, _, rfl, part, rfl, .inl rfl⟩
      | ok rest =>
          have all := whole rest rfl
          rw [Prod.mk.injEq, Except.ok.injEq] at all
          rcases all with ⟨rfl, last⟩
          have short : ¬zone.abbreviation.length ≤ rest.length := by
            have positive := List.length_pos_iff.mpr missing
            rw [last, List.length_append]
            omega
          have fails : (readBytes zone.abbreviation.length).run rest = .error .noEnoughData :=
            if_neg short
          simp only
          rw [Fallible.bind_ok (makeTransitions_eq zone), if_neg (by omega), fails]
          exact ⟨_, _, rfl, part, rfl, .inr ⟨rfl, rfl⟩⟩

end RoundTrip

/-- The file of `sampleZone`. -/
def sampleFile : ZoneFile where
  version := 0
  unused := List.replicate 15 0
  isgmtcnt := 0
  isstdcnt := 0
  leapcnt := 0
  transitions := [(828234000, 1), (846378000, 0)]
  localtimes := sampleZone.localtimes
  abbreviation := [67, 69, 84, 0, 67, 69, 83, 84, 0]
  unused_length := rfl
  counts_range := ⟨by unfold Int32Range; omega, by unfold Int32Range; omega,
    by unfold Int32Range; omega⟩
  transitions_length := by decide
  transition_range := by unfold Int32Range; decide
  localtimes_ne := nofun
  localtimes_length := by decide
  localtime_range := by unfold Int32Range; decide
  abbreviation_length := by decide

/-- The file ends behind the first type. -/
theorem readTimeZoneFile_cut_sample :
    ∃ data fault, readTimeZoneFile (some (sampleFile.bytes.take 60)) = .ok (data, some fault) ∧
      data.localtimes <+: sampleFile.localtimes := by
  have missing : sampleFile.bytes.drop 60 ≠ [] := nofun
  rcases readTimeZoneFile_cut sampleFile (List.take_append_drop 60 _) missing with
    ⟨data, fault, read, part, _⟩
  exact ⟨data, fault, read, part⟩

/-! ## Every file -/

section Lookup

variable {data : Data}

end Lookup

end Lctools.Muduo.TimeZone
