import Lctools.Conf.LineScan

/-! # How parsing a file ends

The line handlers and the line machine, characterised by the text alone: when a
line is taken into a section, when an access leaves its buffer, and when a
switch line stops the parser.
-/

namespace Lctools.Conf

open Buffer CString

/-! ## One line -/

/-- The text before the first `=` of a pair line. -/
def keyPart (part : List Char) : List Char :=
  part.takeWhile (· ≠ '=')

/-- The text behind the first `=` of a pair line. -/
def valuePart (part : List Char) : List Char :=
  text ((part.dropWhile (· ≠ '=')).drop 1)

section AnyToken

variable (readToken : BufferName → List Char → Except Fault (Option (List Char)))

theorem iriConfLineHandleUsing_eq (part : List Char) :
    iriConfLineHandleUsing readToken part =
      if 255 < part.length ∨ '=' ∉ text part then .ok none
      else
        match readToken .pairName (keyPart part) with
        | .error fault => .error fault
        | .ok none => .ok none
        | .ok (some name) =>
            match readToken .pairValue (valuePart part) with
            | .error fault => .error fault
            | .ok none => .ok none
            | .ok (some value) => .ok (some ⟨name, value⟩) := by
  rw [iriConfLineHandleUsing]
  by_cases long : 255 < part.length
  · rw [if_pos long, if_pos (.inl long)]
  · have fits : part.length < (zeroed .pairLine 256).size := by
      show part.length < 256
      omega
    rw [if_neg long, Block.copyTerminated, if_pos fits]
    simp only [bind, Except.bind, strchr]
    by_cases paired : '=' ∈ text part
    · have cut : part.take (part.takeWhile (· ≠ '=')).length = keyPart part :=
        (List.prefix_iff_eq_take.mp (List.takeWhile_prefix _)).symm
      have behind : text (part.drop ((part.takeWhile (· ≠ '=')).length + 1)) =
          valuePart part := by
        rw [valuePart, ← List.drop_drop, List.dropWhile_eq_drop_findIdx_not,
          List.takeWhile_eq_take_findIdx_not, List.length_take,
          Nat.min_eq_left List.findIdx_le_length]
      have handled : ¬(255 < part.length ∨ '=' ∉ text part) := by
        rintro (longer | unpaired)
        · exact long longer
        · exact unpaired paired
      simp only [if_pos paired, cut, behind, if_neg handled]
      rcases readToken .pairName (keyPart part) with fault | _ | name
      · rfl
      · rfl
      · rcases readToken .pairValue (valuePart part) with fault | _ | value <;> rfl
    · have rejected : 255 < part.length ∨ '=' ∉ text part := .inr paired
      simp only [if_neg paired, if_pos rejected]

variable {line : List Char}

theorem handleLineUsing_name (short : line.length < maxLineLen)
    (present : significant line ≠ []) :
    handleLineUsing readToken line none =
      match readToken .modeName (significant line) with
      | .error fault => .error fault
      | .ok none => .ok (.done none)
      | .ok (some modeName) => .ok (.next (some ⟨modeName, []⟩)) := by
  have positive := List.length_pos_of_ne_nil present
  rw [handleLineUsing, if_neg (by omega), checkCommentLine_eq short]
  simp only [bind, Except.bind, if_pos positive, significant_prefix]
  rcases readToken .modeName (significant line) with fault | _ | modeName <;> rfl

theorem handleLineUsing_pair (short : line.length < maxLineLen)
    (present : significant line ≠ []) {current : ConfPairs}
    (room : current.pairs.length < confMaxNodeNum) :
    handleLineUsing readToken line (some current) =
      match iriConfLineHandleUsing readToken (significant line) with
      | .error fault => .error fault
      | .ok none => .ok (.done none)
      | .ok (some pair) =>
          if current.pairs.length + 1 = confMaxNodeNum then
            .ok (.done (some { current with pairs := current.pairs ++ [pair] }))
          else
            .ok (.next (some { current with pairs := current.pairs ++ [pair] })) := by
  have positive := List.length_pos_of_ne_nil present
  rw [handleLineUsing, if_neg (by omega), checkCommentLine_eq short]
  simp only [bind, Except.bind, if_pos positive, significant_prefix,
    if_neg (not_le.mpr room)]
  rcases iriConfLineHandleUsing readToken (significant line) with fault | _ | pair
  · rfl
  · rfl
  · simp only [List.length_append, List.length_singleton]
    by_cases last : current.pairs.length + 1 = confMaxNodeNum
    · rw [if_pos last, if_pos last.ge]
    · rw [if_neg last, if_neg (by omega)]

theorem handleLineUsing_skip (short : line.length < maxLineLen)
    (absent : significant line = []) (confPairs : Option ConfPairs) :
    handleLineUsing readToken line confPairs = .ok (.next confPairs) := by
  rw [handleLineUsing, if_neg (by omega), checkCommentLine_eq short]
  simp [bind, Except.bind, absent]

theorem handleLineUsing_long (long : ¬line.length < maxLineLen)
    (confPairs : Option ConfPairs) :
    handleLineUsing readToken line confPairs = .ok (.done confPairs) := by
  rw [handleLineUsing, if_pos (by rw [maxLineLen] at *; omega)]

end AnyToken

theorem keyPart_length_le (part : List Char) : (keyPart part).length ≤ part.length :=
  (List.takeWhile_sublist _).length_le

theorem valuePart_length_le (part : List Char) : (valuePart part).length ≤ part.length := by
  have shorter := text_length_le ((part.dropWhile (· ≠ '=')).drop 1)
  have dropped : ((part.dropWhile (· ≠ '=')).drop 1).length ≤ part.length :=
    ((List.drop_sublist _ _).trans (List.dropWhile_sublist _)).length_le
  rw [valuePart]
  omega

theorem iriConfLineHandle_eq (part : List Char) :
    iriConfLineHandle part =
      if 255 < part.length ∨ '=' ∉ text part then .ok none
      else if confStringMaxLen - 1 ≤ (word (keyPart part)).length then .ok none
      else if word (keyPart part) = [] then .error (.outOfBounds .pairName (-1))
      else if confStringMaxLen - 1 ≤ (word (valuePart part)).length then .ok none
      else if word (valuePart part) = [] then .error (.outOfBounds .pairValue (-1))
      else .ok (some ⟨chomp (word (keyPart part)), chomp (word (valuePart part))⟩) := by
  have cut : iriConfLineHandle part = _ := iriConfLineHandleUsing_eq getString part
  rw [cut]
  by_cases rejected : 255 < part.length ∨ '=' ∉ text part
  · rw [if_pos rejected, if_pos rejected]
  · have short : part.length ≤ 255 := by
      rw [not_or] at rejected
      omega
    have keyShort : ¬256 ≤ (keyPart part).length := by
      have shorter := keyPart_length_le part
      omega
    have valueShort : ¬256 ≤ (valuePart part).length := by
      have shorter := valuePart_length_le part
      omega
    rw [if_neg rejected, if_neg rejected]
    simp only [getString_eq, if_neg keyShort, if_neg valueShort]
    split_ifs <;> rfl

theorem handleLine_name {line : List Char} (short : line.length < maxLineLen)
    (present : significant line ≠ []) :
    handleLine line none =
      if 256 ≤ (significant line).length then .error (.outOfBounds .stringLine 256)
      else if confStringMaxLen - 1 ≤ (word (significant line)).length then .ok (.done none)
      else if word (significant line) = [] then .error (.outOfBounds .modeName (-1))
      else .ok (.next (some ⟨chomp (word (significant line)), []⟩)) := by
  rw [handleLine, handleLineUsing_name getString short present, getString_eq]
  split_ifs <;> rfl

theorem handleLine_pair {line : List Char} (short : line.length < maxLineLen)
    (present : significant line ≠ []) {current : ConfPairs}
    (room : current.pairs.length < confMaxNodeNum) :
    handleLine line (some current) =
      match iriConfLineHandle (significant line) with
      | .error fault => .error fault
      | .ok none => .ok (.done none)
      | .ok (some pair) =>
          if current.pairs.length + 1 = confMaxNodeNum then
            .ok (.done (some { current with pairs := current.pairs ++ [pair] }))
          else
            .ok (.next (some { current with pairs := current.pairs ++ [pair] })) :=
  handleLineUsing_pair getString short present room

theorem handleLine_skip {line : List Char} (short : line.length < maxLineLen)
    (absent : significant line = []) (confPairs : Option ConfPairs) :
    handleLine line confPairs = .ok (.next confPairs) :=
  handleLineUsing_skip getString short absent confPairs

theorem handleLine_long {line : List Char} (long : ¬line.length < maxLineLen)
    (confPairs : Option ConfPairs) :
    handleLine line confPairs = .ok (.done confPairs) :=
  handleLineUsing_long getString long confPairs

/-! ## Bounds -/

/-- The name line of a section fits `line[256]` of `get_string` and has a word. -/
def nameFits (part : List Char) : Bool :=
  part.length ≤ 255 && word part ≠ []

def nameTaken (part : List Char) : Bool :=
  (word part).length < confStringMaxLen - 1

/-- A pair line gives `get_string` no empty token. -/
def pairFits (part : List Char) : Bool :=
  255 < part.length || '=' ∉ text part ||
    (word (keyPart part) ≠ [] &&
      (confStringMaxLen - 1 ≤ (word (keyPart part)).length || word (valuePart part) ≠ []))

def pairTaken (part : List Char) : Bool :=
  part.length ≤ 255 && '=' ∈ text part &&
    (word (keyPart part)).length < confStringMaxLen - 1 &&
    (word (valuePart part)).length < confStringMaxLen - 1

/-- The lines of a section can be handled without leaving a buffer. `read` is the
number of pairs so far, `none` before the name line. Lines behind the one that
completes or rejects the section are never looked at. -/
def blockFits : List (List Char) → (read : Option ℕ) → Bool
  | [], _ => true
  | line :: lines, read =>
      if maxLineLen ≤ line.length then true
      else if significant line = [] then blockFits lines read
      else
        match read with
        | none =>
            nameFits (significant line) &&
              (!nameTaken (significant line) || blockFits lines (some 0))
        | some count =>
            pairFits (significant line) &&
              (!pairTaken (significant line) || count + 1 = confMaxNodeNum ||
                blockFits lines (some (count + 1)))

def InBounds {α : Type} (result : Except Fault α) : Prop :=
  ∀ fault, result ≠ .error fault

theorem inBounds_ok {α : Type} (value : α) : InBounds (.ok value) := by
  intro fault
  simp

theorem not_inBounds_error {α : Type} (fault : Fault) :
    ¬InBounds (.error fault : Except Fault α) :=
  fun bounded => bounded fault rfl

section PairLine

variable {part : List Char}

theorem iriConfLineHandle_misfit (misfit : pairFits part = false) :
    ∃ fault, iriConfLineHandle part = .error fault := by
  simp only [pairFits, Bool.or_eq_false_iff, Bool.and_eq_false_iff, decide_eq_false_iff_not,
    not_not] at misfit
  rcases misfit with ⟨⟨short, paired⟩, empty⟩
  rw [iriConfLineHandle_eq, if_neg (by simp [short, paired])]
  rcases empty with emptyKey | ⟨keyTaken, emptyValue⟩
  · rw [if_neg (by rw [emptyKey]; decide), if_pos emptyKey]
    exact ⟨_, rfl⟩
  · rw [if_neg keyTaken]
    by_cases emptyKey : word (keyPart part) = []
    · rw [if_pos emptyKey]
      exact ⟨_, rfl⟩
    · rw [if_neg emptyKey, if_neg (by rw [emptyValue]; decide), if_pos emptyValue]
      exact ⟨_, rfl⟩

theorem iriConfLineHandle_taken (fits : pairFits part = true) (taken : pairTaken part = true) :
    iriConfLineHandle part =
      .ok (some ⟨chomp (word (keyPart part)), chomp (word (valuePart part))⟩) := by
  simp only [pairTaken, Bool.and_eq_true, decide_eq_true_eq] at taken
  rcases taken with ⟨⟨⟨short, paired⟩, keyShort⟩, valueShort⟩
  simp only [pairFits, Bool.or_eq_true, Bool.and_eq_true, decide_eq_true_eq,
    not_lt.mpr short, not_not.mpr paired, not_le.mpr keyShort, false_or] at fits
  rw [iriConfLineHandle_eq, if_neg (by simp [short, paired]), if_neg (not_le.mpr keyShort),
    if_neg fits.1, if_neg (not_le.mpr valueShort), if_neg fits.2]

theorem iriConfLineHandle_rejected (fits : pairFits part = true)
    (rejected : pairTaken part = false) :
    iriConfLineHandle part = .ok none := by
  simp only [pairFits, Bool.or_eq_true, Bool.and_eq_true, decide_eq_true_eq] at fits
  rw [iriConfLineHandle_eq]
  by_cases handled : 255 < part.length ∨ '=' ∉ text part
  · rw [if_pos handled]
  · rw [if_neg handled]
    by_cases keyLong : confStringMaxLen - 1 ≤ (word (keyPart part)).length
    · rw [if_pos keyLong]
    · have words := (fits.resolve_left handled)
      have valueLong : confStringMaxLen - 1 ≤ (word (valuePart part)).length := by
        simp only [not_or, not_not] at handled
        simpa [pairTaken, not_lt.mp handled.1, handled.2, not_le.mp keyLong] using rejected
      rw [if_neg keyLong, if_neg words.1, if_pos valueLong]

end PairLine

section NameLine

variable {line : List Char} (short : line.length < maxLineLen)
  (present : significant line ≠ [])

include short present

theorem handleLine_name_misfit (misfit : nameFits (significant line) = false) :
    ∃ fault, handleLine line none = .error fault := by
  simp only [nameFits, Bool.and_eq_false_iff, decide_eq_false_iff_not, not_not,
    not_le] at misfit
  rw [handleLine_name short present]
  by_cases long : 256 ≤ (significant line).length
  · rw [if_pos long]
    exact ⟨_, rfl⟩
  · have empty := misfit.resolve_left (by omega)
    rw [if_neg long, if_neg (by rw [empty]; decide), if_pos empty]
    exact ⟨_, rfl⟩

theorem handleLine_name_taken (fits : nameFits (significant line) = true)
    (taken : nameTaken (significant line) = true) :
    handleLine line none = .ok (.next (some ⟨chomp (word (significant line)), []⟩)) := by
  simp only [nameFits, Bool.and_eq_true, decide_eq_true_eq] at fits
  have shortWord := of_decide_eq_true taken
  rw [handleLine_name short present, if_neg (by omega), if_neg (not_le.mpr shortWord),
    if_neg fits.2]

theorem handleLine_name_rejected (fits : nameFits (significant line) = true)
    (rejected : nameTaken (significant line) = false) :
    handleLine line none = .ok (.done none) := by
  simp only [nameFits, Bool.and_eq_true, decide_eq_true_eq] at fits
  have longWord := not_lt.mp (of_decide_eq_false rejected)
  rw [handleLine_name short present, if_neg (by omega), if_pos longWord]

end NameLine

theorem handleLines_inBounds : ∀ (lines : List (List Char)) (confPairs : Option ConfPairs),
    (∀ current, confPairs = some current → current.pairs.length < confMaxNodeNum) →
    (InBounds (handleLines lines confPairs) ↔
      blockFits lines (confPairs.map fun current => current.pairs.length) = true)
  | [], confPairs, _ => by
      simp [handleLines_nil, blockFits, inBounds_ok]
  | line :: lines, confPairs, room => by
      rw [handleLines_cons, blockFits.eq_def]
      by_cases long : maxLineLen ≤ line.length
      · simp [handleLine_long (not_lt.mpr long), long, bind, Except.bind, inBounds_ok]
      have short := not_le.mp long
      by_cases absent : significant line = []
      · have rest := handleLines_inBounds lines confPairs room
        simpa [handleLine_skip short absent, long, absent, bind, Except.bind] using rest
      cases confPairs with
      | none =>
          simp only [if_neg long, if_neg absent, Option.map_none]
          rcases fits : nameFits (significant line) with _ | _
          · rcases handleLine_name_misfit short absent fits with ⟨fault, failed⟩
            simp [failed, bind, Except.bind, not_inBounds_error]
          rcases taken : nameTaken (significant line) with _ | _
          · simp [handleLine_name_rejected short absent fits taken, bind, Except.bind,
              inBounds_ok]
          · have rest := handleLines_inBounds lines
              (some ⟨chomp (word (significant line)), []⟩)
              (by rintro _ ⟨rfl⟩; exact (by decide : 0 < confMaxNodeNum))
            simpa [handleLine_name_taken short absent fits taken, bind, Except.bind] using rest
      | some current =>
          have below := room current rfl
          simp only [handleLine_pair short absent below, if_neg long, if_neg absent,
            Option.map_some]
          rcases fits : pairFits (significant line) with _ | _
          · rcases iriConfLineHandle_misfit fits with ⟨fault, failed⟩
            simp [failed, bind, Except.bind, not_inBounds_error]
          rcases taken : pairTaken (significant line) with _ | _
          · simp [iriConfLineHandle_rejected fits taken, bind, Except.bind, inBounds_ok]
          rw [iriConfLineHandle_taken fits taken]
          by_cases last : current.pairs.length + 1 = confMaxNodeNum
          · simp [last, bind, Except.bind, inBounds_ok]
          · have rest := fun pair => handleLines_inBounds lines
              (some { current with pairs := current.pairs ++ [pair] })
              (by rintro _ ⟨rfl⟩; simp; omega)
            simpa [last, bind, Except.bind] using rest _

theorem chomp_length_le (token : List Char) : (chomp token).length ≤ token.length := by
  rw [chomp]
  split_ifs
  · simp
  · exact le_refl _

/-- What the parser guarantees about the table it fills: no name occurs twice,
each entry is found under the name of its section, and names are short. -/
structure TableValid (table : SectionTable) : Prop where
  distinct : (table.map fun entry => entry.1.text).Nodup
  named : ∀ entry ∈ table, entry.1.text = entry.2.confPairs.modeName
  short : ∀ entry ∈ table, entry.2.confPairs.modeName.length < confStringMaxLen - 1

theorem TableValid.insertNewNode {table : SectionTable} (valid : TableValid table)
    (address : ℕ) {confPairs : ConfPairs}
    (short : confPairs.modeName.length < confStringMaxLen - 1) :
    TableValid (insertNewNode table address confPairs) where
  distinct := HashTable.nodup_insert Key.text valid.distinct _ _
  named := by
    intro entry member
    cases HashTable.mem_insert Key.text member with
    | inl old => exact valid.named entry old
    | inr new =>
        rw [new.1, new.2]
  short := by
    intro entry member
    cases HashTable.mem_insert Key.text member with
    | inl old => exact valid.short entry old
    | inr new =>
        rw [new.2]
        exact short

theorem TableValid.perm {table other : SectionTable} (valid : TableValid table)
    (shuffled : other.Perm table) : TableValid other where
  distinct := (shuffled.map _).nodup_iff.mpr valid.distinct
  named := fun entry member => valid.named entry (shuffled.mem_iff.mp member)
  short := fun entry member => valid.short entry (shuffled.mem_iff.mp member)

section File

variable {μ : Type} (dialect : Dialect μ)

/-- The text behind the `@` of a switch line turns the switch off. -/
def saysOff (switch : List Char) : Bool :=
  match switchChar dialect (switch.take 125) with
  | none => false
  | some c => dialect.level c = 0

theorem switchLine_off {switch : List Char} (off : saysOff dialect switch = true)
    (manager : μ) : switchLine dialect switch manager = (true, dialect.closeAll manager) := by
  rw [saysOff] at off
  rw [switchLine]
  rcases found : switchChar dialect (switch.take 125) with _ | c
  · simp [found] at off
  · rw [found] at off
    simp [of_decide_eq_true off]

theorem switchLine_on {switch : List Char} (on : saysOff dialect switch = false)
    (manager : μ) : (switchLine dialect switch manager).1 = false ∧
      ((switchLine dialect switch manager).2 = manager ∨
        ∃ level, level ≠ 0 ∧
          (switchLine dialect switch manager).2 = dialect.setSwitch level manager) := by
  rw [saysOff] at on
  rw [switchLine]
  rcases found : switchChar dialect (switch.take 125) with _ | c
  · exact ⟨rfl, .inl rfl⟩
  · rw [found] at on
    have nonzero := of_decide_eq_false on
    simp only [if_neg nonzero]
    exact ⟨trivial, .inr ⟨_, nonzero, rfl⟩⟩

section Fits

variable (sectionFits : List (List Char) → Bool)

/-- The open last line can be scanned without looking behind the buffer. The sections
for which `sectionFits` are those that can be handled. -/
def tailFits (full : Bool) (tail : List Char) (block : Option (List (List Char))) : Bool :=
  match tail.dropWhile isBlank with
  | [] => !full || tail = []
  | first :: rest =>
      if first = '#' then !full
      else if first = '-' then
        match block with
        | none => true
        | some lines =>
            if "-end".toList <+: first :: rest then sectionFits lines
            else !(full && first :: rest <+: "-end".toList)
      else true

/-- Every section that the scan completes can be handled without leaving a
buffer, and so can the open last line if the scan comes to it. -/
def scanFits (full : Bool) (tail : List Char) : (lines : List (List Char)) →
    (block : Option (List (List Char))) → Bool
  | [], block => tailFits sectionFits full tail block
  | line :: lines, block =>
      match line.dropWhile isBlank with
      | [] => scanFits full tail lines (block.map (· ++ [line]))
      | first :: rest =>
          if first = '@' then
            saysOff dialect rest || scanFits full tail lines (block.map (· ++ [line]))
          else if first = '-' then
            match block with
            | none => scanFits full tail lines (some [rest])
            | some content =>
                if "-end".toList <+: first :: rest then
                  sectionFits content && scanFits full tail lines none
                else true
          else scanFits full tail lines (block.map (· ++ [line]))

end Fits

variable {dialect}

section InBounds

variable {size : ℕ} {handleSection : List (List Char) → Except Fault (Option ConfPairs)}
  {sectionFits : List (List Char) → Bool}
  (handles : ∀ lines, InBounds (handleSection lines) ↔ sectionFits lines = true)

include handles

theorem scanTailUsing_inBounds (full : Bool) (tail : List Char)
    (block : Option (List (List Char))) (manager : μ) :
    InBounds (scanTailUsing dialect size handleSection full tail block manager) ↔
      tailFits sectionFits full tail block = true := by
  rw [scanTailUsing, tailFits]
  rcases tail.dropWhile isBlank with _ | ⟨first, rest⟩
  · cases full with
    | false => simp [inBounds_ok]
    | true =>
        by_cases empty : tail = []
        · simp [empty, inBounds_ok]
        · simp [empty, not_inBounds_error]
  · simp only
    by_cases comment : first = '#'
    · cases full with
      | false => simp [comment, inBounds_ok]
      | true => simp [comment, not_inBounds_error]
    rw [if_neg comment, if_neg comment]
    by_cases switch : first = '@'
    · have notDash : first ≠ '-' := by
        rw [switch]
        decide
      rw [if_pos switch, if_neg notDash]
      rcases switchLine dialect rest manager with ⟨_ | _, manager⟩
      · simp [inBounds_ok]
      · simp [inBounds_ok]
    rw [if_neg switch]
    by_cases dash : first = '-'
    · rw [if_pos dash, if_pos dash]
      rcases block with _ | lines
      · simp [inBounds_ok]
      · simp only
        by_cases ended : "-end".toList <+: first :: rest
        · rw [if_pos ended, if_pos ended, ← handles]
          rcases handleSection lines with fault | newPairs
          · simp [bind, Except.bind, not_inBounds_error]
          · simp [bind, Except.bind, inBounds_ok]
        · rw [if_neg ended, if_neg ended]
          by_cases overrun : full = true ∧ first :: rest <+: "-end".toList
          · rw [if_pos overrun, overrun.1, decide_eq_true overrun.2]
            simp [not_inBounds_error]
          · rw [if_neg overrun]
            simp only [inBounds_ok, true_iff, Bool.not_eq_true', Bool.and_eq_false_iff,
              decide_eq_false_iff_not]
            by_cases filled : full = true
            · exact .inr fun begins => overrun ⟨filled, begins⟩
            · exact .inl (Bool.eq_false_iff.mpr filled)
    · rw [if_neg dash, if_neg dash]
      simp [inBounds_ok]

theorem scanLinesUsing_inBounds (full : Bool) (tail : List Char) :
    ∀ (lines : List (List Char)) (block : Option (List (List Char))) (manager : μ),
      InBounds (scanLinesUsing dialect size handleSection full tail lines block manager) ↔
        scanFits dialect sectionFits full tail lines block = true
  | [], block, manager => by
      rw [scanLinesUsing, scanFits]
      exact scanTailUsing_inBounds handles full tail block manager
  | line :: lines, block, manager => by
      have continues := scanLinesUsing_inBounds full tail lines
      rw [scanLinesUsing, scanFits]
      rcases line.dropWhile isBlank with _ | ⟨first, rest⟩
      · exact continues _ _
      · simp only
        by_cases switch : first = '@'
        · rw [if_pos switch, if_pos switch]
          rcases off : saysOff dialect rest with _ | _
          · have on := (switchLine_on dialect off manager).1
            rcases read : switchLine dialect rest manager with ⟨_ | _, manager⟩
            · simpa using continues _ _
            · simp [read] at on
          · rw [switchLine_off dialect off]
            simp [inBounds_ok]
        rw [if_neg switch, if_neg switch]
        by_cases dash : first = '-'
        · rw [if_pos dash, if_pos dash]
          rcases block with _ | content
          · exact continues _ _
          · simp only
            by_cases ended : "-end".toList <+: first :: rest
            · rw [if_pos ended, if_pos ended, Bool.and_eq_true, ← handles]
              rcases handleSection content with fault | newPairs
              · simp [bind, Except.bind, not_inBounds_error]
              · simpa [bind, Except.bind, inBounds_ok] using continues _ _
            · rw [if_neg ended, if_neg ended]
              simp [inBounds_ok]
        · rw [if_neg dash, if_neg dash]
          exact continues _ _

end InBounds

/-! ## The open last line -/

section OpenLine

variable (dialect)

/-- In a file that does not fill the buffer it makes no difference whether the
last line is ended by a newline. -/
theorem scanLinesUsing_open_line (size : ℕ)
    (handleSection : List (List Char) → Except Fault (Option ConfPairs)) (last : List Char) :
    ∀ (lines : List (List Char))
    (block : Option (List (List Char))) (manager : μ),
    scanLinesUsing dialect size handleSection false last lines block manager =
      scanLinesUsing dialect size handleSection false [] (lines ++ [last]) block manager
  | [], block, manager => by
      rw [List.nil_append, scanLinesUsing, scanLinesUsing, scanTailUsing]
      rcases last.dropWhile isBlank with _ | ⟨first, rest⟩
      · simp [scanLinesUsing, scanTailUsing]
      simp only
      by_cases switch : first = '@'
      · have notComment : first ≠ '#' := by
          rw [switch]
          decide
        rw [if_neg notComment, if_pos switch, if_pos switch]
        rcases switchLine dialect rest manager with ⟨_ | _, next⟩
        · simp [scanLinesUsing, scanTailUsing]
        · rfl
      by_cases dash : first = '-'
      · have notComment : first ≠ '#' := by
          rw [dash]
          decide
        rw [if_neg notComment, if_neg switch, if_neg switch, if_pos dash, if_pos dash]
        rcases block with _ | content
        · simp [scanLinesUsing, scanTailUsing]
        · by_cases ended : "-end".toList <+: first :: rest
          · simp only [if_pos ended]
            rcases handleSection content with fault | newPairs
            · rfl
            · simp [scanLinesUsing, scanTailUsing, bind, Except.bind]
          · simp only [if_neg ended]
            rw [if_neg (by simp)]
      · rw [if_neg switch, if_neg switch, if_neg dash, if_neg dash]
        by_cases comment : first = '#'
        · simp [comment, scanLinesUsing, scanTailUsing]
        · simp [comment, scanLinesUsing, scanTailUsing]
  | line :: lines, block, manager => by
      have continues := scanLinesUsing_open_line size handleSection last lines
      rw [List.cons_append, scanLinesUsing, scanLinesUsing]
      rcases line.dropWhile isBlank with _ | ⟨first, rest⟩
      · exact continues _ _
      simp only [continues]

theorem scanLines_open_line (last : List Char) (lines : List (List Char))
    (block : Option (List (List Char))) (manager : μ) :
    scanLines dialect false last lines block manager =
      scanLines dialect false [] (lines ++ [last]) block manager :=
  scanLinesUsing_open_line dialect _ _ last lines block manager

variable {dialect} {size : ℕ}
  {handleSection : List (List Char) → Except Fault (Option ConfPairs)} {full : Bool}
  {tail : List Char} {exit : Exit} {after : μ}

theorem scanTailUsing_ok {block : Option (List (List Char))} {manager : μ}
    (ended : scanTailUsing dialect size handleSection full tail block manager = .ok (exit, after)) :
    scanTailUsing dialect size handleSection false tail block manager = .ok (exit, after) := by
  cases full with
  | false => exact ended
  | true =>
      rw [scanTailUsing] at ended ⊢
      generalize tail.dropWhile isBlank = body at ended ⊢
      rcases body with _ | ⟨first, rest⟩
      · simp only [Bool.true_and] at ended
        split_ifs at ended
        simpa using ended
      simp only at ended ⊢
      by_cases comment : first = '#'
      · rw [if_pos comment] at ended
        cases ended
      by_cases switch : first = '@'
      · rwa [if_neg comment, if_pos switch] at ended ⊢
      by_cases dash : first = '-'
      · rw [if_neg comment, if_neg switch, if_pos dash] at ended ⊢
        rcases block with _ | content
        · exact ended
        · simp only at ended ⊢
          by_cases closed : "-end".toList <+: first :: rest
          · rwa [if_pos closed] at ended ⊢
          · rw [if_neg closed] at ended ⊢
            by_cases overrun : first :: rest <+: "-end".toList
            · rw [if_pos ⟨trivial, overrun⟩] at ended
              cases ended
            · rw [if_neg (fun both => overrun both.2)] at ended
              rwa [if_neg (fun both => overrun both.2)]
      · rwa [if_neg comment, if_neg switch, if_neg dash] at ended ⊢

theorem scanLinesUsing_ok (lines : List (List Char)) (block : Option (List (List Char))) :
    ∀ manager : μ,
      scanLinesUsing dialect size handleSection full tail lines block manager =
        .ok (exit, after) →
      scanLinesUsing dialect size handleSection false tail lines block manager =
        .ok (exit, after) := by
  induction lines, block using scan_induction with
  | nil block =>
      intro manager ended
      rw [scanLinesUsing] at ended ⊢
      exact scanTailUsing_ok ended
  | unmarked line lines block unmarked induction =>
      intro manager ended
      rw [scanLinesUsing_unmarked dialect unmarked] at ended ⊢
      exact induction manager ended
  | switch line rest lines block starts induction =>
      intro manager ended
      rw [scanLinesUsing_switch dialect starts] at ended ⊢
      generalize switchLine dialect rest manager = read at ended ⊢
      rcases read with ⟨_ | _, next⟩
      · exact induction next ended
      · exact ended
  | opening line rest lines starts induction =>
      intro manager ended
      rw [scanLinesUsing_opening dialect starts] at ended ⊢
      exact induction manager ended
  | closing line rest lines content starts isEnd induction =>
      intro manager ended
      rw [scanLinesUsing_closing dialect starts isEnd] at ended ⊢
      rcases Fallible.of_bind_ok ended with ⟨newPairs, handled, continued⟩
      rw [Fallible.bind_ok handled]
      exact induction _ continued
  | stray line rest lines content starts stray =>
      intro manager ended
      rw [scanLinesUsing_stray dialect starts stray] at ended ⊢
      exact ended

theorem scanLinesUsing_closed_line {lines : List (List Char)} {block : Option (List (List Char))}
    {manager : μ}
    (ended : scanLinesUsing dialect size handleSection full tail lines block manager =
      .ok (exit, after)) :
    scanLinesUsing dialect size handleSection false [] (lines ++ [tail]) block manager =
      .ok (exit, after) := by
  rw [← scanLinesUsing_open_line]
  exact scanLinesUsing_ok lines block manager ended

end OpenLine

/-! ## The way out -/

variable (dialect)

/-- The scan of the lines comes to a switch line that says off. A line that
starts with `-` but does not end the open section stops the scan before. -/
def turnsOff : (lines : List (List Char)) → (inside : Bool) → Bool
  | [], _ => false
  | line :: lines, inside =>
      match line.dropWhile isBlank with
      | [] => turnsOff lines inside
      | first :: rest =>
          if first = '@' then saysOff dialect rest || turnsOff lines inside
          else if first = '-' then
            if inside then
              if "-end".toList <+: first :: rest then turnsOff lines false else false
            else turnsOff lines true
          else turnsOff lines inside

variable {dialect} {full : Bool} {tail : List Char} {exit : Exit} {after : μ}

section TurnsOff

variable {line rest : List Char} {lines : List (List Char)} {inside : Bool}

theorem turnsOff_unmarked (unmarked : Unmarked line) :
    turnsOff dialect (line :: lines) inside = turnsOff dialect lines inside := by
  rw [turnsOff]
  rcases unmarked.cases with starts | ⟨first, rest, starts, notSwitch, notDash⟩
  · rw [starts]
  · rw [starts]
    simp only
    rw [if_neg notSwitch, if_neg notDash]

theorem turnsOff_switch (starts : line.dropWhile isBlank = '@' :: rest) :
    turnsOff dialect (line :: lines) inside =
      (saysOff dialect rest || turnsOff dialect lines inside) := by
  rw [turnsOff, starts]
  rfl

theorem turnsOff_opening (starts : line.dropWhile isBlank = '-' :: rest) :
    turnsOff dialect (line :: lines) false = turnsOff dialect lines true := by
  rw [turnsOff, starts]
  rfl

theorem turnsOff_dash (starts : line.dropWhile isBlank = '-' :: rest) :
    turnsOff dialect (line :: lines) true =
      if "-end".toList <+: '-' :: rest then turnsOff dialect lines false else false := by
  rw [turnsOff, starts]
  rfl

end TurnsOff

section Using

variable {size : ℕ} {handleSection : List (List Char) → Except Fault (Option ConfPairs)}

theorem scanLinesUsing_turnsOff (lines : List (List Char)) (block : Option (List (List Char))) :
    ∀ manager : μ,
      scanLinesUsing dialect size handleSection false [] lines block manager =
        .ok (exit, after) →
      (exit = .closeAll ↔ turnsOff dialect lines block.isSome = true) := by
  induction lines, block using scan_induction with
  | nil block =>
      intro manager ended
      cases ended
      simp [turnsOff]
  | unmarked line lines block unmarked induction =>
      intro manager ended
      rw [scanLinesUsing_unmarked dialect unmarked] at ended
      rw [turnsOff_unmarked unmarked]
      simpa using induction manager ended
  | switch line rest lines block starts induction =>
      intro manager ended
      rw [scanLinesUsing_switch dialect starts] at ended
      rw [turnsOff_switch starts]
      rcases off : saysOff dialect rest with _ | _
      · have on := (switchLine_on dialect off manager).1
        rcases read : switchLine dialect rest manager with ⟨_ | _, next⟩
        · rw [read] at ended
          simpa using induction next ended
        · simp [read] at on
      · rw [switchLine_off dialect off] at ended
        cases ended
        simp
  | opening line rest lines starts induction =>
      intro manager ended
      rw [scanLinesUsing_opening dialect starts] at ended
      rw [Option.isSome_none, turnsOff_opening starts]
      exact induction manager ended
  | closing line rest lines content starts isEnd induction =>
      intro manager ended
      rw [scanLinesUsing_closing dialect starts isEnd] at ended
      rcases Fallible.of_bind_ok ended with ⟨newPairs, -, continued⟩
      rw [Option.isSome_some, turnsOff_dash starts, if_pos isEnd]
      exact induction _ continued
  | stray line rest lines content starts stray =>
      intro manager ended
      rw [scanLinesUsing_stray dialect starts stray] at ended
      cases ended
      rw [Option.isSome_some, turnsOff_dash starts, if_neg stray]
      simp

end Using

section Preserves

variable {handleSection : List (List Char) → Except Fault (Option ConfPairs)} {size : ℕ}
  {holds closed : μ → Prop}
  (inserts : ∀ manager lines confPairs, handleSection lines = .ok (some confPairs) →
    holds manager → holds (dialect.insertPairs manager confPairs))
  (sets : ∀ level manager, level ≠ 0 → holds manager → holds (dialect.setSwitch level manager))
  (closes : ∀ manager, holds manager → closed (dialect.closeAll manager))

include inserts in
private theorem insertParsed_preserves {manager : μ} {lines : List (List Char)}
    {newPairs : Option ConfPairs} (handled : handleSection lines = .ok newPairs)
    (holding : holds manager) : holds (insertParsed dialect manager newPairs) := by
  cases newPairs with
  | none => exact holding
  | some confPairs => exact inserts manager lines confPairs handled holding

include sets in
private theorem switchLine_preserves {switch : List Char} {manager : μ}
    (on : saysOff dialect switch = false) (holding : holds manager) :
    ∃ next, switchLine dialect switch manager = (false, next) ∧ holds next := by
  rcases switchLine_on dialect on manager with ⟨stays, same | ⟨level, nonzero, set⟩⟩
  · exact ⟨manager, Prod.ext stays same, holding⟩
  · exact ⟨_, Prod.ext stays set, sets level manager nonzero holding⟩

include inserts sets closes

theorem scanLinesUsing_preserves (lines : List (List Char)) (block : Option (List (List Char))) :
    ∀ manager : μ, holds manager →
      scanLinesUsing dialect size handleSection false [] lines block manager =
        .ok (exit, after) →
      if exit = .closeAll then closed after else holds after := by
  induction lines, block using scan_induction with
  | nil block =>
      intro manager holding ended
      cases ended
      simpa using holding
  | unmarked line lines block unmarked induction =>
      intro manager holding ended
      rw [scanLinesUsing_unmarked dialect unmarked] at ended
      exact induction manager holding ended
  | switch line rest lines block starts induction =>
      intro manager holding ended
      rw [scanLinesUsing_switch dialect starts] at ended
      rcases off : saysOff dialect rest with _ | _
      · rcases switchLine_preserves sets off holding with ⟨next, read, kept⟩
        rw [read] at ended
        exact induction next kept ended
      · rw [switchLine_off dialect off] at ended
        cases ended
        simpa using closes manager holding
  | opening line rest lines starts induction =>
      intro manager holding ended
      rw [scanLinesUsing_opening dialect starts] at ended
      exact induction manager holding ended
  | closing line rest lines content starts isEnd induction =>
      intro manager holding ended
      rw [scanLinesUsing_closing dialect starts isEnd] at ended
      rcases Fallible.of_bind_ok ended with ⟨newPairs, handled, continued⟩
      exact induction _ (insertParsed_preserves inserts handled holding) continued
  | stray line rest lines content starts stray =>
      intro manager holding ended
      rw [scanLinesUsing_stray dialect starts stray] at ended
      cases ended
      simpa using holding

end Preserves

/-! ## Whole files -/

/-- The lines of the part of a file that is read, the open last line included. -/
def fileLines (file : List Char) : List (List Char) :=
  (Lines.split '\n' (file.take maxConfFileSize)).1 ++
    [(Lines.split '\n' (file.take maxConfFileSize)).2]

theorem fileLines_of_small {file : List Char} (small : file.length < maxConfFileSize) :
    fileLines file = Lines.pieces '\n' file := by
  rw [fileLines, List.take_of_length_le small.le, Lines.pieces]

variable (dialect)

theorem parseFileUsing_small
    (readToken : BufferName → List Char → Except Fault (Option (List Char)))
    {file : List Char} (small : file.length < maxConfFileSize) (manager : μ) :
    parseFileUsing dialect readToken file manager =
      scanLinesUsing dialect maxConfFileSize (fun lines => handleLinesUsing readToken lines none)
        false [] (fileLines file) none manager := by
  rw [parseFileUsing_eq, decide_eq_false (not_le.mpr small), scanLinesUsing_open_line]
  rfl

theorem parseFile_small {file : List Char} (small : file.length < maxConfFileSize)
    (manager : μ) :
    parseFile dialect file manager =
      scanLines dialect false [] (fileLines file) none manager := by
  rw [parseFile_eq, decide_eq_false (not_le.mpr small), scanLines_open_line]
  rfl

theorem parseFile_lines {file : List Char} {lines : List (List Char)}
    (clean : ∀ line ∈ lines, '\n' ∉ line) (small : file.length < maxConfFileSize)
    (joined : file = Lines.join '\n' lines ∨ file ++ ['\n'] = Lines.join '\n' lines)
    (manager : μ) :
    parseFile dialect file manager = scanLines dialect false [] lines none manager := by
  rw [parseFile_small dialect small, fileLines_of_small small]
  rcases Lines.pieces_of_lines clean joined with closed | opened
  · rw [closed, ← scanLines_open_line]
  · rw [opened]

/-- No access leaves its buffer while the file is parsed, if those sections can be
handled for which `sectionFits`. -/
def fileFitsUsing (sectionFits : List (List Char) → Bool) (file : List Char) : Bool :=
  scanFits dialect sectionFits (maxConfFileSize ≤ file.length)
    (Lines.split '\n' (file.take maxConfFileSize)).2
    (Lines.split '\n' (file.take maxConfFileSize)).1 none

/-- No access leaves its buffer while the file is parsed. -/
def fileFits (file : List Char) : Bool :=
  fileFitsUsing dialect (fun lines => blockFits lines none) file

def fileTurnsOff (file : List Char) : Bool :=
  turnsOff dialect (fileLines file) false

/-- The condition on a file under which it can be read: see `scanFits`. -/
def ConfFile.fits : ConfFile → Bool
  | .readable content => fileFits dialect content
  | _ => true

/-- A switch line of the file turns the configuration off. -/
def ConfFile.turnsOff : ConfFile → Bool
  | .readable content => fileTurnsOff dialect content
  | _ => false

theorem parseFileUsing_inBounds
    {readToken : BufferName → List Char → Except Fault (Option (List Char))}
    {sectionFits : List (List Char) → Bool}
    (handles : ∀ lines, InBounds (handleLinesUsing readToken lines none) ↔
      sectionFits lines = true) (file : List Char) (manager : μ) :
    InBounds (parseFileUsing dialect readToken file manager) ↔
      fileFitsUsing dialect sectionFits file = true := by
  rw [parseFileUsing_eq]
  exact scanLinesUsing_inBounds handles _ _ _ none manager

theorem parseFile_inBounds (file : List Char) (manager : μ) :
    InBounds (parseFile dialect file manager) ↔ fileFits dialect file = true :=
  parseFileUsing_inBounds dialect (fun lines => handleLines_inBounds lines none (by simp)) file
    manager

variable {dialect} {file : List Char} {manager : μ}

theorem parseFileUsing_ok
    {readToken : BufferName → List Char → Except Fault (Option (List Char))}
    (ended : parseFileUsing dialect readToken file manager = .ok (exit, after)) :
    scanLinesUsing dialect maxConfFileSize (fun lines => handleLinesUsing readToken lines none)
      false [] (fileLines file) none manager = .ok (exit, after) := by
  rw [parseFileUsing_eq] at ended
  exact scanLinesUsing_closed_line ended

theorem parseFileUsing_closeAll_iff
    {readToken : BufferName → List Char → Except Fault (Option (List Char))}
    (ended : parseFileUsing dialect readToken file manager = .ok (exit, after)) :
    exit = .closeAll ↔ fileTurnsOff dialect file = true :=
  scanLinesUsing_turnsOff _ _ _ (parseFileUsing_ok ended)

theorem parseFile_closeAll_iff (ended : parseFile dialect file manager = .ok (exit, after)) :
    exit = .closeAll ↔ fileTurnsOff dialect file = true :=
  parseFileUsing_closeAll_iff ended

/-- What the operations on the manager keep holds when the file was read, and what
`closeAll` establishes holds when a switch line stopped the parser. -/
theorem parseFileUsing_preserves
    {readToken : BufferName → List Char → Except Fault (Option (List Char))}
    (holds closed : μ → Prop)
    (inserts : ∀ manager lines confPairs,
      handleLinesUsing readToken lines none = .ok (some confPairs) →
      holds manager → holds (dialect.insertPairs manager confPairs))
    (sets : ∀ level manager, level ≠ 0 → holds manager →
      holds (dialect.setSwitch level manager))
    (closes : ∀ manager, holds manager → closed (dialect.closeAll manager))
    (holding : holds manager)
    (ended : parseFileUsing dialect readToken file manager = .ok (exit, after)) :
    if exit = .closeAll then closed after else holds after :=
  scanLinesUsing_preserves inserts sets closes _ _ _ holding (parseFileUsing_ok ended)

end File

end Lctools.Conf
