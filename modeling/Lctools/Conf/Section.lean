import Lctools.Conf.Outcome

/-! # What a section says

`get_string` looks at the byte in front of `dst` when it finds an empty token.
On the machine this byte exists: it lies in front of the section object, or in
the array before `dst` inside of it. Here the parser runs in such memory, with
any byte there. What it makes of a section is then a function of the text, and
the only way to fail is a name line that does not fit `line[256]`.
-/

namespace Lctools.Conf

open Buffer CString

/-- `get_string(dst, src, len)` in memory where the byte in front of `dst` is
`previous`. Replacing that byte leaves `dst` as it is. -/
def getStringFlat (previous : Char) (dst : BufferName) (src : List Char) :
    Except Fault (Option (List Char)) := do
  let line ← (zeroed .stringLine 256).copyTerminated src
  let start ← line.advance (fun c => c ≠ nul && isBlank c) (line.size + 1) 0
  let stop ← line.advance (fun c => c ≠ nul && !isBlank c) (line.size + 1 - start) start
  let stringLen := stop - start
  if stringLen < confStringMaxLen - 1 then
    let token ← line.slice start stringLen
    let dst ← (zeroed dst confStringMaxLen).copyTerminated token
    let last ← if stringLen = 0 then .ok previous else dst.readInt (stringLen - 1)
    if last = '\r' then .ok (some token.dropLast) else .ok (some token)
  else
    .ok none

/-! ## The text of a section -/

def pairOf (part : List Char) : Option ConfPair :=
  if pairTaken part then
    some ⟨chomp (word (keyPart part)), chomp (word (valuePart part))⟩
  else
    none

/-- The section that the lines make of what was read before. A line that holds
no pair discards the section; a line of `MAX_LINE_LEN` characters or the last
free place ends it. -/
def sectionOf : List (List Char) → Option ConfPairs → Option ConfPairs
  | [], confPairs => confPairs
  | line :: lines, confPairs =>
      if maxLineLen ≤ line.length then confPairs
      else if significant line = [] then sectionOf lines confPairs
      else
        match confPairs with
        | none =>
            if nameTaken (significant line) then
              sectionOf lines (some ⟨chomp (word (significant line)), []⟩)
            else
              none
        | some current =>
            match pairOf (significant line) with
            | none => none
            | some pair =>
                if current.pairs.length + 1 = confMaxNodeNum then
                  some { current with pairs := current.pairs ++ [pair] }
                else
                  sectionOf lines (some { current with pairs := current.pairs ++ [pair] })

/-- The line that supplies the name of the section, without its comment, is
shorter than 256 bytes. -/
def nameShort : List (List Char) → Bool
  | [] => true
  | line :: lines =>
      if maxLineLen ≤ line.length then true
      else if significant line = [] then nameShort lines
      else (significant line).length < 256

/-! ## The program computes it -/

variable (previous : Char)

theorem getStringFlat_eq (dst : BufferName) (src : List Char) :
    getStringFlat previous dst src =
      if 256 ≤ src.length then .error (.outOfBounds .stringLine 256)
      else if confStringMaxLen - 1 ≤ (word src).length then .ok none
      else .ok (some (chomp (word src))) := by
  by_cases long : 256 ≤ src.length
  · have overflow : ¬src.length < (zeroed .stringLine 256).size := not_lt.mpr long
    rw [if_pos long, getStringFlat, Block.copyTerminated, if_neg overflow]
    rfl
  · rcases scan_token (not_le.mp long) with ⟨line, start, copied, first, second, slice⟩
    rw [if_neg long, getStringFlat, copied]
    simp only [bind, Except.bind, first, second, Nat.add_sub_cancel_left, slice]
    by_cases tooLong : confStringMaxLen - 1 ≤ (word src).length
    · rw [if_pos tooLong, if_neg (by omega)]
    · have tokenFits : (word src).length < (zeroed dst confStringMaxLen).size := by
        show (word src).length < confStringMaxLen
        omega
      rw [if_neg tooLong, if_pos (by omega), Block.copyTerminated, if_pos tokenFits]
      rcases List.eq_nil_or_concat (word src) with empty | ⟨front, last, whole⟩
      · rw [empty]
        simp [chomp]
      · rw [List.concat_eq_append] at whole
        have nonempty : (word src).length ≠ 0 := by simp [whole]
        have token := readInt_last dst (word src) tokenFits
        simp only [if_neg nonempty, token]
        simp only [whole, List.getLast?_concat, chomp, Option.some.injEq]
        split_ifs <;> rfl

theorem iriConfLineHandleUsing_flat (part : List Char) :
    iriConfLineHandleUsing (getStringFlat previous) part = .ok (pairOf part) := by
  rw [iriConfLineHandleUsing_eq, pairOf, pairTaken]
  by_cases rejected : 255 < part.length ∨ '=' ∉ text part
  · rw [if_pos rejected]
    rcases rejected with long | unpaired
    · simp [not_le.mpr long]
    · simp [unpaired]
  · rw [if_neg rejected]
    rw [not_or, not_lt, not_not] at rejected
    have keyShort : ¬256 ≤ (keyPart part).length := by
      have shorter := keyPart_length_le part
      omega
    have valueShort : ¬256 ≤ (valuePart part).length := by
      have shorter := valuePart_length_le part
      omega
    simp only [getStringFlat_eq, if_neg keyShort, if_neg valueShort]
    by_cases keyLong : confStringMaxLen - 1 ≤ (word (keyPart part)).length
    · simp [keyLong, not_lt.mpr keyLong]
    by_cases valueLong : confStringMaxLen - 1 ≤ (word (valuePart part)).length
    · simp [keyLong, valueLong, not_lt.mpr valueLong]
    · simp [keyLong, valueLong, rejected, not_le.mp keyLong, not_le.mp valueLong]

theorem handleLinesUsing_flat_named : ∀ (lines : List (List Char)) {current : ConfPairs},
    current.pairs.length < confMaxNodeNum →
    handleLinesUsing (getStringFlat previous) lines (some current) =
      .ok (sectionOf lines (some current))
  | [], current, _ => rfl
  | line :: lines, current, room => by
      rw [handleLinesUsing, sectionOf]
      by_cases long : maxLineLen ≤ line.length
      · rw [handleLineUsing_long _ (not_lt.mpr long), if_pos long]
        rfl
      rw [if_neg long]
      have short := not_le.mp long
      by_cases absent : significant line = []
      · rw [handleLineUsing_skip _ short absent, if_pos absent]
        exact handleLinesUsing_flat_named lines room
      · rw [handleLineUsing_pair _ short absent room, iriConfLineHandleUsing_flat,
          if_neg absent]
        rcases pairOf (significant line) with _ | pair
        · rfl
        · by_cases last : current.pairs.length + 1 = confMaxNodeNum
          · simp only [if_pos last]
            rfl
          · simp only [if_neg last]
            refine handleLinesUsing_flat_named lines ?_
            rw [List.length_append, List.length_singleton]
            omega

/-- A section is read as its text says when its name line fits, and the program
leaves `line[256]` otherwise. -/
theorem handleLinesUsing_flat : ∀ lines : List (List Char),
    handleLinesUsing (getStringFlat previous) lines none =
      if nameShort lines then .ok (sectionOf lines none)
      else .error (.outOfBounds .stringLine 256)
  | [] => rfl
  | line :: lines => by
      rw [handleLinesUsing, sectionOf, nameShort]
      by_cases long : maxLineLen ≤ line.length
      · rw [handleLineUsing_long _ (not_lt.mpr long), if_pos long, if_pos long]
        rfl
      rw [if_neg long, if_neg long]
      have short := not_le.mp long
      by_cases absent : significant line = []
      · rw [handleLineUsing_skip _ short absent, if_pos absent, if_pos absent]
        exact handleLinesUsing_flat lines
      · rw [handleLineUsing_name _ short absent, getStringFlat_eq, if_neg absent, if_neg absent]
        by_cases overflow : 256 ≤ (significant line).length
        · simp [overflow, not_lt.mpr overflow, bind, Except.bind]
        rw [if_neg overflow, decide_eq_true (not_le.mp overflow), if_pos rfl]
        by_cases rejected : confStringMaxLen - 1 ≤ (word (significant line)).length
        · simp [rejected, nameTaken, not_lt.mpr rejected, bind, Except.bind]
        · rw [if_neg rejected, nameTaken, decide_eq_true (not_le.mp rejected), if_pos rfl]
          exact handleLinesUsing_flat_named previous lines (show 0 < confMaxNodeNum by decide)

theorem handleLinesUsing_flat_inBounds (lines : List (List Char)) :
    InBounds (handleLinesUsing (getStringFlat previous) lines none) ↔ nameShort lines = true := by
  rw [handleLinesUsing_flat]
  split_ifs with short
  · simp [short, inBounds_ok]
  · simp [short, not_inBounds_error]

theorem handleLinesUsing_flat_ok {lines : List (List Char)} {newPairs : Option ConfPairs}
    (handled : handleLinesUsing (getStringFlat previous) lines none = .ok newPairs) :
    sectionOf lines none = newPairs := by
  rw [handleLinesUsing_flat] at handled
  split_ifs at handled
  exact Except.ok.inj handled

/-- The name of a section comes from a token of its first line with text, and no later
line changes it. -/
theorem sectionOf_modeName : ∀ (lines : List (List Char)) (start : Option ConfPairs)
    {confPairs : ConfPairs},
    (∀ current, start = some current → current.modeName.length < confStringMaxLen - 1) →
    sectionOf lines start = some confPairs → confPairs.modeName.length < confStringMaxLen - 1
  | [], start, confPairs, short, read => short confPairs read
  | line :: lines, start, confPairs, short, read => by
      rw [sectionOf.eq_def] at read
      simp only at read
      by_cases long : maxLineLen ≤ line.length
      · rw [if_pos long] at read
        exact short confPairs read
      by_cases absent : significant line = []
      · rw [if_neg long, if_pos absent] at read
        exact sectionOf_modeName lines start short read
      rw [if_neg long, if_neg absent] at read
      cases start with
      | none =>
          simp only at read
          split_ifs at read with taken
          refine sectionOf_modeName lines _ ?_ read
          rintro current ⟨⟩
          exact lt_of_le_of_lt (chomp_length_le _) (of_decide_eq_true taken)
      | some current =>
          rcases found : pairOf (significant line) with _ | pair
          · simp [found] at read
          simp only [found] at read
          split_ifs at read with last
          · cases read
            exact short current rfl
          · refine sectionOf_modeName lines _ ?_ read
            rintro next ⟨⟩
            exact short current rfl

/-! ## Whole files -/

/-- In flat memory a file can be read when the sections that are read have short name
lines and the open last line of a full buffer is left alone. -/
def ConfFile.fitsFlat {μ : Type} (dialect : Dialect μ) : ConfFile → Bool
  | .readable content => fileFitsUsing dialect nameShort content
  | _ => true

theorem parseFileUsing_flat_inBounds {μ : Type} (dialect : Dialect μ) (file : List Char)
    (manager : μ) :
    InBounds (parseFileUsing dialect (getStringFlat previous) file manager) ↔
      fileFitsUsing dialect nameShort file = true :=
  parseFileUsing_inBounds dialect (handleLinesUsing_flat_inBounds previous) file manager

section File

variable {μ : Type} (dialect : Dialect μ)

/-- The sections that the scan of the lines hands to the manager, in order.
`block` holds the lines of the section that is open. -/
def sectionsRead : (lines : List (List Char)) → (block : Option (List (List Char))) →
    List ConfPairs
  | [], _ => []
  | line :: lines, block =>
      match line.dropWhile isBlank with
      | [] => sectionsRead lines (block.map (· ++ [line]))
      | first :: rest =>
          if first = '@' then
            if saysOff dialect rest then [] else sectionsRead lines (block.map (· ++ [line]))
          else if first = '-' then
            match block with
            | none => sectionsRead lines (some [rest])
            | some content =>
                if "-end".toList <+: first :: rest then
                  (sectionOf content none).toList ++ sectionsRead lines none
                else
                  []
          else
            sectionsRead lines (block.map (· ++ [line]))

/-- Every section that is ended before the scan stops has a short name line. -/
def namesShort : (lines : List (List Char)) → (block : Option (List (List Char))) → Bool
  | [], _ => true
  | line :: lines, block =>
      match line.dropWhile isBlank with
      | [] => namesShort lines (block.map (· ++ [line]))
      | first :: rest =>
          if first = '@' then
            saysOff dialect rest || namesShort lines (block.map (· ++ [line]))
          else if first = '-' then
            match block with
            | none => namesShort lines (some [rest])
            | some content =>
                if "-end".toList <+: first :: rest then
                  nameShort content && namesShort lines none
                else
                  true
          else
            namesShort lines (block.map (· ++ [line]))

variable {dialect}

section Kinds

variable {line rest : List Char} {lines content : List (List Char)}
  {block : Option (List (List Char))}

theorem sectionsRead_unmarked (unmarked : Unmarked line) :
    sectionsRead dialect (line :: lines) block =
      sectionsRead dialect lines (block.map (· ++ [line])) := by
  rw [sectionsRead]
  rcases unmarked.cases with starts | ⟨first, rest, starts, notSwitch, notDash⟩
  · rw [starts]
  · rw [starts]
    simp only
    rw [if_neg notSwitch, if_neg notDash]

theorem sectionsRead_switch (starts : line.dropWhile isBlank = '@' :: rest) :
    sectionsRead dialect (line :: lines) block =
      if saysOff dialect rest then [] else sectionsRead dialect lines (block.map (· ++ [line])) := by
  rw [sectionsRead, starts]
  rfl

theorem sectionsRead_opening (starts : line.dropWhile isBlank = '-' :: rest) :
    sectionsRead dialect (line :: lines) none = sectionsRead dialect lines (some [rest]) := by
  rw [sectionsRead, starts]
  rfl

theorem sectionsRead_dash (starts : line.dropWhile isBlank = '-' :: rest) :
    sectionsRead dialect (line :: lines) (some content) =
      if "-end".toList <+: '-' :: rest then
        (sectionOf content none).toList ++ sectionsRead dialect lines none
      else [] := by
  rw [sectionsRead, starts]
  rfl

theorem namesShort_unmarked (unmarked : Unmarked line) :
    namesShort dialect (line :: lines) block =
      namesShort dialect lines (block.map (· ++ [line])) := by
  rw [namesShort]
  rcases unmarked.cases with starts | ⟨first, rest, starts, notSwitch, notDash⟩
  · rw [starts]
  · rw [starts]
    simp only
    rw [if_neg notSwitch, if_neg notDash]

theorem namesShort_switch (starts : line.dropWhile isBlank = '@' :: rest) :
    namesShort dialect (line :: lines) block =
      (saysOff dialect rest || namesShort dialect lines (block.map (· ++ [line]))) := by
  rw [namesShort, starts]
  rfl

theorem namesShort_opening (starts : line.dropWhile isBlank = '-' :: rest) :
    namesShort dialect (line :: lines) none = namesShort dialect lines (some [rest]) := by
  rw [namesShort, starts]
  rfl

theorem namesShort_dash (starts : line.dropWhile isBlank = '-' :: rest) :
    namesShort dialect (line :: lines) (some content) =
      if "-end".toList <+: '-' :: rest then nameShort content && namesShort dialect lines none
      else true := by
  rw [namesShort, starts]
  rfl

end Kinds

section Run

variable (size : ℕ)
  (keptOff : ∀ manager, dialect.closeAll manager = manager)
  (keptOn : ∀ level manager, dialect.setSwitch level manager = manager)

include keptOn in
private theorem switchLine_passes {switch : List Char} (on : saysOff dialect switch = false)
    (manager : μ) : switchLine dialect switch manager = (false, manager) := by
  rcases switchLine_on dialect on manager with ⟨stays, same | ⟨level, -, set⟩⟩
  · exact Prod.ext stays same
  · exact Prod.ext stays (set.trans (keptOn level manager))

private theorem insertParsed_eq_foldl (manager : μ) (newPairs : Option ConfPairs) :
    insertParsed dialect manager newPairs =
      newPairs.toList.foldl dialect.insertPairs manager := by
  cases newPairs with
  | none => rfl
  | some confPairs => rfl

include keptOn in
theorem scanLinesUsing_flat_long (lines : List (List Char))
    (block : Option (List (List Char))) : ∀ manager : μ,
      namesShort dialect lines block = false →
      scanLinesUsing dialect size
          (fun lines => handleLinesUsing (getStringFlat previous) lines none) false [] lines
          block manager = .error (.outOfBounds .stringLine 256) := by
  induction lines, block using scan_induction with
  | nil block =>
      intro manager long
      cases long
  | unmarked line lines block unmarked induction =>
      intro manager long
      rw [namesShort_unmarked unmarked] at long
      rw [scanLinesUsing_unmarked dialect unmarked]
      exact induction manager long
  | switch line rest lines block starts induction =>
      intro manager long
      rw [namesShort_switch starts, Bool.or_eq_false_iff] at long
      rw [scanLinesUsing_switch dialect starts, switchLine_passes keptOn long.1]
      exact induction manager long.2
  | opening line rest lines starts induction =>
      intro manager long
      rw [namesShort_opening starts] at long
      rw [scanLinesUsing_opening dialect starts]
      exact induction manager long
  | closing line rest lines content starts isEnd induction =>
      intro manager long
      rw [namesShort_dash starts, if_pos isEnd, Bool.and_eq_false_iff] at long
      rw [scanLinesUsing_closing dialect starts isEnd, handleLinesUsing_flat]
      rcases here : nameShort content with _ | _
      · rfl
      · rw [here] at long
        exact induction _ (long.resolve_left (by decide))
  | stray line rest lines content starts stray =>
      intro manager long
      rw [namesShort_dash starts, if_neg stray] at long
      cases long

include keptOff keptOn in
/-- In flat memory the scan hands the sections of the text to a manager that a
switch line does not change. -/
theorem scanLinesUsing_flat_short (lines : List (List Char))
    (block : Option (List (List Char))) : ∀ manager : μ,
      namesShort dialect lines block = true →
      ∃ exit, scanLinesUsing dialect size
          (fun lines => handleLinesUsing (getStringFlat previous) lines none) false [] lines
          block manager =
        .ok (exit, (sectionsRead dialect lines block).foldl dialect.insertPairs manager) := by
  induction lines, block using scan_induction with
  | nil block => exact fun manager _ => ⟨.finished, rfl⟩
  | unmarked line lines block unmarked induction =>
      intro manager short
      rw [namesShort_unmarked unmarked] at short
      rw [scanLinesUsing_unmarked dialect unmarked, sectionsRead_unmarked unmarked]
      exact induction manager short
  | switch line rest lines block starts induction =>
      intro manager short
      rw [namesShort_switch starts] at short
      rw [scanLinesUsing_switch dialect starts, sectionsRead_switch starts]
      rcases off : saysOff dialect rest with _ | _
      · rw [off, Bool.false_or] at short
        rw [switchLine_passes keptOn off, if_neg Bool.false_ne_true]
        exact induction manager short
      · rw [switchLine_off dialect off, keptOff, if_pos rfl]
        exact ⟨.closeAll, rfl⟩
  | opening line rest lines starts induction =>
      intro manager short
      rw [namesShort_opening starts] at short
      rw [scanLinesUsing_opening dialect starts, sectionsRead_opening starts]
      exact induction manager short
  | closing line rest lines content starts isEnd induction =>
      intro manager short
      rw [namesShort_dash starts, if_pos isEnd, Bool.and_eq_true] at short
      rw [scanLinesUsing_closing dialect starts isEnd, handleLinesUsing_flat, if_pos short.1,
        sectionsRead_dash starts, if_pos isEnd, List.foldl_append, ← insertParsed_eq_foldl]
      exact induction _ short.2
  | stray line rest lines content starts stray =>
      intro manager _
      rw [scanLinesUsing_stray dialect starts stray, sectionsRead_dash starts, if_neg stray]
      exact ⟨.endError, rfl⟩

end Run

end File

end Lctools.Conf
