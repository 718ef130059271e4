import Lctools.Foundation.Buffer
import Lctools.Foundation.CString
import Lctools.Foundation.Lines

/-! # One section of a configuration file

`handle_conf_block` and the functions it calls. The text of these functions is
the same in `utils/config/iridium_conf_core.c` and in
`log/iridiumSysLog/iridiumlog_conf/iridium_conf_core.c`, so both parsers share
the definitions below. Pointers into the file buffer are indices into it. The
logging macros called on the error paths come from a header outside the
repository and are left out.
-/

namespace Lctools.Conf

open Buffer CString

/-! ## Limits and data -/

def maxConfFileSize : ℕ := 1024 * 1024 * 2
def maxLineLen : ℕ := 1024
def confStringMaxLen : ℕ := 128
def confMaxNodeNum : ℕ := 64

inductive BufferName where
  | rdBuf
  | logSwitchBuf
  | commentBuf
  | stringLine
  | pairLine
  | modeName
  | pairName
  | pairValue
  | pairs
  deriving DecidableEq, Repr

abbrev Fault := Buffer.Fault BufferName

def zeroed (name : BufferName) (size : ℕ) : Block BufferName Char where
  name := name
  size := size
  fill := nul
  stored := []

/-- `single_conf_pair_t`. -/
structure ConfPair where
  name : List Char
  value : List Char
  deriving DecidableEq, Repr

/-- `conf_pairs_t`; the field `cur_pos` is the length of `pairs`. -/
structure ConfPairs where
  modeName : List Char
  pairs : List ConfPair
  deriving DecidableEq, Repr

/-- `get_value`: the value of the first pair with the given name. -/
def getValue (confPairs : ConfPairs) (name : List Char) : Option (List Char) :=
  (confPairs.pairs.find? fun pair => pair.name = name).map ConfPair.value

/-! ## The program -/

/-- `check_comment_line(start, len)` on the `len` characters of a line. -/
def checkCommentLine (line : List Char) : Except Fault ℕ := do
  let buf ← (zeroed .commentBuf maxLineLen).copyTerminated line
  match strchr buf.stored '#' with
  | some position =>
      if (buf.stored.take position).all isBlank then .ok 0 else .ok position
  | none => .ok line.length

/-- `get_string(dst, src, len)` on the `len` characters at `src`. The result is
the string left in `dst`, or `none` for the return value -1. -/
def getString (dst : BufferName) (src : List Char) : Except Fault (Option (List Char)) := do
  let line ← (zeroed .stringLine 256).copyTerminated src
  let start ← line.advance (fun c => c ≠ nul && isBlank c) (line.size + 1) 0
  let stop ← line.advance (fun c => c ≠ nul && !isBlank c) (line.size + 1 - start) start
  let stringLen := stop - start
  if stringLen < confStringMaxLen - 1 then
    let token ← line.slice start stringLen
    let dst ← (zeroed dst confStringMaxLen).copyTerminated token
    let last ← dst.readInt (stringLen - 1)
    if last = '\r' then .ok (some token.dropLast) else .ok (some token)
  else
    .ok none

/-- What `handle_conf_block` does after it handled one line. -/
inductive LineOutcome where
  /-- Go on with the next line. -/
  | next (confPairs : Option ConfPairs)
  /-- Leave the loop and return. -/
  | done (confPairs : Option ConfPairs)
  deriving DecidableEq, Repr

/-! Which lines a section has and in which order they are handled does not depend on
how a token is cut out of a line. The functions that call `get_string` take it as a
parameter; under the source's names they are applied to `getString`. -/

section Using

variable (rd : Block BufferName Char)
  (readToken : BufferName → List Char → Except Fault (Option (List Char)))

/-- `iri_conf_line_handle(single_pair, buf, len)` with `readToken` in the place of
`get_string`. -/
def iriConfLineHandleUsing (buf : List Char) : Except Fault (Option ConfPair) :=
  if 255 < buf.length then .ok none
  else do
    let line ← (zeroed .pairLine 256).copyTerminated buf
    match strchr line.stored '=' with
    | none => .ok none
    | some mid =>
        match ← readToken .pairName (line.stored.take mid) with
        | none => .ok none
        | some name =>
            match ← readToken .pairValue (text (line.stored.drop (mid + 1))) with
            | none => .ok none
            | some value => .ok (some ⟨name, value⟩)

/-- The part of the loop body that handles a complete line. -/
def handleLineUsing (line : List Char) (confPairs : Option ConfPairs) :
    Except Fault LineOutcome :=
  if maxLineLen - 1 < line.length then .ok (.done confPairs)
  else do
    let len ← checkCommentLine line
    if 0 < len then
      match confPairs with
      | none =>
          match ← readToken .modeName (line.take len) with
          | none => .ok (.done none)
          | some modeName => .ok (.next (some ⟨modeName, []⟩))
      | some current =>
          if confMaxNodeNum ≤ current.pairs.length then
            .error (.outOfBounds .pairs current.pairs.length)
          else
            match ← iriConfLineHandleUsing readToken (line.take len) with
            | none => .ok (.done none)
            | some pair =>
                let current := { current with pairs := current.pairs ++ [pair] }
                if confMaxNodeNum ≤ current.pairs.length then .ok (.done (some current))
                else .ok (.next (some current))
    else
      .ok (.next confPairs)

/-- The `while(p != end)` loop of `handle_conf_block`. -/
def blockLoopUsing (stop : ℕ) : (budget p : ℕ) → Option ConfPairs →
    Except Fault (Option ConfPairs)
  | 0, _, _ => .error .unfinished
  | budget + 1, lineStart, confPairs =>
      if lineStart = stop then .ok confPairs
      else do
        let p ← rd.advance (· ≠ '\n') (stop - lineStart) lineStart
        if p = stop then .ok confPairs
        else
          let line ← rd.slice lineStart (p - lineStart)
          match ← handleLineUsing readToken line confPairs with
          | .done confPairs => .ok confPairs
          | .next confPairs => blockLoopUsing stop budget (p + 1) confPairs

/-- `handle_conf_block(start, end)` with `readToken` in the place of `get_string`. -/
def handleConfBlockUsing (start stop : ℕ) : Except Fault (Option ConfPairs) :=
  blockLoopUsing rd readToken stop (stop - start + 1) start none

end Using

def iriConfLineHandle : List Char → Except Fault (Option ConfPair) :=
  iriConfLineHandleUsing getString

/-- The handling of a complete line in `handle_conf_block`. -/
def handleLine : List Char → Option ConfPairs → Except Fault LineOutcome :=
  handleLineUsing getString

def handleConfBlock (rd : Block BufferName Char) : ℕ → ℕ → Except Fault (Option ConfPairs) :=
  handleConfBlockUsing rd getString

/-! ## Line level

What the functions above compute, said about whole lines. -/

/-- The part of a line before its comment; empty for a line that holds only
blanks before the comment. -/
def significant (line : List Char) : List Char :=
  if '#' ∈ text line then
    if (line.takeWhile (· ≠ '#')).all isBlank then [] else line.takeWhile (· ≠ '#')
  else
    line

/-- A trailing carriage return is cut off. -/
def chomp (token : List Char) : List Char :=
  if token.getLast? = some '\r' then token.dropLast else token

theorem significant_prefix (line : List Char) :
    line.take (significant line).length = significant line := by
  have cut : line.take (line.takeWhile (· ≠ '#')).length = line.takeWhile (· ≠ '#') :=
    (List.prefix_iff_eq_take.mp (List.takeWhile_prefix _)).symm
  unfold significant
  split_ifs
  · rfl
  · exact cut
  · exact List.take_length

theorem checkCommentLine_eq {line : List Char} (short : line.length < maxLineLen) :
    checkCommentLine line = .ok (significant line).length := by
  have cut : line.take (line.takeWhile (· ≠ '#')).length = line.takeWhile (· ≠ '#') :=
    (List.prefix_iff_eq_take.mp (List.takeWhile_prefix _)).symm
  have fits : line.length < (zeroed .commentBuf maxLineLen).size := short
  rw [checkCommentLine, Block.copyTerminated, if_pos fits]
  simp only [bind, Except.bind, strchr, significant]
  by_cases commented : '#' ∈ text line
  · simp only [if_pos commented, cut]
    split_ifs <;> rfl
  · simp only [if_neg commented]

private theorem scan_word (src : List Char) :
    word src = (src.dropWhile fun c => c ≠ nul && isBlank c).takeWhile
      fun c => c ≠ nul && !isBlank c := by
  have sameBlank : (fun c : Char => (c ≠ nul && isBlank c : Bool)) = isBlank := by
    funext c
    by_cases blank : isBlank c
    · have notNul : c ≠ nul := by
        rintro rfl
        exact absurd blank (by decide)
      simp [blank, notNul]
    · simp [blank]
  have dropped : ∀ bytes : List Char,
      (text bytes).dropWhile isBlank = text (bytes.dropWhile isBlank) := by
    intro bytes
    induction bytes with
    | nil => rfl
    | cons c rest induction =>
        by_cases blank : isBlank c
        · have notNul : c ≠ nul := by
            rintro rfl
            exact absurd blank (by decide)
          simpa [text, blank, notNul] using induction
        · by_cases isNul : c = nul
          · simp [text, isNul, show isBlank nul = false by decide]
          · simp [text, blank, isNul]
  rw [word, dropped, sameBlank, text, List.takeWhile_takeWhile]
  congr 1
  funext c
  simp [and_comm]

/-- The check of the last character of `dst`; it looks before the array when the
token is empty. -/
theorem readInt_last (dst : BufferName) (token : List Char)
    (short : token.length < confStringMaxLen) :
    ({ zeroed dst confStringMaxLen with stored := token } :
        Block BufferName Char).readInt (token.length - 1) =
      match token.getLast? with
      | none => .error (.outOfBounds dst (-1))
      | some last => .ok last := by
  rcases List.eq_nil_or_concat token with rfl | ⟨front, last, rfl⟩
  · rfl
  · have index : (((front ++ [last]).length : ℕ) : ℤ) - 1 = Int.ofNat front.length := by
      simp
    rw [List.concat_eq_append] at short ⊢
    rw [index, List.getLast?_concat]
    exact Block.read_append _ rfl (by simpa [zeroed] using short.le)

/-- The loops of `get_string` over its copy of `src`: where the first word starts,
where it stops, and the word between. -/
theorem scan_token {src : List Char} (short : src.length < 256) : ∃ line start,
    (zeroed .stringLine 256).copyTerminated src = .ok line ∧
    line.advance (fun c => c ≠ nul && isBlank c) (line.size + 1) 0 = .ok start ∧
    line.advance (fun c => c ≠ nul && !isBlank c) (line.size + 1 - start) start =
      .ok (start + (word src).length) ∧
    line.slice start (word src).length = .ok (word src) := by
  generalize lineEqual : ({ zeroed .stringLine 256 with stored := src } :
    Block BufferName Char) = line
  have stored : line.stored = src := by rw [← lineEqual]
  have size : line.size = 256 := by rw [← lineEqual]; rfl
  have fill : line.fill = nul := by rw [← lineEqual]; rfl
  generalize leadEqual : src.takeWhile (fun c => c ≠ nul && isBlank c) = lead
  generalize restEqual : src.dropWhile (fun c => c ≠ nul && isBlank c) = rest
  have wordEqual : word src = rest.takeWhile fun c => c ≠ nul && !isBlank c := by
    rw [scan_word, restEqual]
  have parts : src = lead ++ rest := by
    rw [← leadEqual, ← restEqual, List.takeWhile_append_dropWhile]
  have total : lead.length + rest.length = src.length := by simp [parts]
  have terminated : line.stored.length < line.size := by
    rw [stored, size]
    exact short
  refine ⟨line, lead.length, ?_, ?_, ?_, ?_⟩
  · rw [Block.copyTerminated, if_pos (show src.length < (zeroed .stringLine 256).size from short),
      lineEqual]
  · have start : line.stored = [] ++ src := stored
    have enough : src.length < line.size + 1 := by omega
    have loop := Block.advance_terminated line (fun c => c ≠ nul && isBlank c)
      (by rw [fill]; decide) terminated start enough
    rw [leadEqual] at loop
    simpa using loop
  · rw [wordEqual]
    exact Block.advance_terminated line _ (by rw [fill]; decide) terminated
      (by rw [stored, parts]) (by omega)
  · have whole : line.stored = lead ++ word src ++
        rest.dropWhile fun c => c ≠ nul && !isBlank c := by
      rw [stored, wordEqual, List.append_assoc, List.takeWhile_append_dropWhile, parts]
    exact Block.slice_append line whole terminated.le

theorem getString_eq (dst : BufferName) (src : List Char) :
    getString dst src =
      if 256 ≤ src.length then .error (.outOfBounds .stringLine 256)
      else if confStringMaxLen - 1 ≤ (word src).length then .ok none
      else if word src = [] then .error (.outOfBounds dst (-1))
      else .ok (some (chomp (word src))) := by
  by_cases long : 256 ≤ src.length
  · have overflow : ¬src.length < (zeroed .stringLine 256).size := by
      simpa [zeroed] using long
    rw [if_pos long, getString, Block.copyTerminated, if_neg overflow]
    rfl
  · rcases scan_token (not_le.mp long) with ⟨line, start, copied, first, second, slice⟩
    rw [if_neg long, getString, copied]
    simp only [bind, Except.bind, first, second, Nat.add_sub_cancel_left, slice]
    by_cases tooLong : confStringMaxLen - 1 ≤ (word src).length
    · rw [if_pos tooLong, if_neg (by omega)]
    · have tokenFits : (word src).length < confStringMaxLen := by omega
      rw [if_neg tooLong, if_pos (by omega), Block.copyTerminated,
        if_pos (show (word src).length < (zeroed dst confStringMaxLen).size from tokenFits)]
      simp only [readInt_last dst (word src) tokenFits, chomp]
      rcases empty : (word src).getLast? with _ | last
      · simp [List.getLast?_eq_none_iff.mp empty]
      · have nonempty : word src ≠ [] := by
          intro nil
          simp [nil] at empty
        simp only [if_neg nonempty, Option.some.injEq]
        split_ifs <;> rfl

/-- The loop of `handle_conf_block`, run over the complete lines of the block. -/
def handleLinesUsing (readToken : BufferName → List Char → Except Fault (Option (List Char))) :
    List (List Char) → Option ConfPairs → Except Fault (Option ConfPairs)
  | [], confPairs => .ok confPairs
  | line :: lines, confPairs => do
      match ← handleLineUsing readToken line confPairs with
      | .done confPairs => .ok confPairs
      | .next confPairs => handleLinesUsing readToken lines confPairs

/-- `handleLinesUsing` with `get_string` as the source has it. -/
def handleLines : List (List Char) → Option ConfPairs → Except Fault (Option ConfPairs) :=
  handleLinesUsing getString

theorem handleLines_nil (confPairs : Option ConfPairs) : handleLines [] confPairs = .ok confPairs :=
  rfl

theorem handleLines_cons (line : List Char) (lines : List (List Char))
    (confPairs : Option ConfPairs) :
    handleLines (line :: lines) confPairs = (do
      match ← handleLine line confPairs with
      | .done confPairs => .ok confPairs
      | .next confPairs => handleLines lines confPairs) :=
  rfl

variable {rd : Block BufferName Char}
  {readToken : BufferName → List Char → Except Fault (Option (List Char))}

section Walk

variable {before line last after : List Char} {stop : ℕ} (fits : rd.stored.length ≤ rd.size)

include fits

private theorem advance_to_stop (stored : rd.stored = before ++ last ++ after)
    (stopEqual : stop = before.length + last.length) (clean : '\n' ∉ last) :
    rd.advance (· ≠ '\n') (stop - before.length) before.length = .ok stop := by
  have room : stop - before.length = last.length := by omega
  have whole : rd.stored = before ++ (last ++ after) := by simpa using stored
  have inside : last.length ≤ (last ++ after).length := by simp
  rw [room, Block.advance_bounded rd (· ≠ '\n') whole fits inside, List.take_left,
    List.takeWhile_eq_self_iff.mpr (all_ne_of_not_mem clean), stopEqual]

private theorem advance_to_newline (stored : rd.stored = before ++ (line ++ '\n' :: after))
    (longer : before.length + line.length < stop) (inside : stop ≤ rd.stored.length)
    (clean : '\n' ∉ line) :
    rd.advance (· ≠ '\n') (stop - before.length) before.length =
        .ok (before.length + line.length) ∧
      rd.slice before.length line.length = .ok line := by
  constructor
  · have room : stop - before.length ≤ (line ++ '\n' :: after).length := by
      rw [stored, List.length_append] at inside
      omega
    have taken : (List.take (stop - before.length) (line ++ '\n' :: after)).takeWhile
        (fun c => decide (c ≠ '\n')) = line := by
      rw [List.take_append, List.take_of_length_le (by omega),
        List.takeWhile_append_of_pos (all_ne_of_not_mem clean)]
      rcases rooms : stop - before.length - line.length with _ | room
      · omega
      · simp
    rw [Block.advance_bounded rd (· ≠ '\n') stored fits room, taken]
  · exact Block.slice_append rd (stored.trans (List.append_assoc ..).symm) fits

end Walk

/-- `handle_conf_block` walks over the complete lines between `lineStart` and `stop`;
the unfinished last line is ignored. -/
theorem blockLoopUsing_eq {after last : List Char} (lastClean : '\n' ∉ last)
    (fits : rd.stored.length ≤ rd.size) :
    ∀ {lines : List (List Char)} {before : List Char} {stop budget : ℕ}
      (confPairs : Option ConfPairs),
      rd.stored = before ++ (Lines.join '\n' lines ++ last) ++ after →
      stop = before.length + (Lines.join '\n' lines ++ last).length →
      (∀ line ∈ lines, '\n' ∉ line) → lines.length < budget →
      blockLoopUsing rd readToken stop budget before.length confPairs =
        handleLinesUsing readToken lines confPairs
  | lines, _, _, 0, _, _, _, _, enough => by omega
  | [], before, stop, budget + 1, confPairs, stored, stopEqual, _, _ => by
      rw [Lines.join_nil, List.nil_append] at stored stopEqual
      rw [blockLoopUsing, handleLinesUsing]
      by_cases atStop : before.length = stop
      · rw [if_pos atStop]
      · rw [if_neg atStop, advance_to_stop fits stored stopEqual lastClean]
        simp [bind, Except.bind]
  | line :: lines, before, stop, budget + 1, confPairs, stored, stopEqual, clean, enough => by
      have regroup : before ++ (Lines.join '\n' (line :: lines) ++ last) ++ after =
          before ++ (line ++ '\n' :: (Lines.join '\n' lines ++ last ++ after)) := by
        simp
      have longer : before.length + line.length < stop := by
        rw [stopEqual]
        simp
      have inside : stop ≤ rd.stored.length := by
        rw [stored, stopEqual]
        simp
      rcases advance_to_newline fits (stored.trans regroup) longer inside
        (clean line (List.mem_cons_self ..)) with ⟨run, sliced⟩
      rw [blockLoopUsing, handleLinesUsing, if_neg (by omega), run]
      simp only [bind, Except.bind]
      rw [if_neg (by omega), Nat.add_sub_cancel_left, sliced]
      simp only
      rcases handleLineUsing readToken line confPairs with fault | outcome
      · rfl
      · cases outcome with
        | done confPairs => rfl
        | next confPairs =>
            have behind : rd.stored = (before ++ line ++ ['\n']) ++
                (Lines.join '\n' lines ++ last) ++ after := by
              rw [stored]
              simp
            have stopBehind : stop = (before ++ line ++ ['\n']).length +
                (Lines.join '\n' lines ++ last).length := by
              rw [stopEqual]
              simp
              omega
            have fewer : lines.length < budget := by simpa using enough
            have shifted := blockLoopUsing_eq lastClean fits confPairs behind stopBehind
              (fun other member => clean other (List.mem_cons_of_mem _ member)) fewer
            simpa [Nat.add_assoc] using shifted

theorem handleConfBlockUsing_eq {before last after : List Char} {lines : List (List Char)}
    {stop : ℕ} (fits : rd.stored.length ≤ rd.size)
    (stored : rd.stored = before ++ (Lines.join '\n' lines ++ last) ++ after)
    (stopEqual : stop = before.length + (Lines.join '\n' lines ++ last).length)
    (clean : ∀ line ∈ lines, '\n' ∉ line) (lastClean : '\n' ∉ last) :
    handleConfBlockUsing rd readToken before.length stop =
      handleLinesUsing readToken lines none := by
  have longEnough := Lines.length_le_join '\n' lines
  exact blockLoopUsing_eq lastClean fits none stored stopEqual clean
    (by rw [stopEqual, List.length_append]; omega)

end Lctools.Conf
