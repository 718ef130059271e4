import Lctools.Conf.Scan

/-! # The parsers seen line by line

The loop over the file moves a pointer through a buffer and, at the end of a
section, walks over the same characters again. Said about lines it is a machine
that reads one line after the other and remembers the lines of the open section.
`parseFile_eq` shows that the two agree on every file, faults included.
-/

namespace Lctools.Conf

open Buffer CString

variable {μ : Type} (dialect : Dialect μ)

/-! ## The line machine -/

/-- The effect of the switch line `@switch`: the manager after it, and whether
the switch is off. -/
def switchLine (switch : List Char) (manager : μ) : Bool × μ :=
  match switchChar dialect (switch.take 125) with
  | none => (false, manager)
  | some c =>
      if dialect.level c = 0 then (true, dialect.closeAll manager)
      else (false, dialect.setSwitch (dialect.level c) manager)

section Using

variable (size : ℕ) (handleSection : List (List Char) → Except Fault (Option ConfPairs))

/-- The open last line of the file, for a buffer of `size` bytes. When the file fills
the buffer, looking at the character behind the line is an access outside of it. -/
def scanTailUsing (full : Bool) (tail : List Char) (block : Option (List (List Char)))
    (manager : μ) : Except Fault (Exit × μ) :=
  match tail.dropWhile isBlank with
  | [] =>
      if full && tail ≠ [] then .error (.outOfBounds .rdBuf size)
      else .ok (.finished, manager)
  | first :: rest =>
      if first = '#' then
        if full then .error (.outOfBounds .rdBuf size)
        else .ok (.finished, manager)
      else if first = '@' then
        match switchLine dialect rest manager with
        | (true, manager) => .ok (.closeAll, manager)
        | (false, manager) => .ok (.finished, manager)
      else if first = '-' then
        match block with
        | none => .ok (.finished, manager)
        | some lines =>
            if "-end".toList <+: first :: rest then do
              let newPairs ← handleSection lines
              .ok (.finished, insertParsed dialect manager newPairs)
            else if full ∧ first :: rest <+: "-end".toList then
              .error (.outOfBounds .rdBuf size)
            else
              .ok (.endError, manager)
      else
        .ok (.finished, manager)

/-- The loop over the file, run over its complete lines and its open last line.
`block` holds the lines since the start of the section that is open, and
`handleSection` is what is done with them at its end. -/
def scanLinesUsing (full : Bool) (tail : List Char) : (lines : List (List Char)) →
    (block : Option (List (List Char))) → (manager : μ) → Except Fault (Exit × μ)
  | [], block, manager => scanTailUsing dialect size handleSection full tail block manager
  | line :: lines, block, manager =>
      match line.dropWhile isBlank with
      | [] => scanLinesUsing full tail lines (block.map (· ++ [line])) manager
      | first :: rest =>
          if first = '@' then
            match switchLine dialect rest manager with
            | (true, manager) => .ok (.closeAll, manager)
            | (false, manager) =>
                scanLinesUsing full tail lines (block.map (· ++ [line])) manager
          else if first = '-' then
            match block with
            | none => scanLinesUsing full tail lines (some [rest]) manager
            | some content =>
                if "-end".toList <+: first :: rest then do
                  let newPairs ← handleSection content
                  scanLinesUsing full tail lines none (insertParsed dialect manager newPairs)
                else
                  .ok (.endError, manager)
          else
            scanLinesUsing full tail lines (block.map (· ++ [line])) manager

end Using

/-- The open last line, with the sections of the source. -/
def scanTail : (full : Bool) → (tail : List Char) → (block : Option (List (List Char))) →
    (manager : μ) → Except Fault (Exit × μ) :=
  scanTailUsing dialect maxConfFileSize fun lines => handleLines lines none

/-- The loop over the lines of a file, with the sections of the source. -/
def scanLines : (full : Bool) → (tail : List Char) → (lines : List (List Char)) →
    (block : Option (List (List Char))) → (manager : μ) → Except Fault (Exit × μ) :=
  scanLinesUsing dialect maxConfFileSize fun lines => handleLines lines none

/-! ## The kinds of lines -/

/-- Behind its blanks the line starts neither with `@` nor with a dash. -/
def Unmarked (line : List Char) : Prop :=
  ∀ rest, line.dropWhile isBlank ≠ '@' :: rest ∧ line.dropWhile isBlank ≠ '-' :: rest

theorem Unmarked.cases {line : List Char} (unmarked : Unmarked line) :
    line.dropWhile isBlank = [] ∨
      ∃ first rest, line.dropWhile isBlank = first :: rest ∧ first ≠ '@' ∧ first ≠ '-' := by
  rcases starts : line.dropWhile isBlank with _ | ⟨first, rest⟩
  · exact .inl rfl
  · have kind := unmarked rest
    rw [starts] at kind
    exact .inr ⟨first, rest, rfl, fun same => kind.1 (by rw [same]),
      fun same => kind.2 (by rw [same])⟩

/-- Induction along a scan: one case for each kind of line, with the section that
is open in front of it. -/
theorem scan_induction {motive : List (List Char) → Option (List (List Char)) → Prop}
    (nil : ∀ block, motive [] block)
    (unmarked : ∀ line lines block, Unmarked line →
      motive lines (block.map (· ++ [line])) → motive (line :: lines) block)
    (switch : ∀ line rest lines block, line.dropWhile isBlank = '@' :: rest →
      motive lines (block.map (· ++ [line])) → motive (line :: lines) block)
    (opening : ∀ line rest lines, line.dropWhile isBlank = '-' :: rest →
      motive lines (some [rest]) → motive (line :: lines) none)
    (closing : ∀ line rest lines content, line.dropWhile isBlank = '-' :: rest →
      "-end".toList <+: '-' :: rest → motive lines none → motive (line :: lines) (some content))
    (stray : ∀ line rest lines content, line.dropWhile isBlank = '-' :: rest →
      ¬"-end".toList <+: '-' :: rest → motive (line :: lines) (some content)) :
    ∀ lines block, motive lines block := by
  intro lines
  induction lines with
  | nil => exact nil
  | cons line lines induction =>
      intro block
      rcases starts : line.dropWhile isBlank with _ | ⟨first, rest⟩
      · exact unmarked line lines block (fun rest => by simp [starts]) (induction _)
      by_cases isSwitch : first = '@'
      · subst isSwitch
        exact switch line rest lines block starts (induction _)
      by_cases isDash : first = '-'
      · subst isDash
        rcases block with _ | content
        · exact opening line rest lines starts (induction _)
        by_cases ended : "-end".toList <+: '-' :: rest
        · exact closing line rest lines content starts ended (induction _)
        · exact stray line rest lines content starts ended
      · refine unmarked line lines block (fun other => ?_) (induction _)
        rw [starts]
        exact ⟨fun same => isSwitch (List.cons.inj same).1,
          fun same => isDash (List.cons.inj same).1⟩

section Kinds

variable {size : ℕ} {handleSection : List (List Char) → Except Fault (Option ConfPairs)}
  {full : Bool} {tail line rest : List Char} {lines content : List (List Char)}
  {block : Option (List (List Char))} {manager : μ}

theorem scanLinesUsing_unmarked (unmarked : Unmarked line) :
    scanLinesUsing dialect size handleSection full tail (line :: lines) block manager =
      scanLinesUsing dialect size handleSection full tail lines (block.map (· ++ [line]))
        manager := by
  rw [scanLinesUsing]
  rcases unmarked.cases with starts | ⟨first, rest, starts, notSwitch, notDash⟩
  · rw [starts]
  · rw [starts]
    simp only
    rw [if_neg notSwitch, if_neg notDash]

theorem scanLinesUsing_switch (starts : line.dropWhile isBlank = '@' :: rest) :
    scanLinesUsing dialect size handleSection full tail (line :: lines) block manager =
      match switchLine dialect rest manager with
      | (true, manager) => .ok (.closeAll, manager)
      | (false, manager) =>
          scanLinesUsing dialect size handleSection full tail lines (block.map (· ++ [line]))
            manager := by
  rw [scanLinesUsing, starts]
  rfl

theorem scanLinesUsing_opening (starts : line.dropWhile isBlank = '-' :: rest) :
    scanLinesUsing dialect size handleSection full tail (line :: lines) none manager =
      scanLinesUsing dialect size handleSection full tail lines (some [rest]) manager := by
  rw [scanLinesUsing, starts]
  rfl

theorem scanLinesUsing_closing (starts : line.dropWhile isBlank = '-' :: rest)
    (ended : "-end".toList <+: '-' :: rest) :
    scanLinesUsing dialect size handleSection full tail (line :: lines) (some content) manager =
      (handleSection content >>= fun newPairs =>
        scanLinesUsing dialect size handleSection full tail lines none
          (insertParsed dialect manager newPairs)) := by
  rw [scanLinesUsing, starts]
  simp only
  rw [if_neg (by decide), if_pos trivial, if_pos ended]

theorem scanLinesUsing_stray (starts : line.dropWhile isBlank = '-' :: rest)
    (stray : ¬"-end".toList <+: '-' :: rest) :
    scanLinesUsing dialect size handleSection full tail (line :: lines) (some content) manager =
      .ok (.endError, manager) := by
  rw [scanLinesUsing, starts]
  simp only
  rw [if_neg (by decide), if_pos trivial, if_neg stray]

/-! With the sections of the source: -/

theorem scanLines_nil :
    scanLines dialect full tail [] block manager = scanTail dialect full tail block manager :=
  rfl

theorem scanLines_unmarked (unmarked : Unmarked line) :
    scanLines dialect full tail (line :: lines) block manager =
      scanLines dialect full tail lines (block.map (· ++ [line])) manager :=
  scanLinesUsing_unmarked dialect unmarked

theorem scanLines_opening (starts : line.dropWhile isBlank = '-' :: rest) :
    scanLines dialect full tail (line :: lines) none manager =
      scanLines dialect full tail lines (some [rest]) manager :=
  scanLinesUsing_opening dialect starts

theorem scanLines_closing (starts : line.dropWhile isBlank = '-' :: rest)
    (ended : "-end".toList <+: '-' :: rest) :
    scanLines dialect full tail (line :: lines) (some content) manager =
      (handleLines content none >>= fun newPairs =>
        scanLines dialect full tail lines none (insertParsed dialect manager newPairs)) :=
  scanLinesUsing_closing dialect starts ended

end Kinds

/-! ## Loops of the program on one line -/

/-- What can follow a line: nothing, or the newline that ends it. -/
def EndsLine (rest : List Char) : Prop :=
  rest = [] ∨ ∃ after, rest = '\n' :: after

variable {size : ℕ} {content before line rest : List Char}

private theorem takeWhile_newline (clean : '\n' ∉ line) (ends : EndsLine rest) :
    (line ++ rest).takeWhile (fun c => decide (c ≠ '\n')) = line := by
  rw [List.takeWhile_append_of_pos (all_ne_of_not_mem clean)]
  rcases ends with rfl | ⟨after, rfl⟩
  · simp
  · simp

private theorem takeWhile_blank (clean : '\n' ∉ line) (ends : EndsLine rest) :
    (line ++ rest).takeWhile (fun c => decide (c ≠ '\n') && isBlank c) =
      line.takeWhile isBlank := by
  induction line with
  | nil =>
      rcases ends with rfl | ⟨after, rfl⟩
      · rfl
      · simp
  | cons c line induction =>
      simp only [List.mem_cons, not_or] at clean
      have rest := induction clean.2
      by_cases blank : isBlank c
      · simpa [blank, Ne.symm clean.1] using rest
      · simp [blank]

theorem advance_blank (fits : content.length ≤ size)
    (stored : content = before ++ (line ++ rest)) (clean : '\n' ∉ line)
    (ends : EndsLine rest) :
    (readBuf size content).advance (fun c => c ≠ '\n' && isBlank c)
        (content.length - before.length) before.length =
      .ok (before.length + (line.takeWhile isBlank).length) := by
  have room : content.length - before.length = (line ++ rest).length := by
    rw [stored, List.length_append]
    omega
  rw [Block.advance_bounded (readBuf size content) _ stored fits room.le, room,
    List.take_length, takeWhile_blank clean ends]

theorem advance_newline (fits : content.length ≤ size)
    (stored : content = before ++ (line ++ rest)) (clean : '\n' ∉ line)
    (ends : EndsLine rest) :
    (readBuf size content).advance (· ≠ '\n') (content.length - before.length) before.length =
      .ok (before.length + line.length) := by
  have room : content.length - before.length = (line ++ rest).length := by
    rw [stored, List.length_append]
    omega
  rw [Block.advance_bounded (readBuf size content) _ stored fits room.le, room,
    List.take_length, takeWhile_newline clean ends]

theorem finishLine_next (fits : content.length ≤ size)
    {after : List Char} (stored : content = before ++ (line ++ '\n' :: after))
    (clean : '\n' ∉ line) {scan : Scan μ} (position : scan.p = before.length) :
    finishLine (readBuf size content) content.length scan =
      .ok (.next { scan with p := before.length + line.length + 1 }) := by
  have inside : before.length + line.length ≠ content.length := by
    rw [stored]
    simp
  rw [finishLine, position, advance_newline fits stored clean (.inr ⟨after, rfl⟩)]
  simp only [bind, Except.bind]
  rw [if_neg inside]

theorem finishLine_exit (fits : content.length ≤ size)
    (stored : content = before ++ line) (clean : '\n' ∉ line) {scan : Scan μ}
    (position : scan.p = before.length) :
    finishLine (readBuf size content) content.length scan =
      .ok (.exit .finished scan.manager) := by
  have atEnd : before.length + line.length = content.length := by simp [stored]
  have whole : content = before ++ (line ++ []) := by rw [stored, List.append_nil]
  rw [finishLine, position, advance_newline fits whole clean (.inl rfl)]
  simp only [bind, Except.bind]
  rw [if_pos atEnd]

theorem copySwitch_eq (fits : content.length ≤ size) (ends : EndsLine rest) :
    ∀ {before line : List Char} (buf : List Char), content = before ++ (line ++ rest) →
      '\n' ∉ line → buf.length ≤ 125 →
      copySwitch (readBuf size content) (content.length - before.length) before.length buf =
        .ok (before.length + line.length, buf ++ line.take (125 - buf.length))
  | before, [], buf, stored, _, _ => by
      rcases ends with rfl | ⟨after, rfl⟩
      · have noRoom : content.length - before.length = 0 := by simp [stored]
        rw [noRoom, copySwitch]
        simp
      · have room : content.length - before.length = after.length + 1 := by simp [stored]
        have next : (readBuf size content).read before.length = .ok '\n' :=
          Block.read_append (readBuf size content) (by simpa using stored) fits
        rw [room, copySwitch, next]
        simp [bind, Except.bind]
  | before, c :: line, buf, stored, clean, short => by
      simp only [List.mem_cons, not_or] at clean
      have room : content.length - before.length =
          content.length - (before ++ [c]).length + 1 := by
        rw [stored]
        simp
        omega
      have next : (readBuf size content).read before.length = .ok c :=
        Block.read_append (readBuf size content) (by simpa using stored) fits
      have shifted : content = (before ++ [c]) ++ (line ++ rest) := by simpa using stored
      rw [room, copySwitch, next]
      simp only [bind, Except.bind]
      rw [if_neg (Ne.symm clean.1)]
      have position : before.length + 1 = (before ++ [c]).length := by simp
      by_cases more : buf.length < 125
      · have later := copySwitch_eq fits ends (buf ++ [c]) shifted clean.2
          (by simp; omega)
        rw [if_pos more, if_pos (by omega), position, later]
        have count : 125 - buf.length = 125 - (buf ++ [c]).length + 1 := by
          simp
          omega
        rw [count, List.take_succ_cons]
        simp
        omega
      · have later := copySwitch_eq fits ends buf shifted clean.2 short
        rw [if_neg more, position, later]
        have count : 125 - buf.length = 0 := by omega
        simp [count]
        omega

theorem scanSwitch_eq (fits : content.length ≤ size)
    (stored : content = before ++ (line ++ rest)) (clean : '\n' ∉ line)
    (ends : EndsLine rest) (scan : Scan μ) :
    scanSwitch dialect (readBuf size content) content.length scan before.length =
      match switchLine dialect line scan.manager with
      | (true, manager) => .ok (.exit .closeAll manager)
      | (false, manager) =>
          .ok (.next { scan with p := before.length + line.length + 1, manager := manager }) := by
  have kept : (line.take 125).length < (zeroed .logSwitchBuf 128).size := by
    have atMost := List.length_take_le 125 line
    simp only [zeroed]
    omega
  rw [scanSwitch, copySwitch_eq fits ends [] stored clean (by simp)]
  simp only [bind, Except.bind, List.nil_append, List.length_nil, Nat.sub_zero,
    Block.copyTerminated, if_pos kept, switchLine]
  rcases switchChar dialect (line.take 125) with _ | c
  · rfl
  · simp only
    split_ifs <;> rfl

/-! ## One iteration -/

variable (handleBlock : ℕ → ℕ → Except Fault (Option ConfPairs))

private theorem blanks_append {first : Char} {body : List Char}
    (split : line.dropWhile isBlank = first :: body) :
    line = line.takeWhile isBlank ++ first :: body := by
  rw [← split, List.takeWhile_append_dropWhile]

private theorem takeWhile_blank_eq_self (blank : line.dropWhile isBlank = []) :
    line.takeWhile isBlank = line := by
  have parts : line.takeWhile isBlank ++ line.dropWhile isBlank = line :=
    List.takeWhile_append_dropWhile
  rwa [blank, List.append_nil] at parts

private theorem scanDispatchUsing_newline (fits : content.length ≤ size) {after : List Char}
    (stored : content = before ++ '\n' :: after) (scan : Scan μ) :
    scanDispatchUsing dialect (readBuf size content) handleBlock content.length scan before.length =
      .ok (.next { scan with p := before.length + 1 }) := by
  have atNewline : (readBuf size content).read before.length = .ok '\n' :=
    Block.read_append (readBuf size content) stored fits
  have empty : content = before ++ ([] ++ '\n' :: after) := stored
  rw [scanDispatchUsing, atNewline]
  simp only [bind, Except.bind]
  rw [if_neg (by decide), scanBlockLineUsing, atNewline]
  simp only [bind, Except.bind]
  rw [if_neg (by simp), if_neg (by decide), finishLine_next fits empty (by simp) rfl]
  simp

private theorem scanBlockLineUsing_line (fits : content.length ≤ size) {first : Char}
    {body after : List Char} (stored : content = before ++ (first :: body ++ '\n' :: after))
    (clean : '\n' ∉ first :: body) (scan : Scan μ) :
    scanBlockLineUsing dialect (readBuf size content) handleBlock content.length scan
        before.length =
      if first = '-' then
        if scan.blockStartFlag = false then
          if "-end".toList <+: first :: body then do
            let newPairs ← handleBlock scan.blockStart before.length
            .ok (.next { scan with
              p := before.length + (first :: body).length + 1
              blockStartFlag := true
              manager := insertParsed dialect scan.manager newPairs })
          else
            .ok (.exit .endError scan.manager)
        else
          .ok (.next { scan with
            p := before.length + (first :: body).length + 1
            blockStart := before.length + 1
            blockStartFlag := false })
      else
        .ok (.next { scan with p := before.length + (first :: body).length + 1 }) := by
  have atFirst : (readBuf size content).read before.length = .ok first :=
    Block.read_append (readBuf size content) stored fits
  rw [scanBlockLineUsing, atFirst]
  simp only [bind, Except.bind]
  by_cases dash : first = '-'
  · by_cases opened : scan.blockStartFlag = false
    · have noNewline : '\n' ∉ "-end".toList := by decide
      rw [if_pos ⟨dash, opened⟩, if_pos dash, if_pos opened,
        Block.startsWith_line (readBuf size content) fits noNewline stored]
      by_cases ended : "-end".toList <+: first :: body
      · simp only [ended, decide_true, if_true]
        rcases handleBlock scan.blockStart before.length with fault | newPairs
        · rfl
        · exact finishLine_next fits stored clean rfl
      · simp only [ended, decide_false, if_false, Bool.false_eq_true]
    · have behindDash : content = (before ++ [first]) ++ (body ++ '\n' :: after) := by
        simpa using stored
      rw [if_neg (fun both => opened both.2), if_pos dash, if_pos dash, if_neg opened,
        finishLine_next fits behindDash (fun member => clean (List.mem_cons_of_mem _ member))
          (by simp)]
      simp [Nat.add_comm, Nat.add_left_comm]
  · rw [if_neg (fun both => dash both.1), if_neg dash, if_neg dash]
    exact finishLine_next fits stored clean rfl

private theorem behind_blanks (stored : content = before ++ (line ++ rest)) (clean : '\n' ∉ line)
    {first : Char} {body : List Char} (split : line.dropWhile isBlank = first :: body) :
    content = (before ++ line.takeWhile isBlank) ++ (first :: body ++ rest) ∧
      '\n' ∉ first :: body ∧
      before.length + (line.takeWhile isBlank).length + (first :: body).length =
        before.length + line.length := by
  have parts := blanks_append split
  refine ⟨?_, ?_, ?_⟩
  · rw [stored]
    nth_rewrite 1 [parts]
    simp
  · intro member
    apply clean
    rw [parts]
    exact List.mem_append_right _ member
  · nth_rewrite 2 [parts]
    rw [List.length_append]
    omega

section Iteration

variable (fits : content.length ≤ size) (stored : content = before ++ (line ++ rest))
  (clean : '\n' ∉ line) (ends : EndsLine rest) {scan : Scan μ} (position : scan.p = before.length)

include fits stored clean ends position

private theorem scanLineUsing_blank (blank : line.dropWhile isBlank = []) :
    scanLineUsing dialect (readBuf size content) handleBlock content.length scan =
      scanDispatchUsing dialect (readBuf size content) handleBlock content.length scan
        (before.length + line.length) := by
  rw [scanLineUsing, position, advance_blank fits stored clean ends,
    takeWhile_blank_eq_self blank]
  simp only [bind, Except.bind]
  have notComment : (readBuf size content).read (before.length + line.length) ≠ .ok '#' := by
    rcases ends with rfl | ⟨after, rfl⟩
    · have lineEnd : before.length + line.length = (readBuf size content).stored.length := by
        rw [readBuf_stored, stored]
        simp
      rw [lineEnd]
      by_cases full : (readBuf size content).stored.length = (readBuf size content).size
      · rw [Block.read_full (readBuf size content) full]
        simp
      · rw [Block.read_end (readBuf size content) (lt_of_le_of_ne fits full), readBuf_fill]
        decide
    · have storedNewline : content = (before ++ line) ++ '\n' :: after := by
        simpa using stored
      rw [← List.length_append, Block.read_append (readBuf size content) storedNewline fits]
      decide
  cases found : (readBuf size content).read (before.length + line.length) with
  | error fault =>
      rw [scanDispatchUsing, found]
      rfl
  | ok c =>
      have other : c ≠ '#' := by
        rintro rfl
        exact notComment found
      simp only
      rw [if_neg other]

/-- Any other line is left behind too if it is a comment, and is handled by its first
character if it is none. -/
private theorem scanLineUsing_behind {first : Char} {body : List Char}
    (split : line.dropWhile isBlank = first :: body) :
    scanLineUsing dialect (readBuf size content) handleBlock content.length scan =
      if first = '#' then
        scanDispatchUsing dialect (readBuf size content) handleBlock content.length scan
          (before.length + line.length)
      else if first = '@' then
        match switchLine dialect body scan.manager with
        | (true, manager) => .ok (.exit .closeAll manager)
        | (false, manager) =>
            .ok (.next { scan with p := before.length + line.length + 1, manager := manager })
      else
        scanBlockLineUsing dialect (readBuf size content) handleBlock content.length scan
          (before.length + (line.takeWhile isBlank).length) := by
  rcases behind_blanks stored clean split with ⟨storedBody, bodyClean, lineEnd⟩
  have atFirst := Block.read_append (readBuf size content) storedBody fits
  rw [List.length_append] at atFirst
  rw [scanLineUsing, position, advance_blank fits stored clean ends]
  simp only [bind, Except.bind]
  rw [atFirst]
  simp only
  by_cases comment : first = '#'
  · have skip := advance_newline fits storedBody bodyClean ends
    rw [List.length_append, lineEnd] at skip
    rw [if_pos comment, if_pos comment, skip]
  · rw [if_neg comment, if_neg comment, scanDispatchUsing, atFirst]
    simp only [bind, Except.bind]
    by_cases switch : first = '@'
    · have storedRest : content =
          (before ++ line.takeWhile isBlank ++ [first]) ++ (body ++ rest) := by
        simpa using storedBody
      have run := scanSwitch_eq dialect fits storedRest
        (fun member => bodyClean (List.mem_cons_of_mem _ member)) ends scan
      have behind : (before ++ line.takeWhile isBlank ++ [first]).length =
          before.length + (line.takeWhile isBlank).length + 1 := by
        simp [Nat.add_assoc]
      have total : before.length + (line.takeWhile isBlank).length + 1 + body.length =
          before.length + line.length := by
        rw [← lineEnd, List.length_cons]
        omega
      rw [behind, total] at run
      rw [if_pos switch, if_pos switch, run]
    · rw [if_neg switch, if_neg switch]

end Iteration

theorem scanLineUsing_line (fits : content.length ≤ size) {after : List Char}
    (stored : content = before ++ (line ++ '\n' :: after)) (clean : '\n' ∉ line)
    {scan : Scan μ} (position : scan.p = before.length) :
    scanLineUsing dialect (readBuf size content) handleBlock content.length scan =
      match line.dropWhile isBlank with
      | [] => .ok (.next { scan with p := before.length + line.length + 1 })
      | first :: rest =>
          if first = '@' then
            match switchLine dialect rest scan.manager with
            | (true, manager) => .ok (.exit .closeAll manager)
            | (false, manager) =>
                .ok (.next { scan with
                  p := before.length + line.length + 1, manager := manager })
          else if first = '-' then
            if scan.blockStartFlag = false then
              if "-end".toList <+: first :: rest then do
                let newPairs ← handleBlock scan.blockStart
                  (before.length + (line.takeWhile isBlank).length)
                .ok (.next { scan with
                  p := before.length + line.length + 1
                  blockStartFlag := true
                  manager := insertParsed dialect scan.manager newPairs })
              else
                .ok (.exit .endError scan.manager)
            else
              .ok (.next { scan with
                p := before.length + line.length + 1
                blockStart := before.length + (line.takeWhile isBlank).length + 1
                blockStartFlag := false })
          else
            .ok (.next { scan with p := before.length + line.length + 1 }) := by
  have ends : EndsLine ('\n' :: after) := .inr ⟨after, rfl⟩
  have storedNewline : content = (before ++ line) ++ '\n' :: after := by
    simpa using stored
  have onNewline := scanDispatchUsing_newline dialect handleBlock fits storedNewline scan
  rw [List.length_append] at onNewline
  rcases split : line.dropWhile isBlank with _ | ⟨first, rest⟩
  · rw [scanLineUsing_blank dialect handleBlock fits stored clean ends position split, onNewline]
  · rcases behind_blanks stored clean split with ⟨storedBody, bodyClean, lineEnd⟩
    rw [scanLineUsing_behind dialect handleBlock fits stored clean ends position split]
    dsimp only
    by_cases comment : first = '#'
    · rw [if_pos comment, onNewline, if_neg (by simp [comment]), if_neg (by simp [comment])]
    · rw [if_neg comment]
      by_cases switch : first = '@'
      · rw [if_pos switch, if_pos switch]
      · have run := scanBlockLineUsing_line dialect handleBlock fits storedBody bodyClean scan
        rw [List.length_append, lineEnd] at run
        rw [if_neg switch, if_neg switch, run]

private theorem scanDispatchUsing_end (fits : content.length ≤ size) (scan : Scan μ) :
    scanDispatchUsing dialect (readBuf size content) handleBlock content.length scan
        content.length =
      if content.length = size then .error (.outOfBounds .rdBuf size)
      else .ok (.exit .finished scan.manager) := by
  by_cases full : content.length = size
  · have overrun := Block.read_full (readBuf size content) full
    rw [readBuf_stored] at overrun
    rw [if_pos full, scanDispatchUsing, overrun]
    rfl
  · have room : (readBuf size content).stored.length < (readBuf size content).size :=
      lt_of_le_of_ne fits full
    have filled := Block.read_end (readBuf size content) room
    rw [readBuf_stored, readBuf_fill] at filled
    have whole : content = content ++ [] := (List.append_nil content).symm
    have atEnd : { scan with p := content.length }.p = content.length := rfl
    have finished := finishLine_exit fits whole (by simp) atEnd
    rw [if_neg full, scanDispatchUsing, filled]
    simp only [bind, Except.bind]
    rw [if_neg (by decide), scanBlockLineUsing, filled]
    simp only [bind, Except.bind]
    rw [if_neg (fun both => absurd both.1 (by decide)), if_neg (by decide), finished]

private theorem startsWith_end (fits : content.length ≤ size)
    (stored : content = before ++ line) :
    (readBuf size content).startsWith "-end".toList before.length =
      if "-end".toList <+: line then .ok true
      else if content.length = size ∧ line <+: "-end".toList then
        .error (.outOfBounds .rdBuf size)
      else .ok false := by
  by_cases full : content.length = size
  · rw [Block.startsWith_full (readBuf size content) full _ stored]
    simp [full]
  · have room : (readBuf size content).stored.length < (readBuf size content).size :=
      lt_of_le_of_ne fits full
    rw [Block.startsWith_last (readBuf size content) room (by rw [readBuf_fill]; decide) stored]
    by_cases ended : "-end".toList <+: line
    · rw [if_pos ended, decide_eq_true ended]
    · rw [if_neg ended, if_neg (fun both => full both.1), decide_eq_false ended]

private theorem scanBlockLineUsing_tail (fits : content.length ≤ size) {first : Char}
    {body : List Char} (stored : content = before ++ first :: body)
    (clean : '\n' ∉ first :: body) (scan : Scan μ) :
    scanBlockLineUsing dialect (readBuf size content) handleBlock content.length scan
        before.length =
      if first = '-' ∧ scan.blockStartFlag = false then
        if "-end".toList <+: first :: body then do
          let newPairs ← handleBlock scan.blockStart before.length
          .ok (.exit .finished (insertParsed dialect scan.manager newPairs))
        else if content.length = size ∧ first :: body <+: "-end".toList then
          .error (.outOfBounds .rdBuf size)
        else
          .ok (.exit .endError scan.manager)
      else
        .ok (.exit .finished scan.manager) := by
  have atFirst : (readBuf size content).read before.length = .ok first :=
    Block.read_append (readBuf size content) stored fits
  rw [scanBlockLineUsing, atFirst]
  simp only [bind, Except.bind]
  by_cases inside : first = '-' ∧ scan.blockStartFlag = false
  · rw [if_pos inside, if_pos inside, startsWith_end fits stored]
    by_cases ended : "-end".toList <+: first :: body
    · simp only [if_pos ended]
      rw [if_pos trivial]
      rcases handleBlock scan.blockStart before.length with fault | newPairs
      · rfl
      · exact finishLine_exit fits stored clean rfl
    · simp only [if_neg ended]
      by_cases overrun : content.length = size ∧ first :: body <+: "-end".toList
      · rw [if_pos overrun, if_pos overrun]
      · rw [if_neg overrun, if_neg overrun]
        rfl
  · rw [if_neg inside, if_neg inside]
    by_cases dash : first = '-'
    · have behindDash : content = (before ++ [first]) ++ body := by
        simpa using stored
      rw [if_pos dash]
      exact finishLine_exit fits behindDash
        (fun member => clean (List.mem_cons_of_mem _ member)) (by simp)
    · rw [if_neg dash]
      exact finishLine_exit fits stored clean rfl

theorem scanLineUsing_tail (fits : content.length ≤ size)
    (stored : content = before ++ line) (nonempty : line ≠ []) (clean : '\n' ∉ line)
    {scan : Scan μ} (position : scan.p = before.length)
    {handleSection : List (List Char) → Except Fault (Option ConfPairs)}
    {block : Option (List (List Char))}
    (closed : block = none → scan.blockStartFlag = true)
    (opened : ∀ lines, block = some lines → scan.blockStartFlag = false ∧
      (line.dropWhile isBlank ≠ [] →
        handleBlock scan.blockStart (before.length + (line.takeWhile isBlank).length) =
          handleSection lines))
    (budget : ℕ) :
    scanFileUsing dialect (readBuf size content) handleBlock content.length (budget + 1) scan =
      scanTailUsing dialect size handleSection (content.length = size) line block scan.manager := by
  have inside : scan.p < content.length := by
    rw [position, stored, List.length_append]
    have positive := List.length_pos_of_ne_nil nonempty
    omega
  have lineEnd : before.length + line.length = content.length := by simp [stored]
  have atEnd := scanDispatchUsing_end dialect handleBlock fits scan
  have whole : content = before ++ (line ++ []) := by rw [stored, List.append_nil]
  rw [scanFileUsing, if_pos inside, scanTailUsing]
  rcases split : line.dropWhile isBlank with _ | ⟨first, rest⟩
  · rw [scanLineUsing_blank dialect handleBlock fits whole clean (.inl rfl) position split,
      lineEnd, atEnd]
    by_cases full : content.length = size
    · simp [full, nonempty, bind, Except.bind]
    · simp [full, bind, Except.bind]
  · rcases behind_blanks whole clean split with ⟨wholeBody, bodyClean, _⟩
    rw [scanLineUsing_behind dialect handleBlock fits whole clean (.inl rfl) position split,
      lineEnd]
    dsimp only
    by_cases comment : first = '#'
    · rw [if_pos comment, if_pos comment, atEnd]
      by_cases full : content.length = size
      · simp [full, bind, Except.bind]
      · simp [full, bind, Except.bind]
    · rw [if_neg comment, if_neg comment]
      by_cases switch : first = '@'
      · rw [if_pos switch, if_pos switch]
        rcases switchLine dialect rest scan.manager with ⟨_ | _, manager⟩
        · cases budget with
          | zero => simp only [bind, Except.bind, scanFileUsing, if_neg (Nat.not_succ_lt_self)]
          | succ => simp only [bind, Except.bind, scanFileUsing, if_neg (Nat.not_succ_lt_self)]
        · rfl
      · have storedBody : content = (before ++ line.takeWhile isBlank) ++ first :: rest := by
          simpa using wholeBody
        have run := scanBlockLineUsing_tail dialect handleBlock fits storedBody bodyClean scan
        rw [List.length_append] at run
        rw [if_neg switch, if_neg switch, run]
        by_cases dash : first = '-'
        · rw [if_pos dash]
          rcases block with _ | lines
          · rw [if_neg (by simp [closed rfl])]
            rfl
          · rcases opened lines rfl with ⟨flag, reread⟩
            rw [if_pos ⟨dash, flag⟩, reread (by simp [split])]
            by_cases ended : "-end".toList <+: first :: rest
            · simp only [if_pos ended]
              rcases handleSection lines with fault | newPairs
              · rfl
              · rfl
            · simp only [if_neg ended, decide_eq_true_eq]
              by_cases overrun : content.length = size ∧
                  first :: rest <+: "-end".toList
              · rw [if_pos overrun, if_pos overrun]
                rfl
              · rw [if_neg overrun, if_neg overrun]
                rfl
        · rw [if_neg (fun both => dash both.1), if_neg dash]
          rfl

/-! ## The simulation -/

/-- What the block handler gives for a part of the text is what `handleSection`
gives for the complete lines of that part. -/
def Rereads (content : List Char)
    (handleSection : List (List Char) → Except Fault (Option ConfPairs)) : Prop :=
  ∀ {start last after : List Char} {lines : List (List Char)} {stop : ℕ},
    content = start ++ (Lines.join '\n' lines ++ last) ++ after →
    stop = start.length + (Lines.join '\n' lines ++ last).length →
    (∀ line ∈ lines, '\n' ∉ line) → '\n' ∉ last →
    after ≠ [] → handleBlock start.length stop = handleSection lines

theorem rereads_handleConfBlock (fits : content.length ≤ size)
    (readToken : BufferName → List Char → Except Fault (Option (List Char))) :
    Rereads (handleConfBlockUsing (readBuf size content) readToken) content
      (fun lines => handleLinesUsing readToken lines none) :=
  fun stored stopEqual clean lastClean _ =>
    handleConfBlockUsing_eq fits stored stopEqual clean lastClean

variable {handleBlock}

/-- The program stands at the beginning of a line: `before` is behind the
pointer, and when a section is open its lines since `blockStart` are `lines`. -/
structure AtLine (before : List Char) (block : Option (List (List Char)))
    (scan : Scan μ) : Prop where
  position : scan.p = before.length
  closed : block = none → scan.blockStartFlag = true
  opened : ∀ lines, block = some lines → scan.blockStartFlag = false ∧
    (∀ line ∈ lines, '\n' ∉ line) ∧
    ∃ start, before = start ++ Lines.join '\n' lines ∧ scan.blockStart = start.length

namespace AtLine

variable {block : Option (List (List Char))} {scan : Scan μ}

theorem extend (state : AtLine before block scan) (clean : '\n' ∉ line) (manager : μ) :
    AtLine (before ++ line ++ ['\n']) (block.map (· ++ [line]))
      { scan with p := before.length + line.length + 1, manager := manager } := by
  refine ⟨by simp [Nat.add_assoc], ?_, ?_⟩
  · intro none
    exact state.closed (by simpa using none)
  · intro lines equal
    rcases block with _ | previous
    · simp at equal
    · simp only [Option.map_some, Option.some.injEq] at equal
      rcases state.opened previous rfl with ⟨flag, allClean, start, joined, position⟩
      refine ⟨flag, ?_, start, ?_, position⟩
      · intro other member
        rw [← equal, List.mem_append, List.mem_singleton] at member
        rcases member with old | rfl
        · exact allClean other old
        · exact clean
      · rw [← equal, joined]
        simp

theorem start {blanks header : List Char} (scan : Scan μ)
    (parts : line = blanks ++ '-' :: header) (clean : '\n' ∉ line) :
    AtLine (before ++ line ++ ['\n']) (some [header])
      { scan with
        p := before.length + line.length + 1
        blockStart := before.length + blanks.length + 1
        blockStartFlag := false } := by
  refine ⟨by simp [Nat.add_assoc], by simp, ?_⟩
  intro lines equal
  simp only [Option.some.injEq] at equal
  subst equal
  refine ⟨rfl, ?_, before ++ blanks ++ ['-'], ?_, by simp [Nat.add_assoc]⟩
  · intro other member
    rw [List.mem_singleton] at member
    subst member
    intro newline
    apply clean
    rw [parts]
    simp [newline]
  · rw [parts]
    simp

theorem finish (scan : Scan μ) (manager : μ) :
    AtLine (before ++ line ++ ['\n']) none
      { scan with
        p := before.length + line.length + 1
        blockStartFlag := true
        manager := manager } :=
  ⟨by simp [Nat.add_assoc], fun _ => rfl, by simp⟩

theorem handle {handleSection : List (List Char) → Except Fault (Option ConfPairs)}
    {lines : List (List Char)} (state : AtLine before (some lines) scan)
    (rereads : Rereads handleBlock content handleSection)
    (stored : content = before ++ (line ++ rest)) (clean : '\n' ∉ line)
    (more : line.dropWhile isBlank ≠ []) :
    handleBlock scan.blockStart (before.length + (line.takeWhile isBlank).length) =
      handleSection lines := by
  rcases state.opened lines rfl with ⟨-, allClean, start, joined, position⟩
  rw [position]
  have parts : line.takeWhile isBlank ++ line.dropWhile isBlank = line :=
    List.takeWhile_append_dropWhile
  have whole : content = start ++ (Lines.join '\n' lines ++ line.takeWhile isBlank) ++
      (line.dropWhile isBlank ++ rest) := by
    calc content = start ++ Lines.join '\n' lines ++ (line ++ rest) := by rw [stored, joined]
      _ = start ++ Lines.join '\n' lines ++
            ((line.takeWhile isBlank ++ line.dropWhile isBlank) ++ rest) := by rw [parts]
      _ = _ := by simp only [List.append_assoc]
  apply rereads whole
  · rw [joined]
    simp [Nat.add_assoc]
  · exact allClean
  · intro newline
    exact clean ((List.takeWhile_sublist _).subset newline)
  · exact List.append_ne_nil_of_left_ne_nil more _

end AtLine

section Simulation

variable {tail : List Char} {handleSection : List (List Char) → Except Fault (Option ConfPairs)}
  (fits : content.length ≤ size) (rereads : Rereads handleBlock content handleSection)
  {block : Option (List (List Char))} {scan : Scan μ} {budget : ℕ}

include fits rereads

theorem scanFileUsing_last (tailClean : '\n' ∉ tail) (stored : content = before ++ tail)
    (state : AtLine before block scan) (enough : tail.length ≤ budget) :
    scanFileUsing dialect (readBuf size content) handleBlock content.length budget scan =
      scanTailUsing dialect size handleSection (content.length = size) tail block scan.manager := by
  by_cases empty : tail = []
  · have atEnd : ¬scan.p < content.length := by
      rw [state.position, stored, empty]
      simp
    subst empty
    cases budget with
    | zero => simp [scanFileUsing, atEnd, scanTailUsing]
    | succ budget => simp [scanFileUsing, atEnd, scanTailUsing]
  · cases budget with
    | zero => exact absurd (List.length_eq_zero_iff.mp (Nat.le_zero.mp enough)) empty
    | succ budget =>
        apply scanLineUsing_tail dialect handleBlock fits stored empty tailClean state.position
          state.closed
        intro lines equal
        subst equal
        exact ⟨(state.opened lines rfl).1,
          state.handle rereads (by rw [stored, List.append_nil]) tailClean⟩

theorem scanFileUsing_step {lines : List (List Char)} {after : List Char}
    (stored : content = before ++ (line ++ '\n' :: after)) (clean : '\n' ∉ line)
    (state : AtLine before block scan)
    (continues : ∀ {block : Option (List (List Char))} {next : Scan μ},
      AtLine (before ++ line ++ ['\n']) block next →
      scanFileUsing dialect (readBuf size content) handleBlock content.length budget next =
        scanLinesUsing dialect size handleSection (content.length = size) tail lines block
          next.manager) :
    scanFileUsing dialect (readBuf size content) handleBlock content.length (budget + 1) scan =
      scanLinesUsing dialect size handleSection (content.length = size) tail (line :: lines) block
        scan.manager := by
  have inside : scan.p < content.length := by
    rw [state.position, stored]
    simp only [List.length_append, List.length_cons]
    omega
  rw [scanFileUsing, if_pos inside,
    scanLineUsing_line dialect handleBlock fits stored clean state.position, scanLinesUsing]
  rcases split : line.dropWhile isBlank with _ | ⟨first, rest⟩
  · exact continues (state.extend clean scan.manager)
  · have parts := blanks_append split
    simp only
    by_cases switch : first = '@'
    · rw [if_pos switch, if_pos switch]
      rcases switchLine dialect rest scan.manager with ⟨_ | _, manager⟩
      · exact continues (state.extend clean manager)
      · rfl
    · rw [if_neg switch, if_neg switch]
      by_cases dash : first = '-'
      · rw [if_pos dash, if_pos dash]
        rcases block with _ | content'
        · have flag := state.closed rfl
          rw [if_neg (by simp [flag])]
          exact continues (AtLine.start scan (by rw [dash] at parts; exact parts) clean)
        · have flag := (state.opened content' rfl).1
          rw [if_pos flag]
          simp only
          by_cases ended : "-end".toList <+: first :: rest
          · rw [if_pos ended, if_pos ended, state.handle rereads stored clean (by simp [split])]
            simp only [bind, Except.bind]
            rcases handleSection content' with fault | newPairs
            · rfl
            · exact continues (AtLine.finish scan _)
          · rw [if_neg ended, if_neg ended]
            rfl
      · rw [if_neg dash, if_neg dash]
        exact continues (state.extend clean scan.manager)

/-- The line machine and the loop agree from every line boundary on. -/
theorem scanFileUsing_eq (tailClean : '\n' ∉ tail) {lines : List (List Char)}
    (stored : content = before ++ (Lines.join '\n' lines ++ tail))
    (clean : ∀ line ∈ lines, '\n' ∉ line) (state : AtLine before block scan)
    (enough : (Lines.join '\n' lines ++ tail).length ≤ budget) :
    scanFileUsing dialect (readBuf size content) handleBlock content.length budget scan =
      scanLinesUsing dialect size handleSection (content.length = size) tail lines block
        scan.manager := by
  induction lines generalizing before block scan budget with
  | nil =>
      rw [Lines.join_nil, List.nil_append] at stored enough
      exact scanFileUsing_last dialect fits rereads tailClean stored state enough
  | cons line lines induction =>
      rw [Lines.join_cons, List.append_assoc, List.cons_append] at stored enough
      cases budget with
      | zero => simp at enough
      | succ budget =>
          have storedNext : content =
              (before ++ line ++ ['\n']) ++ (Lines.join '\n' lines ++ tail) := by
            simpa using stored
          have enoughNext : (Lines.join '\n' lines ++ tail).length ≤ budget := by
            simp at enough ⊢
            omega
          apply scanFileUsing_step dialect fits rereads stored (clean line (List.mem_cons_self ..))
            state
          intro block next nextState
          exact induction storedNext
            (fun other member => clean other (List.mem_cons_of_mem _ member)) nextState enoughNext

end Simulation

/-- Parsing a file is running the line machine over the lines of its first
`MAX_CONF_FILE_SIZE` bytes, whichever `get_string` is used. -/
theorem parseFileUsing_eq
    (readToken : BufferName → List Char → Except Fault (Option (List Char)))
    (file : List Char) (manager : μ) :
    parseFileUsing dialect readToken file manager =
      scanLinesUsing dialect maxConfFileSize (fun lines => handleLinesUsing readToken lines none)
        (maxConfFileSize ≤ file.length)
        (Lines.split '\n' (file.take maxConfFileSize)).2
        (Lines.split '\n' (file.take maxConfFileSize)).1 none manager := by
  have clean := Lines.separator_not_mem_split '\n' (file.take maxConfFileSize)
  have joined := Lines.join_split '\n' (file.take maxConfFileSize)
  have fits : (file.take maxConfFileSize).length ≤ maxConfFileSize := List.length_take_le _ _
  have full : ((file.take maxConfFileSize).length = maxConfFileSize) ↔
      maxConfFileSize ≤ file.length := by
    rw [List.length_take]
    omega
  have start : AtLine [] none (⟨0, 0, true, manager⟩ : Scan μ) :=
    ⟨rfl, fun _ => rfl, by simp⟩
  have run := scanFileUsing_eq dialect fits (rereads_handleConfBlock fits readToken) clean.2
    joined.symm clean.1 start (by rw [joined])
  rw [decide_eq_decide.mpr full] at run
  exact run

theorem parseFile_eq (file : List Char) (manager : μ) :
    parseFile dialect file manager =
      scanLines dialect (maxConfFileSize ≤ file.length)
        (Lines.split '\n' (file.take maxConfFileSize)).2
        (Lines.split '\n' (file.take maxConfFileSize)).1 none manager :=
  parseFileUsing_eq dialect getString file manager

end Lctools.Conf
