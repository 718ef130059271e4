import Lctools.Conf.Outcome

/-! # The cursor stays in the text

To see what the parser looks at, it runs here in a buffer that ends one byte
behind the text, and a block whose ends are not in the text is refused. On every
file that is smaller than the real buffer this run is the run of the program, and
nothing but `get_string` can make it fail.
-/

namespace Lctools.Conf

open Buffer CString

/-! ## One iteration moves the cursor on -/

section Cursor

variable {μ : Type} {dialect : Dialect μ} {rd : Block BufferName Char}
  {handleBlock : ℕ → ℕ → Except Fault (Option ConfPairs)} {stop : ℕ} {scan next : Scan μ}
  {p : ℕ}

theorem copySwitch_between : ∀ {room p q : ℕ} {buf copied : List Char},
    copySwitch rd room p buf = .ok (q, copied) → p ≤ q ∧ q ≤ p + room
  | 0, p, q, buf, copied, ended => by
      cases ended
      exact ⟨le_refl _, le_refl _⟩
  | room + 1, p, q, buf, copied, ended => by
      rw [copySwitch] at ended
      rcases Fallible.of_bind_ok ended with ⟨c, -, continued⟩
      by_cases newline : c = '\n'
      · rw [if_pos newline] at continued
        cases continued
        omega
      rw [if_neg newline] at continued
      have later : ∃ kept, copySwitch rd room (p + 1) kept = .ok (q, copied) := by
        split_ifs at continued
        · exact ⟨_, continued⟩
        · exact ⟨_, continued⟩
      rcases later with ⟨kept, rest⟩
      rcases copySwitch_between rest with ⟨behind, before⟩
      omega

theorem scanSwitch_between (inside : p ≤ stop)
    (ended : scanSwitch dialect rd stop scan p = .ok (.next next)) :
    p < next.p ∧ next.p ≤ stop + 1 := by
  rw [scanSwitch] at ended
  rcases Fallible.of_bind_ok ended with ⟨⟨q, buf⟩, copied, continued⟩
  have between := copySwitch_between copied
  rcases Fallible.of_bind_ok continued with ⟨switchBuf, -, decided⟩
  have position : next.p = q + 1 := by
    generalize switchChar dialect switchBuf.stored = found at decided
    cases found with
    | none =>
        cases decided
        rfl
    | some c =>
        simp only at decided
        split_ifs at decided
        · cases decided
        · cases decided
          rfl
  omega

theorem finishLine_between (inside : scan.p ≤ stop)
    (ended : finishLine rd stop scan = .ok (.next next)) :
    scan.p < next.p ∧ next.p ≤ stop := by
  rw [finishLine] at ended
  rcases Fallible.of_bind_ok ended with ⟨q, advanced, decided⟩
  have between := Block.advance_between advanced
  split_ifs at decided with atEnd
  · cases decided
  · cases decided
    show scan.p < q + 1 ∧ q + 1 ≤ stop
    omega

section EndByte

variable (zero : rd.read stop = .ok nul)

include zero

/-- The byte at `end` is zero, so a byte with another value lies in front of it. -/
theorem lt_stop_of_read {c : Char} (inside : p ≤ stop) (read : rd.read p = .ok c)
    (visible : c ≠ nul) : p < stop := by
  refine lt_of_le_of_ne inside ?_
  rintro rfl
  rw [zero] at read
  cases read
  exact visible rfl

theorem scanBlockLineUsing_between (inside : p ≤ stop)
    (ended : scanBlockLineUsing dialect rd handleBlock stop scan p = .ok (.next next)) :
    p < next.p ∧ next.p ≤ stop := by
  rw [scanBlockLineUsing] at ended
  rcases Fallible.of_bind_ok ended with ⟨c, read, decided⟩
  by_cases closing : c = '-' ∧ scan.blockStartFlag = false
  · rw [if_pos closing] at decided
    rcases Fallible.of_bind_ok decided with ⟨isEnd, -, compared⟩
    split_ifs at compared
    · rcases Fallible.of_bind_ok compared with ⟨newPairs, -, finished⟩
      exact finishLine_between inside finished
    · cases compared
  rw [if_neg closing] at decided
  by_cases dash : c = '-'
  · rw [if_pos dash] at decided
    have before := lt_stop_of_read zero inside read (by rw [dash]; decide)
    have between := finishLine_between (Nat.succ_le_of_lt before) decided
    simp only at between
    omega
  · rw [if_neg dash] at decided
    exact finishLine_between inside decided

theorem scanDispatchUsing_between (inside : p ≤ stop)
    (ended : scanDispatchUsing dialect rd handleBlock stop scan p = .ok (.next next)) :
    p < next.p ∧ next.p ≤ stop + 1 := by
  rw [scanDispatchUsing] at ended
  rcases Fallible.of_bind_ok ended with ⟨c, read, decided⟩
  split_ifs at decided with switch
  · have before := lt_stop_of_read zero inside read (by rw [switch]; decide)
    have between := scanSwitch_between (Nat.succ_le_of_lt before) decided
    omega
  · have between := scanBlockLineUsing_between zero inside decided
    omega

theorem scanLineUsing_between (inside : scan.p < stop)
    (ended : scanLineUsing dialect rd handleBlock stop scan = .ok (.next next)) :
    scan.p < next.p ∧ next.p ≤ stop + 1 := by
  rw [scanLineUsing] at ended
  rcases Fallible.of_bind_ok ended with ⟨q, blanks, continued⟩
  have skipped := Block.advance_between blanks
  rcases Fallible.of_bind_ok continued with ⟨c, -, decided⟩
  split_ifs at decided
  · rcases Fallible.of_bind_ok decided with ⟨r, comment, dispatched⟩
    have commented := Block.advance_between comment
    have between := scanDispatchUsing_between zero (by omega) dispatched
    omega
  · have between := scanDispatchUsing_between zero (by omega) decided
    omega

end EndByte

end Cursor

/-! ## Only `get_string` fails -/

section Faults

variable (readToken : BufferName → List Char → Except Fault (Option (List Char)))

/-- A fault of `get_string`, called for one of the three arrays of a section. -/
def TokenFault (fault : Fault) : Prop :=
  ∃ dst src, (dst = .modeName ∨ dst = .pairName ∨ dst = .pairValue) ∧
    readToken dst src = .error fault

theorem tokenFault_getString {fault : Fault} (raised : TokenFault getString fault) :
    fault ≠ .unfinished ∧ ∀ index, fault ≠ .outOfBounds .rdBuf index := by
  rcases raised with ⟨dst, src, array, failed⟩
  rw [getString_eq] at failed
  split_ifs at failed
  · cases failed
    simp
  · cases failed
    rcases array with rfl | rfl | rfl <;> simp

variable {readToken} {fault : Fault}

theorem iriConfLineHandleUsing_fault {part : List Char}
    (failed : iriConfLineHandleUsing readToken part = .error fault) :
    TokenFault readToken fault := by
  rw [iriConfLineHandleUsing_eq] at failed
  split_ifs at failed
  rcases name : readToken .pairName (keyPart part) with other | _ | token
  · rw [name] at failed
    cases failed
    exact ⟨_, _, .inr (.inl rfl), name⟩
  · rw [name] at failed
    cases failed
  · rcases value : readToken .pairValue (valuePart part) with other | _ | found
    · rw [name, value] at failed
      cases failed
      exact ⟨_, _, .inr (.inr rfl), value⟩
    · rw [name, value] at failed
      cases failed
    · rw [name, value] at failed
      cases failed

theorem handleLineUsing_cases (line : List Char) {confPairs : Option ConfPairs}
    (room : ∀ current, confPairs = some current → current.pairs.length < confMaxNodeNum) :
    (∃ fault, handleLineUsing readToken line confPairs = .error fault ∧
      TokenFault readToken fault) ∨
    (∃ result, handleLineUsing readToken line confPairs = .ok (.done result)) ∨
    ∃ result, handleLineUsing readToken line confPairs = .ok (.next result) ∧
      ∀ current, result = some current → current.pairs.length < confMaxNodeNum := by
  by_cases short : line.length < maxLineLen
  · by_cases absent : significant line = []
    · exact .inr (.inr ⟨confPairs, handleLineUsing_skip _ short absent confPairs, room⟩)
    · cases confPairs with
      | none =>
          rw [handleLineUsing_name _ short absent]
          rcases read : readToken .modeName (significant line) with other | _ | modeName
          · exact .inl ⟨other, rfl, _, _, .inl rfl, read⟩
          · exact .inr (.inl ⟨none, rfl⟩)
          · refine .inr (.inr ⟨_, rfl, ?_⟩)
            rintro current ⟨⟩
            exact (by decide : 0 < confMaxNodeNum)
      | some current =>
          rw [handleLineUsing_pair _ short absent (room current rfl)]
          rcases handled : iriConfLineHandleUsing readToken (significant line) with
            other | _ | pair
          · exact .inl ⟨other, rfl, iriConfLineHandleUsing_fault handled⟩
          · exact .inr (.inl ⟨none, rfl⟩)
          · simp only
            have below := room current rfl
            split_ifs with last
            · exact .inr (.inl ⟨_, rfl⟩)
            · refine .inr (.inr ⟨_, rfl, ?_⟩)
              rintro next ⟨⟩
              rw [List.length_append, List.length_singleton]
              omega
  · exact .inr (.inl ⟨confPairs, handleLineUsing_long _ short confPairs⟩)

theorem handleLinesUsing_fault : ∀ (lines : List (List Char)) {confPairs : Option ConfPairs},
    (∀ current, confPairs = some current → current.pairs.length < confMaxNodeNum) →
    handleLinesUsing readToken lines confPairs = .error fault → TokenFault readToken fault
  | [], _, _, failed => by cases failed
  | line :: lines, confPairs, room, failed => by
      rw [handleLinesUsing] at failed
      rcases handleLineUsing_cases line room with
        ⟨other, raised, token⟩ | ⟨result, done⟩ | ⟨result, goes, nextRoom⟩
      · rw [Fallible.bind_error raised] at failed
        cases failed
        exact token
      · rw [Fallible.bind_ok done] at failed
        cases failed
      · rw [Fallible.bind_ok goes] at failed
        exact handleLinesUsing_fault lines nextRoom failed

theorem handleConfBlockUsing_fault {size start stop : ℕ} {content : List Char}
    (fits : content.length ≤ size) (order : start ≤ stop) (inside : stop ≤ content.length)
    (failed : handleConfBlockUsing (readBuf size content) readToken start stop = .error fault) :
    TokenFault readToken fault := by
  have split := Lines.join_split '\n' ((content.take stop).drop start)
  have clean := Lines.separator_not_mem_split '\n' ((content.take stop).drop start)
  generalize (Lines.split '\n' ((content.take stop).drop start)).1 = lines at split clean
  generalize (Lines.split '\n' ((content.take stop).drop start)).2 = last at split clean
  have length : (content.take start).length = start :=
    List.length_take_of_le (order.trans inside)
  have whole : content = content.take start ++ (Lines.join '\n' lines ++ last) ++
      content.drop stop := by
    have front : content.take start = (content.take stop).take start := by
      rw [List.take_take, Nat.min_eq_left order]
    rw [split, front, List.take_append_drop, List.take_append_drop]
  have stopEqual : stop = (content.take start).length +
      (Lines.join '\n' lines ++ last).length := by
    rw [length, split, List.length_drop, List.length_take_of_le inside]
    omega
  have run : handleConfBlockUsing (readBuf size content) readToken (content.take start).length
      stop = handleLinesUsing readToken lines none :=
    handleConfBlockUsing_eq fits whole stopEqual clean.1 clean.2
  rw [length, failed] at run
  exact handleLinesUsing_fault lines (by simp) run.symm

theorem scanLinesUsing_fault {μ : Type} {dialect : Dialect μ} {size : ℕ}
    {handleSection : List (List Char) → Except Fault (Option ConfPairs)}
    (lines : List (List Char)) (block : Option (List (List Char))) : ∀ manager : μ,
      scanLinesUsing dialect size handleSection false [] lines block manager = .error fault →
        ∃ content, handleSection content = .error fault := by
  induction lines, block using scan_induction with
  | nil block =>
      intro manager failed
      cases failed
  | unmarked line lines block unmarked induction =>
      intro manager failed
      rw [scanLinesUsing_unmarked dialect unmarked] at failed
      exact induction manager failed
  | switch line rest lines block starts induction =>
      intro manager failed
      rw [scanLinesUsing_switch dialect starts] at failed
      generalize switchLine dialect rest manager = read at failed
      rcases read with ⟨_ | _, next⟩
      · exact induction next failed
      · cases failed
  | opening line rest lines starts induction =>
      intro manager failed
      rw [scanLinesUsing_opening dialect starts] at failed
      exact induction manager failed
  | closing line rest lines content starts isEnd induction =>
      intro manager failed
      rw [scanLinesUsing_closing dialect starts isEnd] at failed
      rcases handled : handleSection content with other | newPairs
      · rw [Fallible.bind_error handled] at failed
        cases failed
        exact ⟨content, handled⟩
      · rw [Fallible.bind_ok handled] at failed
        exact induction _ failed
  | stray line rest lines content starts stray =>
      intro manager failed
      rw [scanLinesUsing_stray dialect starts stray] at failed
      cases failed

end Faults

/-! ## The whole run -/

/-- A block handler that refuses a block whose ends are not in order or not in
the text of `len` bytes. -/
def guarded (len : ℕ) (handleBlock : ℕ → ℕ → Except Fault (Option ConfPairs))
    (start stop : ℕ) : Except Fault (Option ConfPairs) :=
  if start ≤ stop ∧ stop < len then handleBlock start stop
  else .error (.outOfBounds .rdBuf stop)

section Run

variable {μ : Type} (dialect : Dialect μ)
  (readToken : BufferName → List Char → Except Fault (Option (List Char)))

/-- One iteration in a buffer that ends one byte behind the text. -/
def guardedLine (file : List Char) (scan : Scan μ) : Except Fault (Progress μ) :=
  scanLineUsing dialect (readBuf (file.length + 1) file)
    (guarded file.length (handleConfBlockUsing (readBuf (file.length + 1) file) readToken))
    file.length scan

def guardedFile (file : List Char) (manager : μ) : Except Fault (Exit × μ) :=
  scanFileUsing dialect (readBuf (file.length + 1) file)
    (guarded file.length (handleConfBlockUsing (readBuf (file.length + 1) file) readToken))
    file.length file.length
    { p := 0, blockStart := 0, blockStartFlag := true, manager := manager }

/-- The blocks that the loop hands over are never refused. -/
theorem rereads_guarded {size : ℕ} {content : List Char} (fits : content.length ≤ size) :
    Rereads (guarded content.length (handleConfBlockUsing (readBuf size content) readToken))
      content (fun lines => handleLinesUsing readToken lines none) := by
  intro start last after lines stop stored stopEqual clean lastClean more
  have positive := List.length_pos_of_ne_nil more
  have total : content.length =
      start.length + (Lines.join '\n' lines ++ last).length + after.length := by
    rw [stored, List.length_append, List.length_append]
  have inside : start.length ≤ stop ∧ stop < content.length := by omega
  rw [guarded, if_pos inside]
  exact handleConfBlockUsing_eq fits stored stopEqual clean lastClean

theorem guardedFile_eq (file : List Char) (manager : μ) :
    guardedFile dialect readToken file manager =
      scanLinesUsing dialect (file.length + 1)
        (fun lines => handleLinesUsing readToken lines none) false []
        (Lines.pieces '\n' file) none manager := by
  have clean := Lines.separator_not_mem_split '\n' file
  have joined := Lines.join_split '\n' file
  have start : AtLine [] none (⟨0, 0, true, manager⟩ : Scan μ) :=
    ⟨rfl, fun _ => rfl, by simp⟩
  have run := scanFileUsing_eq dialect (Nat.le_succ _)
    (rereads_guarded readToken (Nat.le_succ _)) clean.2 joined.symm clean.1 start (by rw [joined])
  rw [decide_eq_false (Nat.ne_of_lt (Nat.lt_succ_self _)), scanLinesUsing_open_line] at run
  exact run

theorem scanLinesUsing_size (size other : ℕ)
    (handleSection : List (List Char) → Except Fault (Option ConfPairs)) :
    ∀ (lines : List (List Char)) (block : Option (List (List Char))) (manager : μ),
      scanLinesUsing dialect size handleSection false [] lines block manager =
        scanLinesUsing dialect other handleSection false [] lines block manager
  | [], _, _ => rfl
  | line :: lines, block, manager => by
      simp only [scanLinesUsing, scanLinesUsing_size size other handleSection lines]

/-- The scan of a file smaller than the buffer, whatever `get_string` makes of the
tokens. From every line the cursor moves on and not beyond `end + 1`;
`handle_conf_block` ends on every part of the text; the whole run ends, with every
block in the text and without a look behind the byte at `end`, unless `get_string`
fails; and this run is the run of the program. The faults of `get_string` as the
source has it are of another kind. -/
theorem scan_stays_inside {file : List Char} (small : file.length < maxConfFileSize)
    (manager : μ) :
    (∀ scan next : Scan μ, scan.p < file.length →
      guardedLine dialect readToken file scan = .ok (.next next) →
        scan.p < next.p ∧ next.p ≤ file.length + 1) ∧
    (∀ start stop fault, start ≤ stop → stop ≤ file.length →
      handleConfBlockUsing (readBuf (file.length + 1) file) readToken start stop =
        .error fault → TokenFault readToken fault) ∧
    (∀ fault, guardedFile dialect readToken file manager = .error fault →
      TokenFault readToken fault) ∧
    parseFileUsing dialect readToken file manager =
      guardedFile dialect readToken file manager ∧
    ∀ fault, TokenFault getString fault →
      fault ≠ .unfinished ∧ ∀ index, fault ≠ .outOfBounds .rdBuf index := by
  have zero : (readBuf (file.length + 1) file).read file.length = .ok nul :=
    Block.read_end (readBuf (file.length + 1) file) (Nat.lt_succ_self _)
  refine ⟨?_, ?_, ?_, ?_, fun fault => tokenFault_getString⟩
  · intro scan next inside ended
    exact scanLineUsing_between zero inside ended
  · intro start stop fault order inside failed
    exact handleConfBlockUsing_fault (Nat.le_succ _) order inside failed
  · intro fault failed
    rw [guardedFile_eq] at failed
    rcases scanLinesUsing_fault _ _ _ failed with ⟨content, handled⟩
    exact handleLinesUsing_fault content (by simp) handled
  · rw [parseFileUsing_small dialect readToken small, guardedFile_eq, fileLines_of_small small]
    exact scanLinesUsing_size dialect _ _ _ _ _ _

end Run

def listing : Dialect (List ConfPairs) where
  switchStr := "CONF_SWITCH".toList
  level c := if c = '0' then 0 else 1
  insertPairs sections confPairs := sections ++ [confPairs]
  closeAll sections := sections
  setSwitch _ sections := sections

theorem scan_stays_inside_cut_end :
    "-a\nk=1\n-end\n-b\n-en".toList.length < maxConfFileSize ∧
    parseFileUsing listing getString "-a\nk=1\n-end\n-b\n-en".toList [] =
      guardedFile listing getString "-a\nk=1\n-end\n-b\n-en".toList [] := by
  have small : "-a\nk=1\n-end\n-b\n-en".toList.length < maxConfFileSize := by decide
  exact ⟨small, (scan_stays_inside listing getString small []).2.2.2.1⟩

end Lctools.Conf
