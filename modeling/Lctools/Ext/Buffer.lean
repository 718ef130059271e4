import Lctools.Foundation.Fallible
import Lctools.Foundation.HashTable
import Lctools.Foundation.Numerals
import Lctools.Foundation.Ref
import Lctools.Foundation.Run
import Lctools.Foundation.Scratch

/-! # `utils/file_ext/file_ext.c`

A set of file name suffixes, and the query whether a file name ends in one of
them. The query collects the suffix backwards in `max_str`, a buffer that the
other calls allocate and free.
-/

namespace Lctools.Ext

open CString Numerals Fallible

/-! ## The program -/

inductive Fault where
  | pointer (fault : RefFault)
  | buffer (fault : Scratch.Fault)
  /-- `max_str_len + 1` does not fit into an `int`. -/
  | intOverflow
  deriving DecidableEq, Repr

def intMax : ℤ := 2 ^ 31 - 1
def fileExtNotMatch : ℤ := 0
def fileExtMatch : ℤ := 1

/-- `file_ext_t`. The values of `ext_hs` are never followed: a second insertion of
a suffix leaves a value that points to freed memory. -/
structure FileExt where
  count : ℤ
  extHs : List (List Char × List Char)
  maxStr : Ref (List (Option Char))
  maxStrLen : ℤ
  isBlack : ℤ
  deriving DecidableEq, Repr

/-- `int len = strlen(s);` -/
@[irreducible] def strlenInt (s : List Char) : ℤ :=
  wrapSigned 32 (text s).length

/-- `g_ascii_strdown(s, -1)`. -/
def asciiStrdown (s : List Char) : List Char :=
  (text s).map Char.toLower

def initFileExt : FileExt where
  count := 0
  extHs := []
  maxStr := .live (List.replicate 6 (some nul))
  maxStrLen := 5
  isBlack := 0

def clearFileExt : (fileExt : Option FileExt) → Except Fault (Option FileExt)
  | none => .ok none
  | some fileExt => do
      let _ ← (fileExt.maxStr.free).mapError .pointer
      .ok (some { fileExt with maxStr := .null, extHs := [], count := 0, maxStrLen := 0 })

/-- `g_malloc(max_str_len + 1)`. -/
def allocate (maxStrLen : ℤ) : Except Fault (List (Option Char)) :=
  if maxStrLen + 1 ≤ intMax then .ok (Scratch.fresh (maxStrLen + 1).toNat)
  else .error .intOverflow

/-- `file_ext->count++; g_hash_table_insert(file_ext->ext_hs, ext_key, ext_key);` -/
def insertExt (fileExt : FileExt) (ext : List Char) : FileExt :=
  { fileExt with
    count := fileExt.count + 1
    extHs := HashTable.insert (fun key => key) (asciiStrdown ext) (asciiStrdown ext)
      fileExt.extHs }

def addFileExt : (fileExt : Option FileExt) → (ext : Option (List Char)) →
    Except Fault (ℤ × Option FileExt)
  | none, _ => .ok (-1, none)
  | some fileExt, none => .ok (-1, some fileExt)
  | some fileExt, some ext => do
      let fileExt := insertExt fileExt ext
      if fileExt.maxStrLen < strlenInt ext then
        let _ ← (fileExt.maxStr.free).mapError .pointer
        let cells ← allocate (strlenInt ext)
        .ok (0, some { fileExt with maxStrLen := strlenInt ext, maxStr := .live cells })
      else
        .ok (0, some fileExt)

/-- How the loop of `is_need_file_ext` ends. -/
inductive Exit where
  | noDot
  | tooLong
  | dot (extLen : ℕ)
  deriving DecidableEq, Repr

/-- `for(i = len - 1; i > 0; i--)`, with the characters before the final NUL of
the file name. -/
def collect (fileName : List Char) (maxStrLen : ℤ) : (i extLen : ℕ) → List (Option Char) →
    Except Fault (Exit × List (Option Char))
  | 0, _, maxStr => .ok (.noDot, maxStr)
  | i + 1, extLen, maxStr =>
      match fileName[i + 1]? with
      | none => .error (.buffer (.outOfBounds (i + 1)))
      | some c =>
          if c = '.' then .ok (.dot extLen, maxStr)
          else do
            let maxStr ← (Scratch.store maxStr extLen c).mapError .buffer
            if maxStrLen < extLen + 1 then .ok (.tooLong, maxStr)
            else collect fileName maxStrLen i (extLen + 1) maxStr

/-- The last part of `is_need_file_ext`. -/
def invert (isBlack : ℤ) (matchResult : ℤ) : ℤ :=
  if isBlack ≠ 0 then
    if fileExtMatch = matchResult then fileExtNotMatch else fileExtMatch
  else
    matchResult

/-- `is_need_file_ext` behind its loop. `g_strreverse` reverses `max_str` in place. -/
def searchExt (fileExt : FileExt) : Exit → List (Option Char) →
    Except Fault (ℤ × Option FileExt)
  | .noDot, maxStr | .tooLong, maxStr =>
      .ok (invert fileExt.isBlack fileExtNotMatch, some { fileExt with maxStr := .live maxStr })
  | .dot extLen, maxStr => do
      let maxStr ← (Scratch.store maxStr extLen nul).mapError .buffer
      let collected ← (Scratch.readText maxStr).mapError .buffer
      let newExt := collected.reverse
      let downExt := asciiStrdown newExt
      let matchResult :=
        if (HashTable.lookup (fun key => key) downExt fileExt.extHs).isSome then fileExtMatch
        else fileExtNotMatch
      .ok (invert fileExt.isBlack matchResult, some { fileExt with
        maxStr := .live (newExt.map some ++ maxStr.drop newExt.length) })

/-- `is_need_file_ext`, which measures the file name before it looks for NULL. -/
def isNeedFileExt : (fileExt : Option FileExt) → (fileName : Option (List Char)) →
    Except Fault (ℤ × Option FileExt)
  | _, none => .error (.pointer .nullDereference)
  | none, some _ => .ok (-1, none)
  | some fileExt, some fileName => do
      let maxStr ← (fileExt.maxStr.deref).mapError .pointer
      let maxStr ← (Scratch.store maxStr 0 nul).mapError .buffer
      let (exit, maxStr) ← collect (text fileName) fileExt.maxStrLen
        (strlenInt fileName - 1).toNat 0 maxStr
      searchExt fileExt exit maxStr

def setFileExtBlackWhite (fileExt : Option FileExt) (isBlack : ℤ) : Option FileExt :=
  fileExt.map fun fileExt => { fileExt with isBlack := isBlack }

/-! ## Runs -/

inductive Call where
  | init
  | add (ext : Option (List Char))
  | clear
  | setBlackWhite (isBlack : ℤ)
  | query (fileName : List Char)
  deriving DecidableEq, Repr

/-- The value a call returns, `none` for `void` and for the new object. -/
def step (fileExt : Option FileExt) : Call → Except Fault (Option ℤ × Option FileExt)
  | .init => .ok (none, some initFileExt)
  | .add ext => do
      let (ret, fileExt) ← addFileExt fileExt ext
      .ok (some ret, fileExt)
  | .clear => do
      let fileExt ← clearFileExt fileExt
      .ok (none, fileExt)
  | .setBlackWhite isBlack => .ok (none, setFileExtBlackWhite fileExt isBlack)
  | .query fileName => do
      let (ret, fileExt) ← isNeedFileExt fileExt (some fileName)
      .ok (some ret, fileExt)

/-- No query follows a null pointer `max_str` or leaves the buffer behind it, and
every query starts with an allocated buffer of `max_str_len + 1` bytes. -/
structure BufferSafe (calls : List Call) : Prop where
  noPointerFault : ∀ fault, run step none calls ≠ .error (.pointer fault)
  noBufferFault : ∀ fault, run step none calls ≠ .error (.buffer fault)
  allocated : ∀ (before : List Call) (fileName : List Char) (after : List Call)
    (replies : List (Option ℤ)) (fileExt : FileExt),
    calls = before ++ .query fileName :: after →
    run step none before = .ok (replies, some fileExt) →
    ∃ cells, fileExt.maxStr = .live cells ∧ (cells.length : ℤ) = fileExt.maxStrLen + 1

/-! ## Collecting a suffix -/

/-- The characters the loop goes through: from index `i` down to index 1. -/
def backwards (fileName : List Char) (i : ℕ) : List Char :=
  ((fileName.take (i + 1)).drop 1).reverse

theorem backwards_succ {fileName : List Char} {i : ℕ} {c : Char}
    (next : fileName[i + 1]? = some c) :
    backwards fileName (i + 1) = c :: backwards fileName i := by
  have taken : fileName.take (i + 1 + 1) = fileName.take (i + 1) ++ [c] := by
    rw [List.take_add_one, next, Option.toList_some]
  have nonempty : 1 ≤ (fileName.take (i + 1)).length := by
    have inside : i + 1 < fileName.length := (List.getElem?_eq_some_iff.mp next).1
    rw [List.length_take]
    omega
  rw [backwards, taken, List.drop_append_of_le_length nonempty, List.reverse_append]
  rfl

/-- What the loop leaves behind when it went through `characters` with `written`
already in the buffer. -/
inductive Collected (maxStrLen : ℤ) (written characters : List Char) :
    Exit → List (Option Char) → Prop
  | noDot {cells} : '.' ∉ characters → Collected maxStrLen written characters .noDot cells
  | tooLong {cells} :
      (∀ suffix stem, characters = suffix ++ '.' :: stem →
        maxStrLen < written.length + suffix.length) →
      Collected maxStrLen written characters .tooLong cells
  | dot {suffix stem rest} : characters = suffix ++ '.' :: stem → '.' ∉ suffix →
      (written.length + suffix.length : ℤ) ≤ maxStrLen →
      Collected maxStrLen written characters (.dot (written.length + suffix.length))
        ((written ++ suffix).map some ++ rest)

theorem Collected.cons {maxStrLen : ℤ} {written characters : List Char} {c : Char}
    {exit : Exit} {cells : List (Option Char)} (notDot : c ≠ '.')
    (collected : Collected maxStrLen (written ++ [c]) characters exit cells) :
    Collected maxStrLen written (c :: characters) exit cells := by
  cases collected with
  | noDot absent =>
      apply Collected.noDot
      rw [List.mem_cons, not_or]
      exact ⟨notDot.symm, absent⟩
  | tooLong long =>
      apply Collected.tooLong
      intro suffix stem split
      cases suffix with
      | nil =>
          rw [List.nil_append, List.cons.injEq] at split
          exact absurd split.1 notDot
      | cons first suffix =>
          rw [List.cons_append, List.cons.injEq] at split
          have bound := long suffix stem split.2
          rw [List.length_append, List.length_singleton] at bound
          rw [List.length_cons]
          push_cast at bound ⊢
          omega
  | @dot suffix stem rest split absent fits =>
      rw [List.length_append, List.length_singleton] at fits
      push_cast at fits
      have sameLength : (written ++ [c]).length + suffix.length =
          written.length + (c :: suffix).length := by
        simp only [List.length_append, List.length_cons, List.length_nil]
        omega
      have sameCells : written ++ [c] ++ suffix = written ++ c :: suffix := by
        rw [List.append_assoc, List.singleton_append]
      rw [sameLength, sameCells]
      apply @Collected.dot maxStrLen written (c :: characters) (c :: suffix) stem rest
      · rw [split, List.cons_append]
      · rw [List.mem_cons, not_or]
        exact ⟨notDot.symm, absent⟩
      · rw [List.length_cons]
        push_cast
        omega

theorem collect_ok {fileName : List Char} {maxStrLen : ℤ} (i : ℕ) :
    ∀ (written : List Char) (rest : List (Option Char)),
      (i = 0 ∨ i < fileName.length) →
      (written.length + rest.length : ℤ) = maxStrLen + 1 →
      (written.length : ℤ) ≤ maxStrLen →
      ∃ exit cells,
        collect fileName maxStrLen i written.length (written.map some ++ rest) =
          .ok (exit, cells) ∧
        cells.length = written.length + rest.length ∧
        Collected maxStrLen written (backwards fileName i) exit cells := by
  induction i with
  | zero =>
      intro written rest _ _ _
      refine ⟨.noDot, _, rfl, by simp, ?_⟩
      apply Collected.noDot
      simp [backwards, List.drop_eq_nil_of_le]
  | succ i induction =>
      intro written rest inside sized room
      have exists_next : i + 1 < fileName.length := by omega
      have next : fileName[i + 1]? = some fileName[i + 1] := List.getElem?_eq_getElem exists_next
      rw [collect, next, backwards_succ next]
      generalize fileName[i + 1] = c
      by_cases dot : c = '.'
      · refine ⟨.dot written.length, written.map some ++ rest, ?_, by simp, ?_⟩
        · simp [dot]
        · subst dot
          have here := @Collected.dot maxStrLen written ('.' :: backwards fileName i) []
            (backwards fileName i) rest rfl (by simp) (by simpa using room)
          simpa using here
      · cases rest with
        | nil =>
            simp only [List.length_nil] at sized
            omega
        | cons old rest =>
            simp only [List.length_cons] at sized
            push_cast at sized
            simp only [if_neg dot, Scratch.store_append, Except.mapError, bind, Except.bind]
            by_cases long : maxStrLen < written.length + 1
            · refine ⟨.tooLong, (written ++ [c]).map some ++ rest, ?_, ?_, ?_⟩
              · rw [if_pos long]
              · simp only [List.length_append, List.length_map, List.length_cons,
                  List.length_nil]
                omega
              · apply Collected.tooLong
                intro suffix stem split
                cases suffix with
                | nil =>
                    rw [List.nil_append, List.cons.injEq] at split
                    exact absurd split.1 dot
                | cons first suffix =>
                    rw [List.length_cons]
                    push_cast
                    omega
            · have length : (written ++ [c]).length = written.length + 1 := by simp
              rcases induction (written ++ [c]) rest (by omega)
                  (by rw [length]; push_cast; omega) (by rw [length]; push_cast; omega) with
                ⟨exit, cells, computed, cellsLength, collected⟩
              rw [length] at computed cellsLength
              refine ⟨exit, cells, ?_, ?_, collected.cons dot⟩
              · rw [if_neg long, computed]
              · rw [cellsLength, List.length_cons]
                omega

/-! ## A query -/

/-- The part of a file name that a query looks at: its length is kept in an `int`. -/
def examined (fileName : List Char) : List Char :=
  (text fileName).take (strlenInt fileName).toNat

/-- `suffix` is what follows the last `.` of a file name, and that `.` is not the
first character. -/
def SuffixOf (fileName suffix : List Char) : Prop :=
  ∃ stem, fileName = stem ++ '.' :: suffix ∧ stem ≠ [] ∧ '.' ∉ suffix

theorem strlenInt_le (s : List Char) : strlenInt s ≤ (text s).length := by
  unfold strlenInt
  exact wrapSigned_le 32 (Int.natCast_nonneg _)

theorem strlenInt_le_intMax (s : List Char) : strlenInt s ≤ intMax := by
  unfold strlenInt intMax
  have bound : wrapSigned 32 (text s).length < 2 ^ 31 := wrapSigned_lt 31 _
  omega

theorem strlenInt_of_short {s : List Char} (short : ((text s).length : ℤ) ≤ intMax) :
    strlenInt s = (text s).length := by
  unfold strlenInt
  unfold intMax at short
  exact wrapSigned_of_small 31 (Int.natCast_nonneg _) (by omega)

theorem backwards_examined (fileName : List Char) :
    backwards (text fileName) (strlenInt fileName - 1).toNat =
      ((examined fileName).drop 1).reverse := by
  rw [backwards, examined]
  by_cases positive : 0 < strlenInt fileName
  · rw [show (strlenInt fileName - 1).toNat + 1 = (strlenInt fileName).toNat by omega]
  · have noLoop : (strlenInt fileName - 1).toNat = 0 := by omega
    have nothing : (strlenInt fileName).toNat = 0 := by omega
    rw [noLoop, nothing]
    simp [List.drop_eq_nil_of_le]

theorem suffixOf_iff (fileName suffix : List Char) :
    SuffixOf fileName suffix ↔
      '.' ∉ suffix ∧ ∃ stem, (fileName.drop 1).reverse = suffix.reverse ++ '.' :: stem := by
  constructor
  · rintro ⟨stem, rfl, nonempty, absent⟩
    refine ⟨absent, ?_⟩
    cases stem with
    | nil => exact absurd rfl nonempty
    | cons first stem => exact ⟨stem.reverse, by simp⟩
  · rintro ⟨absent, stem, split⟩
    cases fileName with
    | nil => simp at split
    | cons first rest =>
        refine ⟨first :: stem.reverse, ?_, by simp, absent⟩
        have forwards := congrArg List.reverse split
        simp only [List.drop_one, List.tail_cons, List.reverse_reverse, List.reverse_append,
          List.reverse_cons, List.append_assoc, List.singleton_append] at forwards
        rw [forwards, List.cons_append]

theorem before_dot_unique {first second firstRest secondRest : List Char}
    (firstAbsent : '.' ∉ first) (secondAbsent : '.' ∉ second)
    (equal : first ++ '.' :: firstRest = second ++ '.' :: secondRest) : first = second := by
  rw [← takeWhile_mark firstAbsent firstRest, equal, takeWhile_mark secondAbsent]

/-- The suffix in front of the first `.` of `characters`, which are in reverse order,
is in `ext_hs`. -/
def FoundIn (fileExt : FileExt) (characters : List Char) : Prop :=
  ∃ suffix stem, characters = suffix ++ '.' :: stem ∧ '.' ∉ suffix ∧
    (suffix.length : ℤ) ≤ fileExt.maxStrLen ∧
    (HashTable.lookup (fun key => key) (suffix.reverse.map Char.toLower)
      fileExt.extHs).isSome = true

theorem searchExt_ok {fileExt : FileExt} {characters : List Char} {exit : Exit}
    {cells : List (Option Char)} (clean : nul ∉ characters)
    (sized : (cells.length : ℤ) = fileExt.maxStrLen + 1)
    (collected : Collected fileExt.maxStrLen [] characters exit cells) :
    ∃ (isMatch : Bool) (left : List (Option Char)), searchExt fileExt exit cells =
        .ok (invert fileExt.isBlack (if isMatch then fileExtMatch else fileExtNotMatch),
          some { fileExt with maxStr := .live left }) ∧
      left.length = cells.length ∧ (isMatch = true ↔ FoundIn fileExt characters) := by
  cases collected with
  | noDot absent =>
      refine ⟨false, cells, by simp [searchExt], rfl, ?_⟩
      simp only [Bool.false_eq_true, false_iff]
      rintro ⟨suffix, stem, rfl, _⟩
      simp at absent
  | tooLong long =>
      refine ⟨false, cells, by simp [searchExt], rfl, ?_⟩
      simp only [Bool.false_eq_true, false_iff]
      rintro ⟨suffix, stem, split, _, fits, _⟩
      have bound := long suffix stem split
      rw [List.length_nil] at bound
      push_cast at bound
      omega
  | @dot suffix stem rest split absent fits =>
      rw [List.length_nil] at fits
      push_cast at fits
      have cleanSuffix : nul ∉ suffix := by
        intro member
        apply clean
        rw [split]
        exact List.mem_append_left _ member
      have cleanReverse : nul ∉ suffix.reverse := by
        rwa [List.mem_reverse]
      cases rest with
      | nil =>
          simp only [List.nil_append, List.append_nil, List.length_map] at sized
          omega
      | cons old rest =>
          have terminated : Scratch.store (([] ++ suffix).map some ++ old :: rest)
              (([] : List Char).length + suffix.length) nul =
            .ok ((suffix ++ [nul]).map some ++ rest) := by
            rw [List.length_nil, Nat.zero_add, List.nil_append]
            exact Scratch.store_append suffix old rest nul
          refine ⟨(HashTable.lookup (fun key => key) (suffix.reverse.map Char.toLower)
            fileExt.extHs).isSome, suffix.reverse.map some ++ some nul :: rest, ?_, ?_, ?_⟩
          · rw [searchExt, terminated]
            simp only [Except.mapError, bind, Except.bind]
            rw [Scratch.readText_terminated, text_of_no_nul cleanSuffix]
            simp [asciiStrdown, text_of_no_nul cleanReverse]
          · simp only [List.nil_append, List.length_append, List.length_map,
              List.length_cons, List.length_reverse]
          · constructor
            · intro found
              exact ⟨suffix, stem, split, absent, by omega, found⟩
            · rintro ⟨other, otherStem, otherSplit, otherAbsent, _, found⟩
              rwa [before_dot_unique absent otherAbsent (split.symm.trans otherSplit)]

/-- A query of a record with its buffer looks the suffix up and changes nothing but
the contents of the buffer. -/
theorem isNeedFileExt_ok {fileExt : FileExt} {cells : List (Option Char)}
    (live : fileExt.maxStr = .live cells)
    (sized : (cells.length : ℤ) = fileExt.maxStrLen + 1) (nonneg : 0 ≤ fileExt.maxStrLen)
    (fileName : List Char) :
    ∃ (isMatch : Bool) (left : List (Option Char)),
      isNeedFileExt (some fileExt) (some fileName) =
        .ok (invert fileExt.isBlack (if isMatch then fileExtMatch else fileExtNotMatch),
          some { fileExt with maxStr := .live left }) ∧
      left.length = cells.length ∧
      (isMatch = true ↔ FoundIn fileExt ((examined fileName).drop 1).reverse) := by
  cases cells with
  | nil =>
      simp only [List.length_nil] at sized
      push_cast at sized
      omega
  | cons first cells =>
      have opened : Scratch.store (first :: cells) 0 nul = .ok (some nul :: cells) := rfl
      have inside : (strlenInt fileName - 1).toNat = 0 ∨
          (strlenInt fileName - 1).toNat < (text fileName).length := by
        have bound := strlenInt_le fileName
        omega
      rcases collect_ok (strlenInt fileName - 1).toNat [] (some nul :: cells) inside
          (by simpa using sized) (by simpa using nonneg) with
        ⟨exit, collectedCells, computed, length, collected⟩
      have clean : nul ∉ backwards (text fileName) (strlenInt fileName - 1).toNat := by
        intro member
        have inName : nul ∈ text fileName :=
          List.mem_of_mem_take (List.mem_of_mem_drop (List.mem_reverse.mp member))
        simpa [text] using List.mem_takeWhile_imp inName
      rw [List.length_nil, Nat.zero_add] at length
      rw [← backwards_examined]
      rcases searchExt_ok clean (by rw [length]; exact sized) collected with
        ⟨isMatch, left, searched, leftLength, found⟩
      refine ⟨isMatch, left, ?_, by rw [leftLength, length]; rfl, found⟩
      simp only [List.length_nil, List.map_nil, List.nil_append] at computed
      have followed : fileExt.maxStr.deref = .ok (first :: cells) := by rw [live]; rfl
      rw [isNeedFileExt, bind_ok (mapError_ok followed _), bind_ok (mapError_ok opened _),
        bind_ok computed]
      exact searched

/-! ## The life of the buffer -/

/-- The record is not made yet, or its buffer was freed and not allocated again, or
the buffer is there. -/
inductive Phase where
  | absent
  | cleared
  | ready
  deriving DecidableEq, Repr

def Phase.after : Phase → Call → Phase
  | _, .init => .ready
  | .absent, _ => .absent
  | .cleared, .add (some ext) => if 0 < strlenInt ext then .ready else .cleared
  | _, .clear => .cleared
  | phase, _ => phase

def Phase.allows : Phase → Call → Bool
  | .cleared, .query _ => false
  | _, _ => true

/-- A suffix of `INT_MAX` characters, for which no buffer can be allocated. -/
def Phase.overflows : Phase → Call → Bool
  | .absent, _ => false
  | _, .add (some ext) => strlenInt ext = intMax
  | _, _ => false

/-- No query comes while the buffer is freed. A suffix that is too long for any
buffer ends the run. -/
def guarded : Phase → List Call → Bool
  | _, [] => true
  | phase, call :: calls =>
      phase.allows call && (phase.overflows call || guarded (phase.after call) calls)

structure Ready (fileExt : FileExt) : Prop where
  buffer : ∃ cells, fileExt.maxStr = .live cells ∧
    (cells.length : ℤ) = fileExt.maxStrLen + 1
  nonneg : 0 ≤ fileExt.maxStrLen
  small : fileExt.maxStrLen < intMax

def InPhase : Phase → Option FileExt → Prop
  | .absent, pointer => pointer = none
  | .cleared, pointer => ∃ fileExt, pointer = some fileExt ∧ fileExt.maxStr = .null ∧
      fileExt.maxStrLen = 0
  | .ready, pointer => ∃ fileExt, pointer = some fileExt ∧ Ready fileExt

theorem ready_init : Ready initFileExt :=
  ⟨⟨_, rfl, rfl⟩, by decide, by decide⟩

theorem allocate_ok {len : ℤ} (small : len < intMax) :
    allocate len = .ok (Scratch.fresh (len + 1).toNat) := by
  rw [allocate, if_pos (by omega)]

@[simp] theorem insertExt_maxStr (fileExt : FileExt) (ext : List Char) :
    (insertExt fileExt ext).maxStr = fileExt.maxStr := rfl

@[simp] theorem insertExt_maxStrLen (fileExt : FileExt) (ext : List Char) :
    (insertExt fileExt ext).maxStrLen = fileExt.maxStrLen := rfl

/-- The record with a new suffix and a buffer for it. -/
def widened (fileExt : FileExt) (ext : List Char) : FileExt :=
  { insertExt fileExt ext with
    maxStrLen := strlenInt ext
    maxStr := .live (Scratch.fresh (strlenInt ext + 1).toNat) }

@[simp] theorem widened_maxStr (fileExt : FileExt) (ext : List Char) :
    (widened fileExt ext).maxStr = .live (Scratch.fresh (strlenInt ext + 1).toNat) := rfl

@[simp] theorem widened_maxStrLen (fileExt : FileExt) (ext : List Char) :
    (widened fileExt ext).maxStrLen = strlenInt ext := rfl

/-- What an insertion does: the buffer suffices, or it is replaced by a longer one, or
no buffer is long enough. -/
theorem step_add {fileExt : FileExt} (ext : List Char) {old : Ref (List (Option Char))}
    (free : fileExt.maxStr.free = .ok old) :
    (strlenInt ext ≤ fileExt.maxStrLen ∧
      step (some fileExt) (.add (some ext)) = .ok (some 0, some (insertExt fileExt ext))) ∨
    (fileExt.maxStrLen < strlenInt ext ∧ strlenInt ext < intMax ∧
      step (some fileExt) (.add (some ext)) = .ok (some 0, some (widened fileExt ext))) ∨
    (fileExt.maxStrLen < strlenInt ext ∧ strlenInt ext = intMax ∧
      step (some fileExt) (.add (some ext)) = .error .intOverflow) := by
  have bound := strlenInt_le_intMax ext
  have released := mapError_ok free Fault.pointer
  rw [step]
  by_cases longer : fileExt.maxStrLen < strlenInt ext
  · by_cases small : strlenInt ext < intMax
    · have computed : addFileExt (some fileExt) (some ext) =
          .ok (0, some (widened fileExt ext)) := by
        rw [addFileExt, insertExt_maxStrLen, insertExt_maxStr, if_pos longer, bind_ok released,
          bind_ok (allocate_ok small), widened]
      exact .inr (.inl ⟨longer, small, by rw [bind_ok computed]⟩)
    · have overflow : allocate (strlenInt ext) = .error .intOverflow := by
        rw [allocate, if_neg (by omega)]
      refine .inr (.inr ⟨longer, by omega, ?_⟩)
      apply bind_error
      rw [addFileExt, insertExt_maxStrLen, insertExt_maxStr, if_pos longer, bind_ok released,
        bind_error overflow]
  · have computed : addFileExt (some fileExt) (some ext) =
        .ok (0, some (insertExt fileExt ext)) := by
      rw [addFileExt, insertExt_maxStrLen, if_neg longer]
    exact .inl ⟨by omega, by rw [bind_ok computed]⟩

theorem ready_widened {fileExt : FileExt} {ext : List Char} (positive : 0 ≤ strlenInt ext)
    (small : strlenInt ext < intMax) : Ready (widened fileExt ext) := by
  constructor
  · refine ⟨_, widened_maxStr fileExt ext, ?_⟩
    rw [widened_maxStrLen, Scratch.fresh, List.length_replicate]
    omega
  · rwa [widened_maxStrLen]
  · rwa [widened_maxStrLen]

theorem step_clear {fileExt : FileExt} {old : Ref (List (Option Char))}
    (free : fileExt.maxStr.free = .ok old) :
    step (some fileExt) .clear = .ok (none, some { fileExt with
      maxStr := .null, extHs := [], count := 0, maxStrLen := 0 }) := by
  rw [step]
  apply bind_ok
  rw [clearFileExt, bind_ok (mapError_ok free _)]

theorem step_query {fileExt : FileExt} {cells : List (Option Char)}
    (live : fileExt.maxStr = .live cells)
    (sized : (cells.length : ℤ) = fileExt.maxStrLen + 1) (nonneg : 0 ≤ fileExt.maxStrLen)
    (fileName : List Char) :
    ∃ (isMatch : Bool) (left : List (Option Char)), step (some fileExt) (.query fileName) =
        .ok (some (invert fileExt.isBlack (if isMatch then fileExtMatch else fileExtNotMatch)),
          some { fileExt with maxStr := .live left }) ∧
      left.length = cells.length ∧
      (isMatch = true ↔ FoundIn fileExt ((examined fileName).drop 1).reverse) := by
  rcases isNeedFileExt_ok live sized nonneg fileName with
    ⟨isMatch, left, computed, length, found⟩
  refine ⟨isMatch, left, ?_, length, found⟩
  rw [step, bind_ok computed]

theorem Phase.overflows_add {phase : Phase} (made : phase ≠ .absent) (ext : List Char) :
    phase.overflows (.add (some ext)) = decide (strlenInt ext = intMax) := by
  cases phase with
  | absent => exact absurd rfl made
  | cleared => rfl
  | ready => rfl

/-- What a call comes to: an overflow, an answer and the next phase, or a null pointer that
is followed. -/
def Proceeds (phase : Phase) (pointer : Option FileExt) (call : Call) : Prop :=
  (phase.allows call = true ∧ phase.overflows call = true ∧
    step pointer call = .error .intOverflow) ∨
  (phase.allows call = true ∧ phase.overflows call = false ∧
    ∃ reply next, step pointer call = .ok (reply, next) ∧ InPhase (phase.after call) next) ∨
  (phase.allows call = false ∧ step pointer call = .error (.pointer .nullDereference))

theorem step_cases_absent (call : Call) : Proceeds .absent none call := by
  refine .inr (.inl ⟨rfl, rfl, ?_⟩)
  cases call with
  | init => exact ⟨_, _, rfl, initFileExt, rfl, ready_init⟩
  | add ext => exact ⟨_, _, rfl, rfl⟩
  | clear => exact ⟨_, _, rfl, rfl⟩
  | setBlackWhite isBlack => exact ⟨_, _, rfl, rfl⟩
  | query fileName => exact ⟨_, _, rfl, rfl⟩

section Cleared

variable {fileExt : FileExt} (null : fileExt.maxStr = .null) (empty : fileExt.maxStrLen = 0)

include null empty

theorem step_cases_cleared_add (ext : List Char) :
    Proceeds .cleared (some fileExt) (.add (some ext)) := by
  have free : fileExt.maxStr.free = .ok .null := by rw [null]; rfl
  rw [Proceeds, Phase.overflows_add (by decide), Phase.after]
  rcases step_add ext free with ⟨short, stepped⟩ | ⟨longer, small, stepped⟩ |
    ⟨longer, large, stepped⟩
  · rw [empty] at short
    have notLarge : strlenInt ext ≠ intMax := by
      have positive : 0 < intMax := by decide
      omega
    refine .inr (.inl ⟨rfl, decide_eq_false notLarge, _, _, stepped, ?_⟩)
    rw [if_neg (not_lt.mpr short)]
    exact ⟨_, rfl, null, empty⟩
  · rw [empty] at longer
    refine .inr (.inl ⟨rfl, decide_eq_false (by omega), _, _, stepped, ?_⟩)
    rw [if_pos longer]
    exact ⟨_, rfl, ready_widened longer.le small⟩
  · exact .inl ⟨rfl, decide_eq_true large, stepped⟩

theorem step_cases_cleared (call : Call) : Proceeds .cleared (some fileExt) call := by
  have free : fileExt.maxStr.free = .ok .null := by rw [null]; rfl
  cases call with
  | init => exact .inr (.inl ⟨rfl, rfl, _, _, rfl, initFileExt, rfl, ready_init⟩)
  | add ext =>
      cases ext with
      | none => exact .inr (.inl ⟨rfl, rfl, _, _, rfl, fileExt, rfl, null, empty⟩)
      | some ext => exact step_cases_cleared_add null empty ext
  | clear => exact .inr (.inl ⟨rfl, rfl, _, _, step_clear free, _, rfl, rfl, rfl⟩)
  | setBlackWhite isBlack =>
      exact .inr (.inl ⟨rfl, rfl, _, _, rfl, _, rfl, null, empty⟩)
  | query fileName =>
      refine .inr (.inr ⟨rfl, ?_⟩)
      have followed : fileExt.maxStr.deref = .error .nullDereference := by rw [null]; rfl
      rw [step]
      apply bind_error
      rw [isNeedFileExt, bind_error (mapError_error followed _)]

end Cleared

theorem step_cases_ready {fileExt : FileExt} (ready : Ready fileExt) (call : Call) :
    Proceeds .ready (some fileExt) call := by
  rcases ready.buffer with ⟨cells, live, sized⟩
  have free : fileExt.maxStr.free = .ok .freed := by rw [live]; rfl
  have nonneg := ready.nonneg
  have limit := ready.small
  cases call with
  | init => exact .inr (.inl ⟨rfl, rfl, _, _, rfl, initFileExt, rfl, ready_init⟩)
  | add ext =>
      cases ext with
      | none => exact .inr (.inl ⟨rfl, rfl, _, _, rfl, fileExt, rfl, ready⟩)
      | some ext =>
          rw [Proceeds, Phase.overflows_add (by decide)]
          rcases step_add ext free with ⟨short, stepped⟩ | ⟨longer, small, stepped⟩ |
            ⟨longer, large, stepped⟩
          · exact .inr (.inl ⟨rfl, decide_eq_false (by omega), _, _, stepped, _, rfl,
              ⟨cells, live, sized⟩, nonneg, limit⟩)
          · exact .inr (.inl ⟨rfl, decide_eq_false (by omega), _, _, stepped, _, rfl,
              ready_widened (by omega) small⟩)
          · exact .inl ⟨rfl, decide_eq_true large, stepped⟩
  | clear => exact .inr (.inl ⟨rfl, rfl, _, _, step_clear free, _, rfl, rfl, rfl⟩)
  | setBlackWhite isBlack =>
      exact .inr (.inl ⟨rfl, rfl, _, _, rfl, _, rfl, ⟨cells, live, sized⟩, nonneg, limit⟩)
  | query fileName =>
      rcases step_query live sized nonneg fileName with ⟨isMatch, left, stepped, length, _⟩
      refine .inr (.inl ⟨rfl, rfl, _, _, stepped, _, rfl, ⟨left, rfl, ?_⟩, nonneg, limit⟩)
      rw [length]
      exact sized

theorem step_cases {phase : Phase} {pointer : Option FileExt} (inPhase : InPhase phase pointer)
    (call : Call) : Proceeds phase pointer call := by
  cases phase with
  | absent =>
      cases inPhase
      exact step_cases_absent call
  | cleared =>
      rcases inPhase with ⟨fileExt, rfl, null, empty⟩
      exact step_cases_cleared null empty call
  | ready =>
      rcases inPhase with ⟨fileExt, rfl, ready⟩
      exact step_cases_ready ready call

theorem run_noFault_iff_guarded (calls : List Call) :
    ∀ (phase : Phase) (pointer : Option FileExt), InPhase phase pointer →
      ((∀ fault, run step pointer calls = .error fault → fault = .intOverflow) ↔
        guarded phase calls = true) := by
  induction calls with
  | nil =>
      intro phase pointer _
      simp [run, guarded]
  | cons call calls induction =>
      intro phase pointer inPhase
      rw [guarded]
      rcases step_cases inPhase call with ⟨allowed, overflows, failed⟩ |
        ⟨allowed, fits, reply, next, stepped, nextPhase⟩ | ⟨refused, failed⟩
      · simp only [Run.run_cons_error failed, allowed, overflows, Bool.true_or, Bool.and_self,
          iff_true]
        intro fault same
        exact (Except.error.inj same).symm
      · simp only [Run.run_cons_eq_error_iff stepped, allowed, fits, Bool.false_or,
          Bool.true_and]
        exact induction (phase.after call) next nextPhase
      · simp only [Run.run_cons_error failed, refused, Bool.false_and, Bool.false_eq_true,
          iff_false]
        intro harmless
        cases harmless _ rfl

theorem guarded_behind_run (before : List Call) :
    ∀ (phase : Phase) (pointer : Option FileExt) {replies : List (Option ℤ)}
      {last : Option FileExt} {calls : List Call}, InPhase phase pointer →
      run step pointer before = .ok (replies, last) →
      guarded phase (before ++ calls) = true →
      ∃ reached, InPhase reached last ∧ guarded reached calls = true := by
  induction before with
  | nil =>
      intro phase pointer replies last calls inPhase ran holds
      cases ran
      exact ⟨phase, inPhase, holds⟩
  | cons call before induction =>
      intro phase pointer replies last calls inPhase ran holds
      rcases Run.run_cons_inversion ran with ⟨reply, next, rest, stepped, ranRest, _⟩
      rw [List.cons_append, guarded, Bool.and_eq_true] at holds
      rcases step_cases inPhase call with ⟨_, _, failed⟩ |
        ⟨_, fits, reply', next', stepped', nextPhase⟩ | ⟨refused, _⟩
      · rw [failed] at stepped
        cases stepped
      · rw [stepped] at stepped'
        cases stepped'
        apply induction (phase.after call) next nextPhase ranRest
        simpa [fits] using holds.2
      · rw [refused] at holds
        cases holds.1

/-- The buffer is used safely exactly in the runs in which, since the last
`clear_file_ext`, every query comes after a new `init_file_ext` or after a suffix
that is not empty was added. -/
theorem bufferSafe_iff_guarded (calls : List Call) :
    BufferSafe calls ↔ guarded .absent calls = true := by
  have noFault := run_noFault_iff_guarded calls .absent none rfl
  constructor
  · intro safe
    apply noFault.mp
    intro fault failed
    cases fault with
    | pointer fault => exact absurd failed (safe.noPointerFault fault)
    | buffer fault => exact absurd failed (safe.noBufferFault fault)
    | intOverflow => rfl
  · intro holds
    refine ⟨?_, ?_, ?_⟩
    · intro fault failed
      cases noFault.mpr holds _ failed
    · intro fault failed
      cases noFault.mpr holds _ failed
    · intro before fileName after replies fileExt split ran
      rw [split] at holds
      rcases guarded_behind_run before .absent none rfl ran holds with ⟨phase, inPhase, guard⟩
      cases phase with
      | absent => cases inPhase
      | cleared => cases guard
      | ready =>
          rcases inPhase with ⟨_, same, ready⟩
          cases same
          exact ready.buffer

/-- A query right after `clear_file_ext` follows a null pointer. -/
theorem not_bufferSafe_cleared :
    ¬BufferSafe [.init, .clear, .query "name.exe".toList] := by
  intro safe
  exact safe.noPointerFault .nullDereference rfl

end Lctools.Ext
