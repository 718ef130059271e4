import Lctools.Foundation.Run
import Lctools.Foundation.Fallible
import Mathlib.Algebra.Order.Ring.Int

/-! # The `ReadSmallFile` of `muduo/base/FileUtil`

The bytes of a file, up to a number that the caller gives, read by as many calls of `read` as the
system wants.
-/

namespace Lctools.Muduo

/-! ## The program -/

/-- `FileUtil::ReadSmallFile`, with the bytes of the file, if it could be opened, and the place in
it to which `read` has come. -/
structure ReadSmallFile where
  bytes : Option (List UInt8)
  offset : ℕ
  err : ℤ

inductive FileKind where
  | regular
  | directory
  | other

structure Stat where
  kind : FileKind
  size : ℤ
  mtime : ℤ
  ctime : ℤ

/-- The arguments of `readToString`, of the pointers whether they are given, and what the system
answers: `fstat` an error or the data of the file, and call number `k` of `read` an error or one
byte more than the number, if the file and the buffer have as many. -/
structure ReadCall where
  maxSize : ℤ
  fileSize : Bool
  modifyTime : Bool
  createTime : Bool
  stat : Except ℤ Stat
  read : ℕ → Except ℤ ℕ

/-- The value of `readToString`, and what it leaves in its arguments, where it writes to them. -/
structure ReadResult where
  err : ℤ
  content : Option (List UInt8)
  fileSize : Option ℤ
  modifyTime : Option ℤ
  createTime : Option ℤ

/-- The exception of `reserve` for a negative number. -/
inductive ReadFault where
  | length
  deriving DecidableEq, Repr

namespace ReadSmallFile

def kBufferSize : ℕ := 64 * 1024

/-- `ReadSmallFile::ReadSmallFile`, for the answer of `open`. -/
def new : Except ℤ (List UInt8) → ReadSmallFile
  | .ok bytes => ⟨some bytes, 0, 0⟩
  | .error errno => ⟨none, 0, errno⟩

/-- `implicit_cast<size_t>(maxSize)`. -/
def sizeOf (maxSize : ℤ) : ℕ :=
  if maxSize < 0 then (2 ^ 64 + maxSize).toNat else maxSize.toNat

/-- The part of `readToString` with `fstat`: the error, and what is written to the pointers. -/
def statFile (call : ReadCall) (err : ℤ) : Except ReadFault ReadResult :=
  if !call.fileSize then .ok ⟨err, none, none, none, none⟩
  else
    match call.stat with
    | .error errno => .ok ⟨errno, none, none, none, none⟩
    | .ok stat =>
        let modifyTime := if call.modifyTime then some stat.mtime else none
        let createTime := if call.createTime then some stat.ctime else none
        match stat.kind with
        | .regular =>
            if min call.maxSize stat.size < 0 then .error .length
            else .ok ⟨err, none, some stat.size, modifyTime, createTime⟩
        -- 21 is `EISDIR`
        | .directory => .ok ⟨21, none, none, modifyTime, createTime⟩
        | .other => .ok ⟨err, none, none, modifyTime, createTime⟩

/-- The loop of `readToString`: the content and the error after it, where `rest` is what the file
still has. -/
def readLoop (read : ℕ → Except ℤ ℕ) (size : ℕ) :
    (fuel k : ℕ) → (content rest : List UInt8) → (err : ℤ) → List UInt8 × ℤ
  | 0, _, content, _, err => (content, err)
  | fuel + 1, k, content, rest, err =>
      if content.length < size then
        let toRead := min (size - content.length) kBufferSize
        match read k with
        | .error errno => (content, errno)
        | .ok more =>
            let n := min (more + 1) (min toRead rest.length)
            if 0 < n then readLoop read size fuel (k + 1) (content ++ rest.take n) (rest.drop n) err
            else (content, err)
      else (content, err)

/-- `ReadSmallFile::readToString`. A call of `read` that gives something leaves less of the file, so
that there are at most as many of them as bytes, and one more. -/
def readToString (file : ReadSmallFile) (call : ReadCall) :
    Except ReadFault (ReadResult × ReadSmallFile) :=
  match file.bytes with
  | none => .ok (⟨file.err, none, none, none, none⟩, file)
  | some bytes => do
      let result ← statFile call file.err
      let rest := bytes.drop file.offset
      let (content, err) :=
        readLoop call.read (sizeOf call.maxSize) (rest.length + 1) 0 [] rest result.err
      return ({ result with err := err, content := some content },
        { file with offset := file.offset + content.length })

/-! ## What is read -/

theorem readLoop_spec (read : ℕ → Except ℤ ℕ) (size fuel k : ℕ) (content rest : List UInt8)
    (err : ℤ) (enough : rest.length < fuel) :
    readLoop read size fuel k content rest err =
        (content ++ rest.take (size - content.length), err) ∨
      ∃ n call errno, n ≤ size - content.length ∧ read call = .error errno ∧
        readLoop read size fuel k content rest err = (content ++ rest.take n, errno) := by
  induction fuel generalizing k content rest with
  | zero => exact absurd enough (Nat.not_lt_zero _)
  | succ fuel induction =>
      rw [readLoop]
      by_cases room : content.length < size
      · rw [if_pos room]
        cases answer : read k with
        | error errno =>
            refine .inr ⟨0, k, errno, Nat.zero_le _, answer, ?_⟩
            rw [List.take_zero, List.append_nil]
        | ok more =>
            have buffer : 0 < kBufferSize := by decide
            generalize number : min (more + 1) (min (min (size - content.length) kBufferSize)
              rest.length) = n
            simp only [number]
            by_cases some : 0 < n
            · rw [if_pos some]
              have joined : ∀ m, content ++ rest.take n ++ (rest.drop n).take m =
                  content ++ rest.take (n + m) := by
                intro m
                rw [List.append_assoc, List.take_add]
              have length : (content ++ rest.take n).length = content.length + n := by
                rw [List.length_append, List.length_take]
                omega
              have shorter : (rest.drop n).length < fuel := by
                rw [List.length_drop]
                omega
              rcases induction (k + 1) (content ++ rest.take n) (rest.drop n) shorter with
                whole | ⟨m, call, errno, most, fails, stops⟩
              · rw [whole, joined, length]
                refine .inl ?_
                congr 3
                omega
              · rw [stops, joined]
                exact .inr ⟨n + m, call, errno, by omega, fails, rfl⟩
            · rw [if_neg some]
              have empty : rest = [] := List.eq_nil_of_length_eq_zero (by omega)
              refine .inl ?_
              rw [empty, List.take_nil, List.append_nil]
      · rw [if_neg room, Nat.sub_eq_zero_of_le (Nat.le_of_not_lt room), List.take_zero,
          List.append_nil]
        exact .inl rfl

theorem readLoop_taken (read : ℕ → Except ℤ ℕ) (size fuel k : ℕ) (content rest : List UInt8)
    (err : ℤ) (enough : rest.length < fuel) : ∃ n ≤ rest.length,
      (readLoop read size fuel k content rest err).1 = content ++ rest.take n := by
  have short : ∀ m, rest.take m = rest.take (min m rest.length) := by
    intro m
    rw [List.take_eq_take_iff]
    omega
  rcases readLoop_spec read size fuel k content rest err enough with
    whole | ⟨n, _, _, _, _, stops⟩
  · rw [whole, short]
    exact ⟨_, Nat.min_le_right _ _, rfl⟩
  · rw [stops, short]
    exact ⟨_, Nat.min_le_right _ _, rfl⟩

/-- The file has been opened, and has the place of `read` in it. -/
structure Opened (bytes : List UInt8) (file : ReadSmallFile) : Prop where
  inside : file.offset ≤ bytes.length
  bytes : file.bytes = some bytes
  err : file.err = 0

theorem Opened.new (bytes : List UInt8) : Opened bytes (new (.ok bytes)) :=
  ⟨Nat.zero_le _, rfl, rfl⟩

end ReadSmallFile

/-- The number for `reserve` is not negative, and an error of `read` has its number. -/
structure ReadCall.Proper (call : ReadCall) : Prop where
  size : call.fileSize = true → 0 ≤ call.maxSize
  stat : ∀ stat, call.stat = .ok stat → 0 ≤ stat.size
  errno : ∀ k errno, call.read k = .error errno → errno ≠ 0

def ReadResult.bytes (result : ReadResult) : List UInt8 :=
  result.content.getD []

namespace ReadSmallFile

theorem statFile_proper {call : ReadCall} (proper : call.Proper) (err : ℤ) :
    ∃ result, statFile call err = .ok result := by
  rw [statFile]
  cases asked : call.fileSize with
  | false => exact ⟨_, rfl⟩
  | true =>
      cases stats : call.stat with
      | error errno => exact ⟨_, rfl⟩
      | ok stat =>
          cases kind : stat.kind with
          | regular =>
              have size := proper.size asked
              have notLess : ¬min call.maxSize stat.size < 0 := by
                have statSize := proper.stat stat stats
                omega
              simp only [kind, if_neg notLess]
              exact ⟨_, rfl⟩
          | directory =>
              simp only [kind]
              exact ⟨_, rfl⟩
          | other =>
              simp only [kind]
              exact ⟨_, rfl⟩

theorem readToString_eq {bytes : List UInt8} {file : ReadSmallFile} {call : ReadCall}
    {result : ReadResult} (opened : file.bytes = some bytes)
    (stats : statFile call file.err = .ok result) :
    readToString file call =
      let rest := bytes.drop file.offset
      let read := readLoop call.read (sizeOf call.maxSize) (rest.length + 1) 0 [] rest result.err
      .ok ({ result with err := read.2, content := some read.1 },
        { file with offset := file.offset + read.1.length }) := by
  rw [readToString, opened]
  simp only [stats]
  rfl

/-- A call gives bytes from the place of `read` on, which moves behind them. If the call returns 0,
these are as many as the caller wants and the file has. -/
theorem readToString_spec {bytes : List UInt8} {file : ReadSmallFile} (opened : Opened bytes file)
    {call : ReadCall} (proper : call.Proper) :
    ∃ result next n, readToString file call = .ok (result, next) ∧ Opened bytes next ∧
      result.content = some ((bytes.drop file.offset).take n) ∧ n ≤ sizeOf call.maxSize ∧
      (result.err = 0 → n = sizeOf call.maxSize) := by
  rcases statFile_proper proper file.err with ⟨stats, stated⟩
  have equation := readToString_eq opened.bytes stated
  have within : ∀ n, Opened bytes
      { file with offset := file.offset + ((bytes.drop file.offset).take n).length } := by
    intro n
    refine ⟨?_, opened.bytes, opened.err⟩
    simp only [List.length_take, List.length_drop]
    have inside := opened.inside
    omega
  rcases readLoop_spec call.read (sizeOf call.maxSize) ((bytes.drop file.offset).length + 1) 0 []
      (bytes.drop file.offset) stats.err (Nat.lt_succ_self _) with
    whole | ⟨n, k, errno, most, fails, stops⟩
  · simp only [whole] at equation
    exact ⟨_, _, _, equation, within _, rfl, Nat.le_refl _, fun _ => rfl⟩
  · simp only [stops] at equation
    exact ⟨_, _, _, equation, within _, rfl, most,
      fun zero => absurd zero (proper.errno k errno fails)⟩

def remaining (file : ReadSmallFile) : List UInt8 :=
  (file.bytes.getD []).drop file.offset

theorem readToString_conserves (file : ReadSmallFile) (call : ReadCall) (result : ReadResult)
    (next : ReadSmallFile) (called : readToString file call = .ok (result, next)) :
    file.remaining ++ [] = result.bytes ++ next.remaining := by
  rw [List.append_nil]
  cases opened : file.bytes with
  | none =>
      rw [readToString, opened] at called
      cases called
      rw [remaining, opened]
      rfl
  | some bytes =>
      cases stats : statFile call file.err with
      | error fault =>
          rw [readToString, opened] at called
          simp only [stats] at called
          cases called
      | ok stated =>
          rw [readToString_eq opened stats] at called
          rcases readLoop_taken call.read (sizeOf call.maxSize)
              ((bytes.drop file.offset).length + 1) 0 [] (bytes.drop file.offset) stated.err
              (Nat.lt_succ_self _) with ⟨n, most, taken⟩
          cases called
          simp only [remaining, ReadResult.bytes, opened, taken, List.nil_append,
            Option.getD_some, List.length_take, Nat.min_eq_left most]
          rw [← List.drop_drop, List.take_append_drop]

/-- However the system cuts the reading of a file: the contents of the calls of `readToString` are
one part of the file after the other. A call that returns 0 gives all that the caller wants and the
file still has. -/
theorem contents_in_order (bytes : List UInt8) (calls : List ReadCall)
    (proper : ∀ call ∈ calls, call.Proper) :
    ∃ results file, run readToString (new (.ok bytes)) calls = .ok (results, file) ∧
      results.flatMap ReadResult.bytes = bytes.take file.offset ∧
      ∀ call : ReadCall, call.Proper → ∃ result next n,
        readToString file call = .ok (result, next) ∧
        result.content = some ((bytes.drop file.offset).take n) ∧ n ≤ sizeOf call.maxSize ∧
        (result.err = 0 → n = sizeOf call.maxSize) := by
  have succeeds : ∀ (file : ReadSmallFile) (past : List ReadCall) (call : ReadCall),
      Opened bytes file → call.Proper → ∃ result next, readToString file call = .ok (result, next) ∧
        Opened bytes next := by
    intro file past call opened isProper
    rcases readToString_spec opened isProper with ⟨result, next, _, called, stays, _⟩
    exact ⟨result, next, called, stays⟩
  rcases Run.run_history succeeds calls (new (.ok bytes)) [] (Opened.new bytes)
      (Run.along_of_mem calls _ proper) with ⟨results, file, ran, opened⟩
  refine ⟨results, file, ran, ?_, ?_⟩
  · have conserved := Run.run_conserves readToString_conserves calls (new (.ok bytes)) results
      file ran
    have all : bytes = results.flatMap ReadResult.bytes ++ bytes.drop file.offset := by
      simpa [remaining, new, opened.bytes, List.flatMap] using conserved
    have split := List.take_append_drop file.offset bytes
    nth_rewrite 3 [all] at split
    exact (List.append_cancel_right split).symm
  · intro call isProper
    rcases readToString_spec opened isProper with ⟨result, next, n, called, _, content⟩
    exact ⟨result, next, n, called, content⟩

def sampleCall : ReadCall where
  maxSize := 2
  fileSize := false
  modifyTime := false
  createTime := false
  stat := .ok ⟨.regular, 3, 0, 0⟩
  read := fun _ => .ok 0

/-- Two calls for two bytes of a file of three bytes, which the system gives one by one. -/
theorem contents_in_order_sample :
    (∀ call ∈ [sampleCall, sampleCall], call.Proper) ∧
      ∃ results file, run readToString (new (.ok [7, 8, 9])) [sampleCall, sampleCall] =
        .ok (results, file) ∧ results.flatMap ReadResult.bytes = [7, 8, 9] := by
  have proper : sampleCall.Proper :=
    ⟨by decide, by intro stat same; cases same; decide, by intro k errno fails; cases fails⟩
  have all : ∀ call ∈ [sampleCall, sampleCall], call.Proper := by
    intro call member
    simp only [List.mem_cons, List.not_mem_nil, or_false, or_self] at member
    rwa [member]
  refine ⟨all, ?_⟩
  rcases contents_in_order [7, 8, 9] _ all with ⟨results, file, ran, contents, _⟩
  refine ⟨results, file, ran, ?_⟩
  rw [contents]
  cases ran
  rfl

end ReadSmallFile

end Lctools.Muduo
