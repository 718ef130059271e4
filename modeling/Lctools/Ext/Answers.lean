import Lctools.Ext.Buffer

/-! # What a query answers

A query finds the suffixes that were added since the record was last cleared, as
long as the length of the file name fits into an `int`.
-/

namespace Lctools.Ext

open CString Numerals Fallible

/-! ## Meaning -/

/-- The suffixes added since the last `init_file_ext` or `clear_file_ext`. -/
def remember (added : List (List Char)) : Call → List (List Char)
  | .init => []
  | .clear => []
  | .add (some ext) => added ++ [ext]
  | _ => added

def history (calls : List Call) : List (List Char) :=
  calls.foldl remember []

/-- The last `.` of the name is not its first character, and what follows it is one
of the suffixes, up to the case of ASCII letters. -/
def Matches (added : List (List Char)) (fileName : List Char) : Prop :=
  ∃ suffix, SuffixOf fileName suffix ∧
    ∃ ext ∈ added, asciiStrdown ext = suffix.map Char.toLower

def verdict (isBlack : ℤ) (isMatch : Bool) : ℤ :=
  if isMatch = decide (isBlack = 0) then fileExtMatch else fileExtNotMatch

/-- The query is answered by whether the name matches a suffix that was added, and
whatever is called afterwards returns what it would have returned without the query. -/
def AnswersRight (calls : List Call) (fileExt : FileExt) (fileName : List Char) : Prop :=
  ∃ (isMatch : Bool) (next : Option FileExt),
    step (some fileExt) (.query fileName) = .ok (some (verdict fileExt.isBlack isMatch), next) ∧
      (isMatch = true ↔ Matches (history calls) (text fileName)) ∧
      ∀ later, (run step next later).map Prod.fst = (run step (some fileExt) later).map Prod.fst

/-- The part of the name that is looked at matches exactly when the whole name does. -/
def LengthFits (added : List (List Char)) (fileName : List Char) : Prop :=
  Matches added (examined fileName) ↔ Matches added (text fileName)

/-! ## What the record holds -/

/-- The table has the suffixes that were added, and the buffer has room for those
whose length fits into an `int`. -/
structure Holds (added : List (List Char)) (fileExt : FileExt) : Prop where
  stored : ∀ key, (HashTable.lookup (fun key => key) key fileExt.extHs).isSome = true ↔
    ∃ ext ∈ added, asciiStrdown ext = key
  room : ∀ ext ∈ added, ((text ext).length : ℤ) ≤ intMax →
    ((text ext).length : ℤ) ≤ fileExt.maxStrLen

def HoldsAt (added : List (List Char)) : Option FileExt → Prop
  | none => True
  | some fileExt => Holds added fileExt

theorem holds_empty {fileExt : FileExt} (empty : fileExt.extHs = []) : Holds [] fileExt := by
  constructor
  · intro key
    simp [empty, HashTable.lookup]
  · intro ext member
    cases member

theorem Holds.insert {added : List (List Char)} {before after : FileExt} {ext : List Char}
    (holds : Holds added before) (table : after.extHs = (insertExt before ext).extHs)
    (grows : before.maxStrLen ≤ after.maxStrLen) (fits : strlenInt ext ≤ after.maxStrLen) :
    Holds (added ++ [ext]) after := by
  constructor
  · intro key
    rw [table, insertExt, HashTable.lookup_insert]
    have old := holds.stored key
    by_cases same : asciiStrdown ext = key
    · simp [same]
    · rw [if_neg same, old]
      simp only [List.mem_append, List.mem_singleton]
      constructor
      · rintro ⟨other, member, equal⟩
        exact ⟨other, .inl member, equal⟩
      · rintro ⟨other, member | rfl, equal⟩
        · exact ⟨other, member, equal⟩
        · exact absurd equal same
  · intro other member short
    rcases List.mem_append.mp member with old | new
    · exact (holds.room other old short).trans grows
    · rw [List.mem_singleton.mp new] at short ⊢
      rw [strlenInt_of_short short] at fits
      exact fits

theorem InPhase.free {phase : Phase} {fileExt : FileExt} (inPhase : InPhase phase (some fileExt)) :
    ∃ old, fileExt.maxStr.free = .ok old := by
  cases phase with
  | absent => cases inPhase
  | cleared =>
      rcases inPhase with ⟨_, same, null, _⟩
      cases same
      exact ⟨.null, by rw [null]; rfl⟩
  | ready =>
      rcases inPhase with ⟨_, same, ready⟩
      cases same
      rcases ready.buffer with ⟨cells, live, _⟩
      exact ⟨.freed, by rw [live]; rfl⟩

/-- What a call that succeeds changes in the record. -/
inductive Changed (before : FileExt) : Call → FileExt → Prop
  | init : Changed before .init initFileExt
  | added {ext : List Char} {after : FileExt} :
      after.extHs = (insertExt before ext).extHs → after.count = before.count + 1 →
      before.maxStrLen ≤ after.maxStrLen → strlenInt ext ≤ after.maxStrLen →
      Changed before (.add (some ext)) after
  | cleared {after : FileExt} : after.extHs = [] → after.count = 0 → Changed before .clear after
  | kept {call : Call} {after : FileExt} : (∀ added, remember added call = added) →
      after.extHs = before.extHs → after.count = before.count →
      after.maxStrLen = before.maxStrLen → Changed before call after

theorem step_absent {call : Call} {reply : Option ℤ} {next : Option FileExt}
    (stepped : step none call = .ok (reply, next)) :
    next = none ∨ call = .init ∧ next = some initFileExt := by
  cases call with
  | init =>
      cases stepped
      exact .inr ⟨rfl, rfl⟩
  | add ext =>
      cases stepped
      exact .inl rfl
  | clear =>
      cases stepped
      exact .inl rfl
  | setBlackWhite isBlack =>
      cases stepped
      exact .inl rfl
  | query fileName =>
      cases stepped
      exact .inl rfl

theorem step_query_kept {phase : Phase} {fileExt : FileExt} {next : Option FileExt}
    {fileName : List Char} {reply : Option ℤ} (inPhase : InPhase phase (some fileExt))
    (stepped : step (some fileExt) (.query fileName) = .ok (reply, next)) :
    ∃ left, next = some { fileExt with maxStr := .live left } := by
  rcases step_cases inPhase (.query fileName) with ⟨_, _, failed⟩ | ⟨allowed, _⟩ | ⟨_, failed⟩
  · rw [failed] at stepped
    cases stepped
  · cases phase with
    | absent => cases inPhase
    | cleared => cases allowed
    | ready =>
        rcases inPhase with ⟨_, same, ready⟩
        cases same
        rcases ready.buffer with ⟨cells, live, sized⟩
        rcases step_query live sized ready.nonneg fileName with ⟨isMatch, left, queried, _⟩
        rw [queried] at stepped
        cases stepped
        exact ⟨left, rfl⟩
  · rw [failed] at stepped
    cases stepped

theorem step_changed {phase : Phase} {fileExt : FileExt} {next : Option FileExt} {call : Call}
    {reply : Option ℤ} (inPhase : InPhase phase (some fileExt))
    (stepped : step (some fileExt) call = .ok (reply, next)) :
    ∃ after, next = some after ∧ Changed fileExt call after := by
  rcases inPhase.free with ⟨old, free⟩
  cases call with
  | init =>
      cases stepped
      exact ⟨_, rfl, .init⟩
  | add ext =>
      cases ext with
      | none =>
          cases stepped
          exact ⟨_, rfl, .kept (fun _ => rfl) rfl rfl rfl⟩
      | some ext =>
          rcases step_add ext free with ⟨short, added⟩ | ⟨longer, small, added⟩ |
            ⟨longer, large, failed⟩
          · rw [added] at stepped
            cases stepped
            exact ⟨_, rfl, .added rfl rfl (le_refl _) short⟩
          · rw [added] at stepped
            cases stepped
            exact ⟨_, rfl, .added rfl rfl longer.le (le_refl _)⟩
          · rw [failed] at stepped
            cases stepped
  | clear =>
      rw [step_clear free] at stepped
      cases stepped
      exact ⟨_, rfl, .cleared rfl rfl⟩
  | setBlackWhite isBlack =>
      cases stepped
      exact ⟨_, rfl, .kept (fun _ => rfl) rfl rfl rfl⟩
  | query fileName =>
      rcases step_query_kept inPhase stepped with ⟨left, rfl⟩
      exact ⟨_, rfl, .kept (fun _ => rfl) rfl rfl rfl⟩

theorem holdsAt_step {phase : Phase} {pointer next : Option FileExt} {added : List (List Char)}
    {call : Call} {reply : Option ℤ} (inPhase : InPhase phase pointer)
    (holds : HoldsAt added pointer) (stepped : step pointer call = .ok (reply, next)) :
    HoldsAt (remember added call) next := by
  cases pointer with
  | none =>
      rcases step_absent stepped with rfl | ⟨rfl, rfl⟩
      · trivial
      · exact holds_empty rfl
  | some fileExt =>
      rcases step_changed inPhase stepped with ⟨after, rfl, changed⟩
      cases changed with
      | init => exact holds_empty rfl
      | added table _ grows fits => exact Holds.insert holds table grows fits
      | cleared table _ => exact holds_empty table
      | kept neutral table _ room =>
          rw [neutral added]
          refine ⟨?_, ?_⟩
          · rw [table]
            exact holds.stored
          · rw [room]
            exact holds.room

theorem run_history (holds : List (List Char) → Option FileExt → Prop)
    (keeps : ∀ {phase : Phase} {pointer next : Option FileExt} {added : List (List Char)}
      {call : Call} {reply : Option ℤ}, InPhase phase pointer → holds added pointer →
      step pointer call = .ok (reply, next) → holds (remember added call) next)
    (calls : List Call) :
    ∀ (phase : Phase) (pointer last : Option FileExt) (added : List (List Char))
      (replies : List (Option ℤ)), InPhase phase pointer → holds added pointer →
      run step pointer calls = .ok (replies, last) →
      (∃ reached, InPhase reached last) ∧ holds (calls.foldl remember added) last := by
  induction calls with
  | nil =>
      intro phase pointer last added replies inPhase holding ran
      cases ran
      exact ⟨⟨phase, inPhase⟩, holding⟩
  | cons call calls induction =>
      intro phase pointer last added replies inPhase holding ran
      rcases Run.run_cons_inversion ran with ⟨reply, next, rest, stepped, ranRest, _⟩
      rcases step_cases inPhase call with ⟨_, _, failed⟩ |
        ⟨_, _, reply', next', stepped', nextPhase⟩ | ⟨_, failed⟩
      · rw [failed] at stepped
        cases stepped
      · rw [stepped] at stepped'
        cases stepped'
        exact induction _ next last _ rest nextPhase (keeps inPhase holding stepped) ranRest
      · rw [failed] at stepped
        cases stepped

/-! ## What is found -/

/-- The table has what follows the last `.` of the part of the name that is looked at,
exactly when that part matches a suffix. -/
theorem foundIn_iff_matches {added : List (List Char)} {fileExt : FileExt}
    (holds : Holds added fileExt) (fileName : List Char) :
    FoundIn fileExt ((examined fileName).drop 1).reverse ↔ Matches added (examined fileName) := by
  constructor
  · rintro ⟨suffix, stem, split, absent, _, found⟩
    refine ⟨suffix.reverse, ?_, (holds.stored _).mp found⟩
    exact (suffixOf_iff _ _).mpr ⟨by simpa using absent, stem, by simpa using split⟩
  · rintro ⟨suffix, suffixOf, ext, member, equal⟩
    rcases (suffixOf_iff _ _).mp suffixOf with ⟨absent, stem, split⟩
    refine ⟨suffix.reverse, stem, split, by simpa using absent, ?_, ?_⟩
    · have sameLength : (text ext).length = suffix.length := by
        have lengths := congrArg List.length equal
        simpa [asciiStrdown] using lengths
      have short : (suffix.length : ℤ) ≤ intMax := by
        rcases suffixOf with ⟨before, whole, _, _⟩
        have parts := congrArg List.length whole
        rw [List.length_append, List.length_cons, examined, List.length_take] at parts
        have bound := strlenInt_le_intMax fileName
        have positive : 0 ≤ intMax := by decide
        omega
      rw [List.length_reverse, ← sameLength]
      rw [← sameLength] at short
      exact holds.room ext member short
    · rw [List.reverse_reverse]
      exact (holds.stored _).mpr ⟨ext, member, equal⟩

theorem examined_of_short {fileName : List Char}
    (short : ((text fileName).length : ℤ) ≤ intMax) : examined fileName = text fileName := by
  rw [examined, strlenInt_of_short short, Int.toNat_natCast, List.take_length]

theorem lengthFits_of_short {added : List (List Char)} {fileName : List Char}
    (short : ((text fileName).length : ℤ) ≤ intMax) : LengthFits added fileName := by
  rw [LengthFits, examined_of_short short]

theorem invert_eq_verdict (isBlack : ℤ) (isMatch : Bool) :
    invert isBlack (if isMatch then fileExtMatch else fileExtNotMatch) =
      verdict isBlack isMatch := by
  by_cases white : isBlack = 0
  · cases isMatch <;> simp [invert, verdict, white]
  · cases isMatch <;> simp [invert, verdict, white, fileExtMatch, fileExtNotMatch]

theorem verdict_injective {isBlack : ℤ} {first second : Bool}
    (equal : verdict isBlack first = verdict isBlack second) : first = second := by
  by_cases white : isBlack = 0
  · cases first <;> cases second <;>
      simp_all [verdict, fileExtMatch, fileExtNotMatch]
  · cases first <;> cases second <;>
      simp_all [verdict, fileExtMatch, fileExtNotMatch]

/-! ## Later answers -/

/-- Two records that differ at most in what their buffers hold. -/
inductive SameButBuffer : Option FileExt → Option FileExt → Prop
  | same {pointer} : SameButBuffer pointer pointer
  | buffers {fileExt : FileExt} {left right : List (Option Char)} :
      Ready { fileExt with maxStr := .live left } →
      Ready { fileExt with maxStr := .live right } →
      SameButBuffer (some { fileExt with maxStr := .live left })
        (some { fileExt with maxStr := .live right })

theorem Ready.withCells {fileExt : FileExt} {left right : List (Option Char)}
    (ready : Ready { fileExt with maxStr := .live left }) (length : right.length = left.length) :
    Ready { fileExt with maxStr := .live right } := by
  rcases ready.buffer with ⟨cells, live, sized⟩
  cases live
  refine ⟨⟨right, rfl, ?_⟩, ready.nonneg, ready.small⟩
  rw [length]
  exact sized

/-- Two steps with the same fault, or with the same answer and records that differ at most
in their buffers. -/
def StepsAlike (left right : Option FileExt) (call : Call) : Prop :=
  (∃ fault, step left call = .error fault ∧ step right call = .error fault) ∨
  ∃ reply leftNext rightNext, step left call = .ok (reply, leftNext) ∧
    step right call = .ok (reply, rightNext) ∧ SameButBuffer leftNext rightNext

section Buffers

variable {fileExt : FileExt} {left right : List (Option Char)}
  (leftReady : Ready { fileExt with maxStr := .live left })
  (rightReady : Ready { fileExt with maxStr := .live right })

include leftReady rightReady

theorem stepsAlike_add (ext : List Char) :
    StepsAlike (some { fileExt with maxStr := .live left })
      (some { fileExt with maxStr := .live right }) (.add (some ext)) := by
  have leftCases := @step_add { fileExt with maxStr := .live left } ext .freed rfl
  have rightCases := @step_add { fileExt with maxStr := .live right } ext .freed rfl
  dsimp only at leftCases rightCases
  rcases leftCases with ⟨leftShort, leftStep⟩ | ⟨leftLonger, leftSmall, leftStep⟩ |
    ⟨leftLonger, leftLarge, leftFails⟩
  · rcases rightCases with ⟨_, rightStep⟩ | ⟨rightLonger, _⟩ | ⟨rightLonger, _⟩
    · refine .inr ⟨_, _, _, leftStep, rightStep, ?_⟩
      exact @SameButBuffer.buffers (insertExt fileExt ext) left right
        ⟨leftReady.buffer, leftReady.nonneg, leftReady.small⟩
        ⟨rightReady.buffer, rightReady.nonneg, rightReady.small⟩
    · omega
    · omega
  · rcases rightCases with ⟨rightShort, _⟩ | ⟨_, _, rightStep⟩ | ⟨_, rightLarge, _⟩
    · omega
    · refine .inr ⟨_, _, _, leftStep, rightStep, ?_⟩
      exact @SameButBuffer.same (some (widened fileExt ext))
    · omega
  · rcases rightCases with ⟨rightShort, _⟩ | ⟨_, rightSmall, _⟩ | ⟨_, _, rightFails⟩
    · omega
    · omega
    · exact .inl ⟨_, leftFails, rightFails⟩

theorem stepsAlike_query (fileName : List Char) :
    StepsAlike (some { fileExt with maxStr := .live left })
      (some { fileExt with maxStr := .live right }) (.query fileName) := by
  rcases leftReady.buffer with ⟨_, leftLive, leftSized⟩
  rcases rightReady.buffer with ⟨_, rightLive, rightSized⟩
  rcases step_query leftLive leftSized leftReady.nonneg fileName with
    ⟨leftMatch, leftCells, leftStep, leftLength, leftFound⟩
  rcases step_query rightLive rightSized rightReady.nonneg fileName with
    ⟨rightMatch, rightCells, rightStep, rightLength, rightFound⟩
  have agree : leftMatch = rightMatch := Bool.eq_iff_iff.mpr (leftFound.trans rightFound.symm)
  subst agree
  cases leftLive
  cases rightLive
  exact .inr ⟨_, _, _, leftStep, rightStep,
    .buffers (leftReady.withCells leftLength) (rightReady.withCells rightLength)⟩

end Buffers

theorem step_sameButBuffer (left right : Option FileExt) (call : Call)
    (same : SameButBuffer left right) : StepsAlike left right call := by
  cases same with
  | same =>
      rw [StepsAlike]
      rcases step left call with fault | ⟨reply, next⟩
      · exact .inl ⟨fault, rfl, rfl⟩
      · exact .inr ⟨reply, next, next, rfl, rfl, .same⟩
  | @buffers fileExt left right leftReady rightReady =>
      cases call with
      | init => exact .inr ⟨_, _, _, rfl, rfl, .same⟩
      | add ext =>
          cases ext with
          | none => exact .inr ⟨_, _, _, rfl, rfl, .buffers leftReady rightReady⟩
          | some ext => exact stepsAlike_add leftReady rightReady ext
      | clear => exact .inr ⟨_, _, _, step_clear rfl, step_clear rfl, .same⟩
      | setBlackWhite isBlack =>
          refine .inr ⟨_, _, _, rfl, rfl, ?_⟩
          exact @SameButBuffer.buffers { fileExt with isBlack := isBlack } left right
            ⟨leftReady.buffer, leftReady.nonneg, leftReady.small⟩
            ⟨rightReady.buffer, rightReady.nonneg, rightReady.small⟩
      | query fileName => exact stepsAlike_query leftReady rightReady fileName

theorem ready_of_run {calls : List Call} {replies : List (Option ℤ)} {fileExt : FileExt}
    {cells : List (Option Char)} (ran : run step none calls = .ok (replies, some fileExt))
    (allocated : fileExt.maxStr = .live cells) :
    Ready fileExt ∧ Holds (history calls) fileExt := by
  rcases run_history HoldsAt holdsAt_step calls .absent none (some fileExt) [] replies rfl
      trivial ran with
    ⟨⟨phase, inPhase⟩, holds⟩
  refine ⟨?_, holds⟩
  cases phase with
  | absent => cases inPhase
  | cleared =>
      rcases inPhase with ⟨_, same, null, _⟩
      cases same
      rw [null] at allocated
      cases allocated
  | ready =>
      rcases inPhase with ⟨_, same, ready⟩
      cases same
      exact ready

section Query

variable {calls : List Call} {fileExt : FileExt} (ready : Ready fileExt)
  (holds : Holds (history calls) fileExt) (fileName : List Char)

include ready holds

theorem step_query_matches :
    ∃ isMatch cells, step (some fileExt) (.query fileName) =
        .ok (some (verdict fileExt.isBlack isMatch),
          some { fileExt with maxStr := .live cells }) ∧
      (isMatch = true ↔ Matches (history calls) (examined fileName)) ∧
      Ready { fileExt with maxStr := .live cells } := by
  rcases ready.buffer with ⟨_, live, sized⟩
  rcases step_query live sized ready.nonneg fileName with ⟨isMatch, left, stepped, length, found⟩
  rw [invert_eq_verdict] at stepped
  refine ⟨isMatch, left, stepped, found.trans (foundIn_iff_matches holds fileName), ?_⟩
  exact ⟨⟨left, rfl, by rw [length, sized]⟩, ready.nonneg, ready.small⟩

theorem lengthFits_of_answersRight (right : AnswersRight calls fileExt fileName) :
    LengthFits (history calls) fileName := by
  rcases step_query_matches ready holds fileName with ⟨isMatch, _, stepped, meaning, _⟩
  rcases right with ⟨answer, next, stepped', right, _⟩
  rw [stepped] at stepped'
  simp only [Except.ok.injEq, Prod.mk.injEq, Option.some.injEq] at stepped'
  have same : isMatch = answer := verdict_injective stepped'.1
  rw [← same] at right
  exact meaning.symm.trans right

theorem answersRight_of_lengthFits (fits : LengthFits (history calls) fileName) :
    AnswersRight calls fileExt fileName := by
  rcases step_query_matches ready holds fileName with ⟨isMatch, left, stepped, meaning, kept⟩
  refine ⟨isMatch, _, stepped, meaning.trans fits, ?_⟩
  intro later
  apply Run.run_related step_sameButBuffer
  rcases ready.buffer with ⟨_, live, _⟩
  rcases fileExt with ⟨count, extHs, maxStr, maxStrLen, isBlack⟩
  cases live
  exact @SameButBuffer.buffers ⟨count, extHs, .null, maxStrLen, isBlack⟩ left _ kept ready

end Query

/-- Along every run that leaves a buffer, a query is answered right exactly when the
length of the file name fits into an `int` or does not matter. -/
theorem answersRight_iff_lengthFits {calls : List Call} {replies : List (Option ℤ)}
    {fileExt : FileExt} {cells : List (Option Char)}
    (ran : run step none calls = .ok (replies, some fileExt))
    (allocated : fileExt.maxStr = .live cells) (fileName : List Char) :
    AnswersRight calls fileExt fileName ↔ LengthFits (history calls) fileName := by
  rcases ready_of_run ran allocated with ⟨ready, holds⟩
  constructor
  · exact lengthFits_of_answersRight ready holds fileName
  · exact answersRight_of_lengthFits ready holds fileName

/-- A suffix that was added in another case. -/
theorem answersRight_exe :
    ∃ replies fileExt cells,
      run step none [.init, .add (some "EXE".toList), .setBlackWhite 1] =
        .ok (replies, some fileExt) ∧ fileExt.maxStr = .live cells ∧
      AnswersRight [.init, .add (some "EXE".toList), .setBlackWhite 1] fileExt
        "a.tar.Exe".toList := by
  have ran : run step none [.init, .add (some "EXE".toList), .setBlackWhite 1] =
      .ok ([none, some 0, none], some ⟨1, [("exe".toList, "exe".toList)],
        .live (List.replicate 6 (some nul)), 5, 1⟩) := by
    decide +kernel
  refine ⟨_, _, _, ran, rfl, ?_⟩
  exact (answersRight_iff_lengthFits ran rfl "a.tar.Exe".toList).mpr
    (lengthFits_of_short (by decide))

/-- The length of a name of `2 ^ 31 + 4` characters is a negative `int`, and the name
is not looked at. -/
theorem not_answersRight_long :
    ¬AnswersRight [.init, .add (some "exe".toList)] ⟨1, [("exe".toList, "exe".toList)],
      .live (List.replicate 6 (some nul)), 5, 0⟩
      (List.replicate (2 ^ 31) 'a' ++ ".exe".toList) := by
  intro right
  have ran : run step none [.init, .add (some "exe".toList)] =
      .ok ([none, some 0], some ⟨1, [("exe".toList, "exe".toList)],
        .live (List.replicate 6 (some nul)), 5, 0⟩) := by
    decide +kernel
  rcases ready_of_run ran rfl with ⟨ready, holds⟩
  have fits := lengthFits_of_answersRight ready holds _ right
  generalize count : 2 ^ 31 = number at fits
  have clean : text (List.replicate number 'a' ++ ".exe".toList) =
      List.replicate number 'a' ++ ".exe".toList := by
    apply text_of_no_nul
    intro member
    rcases List.mem_append.mp member with inStem | inSuffix
    · exact absurd (List.eq_of_mem_replicate inStem) (by decide)
    · exact absurd inSuffix (by decide)
  have length : (text (List.replicate number 'a' ++ ".exe".toList)).length = 2147483652 := by
    have dotted : ".exe".toList.length = 4 := by decide
    rw [clean, List.length_append, List.length_replicate, dotted]
    omega
  have negative : strlenInt (List.replicate number 'a' ++ ".exe".toList) = -2147483644 := by
    unfold strlenInt
    rw [length]
    decide
  rw [LengthFits, examined, negative, clean] at fits
  have found : Matches (history [.init, .add (some "exe".toList)])
      (List.replicate number 'a' ++ ".exe".toList) := by
    refine ⟨"exe".toList, ⟨List.replicate number 'a', rfl, ?_, by decide⟩, "exe".toList,
      by decide, by decide⟩
    apply List.ne_nil_of_length_pos
    rw [List.length_replicate]
    omega
  rcases fits.mpr found with ⟨suffix, ⟨stem, split, _⟩, _⟩
  simp at split

end Lctools.Ext
