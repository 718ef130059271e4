import Lctools.Foundation.Fallible
import Lctools.Foundation.Numerals
import Lctools.Foundation.Scratch

/-! # `utils/get_trace/get_trace.c`

The lines of a call stack, printed one behind the other into a buffer. `snprintf`
returns how long a line would have been, and its size is unsigned.
-/

namespace Lctools.Trace

open CString Numerals Fallible

/-! ## The program -/

inductive Fault where
  | buffer (fault : Scratch.Fault)
  /-- The sum of the lengths does not fit into an `int`. -/
  | intOverflow
  deriving DecidableEq, Repr

def intMax : ℕ := 2 ^ 31 - 1

/-- `"%d\t%s\n"` for the symbol at index `j`. -/
def line (j : ℕ) (symbol : List Char) : List Char :=
  decimal (j + 1) ++ '\t' :: text symbol ++ ['\n']

/-- `snprintf(stack_info + offset, size, ..)`, without what it returns. -/
def snprintfAt (cells : List (Option Char)) (offset size : ℕ) (formatted : List Char) :
    Except Fault (List (Option Char)) :=
  if size = 0 then .ok cells
  else (Scratch.copy cells offset (formatted.take (size - 1) ++ [nul])).mapError .buffer

/-- The `for` loop for a buffer, from index `j` on. -/
def traceLoop (len : ℤ) : (j : ℕ) → (strings : List (List Char)) → (offset : ℕ) →
    (stackInfo : List (Option Char)) → Except Fault (List (Option Char))
  | _, [], _, stackInfo => .ok stackInfo
  | j, symbol :: strings, offset, stackInfo => do
      let stackInfo ← snprintfAt stackInfo offset (wrapUnsigned 64 (len - offset)).toNat
        (line j symbol)
      if offset + (line j symbol).length ≤ intMax then
        traceLoop len (j + 1) strings (offset + (line j symbol).length) stackInfo
      else
        .error .intOverflow

/-- The lines of the stack, numbered from `j + 1` on. -/
def numbered : (j : ℕ) → (strings : List (List Char)) → List Char
  | _, [] => []
  | j, symbol :: strings => line j symbol ++ numbered (j + 1) strings

inductive Outcome where
  | exits (status : ℤ)
  | returns (stackInfo : Option (List (Option Char))) (printed : List Char)
  deriving DecidableEq, Repr

/-- `get_trace`. What `backtrace_symbols` returns is an argument, `none` for NULL. Without a
buffer the lines are printed. -/
def getTrace (strings : Option (List (List Char))) (stackInfo : Option (List (Option Char)))
    (len : ℤ) : Except Fault Outcome :=
  match strings with
  | none => .ok (.exits 1)
  | some strings =>
      match stackInfo with
      | none => .ok (.returns none (numbered 0 strings))
      | some stackInfo => do
          let stackInfo ← traceLoop len 0 strings 0 stackInfo
          .ok (.returns (some stackInfo) [])

/-! ## Meaning -/

/-- The call stays inside the buffer and leaves a string in it that is a prefix of the
lines. -/
def TraceRight (strings : List (List Char)) (stackInfo : List (Option Char)) : Prop :=
  ∃ after held, getTrace (some strings) (some stackInfo) stackInfo.length =
      .ok (.returns (some after) []) ∧
    after.length = stackInfo.length ∧ Scratch.readText after = .ok held ∧
    held <+: numbered 0 strings

/-- The lines before the last one are at most as long as the buffer, and all lines
together have a length. Without any line the buffer has to be an empty string already. -/
def TraceFits (strings : List (List Char)) (stackInfo : List (Option Char)) : Prop :=
  if strings = [] then stackInfo.head? = some (some nul)
  else (numbered 0 strings.dropLast).length ≤ stackInfo.length ∧
    (numbered 0 strings).length ≤ intMax

instance (strings : List (List Char)) (stackInfo : List (Option Char)) :
    Decidable (TraceFits strings stackInfo) :=
  inferInstanceAs (Decidable (if strings = [] then _ else _))

/-! ## One line -/

/-- The buffer holds the text `written` as far as it has room for it. -/
def Filled (written : List Char) (cells : List (Option Char)) : Prop :=
  ∃ rest, cells = (written.take (cells.length - 1) ++ [nul]).map some ++ rest

section Line

variable {written : List Char} {cells : List (Option Char)}

theorem wrapUnsigned_left {len offset : ℕ} (small : len ≤ intMax) (inside : offset ≤ len) :
    (wrapUnsigned 64 ((len : ℤ) - offset)).toNat = len - offset := by
  unfold intMax at small
  rw [wrapUnsigned, Int.emod_eq_of_lt (by omega) (by omega)]
  omega

/-- Behind the end of the buffer the size is a very large number. -/
theorem wrapUnsigned_behind {len offset : ℕ} (behind : len < offset) (small : offset ≤ intMax) :
    (wrapUnsigned 64 ((len : ℤ) - offset)).toNat ≠ 0 := by
  unfold intMax at small
  have wrapped : ((len : ℤ) - offset) % 2 ^ 64 = (len : ℤ) - offset + 2 ^ 64 := by omega
  rw [wrapUnsigned, wrapped]
  omega

theorem filled_room (filled : written = [] ∨ Filled written cells)
    (room : written.length < cells.length) : ∃ rest, cells = written.map some ++ rest := by
  rcases filled with rfl | ⟨rest, split⟩
  · exact ⟨cells, rfl⟩
  · rw [List.take_of_length_le (by omega), List.map_append, List.append_assoc] at split
    exact ⟨_, split⟩

theorem snprintfAt_inside (small : cells.length ≤ intMax) (positive : 1 ≤ cells.length)
    (filled : written = [] ∨ Filled written cells) (inside : written.length ≤ cells.length)
    (formatted : List Char) :
    ∃ after, snprintfAt cells written.length
        (wrapUnsigned 64 ((cells.length : ℤ) - written.length)).toNat formatted = .ok after ∧
      after.length = cells.length ∧ Filled (written ++ formatted) after := by
  rw [wrapUnsigned_left small inside]
  rcases Nat.lt_or_eq_of_le inside with room | full
  · rcases filled_room filled room with ⟨rest, split⟩
    have lengths := congrArg List.length split
    rw [List.length_append, List.length_map] at lengths
    have taken : (written ++ formatted).take (cells.length - 1) =
        written ++ formatted.take (cells.length - written.length - 1) := by
      rw [List.take_append, List.take_of_length_le (by omega), Nat.sub_right_comm]
    generalize shown : formatted.take (cells.length - written.length - 1) = line at taken
    have short : line.length + 1 ≤ rest.length := by
      rw [← shown, List.length_take]
      omega
    have copied := @Scratch.copy_behind _ written (line ++ [nul]) rest (by simpa using short)
    have length : ((written ++ (line ++ [nul])).map some ++
        rest.drop (line ++ [nul]).length).length = cells.length := by
      simp only [List.length_append, List.length_map, List.length_drop, List.length_singleton]
      omega
    rw [← split] at copied
    refine ⟨_, ?_, length, rest.drop (line ++ [nul]).length, ?_⟩
    · rw [snprintfAt, if_neg (by omega), shown]
      exact mapError_ok copied _
    · rw [length, taken, List.append_assoc]
  · have nothing : cells.length - written.length = 0 := by omega
    refine ⟨cells, if_pos nothing, rfl, ?_⟩
    rcases filled with rfl | ⟨rest, split⟩
    · rw [List.length_nil] at full
      omega
    · refine ⟨rest, ?_⟩
      rw [List.take_append_of_le_length (by omega)]
      exact split

theorem snprintfAt_behind (behind : cells.length < written.length)
    (small : written.length ≤ intMax) (formatted : List Char) :
    ∃ fault, snprintfAt cells written.length
      (wrapUnsigned 64 ((cells.length : ℤ) - written.length)).toNat formatted = .error fault := by
  have outside : cells.length <
      written.length + (formatted.take
        ((wrapUnsigned 64 ((cells.length : ℤ) - written.length)).toNat - 1) ++ [nul]).length := by
    omega
  exact ⟨_, (if_neg (wrapUnsigned_behind behind small)).trans
    (mapError_error (Scratch.copy_error outside) _)⟩

end Line

/-! ## All lines -/

/-- Every line starts at most at the end of the buffer. -/
def Fits (len : ℕ) : (offset j : ℕ) → (strings : List (List Char)) → Prop
  | _, _, [] => True
  | offset, j, symbol :: strings =>
      offset ≤ len ∧ offset + (line j symbol).length ≤ intMax ∧
        Fits len (offset + (line j symbol).length) (j + 1) strings

theorem fits_iff (len : ℕ) (strings : List (List Char)) :
    ∀ offset j, strings ≠ [] → (Fits len offset j strings ↔
      offset + (numbered j strings.dropLast).length ≤ len ∧
        offset + (numbered j strings).length ≤ intMax) := by
  induction strings with
  | nil =>
      intro offset j nonempty
      exact absurd rfl nonempty
  | cons symbol strings induction =>
      intro offset j _
      cases strings with
      | nil => simp [Fits, numbered]
      | cons next strings =>
          rw [Fits, induction _ _ (List.cons_ne_nil _ _), List.dropLast_cons_cons]
          have whole : (numbered j (symbol :: next :: strings)).length =
              (line j symbol).length + (numbered (j + 1) (next :: strings)).length :=
            List.length_append
          have front : (numbered j (symbol :: (next :: strings).dropLast)).length =
              (line j symbol).length + (numbered (j + 1) (next :: strings).dropLast).length :=
            List.length_append
          omega

/-- The loop fills the buffer while the lines fit, and ends in a fault when one does not. -/
theorem traceLoop_spec (strings : List (List Char)) :
    ∀ (j : ℕ) (written : List Char) (cells : List (Option Char)),
      cells.length ≤ intMax → 1 ≤ cells.length → written.length ≤ intMax →
      (written = [] ∨ Filled written cells) →
      (Fits cells.length written.length j strings →
        ∃ after, traceLoop cells.length j strings written.length cells = .ok after ∧
          after.length = cells.length ∧
          (written ++ numbered j strings = [] ∧ after = cells ∨
            Filled (written ++ numbered j strings) after)) ∧
      (¬Fits cells.length written.length j strings →
        ∃ fault, traceLoop cells.length j strings written.length cells = .error fault) := by
  induction strings with
  | nil =>
      intro j written cells _ _ _ filled
      refine ⟨?_, fun unfit => absurd trivial unfit⟩
      intro _
      rw [numbered, List.append_nil]
      exact ⟨cells, rfl, rfl, filled.imp_left fun empty => ⟨empty, rfl⟩⟩
  | cons symbol strings induction =>
      intro j written cells small positive known filled
      rw [traceLoop, Fits, numbered, ← List.append_assoc]
      cases Nat.lt_or_ge cells.length written.length with
      | inl behind =>
          refine ⟨fun fits => absurd fits.1 (by omega), fun _ => ?_⟩
          rcases snprintfAt_behind behind known (line j symbol) with ⟨fault, failed⟩
          exact ⟨fault, bind_error failed _⟩
      | inr inside =>
          rcases snprintfAt_inside small positive filled inside (line j symbol) with
            ⟨middle, printed, length, next⟩
          rw [bind_ok printed]
          by_cases counted : written.length + (line j symbol).length ≤ intMax
          · rw [if_pos counted, ← List.length_append, ← length]
            rcases induction (j + 1) (written ++ line j symbol) middle (by omega) (by omega)
              (by rw [List.length_append]; exact counted) (.inr next) with ⟨reaches, fails⟩
            refine ⟨?_, ?_⟩
            · intro fits
              rcases reaches fits.2.2 with ⟨after, computed, same, held⟩
              refine ⟨after, computed, same, ?_⟩
              rcases held with ⟨empty, _⟩ | held
              · simp [line] at empty
              · exact .inr held
            · intro unfit
              apply fails
              intro fits
              exact unfit ⟨by omega, by rwa [List.length_append], fits⟩
          · rw [if_neg counted]
            exact ⟨fun fits => absurd fits.2.1 counted, fun _ => ⟨_, rfl⟩⟩

theorem readText_filled {written : List Char} {cells : List (Option Char)}
    (filled : Filled written cells) :
    ∃ held, Scratch.readText cells = .ok held ∧ held <+: written := by
  rcases filled with ⟨rest, split⟩
  have held := Scratch.readText_terminated (written.take (cells.length - 1)) rest
  rw [← split] at held
  exact ⟨_, held, (List.takeWhile_prefix _).trans (List.take_prefix _ _)⟩

theorem readText_eq_nil_iff (cells : List (Option Char)) :
    Scratch.readText cells = .ok [] ↔ cells.head? = some (some nul) := by
  rcases cells with _ | ⟨_ | c, cells⟩
  · simp [Scratch.readText]
  · simp [Scratch.readText]
  · rw [Scratch.readText]
    by_cases ends : c = nul
    · simp [ends]
    · rw [if_neg ends]
      cases Scratch.readText cells with
      | error fault => simp [bind, Except.bind, ends]
      | ok rest => simp [bind, Except.bind, ends]

section Call

variable {strings : List (List Char)} {stackInfo after : List (Option Char)} {len : ℤ}

theorem getTrace_ok (computed : traceLoop len 0 strings 0 stackInfo = .ok after) :
    getTrace (some strings) (some stackInfo) len = .ok (.returns (some after) []) :=
  bind_ok computed _

theorem getTrace_error {fault : Fault} (failed : traceLoop len 0 strings 0 stackInfo = .error fault) :
    getTrace (some strings) (some stackInfo) len = .error fault :=
  bind_error failed _

end Call

theorem numbered_ne_nil {strings : List (List Char)} (nonempty : strings ≠ []) (j : ℕ) :
    numbered j strings ≠ [] := by
  cases strings with
  | nil => exact absurd rfl nonempty
  | cons symbol strings => simp [numbered, line]

theorem traceRight_nil_iff (stackInfo : List (Option Char)) :
    TraceRight [] stackInfo ↔ stackInfo.head? = some (some nul) := by
  have untouched : getTrace (some []) (some stackInfo) stackInfo.length =
      .ok (.returns (some stackInfo) []) := getTrace_ok rfl
  rw [TraceRight, untouched, ← readText_eq_nil_iff]
  constructor
  · rintro ⟨after, held, same, _, read, short⟩
    cases same
    rw [read, List.prefix_nil.mp short]
  · intro read
    exact ⟨stackInfo, [], rfl, rfl, read, List.nil_prefix⟩

/-- `get_trace` is right exactly if the lines fit. -/
theorem traceRight_iff_traceFits (strings : List (List Char)) (stackInfo : List (Option Char))
    (positive : 1 ≤ stackInfo.length) (small : stackInfo.length ≤ intMax) :
    TraceRight strings stackInfo ↔ TraceFits strings stackInfo := by
  rw [TraceFits]
  by_cases empty : strings = []
  · rw [if_pos empty, empty]
    exact traceRight_nil_iff stackInfo
  · have fits := fits_iff stackInfo.length strings 0 0 empty
    rw [Nat.zero_add, Nat.zero_add] at fits
    rw [if_neg empty, ← fits]
    rcases traceLoop_spec strings 0 [] stackInfo small positive (Nat.zero_le _) (.inl rfl) with
      ⟨reaches, fails⟩
    constructor
    · rintro ⟨after, held, returned, _⟩
      by_contra unfit
      rcases fails unfit with ⟨fault, failed⟩
      rw [getTrace_error failed] at returned
      cases returned
    · intro fit
      rcases reaches fit with ⟨after, computed, length, filled⟩
      rcases filled with ⟨nothing, _⟩ | filled
      · exact absurd nothing (numbered_ne_nil empty 0)
      · rcases readText_filled filled with ⟨held, read, short⟩
        exact ⟨after, held, getTrace_ok computed, length, read, short⟩

/-- Two short frames in 20 bytes. -/
theorem traceRight_two_frames :
    TraceRight ["main".toList, "_start".toList] (Scratch.fresh 20) :=
  (traceRight_iff_traceFits _ _ (by decide) (by decide)).mpr (by decide)

/-- In eight bytes the second line is cut off, and the third is written behind them. -/
theorem not_traceRight_three_frames :
    getTrace (some ["run".toList, "main".toList, "_start".toList]) (some (Scratch.fresh 8)) 8 =
        .error (.buffer (.outOfBounds 8)) ∧
      ¬TraceRight ["run".toList, "main".toList, "_start".toList] (Scratch.fresh 8) := by
  have failed : getTrace (some ["run".toList, "main".toList, "_start".toList])
      (some (Scratch.fresh 8)) 8 = .error (.buffer (.outOfBounds 8)) := by
    decide +kernel
  refine ⟨failed, ?_⟩
  rintro ⟨after, held, returned, _⟩
  exact absurd (failed.symm.trans returned) nofun

end Lctools.Trace
