import Lctools.Foundation.CString
import Mathlib.Algebra.Order.Ring.Int
import Mathlib.Data.Int.ModEq
import Mathlib.Data.Set.Defs
import Mathlib.Tactic.Linarith
import Mathlib.Tactic.Positivity
import Mathlib.Tactic.Ring

/-! # Decimal numbers in C strings

Reading decimal numbers as `strtol`, `strtoul`, `atoi` and `sscanf` do on a
machine with 32 bit `int` and 64 bit `long`, and printing them as `%d` and
`%0wd` do.
-/

namespace Lctools.Numerals

open CString

/-! ## Reading -/

def isSpace (c : Char) : Bool :=
  c == ' ' || ('\t' ≤ c && c ≤ '\r')

/-- A sign in front of the digits; `true` for a minus. -/
def takeSign : List Char → Bool × List Char
  | '-' :: rest => (true, rest)
  | '+' :: rest => (false, rest)
  | rest => (false, rest)

/-- The sign and the digits a conversion consumes, `none` without any digit. -/
def scanNumber (source : List Char) : Option (Bool × ℕ) :=
  let (negative, rest) := takeSign ((text source).dropWhile isSpace)
  match rest.takeWhile Char.isDigit with
  | [] => none
  | digits => some (negative, Nat.ofDigitChars 10 digits 0)

/-- The signed `width` bit number that has the same low bits as `value`. -/
def wrapSigned (width : ℕ) (value : ℤ) : ℤ :=
  value.bmod (2 ^ width)

theorem wrapSigned_le (width : ℕ) {value : ℤ} (nonneg : 0 ≤ value) :
    wrapSigned width value ≤ value := by
  have remainder : value % (2 ^ width : ℕ) ≤ value := by
    rw [← Int.toNat_of_nonneg nonneg]
    exact_mod_cast Nat.mod_le _ _
  rw [wrapSigned, Int.bmod_def]
  split_ifs <;> omega

theorem wrapSigned_lt (width : ℕ) (value : ℤ) : wrapSigned (width + 1) value < 2 ^ width := by
  have bound := @Int.bmod_lt value (2 ^ (width + 1)) (Nat.two_pow_pos _)
  rw [wrapSigned]
  rw [Nat.pow_succ] at bound ⊢
  push_cast at bound
  omega

theorem wrapSigned_of_small (width : ℕ) {value : ℤ} (nonneg : 0 ≤ value)
    (small : value < 2 ^ width) : wrapSigned (width + 1) value = value := by
  apply Int.bmod_eq_of_le
  · rw [Nat.pow_succ]
    push_cast
    omega
  · rw [Nat.pow_succ]
    push_cast
    omega

def wrapUnsigned (width : ℕ) (value : ℤ) : ℤ :=
  value % 2 ^ width

private def signedLong (number : Bool × ℕ) : ℤ :=
  if number.1 then max (-(number.2 : ℤ)) (-2 ^ 63) else min number.2 (2 ^ 63 - 1)

private def unsignedLong (number : Bool × ℕ) : ℤ :=
  if 2 ^ 64 ≤ number.2 then 2 ^ 64 - 1
  else wrapUnsigned 64 (if number.1 then -(number.2 : ℤ) else number.2)

/-- `strtol(source, NULL, 10)`, which saturates. -/
def strtol (source : List Char) : ℤ :=
  ((scanNumber source).map signedLong).getD 0

/-- `strtoul(source, NULL, 10)`. -/
def strtoul (source : List Char) : ℤ :=
  ((scanNumber source).map unsignedLong).getD 0

def atoi (source : List Char) : ℤ :=
  wrapSigned 32 (strtol source)

def atol (source : List Char) : ℤ :=
  strtol source

/-- `sscanf(source, "%d", &result)`; `none` leaves the result unassigned. -/
def sscanfInt (source : List Char) : Option ℤ :=
  (scanNumber source).map fun number => wrapSigned 32 (signedLong number)

/-- `sscanf(source, "%u", &result)`. -/
def sscanfUnsigned (source : List Char) : Option ℤ :=
  (scanNumber source).map fun number => wrapUnsigned 32 (unsignedLong number)

/-- `sscanf(source, "%lu", &result)`. -/
def sscanfUnsignedLong (source : List Char) : Option ℤ :=
  (scanNumber source).map unsignedLong

/-! ## Printing -/

/-- `%d` of a number that is not negative. -/
def decimal (value : ℕ) : List Char :=
  Nat.toDigits 10 value

/-- `%0wd` of a number that is not negative. -/
def padded (width value : ℕ) : List Char :=
  List.replicate (width - (decimal value).length) '0' ++ decimal value

/-- `%d`. -/
def decimalInt : ℤ → List Char
  | .ofNat value => decimal value
  | .negSucc value => '-' :: decimal (value + 1)

theorem isDigit_of_mem_padded {width value : ℕ} {c : Char} (member : c ∈ padded width value) :
    c.isDigit = true := by
  rw [padded, List.mem_append] at member
  rcases member with zero | digit
  · rw [List.eq_of_mem_replicate zero]
    decide
  · exact Nat.isDigit_of_mem_toDigits (by decide) (by decide) digit

theorem length_padded {width value : ℕ} (positive : 0 < width) (small : value < 10 ^ width) :
    (padded width value).length = width := by
  have short : (decimal value).length ≤ width :=
    (Nat.length_toDigits_le_iff (by decide) positive).mpr small
  rw [padded, List.length_append, List.length_replicate]
  omega

theorem isDigit_of_mem_decimal {value : ℕ} {c : Char} (member : c ∈ decimal value) :
    c.isDigit = true :=
  Nat.isDigit_of_mem_toDigits (by decide) (by decide) member

theorem isSpace_of_isDigit {c : Char} (digit : c.isDigit = true) : isSpace c = false := by
  rw [Char.isDigit_iff_toNat] at digit
  rw [isSpace, Bool.or_eq_false_iff]
  constructor
  · simp only [beq_eq_false_iff_ne]
    rintro rfl
    exact absurd digit (by decide)
  · simp only [Bool.and_eq_false_imp, decide_eq_true_eq, decide_eq_false_iff_not, Char.le_def]
    intro _ small
    have := UInt32.le_iff_toNat_le.mp small
    change c.toNat ≤ 13 at this
    have lower : 48 ≤ c.toNat := digit.1
    omega

theorem scanNumber_of_digits {first : Char} {rest : List Char}
    (solid : ∀ c ∈ first :: rest, c.isDigit = true) :
    scanNumber (first :: rest) = some (false, Nat.ofDigitChars 10 (first :: rest) 0) ∧
      scanNumber ('-' :: first :: rest) =
        some (true, Nat.ofDigitChars 10 (first :: rest) 0) := by
  have notNul : nul ∉ first :: rest := fun member => absurd (solid _ member) (by decide)
  have firstDigit := solid first (List.mem_cons_self ..)
  have notMinus : first ≠ '-' := by
    rintro rfl
    exact absurd firstDigit (by decide)
  have notPlus : first ≠ '+' := by
    rintro rfl
    exact absurd firstDigit (by decide)
  have notSpace := isSpace_of_isDigit firstDigit
  have consumed : (first :: rest).takeWhile Char.isDigit = first :: rest :=
    List.takeWhile_eq_self_iff.mpr solid
  constructor
  · rw [scanNumber, text_of_no_nul notNul, List.dropWhile_cons_of_neg (by simp [notSpace])]
    simp [takeSign, notMinus, notPlus, consumed]
  · have negativeNotNul : nul ∉ '-' :: first :: rest := by
      rw [List.mem_cons, not_or]
      exact ⟨by decide, notNul⟩
    rw [scanNumber, text_of_no_nul negativeNotNul, List.dropWhile_cons_of_neg (by decide)]
    simp [takeSign, consumed]

theorem scanNumber_decimal (value : ℕ) :
    scanNumber (decimal value) = some (false, value) ∧
      scanNumber ('-' :: decimal value) = some (true, value) := by
  have solid : ∀ c ∈ decimal value, c.isDigit = true := fun _ => isDigit_of_mem_decimal
  have reads : Nat.ofDigitChars 10 (decimal value) 0 = value := by
    simp [decimal]
  rcases shape : decimal value with _ | ⟨first, rest⟩
  · exact absurd shape (by simp [decimal])
  · rw [shape] at solid reads
    have scanned := scanNumber_of_digits solid
    rwa [reads] at scanned

theorem scanNumber_decimalInt (value : ℤ) :
    scanNumber (decimalInt value) = some (decide (value < 0), value.natAbs) := by
  cases value with
  | ofNat number =>
      have nonneg : decide (Int.ofNat number < 0) = false :=
        decide_eq_false (Int.not_lt.mpr (Int.natCast_nonneg number))
      rw [nonneg]
      exact (scanNumber_decimal number).1
  | negSucc number => simpa [decimalInt] using (scanNumber_decimal (number + 1)).2

/-! White space around a number is not part of it. -/

theorem ne_nul_of_isSpace {c : Char} (space : isSpace c = true) : c ≠ nul := by
  rintro rfl
  exact absurd space (by decide)

theorem takeSign_append {source : List Char} (nonempty : source ≠ []) (trail : List Char) :
    takeSign (source ++ trail) = ((takeSign source).1, (takeSign source).2 ++ trail) := by
  cases source with
  | nil => exact absurd rfl nonempty
  | cons first rest =>
      by_cases minus : first = '-'
      · simp [takeSign, minus]
      · by_cases plus : first = '+'
        · simp [takeSign, plus]
        · simp [takeSign, minus, plus]

theorem takeWhile_isDigit_append {source trail : List Char}
    (spaces : ∀ c ∈ trail, isSpace c = true) :
    (source ++ trail).takeWhile Char.isDigit = source.takeWhile Char.isDigit := by
  have noDigit : trail.takeWhile Char.isDigit = [] := by
    cases trail with
    | nil => rfl
    | cons first rest =>
        apply List.takeWhile_cons_of_neg
        intro digit
        have space := spaces first (List.mem_cons_self ..)
        rw [isSpace_of_isDigit digit] at space
        cases space
  rw [List.takeWhile_append, noDigit, List.append_nil]
  split
  · next all =>
      exact (List.IsPrefix.eq_of_length (List.takeWhile_prefix _) all).symm
  · rfl

theorem scanNumber_space_append {lead : List Char} (spaces : ∀ c ∈ lead, isSpace c = true)
    (source : List Char) : scanNumber (lead ++ source) = scanNumber source := by
  have skipped : text (lead ++ source) = lead ++ text source := by
    apply List.takeWhile_append_of_pos
    intro c member
    simpa using ne_nul_of_isSpace (spaces c member)
  rw [scanNumber, scanNumber, skipped, List.dropWhile_append_of_pos spaces]

theorem scanNumber_append_space {trail : List Char} (spaces : ∀ c ∈ trail, isSpace c = true)
    (source : List Char) : scanNumber (source ++ trail) = scanNumber source := by
  have clean : text trail = trail := by
    apply text_of_no_nul
    intro member
    exact ne_nul_of_isSpace (spaces nul member) rfl
  have joined : text (source ++ trail) =
      if (text source).length = source.length then source ++ text trail else text source :=
    List.takeWhile_append
  rw [scanNumber, scanNumber]
  by_cases ended : (text source).length = source.length
  · have same : text source = source := (List.takeWhile_prefix _).eq_of_length ended
    have whole : text (source ++ trail) = text source ++ trail := by
      rw [joined, if_pos ended, same, clean]
    rw [whole, List.dropWhile_append]
    by_cases gone : (text source).dropWhile isSpace = []
    · rw [if_pos (by rw [gone]; rfl), List.dropWhile_eq_nil_iff.mpr spaces, gone]
    · rw [if_neg (by simpa using gone), takeSign_append gone]
      simp only [takeWhile_isDigit_append spaces]
  · rw [joined, if_neg ended]

theorem atoi_spaces {lead trail : List Char} (before : ∀ c ∈ lead, isSpace c = true)
    (behind : ∀ c ∈ trail, isSpace c = true) (source : List Char) :
    atoi (lead ++ source ++ trail) = atoi source := by
  rw [atoi, atoi, strtol, strtol, scanNumber_append_space behind, scanNumber_space_append before]

/-- The numbers a signed type of `width` bits holds. -/
def signedRange (width : ℕ) : Set ℤ :=
  { value | -2 ^ (width - 1) ≤ value ∧ value < 2 ^ (width - 1) }

/-- The numbers an unsigned type of `width` bits holds. -/
def unsignedRange (width : ℕ) : Set ℤ :=
  { value | 0 ≤ value ∧ value < 2 ^ width }

theorem wrapSigned_mem (width : ℕ) (value : ℤ) :
    wrapSigned (width + 1) value ∈ signedRange (width + 1) := by
  refine ⟨?_, wrapSigned_lt width value⟩
  have bound := @Int.le_bmod value (2 ^ (width + 1)) (Nat.two_pow_pos _)
  rw [wrapSigned]
  rw [Nat.pow_succ] at bound ⊢
  push_cast at bound
  simp only [Nat.add_sub_cancel]
  omega

theorem wrapUnsigned_mem (width : ℕ) (value : ℤ) :
    wrapUnsigned width value ∈ unsignedRange width :=
  ⟨Int.emod_nonneg _ (by positivity), Int.emod_lt_of_pos _ (by positivity)⟩

theorem wrapSigned_modEq (width : ℕ) (value : ℤ) :
    wrapSigned width value ≡ value [ZMOD 2 ^ width] := by
  have same := @Int.bmod_emod value (2 ^ width)
  push_cast at same
  exact same

theorem wrapUnsigned_modEq (width : ℕ) (value : ℤ) :
    wrapUnsigned width value ≡ value [ZMOD 2 ^ width] :=
  Int.mod_modEq value _

theorem signedRange_unique {width : ℕ} {first second : ℤ}
    (firstIn : first ∈ signedRange (width + 1)) (secondIn : second ∈ signedRange (width + 1))
    (congruent : first ≡ second [ZMOD 2 ^ (width + 1)]) : first = second := by
  have split : (2 : ℤ) ^ (width + 1) = 2 * 2 ^ width := by ring
  simp only [signedRange, Nat.add_sub_cancel, Set.mem_ofPred_eq] at firstIn secondIn
  have divides := congruent.symm.dvd
  rcases divides with ⟨factor, equal⟩
  rw [split] at equal
  have positive : (0 : ℤ) < 2 ^ width := by positivity
  have zero : factor = 0 := by nlinarith
  rw [zero] at equal
  omega

theorem unsignedRange_unique {width : ℕ} {first second : ℤ}
    (firstIn : first ∈ unsignedRange width) (secondIn : second ∈ unsignedRange width)
    (congruent : first ≡ second [ZMOD 2 ^ width]) : first = second := by
  rw [← Int.emod_eq_of_lt firstIn.1 firstIn.2, ← Int.emod_eq_of_lt secondIn.1 secondIn.2]
  exact congruent

theorem wrapSigned_of_mem {width : ℕ} {value : ℤ} (holds : value ∈ signedRange (width + 1)) :
    wrapSigned (width + 1) value = value :=
  signedRange_unique (wrapSigned_mem width value) holds (wrapSigned_modEq _ value)

theorem wrapUnsigned_of_mem {width : ℕ} {value : ℤ} (holds : value ∈ unsignedRange width) :
    wrapUnsigned width value = value :=
  unsignedRange_unique (wrapUnsigned_mem width value) holds (wrapUnsigned_modEq _ value)

private theorem signedLong_scanned {value : ℤ} (holds : value ∈ signedRange 64) :
    signedLong (decide (value < 0), value.natAbs) = value := by
  rcases holds with ⟨lower, upper⟩
  norm_num at lower upper
  simp only [signedLong, decide_eq_true_eq]
  split_ifs <;> omega

/-- A minus is accepted for an unsigned number too, and negates it. -/
private theorem unsignedLong_scanned {value : ℤ} (small : value.natAbs < 2 ^ 64) :
    unsignedLong (decide (value < 0), value.natAbs) = wrapUnsigned 64 value := by
  have inside : ¬2 ^ 64 ≤ value.natAbs := Nat.not_le.mpr small
  simp only [unsignedLong, inside, if_false, decide_eq_true_eq]
  congr 1
  split_ifs <;> omega

theorem strtoul_decimalInt {value : ℤ} (holds : value ∈ unsignedRange 64) :
    strtoul (decimalInt value) = value := by
  rcases holds with ⟨lower, upper⟩
  have small : value.natAbs < 2 ^ 64 := by omega
  rw [strtoul, scanNumber_decimalInt, Option.map_some, Option.getD_some,
    unsignedLong_scanned small]
  exact wrapUnsigned_of_mem ⟨lower, upper⟩

/-- An `int` is far from the bounds at which `strtol` saturates. -/
theorem signedRange_int_long {value : ℤ} (holds : value ∈ signedRange 32) :
    value ∈ signedRange 64 := by
  rcases holds with ⟨lower, upper⟩
  norm_num at lower upper
  constructor <;> norm_num <;> omega

theorem sscanfInt_decimalInt {value : ℤ} (holds : value ∈ signedRange 32) :
    sscanfInt (decimalInt value) = some value := by
  rw [sscanfInt, scanNumber_decimalInt, Option.map_some,
    signedLong_scanned (signedRange_int_long holds), wrapSigned_of_mem holds]

theorem atoi_decimalInt {value : ℤ} (holds : value ∈ signedRange 32) :
    atoi (decimalInt value) = value := by
  rw [atoi, strtol, scanNumber_decimalInt, Option.map_some, Option.getD_some,
    signedLong_scanned (signedRange_int_long holds), wrapSigned_of_mem holds]

theorem atoi_digit {c : Char} (digit : c.isDigit = true) : atoi [c] = (c.toNat - 48 : ℕ) := by
  have bounds := Char.isDigit_iff_toNat.mp digit
  have small : c.toNat - 48 < 10 := by
    have upper : c.toNat ≤ 57 := bounds.2
    omega
  have only : ∀ other ∈ [c], other.isDigit = true := by
    simpa using digit
  have scanned := (scanNumber_of_digits only).1
  have reads : Nat.ofDigitChars 10 [c] 0 = c.toNat - 48 := by
    simp [Nat.ofDigitChars]
  rw [atoi, strtol, scanned, reads, Option.map_some, Option.getD_some, signedLong]
  simp only [Bool.false_eq_true, if_false]
  rw [min_eq_left (by omega)]
  exact wrapSigned_of_small 31 (by omega) (by omega)

theorem sscanfUnsigned_decimalInt {value : ℤ} (holds : value ∈ unsignedRange 32) :
    sscanfUnsigned (decimalInt value) = some value := by
  rcases holds with ⟨lower, upper⟩
  have small : value.natAbs < 2 ^ 64 := by omega
  have long : value ∈ unsignedRange 64 := ⟨lower, by omega⟩
  rw [sscanfUnsigned, scanNumber_decimalInt, Option.map_some, unsignedLong_scanned small,
    wrapUnsigned_of_mem long, wrapUnsigned_of_mem ⟨lower, upper⟩]

theorem sscanfUnsignedLong_decimalInt {value : ℤ} (small : value.natAbs < 2 ^ 64) :
    sscanfUnsignedLong (decimalInt value) = some (wrapUnsigned 64 value) := by
  rw [sscanfUnsignedLong, scanNumber_decimalInt, Option.map_some, unsignedLong_scanned small]

end Lctools.Numerals
