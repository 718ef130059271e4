import Lctools.Foundation.Numerals
import Mathlib.Tactic.IntervalCases

/-! # `muduo/base/LogStream`

A stream that writes into an array of fixed size. A piece is written whole or, where the
array has no room for it, not at all.
-/

namespace Lctools.Muduo

open CString Numerals

/-! ## Integers -/

def digits : List Char := "9876543210123456789".toList

/-- `zero[lsd]`, where `zero` points to the middle of `digits`. -/
def zero (lsd : ℤ) : Char :=
  digits.getD (lsd + 9).toNat nul

/-- The loop of `convert`, which writes the digits from the last one on. -/
def convertLoop : (fuel : ℕ) → (i : ℤ) → List Char
  | 0, _ => []
  | fuel + 1, i =>
      zero (i.tmod 10) :: if i.tdiv 10 ≠ 0 then convertLoop fuel (i.tdiv 10) else []

def convert (value : ℤ) : List Char :=
  (convertLoop (value.natAbs + 1) value ++ if value < 0 then ['-'] else []).reverse

theorem zero_eq {lsd : ℤ} (small : lsd.natAbs < 10) : zero lsd = lsd.natAbs.digitChar := by
  have low : -9 ≤ lsd := by omega
  have high : lsd ≤ 9 := by omega
  interval_cases lsd
  all_goals rfl

theorem convertLoop_eq (fuel : ℕ) (i : ℤ) (enough : i.natAbs < fuel) :
    (convertLoop fuel i).reverse = decimal i.natAbs := by
  induction fuel generalizing i with
  | zero => omega
  | succ fuel induction =>
      have last : zero (i.tmod 10) = (i.natAbs % 10).digitChar := by
        rw [zero_eq, Int.natAbs_tmod]
        · rfl
        · rw [Int.natAbs_tmod]
          exact Nat.mod_lt _ (by decide)
      have quotient : (i.tdiv 10).natAbs = i.natAbs / 10 := Int.natAbs_tdiv i 10
      rw [convertLoop, List.reverse_cons, last, decimal]
      by_cases more : i.tdiv 10 ≠ 0
      · have large : 10 ≤ i.natAbs := by
          have positive : (i.tdiv 10).natAbs ≠ 0 := Int.natAbs_ne_zero.mpr more
          omega
        rw [if_pos more, induction _ (by omega), quotient,
          Nat.toDigits_of_base_le (by decide) large, decimal]
      · have small : i.natAbs < 10 := by
          have none : (i.tdiv 10).natAbs = 0 := Int.natAbs_eq_zero.mpr (not_not.mp more)
          omega
        rw [if_neg more, Nat.toDigits_of_lt_base small, Nat.mod_eq_of_lt small]
        rfl

theorem convert_eq (value : ℤ) : convert value = decimalInt value := by
  rw [convert, List.reverse_append, convertLoop_eq _ _ (Nat.lt_succ_self _)]
  cases value with
  | ofNat value => rfl
  | negSucc value =>
      rw [if_pos (Int.negSucc_lt_zero value)]
      rfl

theorem convert_clean (value : ℤ) : nul ∉ convert value := by
  have digit : ∀ number : ℕ, nul ∉ decimal number := by
    intro number member
    exact absurd (isDigit_of_mem_decimal member) (by decide)
  rw [convert_eq]
  cases value with
  | ofNat value => exact digit value
  | negSucc value =>
      rw [decimalInt, List.mem_cons, not_or]
      exact ⟨by decide, digit (value + 1)⟩

theorem convert_length (value : Int32) : (convert value.toInt).length ≤ 11 := by
  have low := value.le_toInt
  have high := value.toInt_lt
  have short : ∀ number : ℕ, number < 10 ^ 10 → (decimal number).length ≤ 10 := fun number =>
    (Nat.length_toDigits_le_iff (by decide) (by decide)).mpr
  rw [convert_eq]
  generalize value.toInt = number at low high
  cases number with
  | ofNat number =>
      have bound := short number (by simp only [Int.ofNat_eq_natCast] at high; omega)
      rw [decimalInt]
      omega
  | negSucc number =>
      have bound := short (number + 1) (by omega)
      rw [decimalInt, List.length_cons]
      omega

/-! ## Pieces -/

/-- What is written at once: a text and the free bytes that are asked for. -/
structure Piece where
  text : List Char
  room : ℕ
  fits : text.length < room
  clean : nul ∉ text

/-- A string, for which `append` asks for one byte more than it has. -/
def Piece.string (bytes : List Char) : Piece where
  text := CString.text bytes
  room := (CString.text bytes).length + 1
  fits := Nat.lt_succ_self _
  clean := nul_not_mem_text bytes

def kMaxNumericSize : ℕ := 32

/-- An `int`, for which `formatInteger` asks for `kMaxNumericSize`. -/
def Piece.int (value : Int32) : Piece where
  text := convert value.toInt
  room := kMaxNumericSize
  fits := Nat.lt_of_le_of_lt (convert_length value) (by decide)
  clean := convert_clean value.toInt

/-! ## The buffer -/

/-- `FixedBuffer<SIZE>`, the bytes before `cur_`. -/
structure FixedBuffer (size : ℕ) where
  data : List Char
  inside : data.length < size

namespace FixedBuffer

variable {size : ℕ}

def avail (buffer : FixedBuffer size) : ℕ :=
  size - buffer.data.length

def put (buffer : FixedBuffer size) (piece : Piece) : FixedBuffer size :=
  if room : piece.room ≤ buffer.avail then
    { data := buffer.data ++ piece.text
      inside := by
        have fits := piece.fits
        have inside := buffer.inside
        rw [List.length_append]
        unfold avail at room
        omega }
  else buffer

/-- Several uses of `<<` one after the other. -/
def putAll (buffer : FixedBuffer size) (pieces : List Piece) : FixedBuffer size :=
  pieces.foldl put buffer

end FixedBuffer

/-- What is written of the pieces when `used` bytes are taken. -/
def fitting (size : ℕ) : (used : ℕ) → List Piece → List Char
  | _, [] => []
  | used, piece :: pieces =>
      if used + piece.room ≤ size then
        piece.text ++ fitting size (used + piece.text.length) pieces
      else fitting size used pieces

variable {size : ℕ}

theorem FixedBuffer.data_putAll (buffer : FixedBuffer size) (pieces : List Piece) :
    (buffer.putAll pieces).data = buffer.data ++ fitting size buffer.data.length pieces := by
  induction pieces generalizing buffer with
  | nil => exact (List.append_nil _).symm
  | cons piece pieces induction =>
      have inside := buffer.inside
      change ((buffer.put piece).putAll pieces).data = _
      rw [induction, fitting]
      by_cases room : piece.room ≤ buffer.avail
      · have enough : buffer.data.length + piece.room ≤ size := by
          unfold avail at room
          omega
        have written : (buffer.put piece).data = buffer.data ++ piece.text := by
          rw [put, dif_pos room]
        rw [written, if_pos enough, List.length_append, List.append_assoc]
      · have full : ¬buffer.data.length + piece.room ≤ size := by
          unfold avail at room
          omega
        rw [put, dif_neg room, if_neg full]

theorem fitting_append (used : ℕ) (front back : List Piece) :
    fitting size used (front ++ back) =
      fitting size used front ++ fitting size (used + (fitting size used front).length) back := by
  induction front generalizing used with
  | nil => rfl
  | cons piece front induction =>
      rw [List.cons_append, fitting, fitting]
      split
      · rw [induction, List.length_append, List.append_assoc, Nat.add_assoc]
      · rw [induction]

theorem nul_not_mem_fitting (used : ℕ) (pieces : List Piece) : nul ∉ fitting size used pieces := by
  induction pieces generalizing used with
  | nil => exact List.not_mem_nil
  | cons piece pieces induction =>
      rw [fitting]
      split
      · rw [List.mem_append, not_or]
        exact ⟨piece.clean, induction _⟩
      · exact induction used

theorem length_fitting_lt {used : ℕ} (inside : used < size) (pieces : List Piece) :
    used + (fitting size used pieces).length < size := by
  have room := ((⟨List.replicate used nul, by simpa using inside⟩ : FixedBuffer size).putAll
    pieces).inside
  rw [FixedBuffer.data_putAll, List.length_append, List.length_replicate] at room
  exact room

end Lctools.Muduo
