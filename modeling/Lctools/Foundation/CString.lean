import Mathlib.Data.List.TakeWhile
import Mathlib.Data.List.Infix

/-! # C strings

Strings are lists of characters; what a C function sees of a character array is
the part before its first NUL.
-/

namespace Lctools.CString

def nul : Char := '\x00'

/-- The string stored at the beginning of `bytes`. -/
def text (bytes : List Char) : List Char :=
  bytes.takeWhile (· ≠ nul)

/-- The position `strchr(bytes, c)` points to. -/
def strchr (bytes : List Char) (c : Char) : Option ℕ :=
  if c ∈ text bytes then some (bytes.takeWhile (· ≠ c)).length else none

/-- `strstr(bytes, pattern) != NULL`. -/
def strstr (bytes pattern : List Char) : Bool :=
  (text bytes).tails.any fun rest => pattern.isPrefixOf rest

/-- The text that `snprintf(buffer, size, ..)` leaves in `buffer`. -/
def snprintf (size : ℕ) (formatted : List Char) : List Char :=
  formatted.take (size - 1)

def isBlank (c : Char) : Bool :=
  c == ' ' || c == '\t'

/-- Space and tab are the only characters skipped around a word. -/
def word (bytes : List Char) : List Char :=
  ((text bytes).dropWhile isBlank).takeWhile fun c => !isBlank c

theorem all_ne_of_not_mem {bytes : List Char} {mark : Char} (absent : mark ∉ bytes) :
    ∀ c ∈ bytes, decide (c ≠ mark) = true := by
  intro c member
  apply decide_eq_true
  intro equal
  rw [equal] at member
  exact absent member

theorem text_of_no_nul {bytes : List Char} (clean : nul ∉ bytes) : text bytes = bytes :=
  List.takeWhile_eq_self_iff.mpr (all_ne_of_not_mem clean)

theorem nul_not_mem_text (bytes : List Char) : nul ∉ text bytes := by
  intro member
  simpa using List.mem_takeWhile_imp member

@[simp] theorem text_text (bytes : List Char) : text (text bytes) = text bytes :=
  text_of_no_nul (nul_not_mem_text bytes)

theorem strstr_iff (bytes pattern : List Char) :
    strstr bytes pattern = true ↔ pattern <:+: text bytes := by
  rw [List.infix_iff_prefix_suffix]
  simp [strstr, and_comm]

theorem text_length_le (bytes : List Char) : (text bytes).length ≤ bytes.length :=
  (List.takeWhile_sublist _).length_le

/-! A string is cut at the first occurrence of a character. -/

section Mark

variable {front : List Char} {mark : Char}

theorem takeWhile_mark (absent : mark ∉ front) (back : List Char) :
    (front ++ mark :: back).takeWhile (· ≠ mark) = front := by
  rw [List.takeWhile_append_of_pos (all_ne_of_not_mem absent)]
  simp

theorem dropWhile_mark (absent : mark ∉ front) (back : List Char) :
    (front ++ mark :: back).dropWhile (· ≠ mark) = mark :: back := by
  rw [List.dropWhile_append_of_pos (all_ne_of_not_mem absent)]
  simp

theorem mem_text_mark (clean : nul ∉ front) (solid : mark ≠ nul) (back : List Char) :
    mark ∈ text (front ++ mark :: back) := by
  rw [text, List.takeWhile_append_of_pos (all_ne_of_not_mem clean)]
  simp [solid]

end Mark

theorem word_padded {leading middle trailing : List Char}
    (leadingBlank : ∀ c ∈ leading, isBlank c = true)
    (solid : ∀ c ∈ middle, isBlank c = false) (clean : nul ∉ middle)
    (trailingBlank : ∀ c ∈ trailing, isBlank c = true) :
    word (leading ++ middle ++ trailing) = middle := by
  have blankNotNul : ∀ c, isBlank c = true → c ≠ nul := by
    rintro c blank rfl
    exact absurd blank (by decide)
  have noNul : nul ∉ leading ++ middle ++ trailing := by
    simp only [List.mem_append, not_or]
    exact ⟨⟨fun member => blankNotNul _ (leadingBlank _ member) rfl, clean⟩,
      fun member => blankNotNul _ (trailingBlank _ member) rfl⟩
  have stopsAtBlank : trailing.takeWhile (fun c => !isBlank c) = [] := by
    cases trailing with
    | nil => rfl
    | cons head tail => simp [trailingBlank head (List.mem_cons_self ..)]
  have dropped : (middle ++ trailing).dropWhile isBlank =
      if middle = [] then [] else middle ++ trailing := by
    cases middle with
    | nil =>
        simp only [List.nil_append, if_pos]
        exact List.dropWhile_eq_nil_iff.mpr trailingBlank
    | cons head tail => simp [solid head (List.mem_cons_self ..)]
  rw [word, text_of_no_nul noNul, List.append_assoc,
    List.dropWhile_append_of_pos leadingBlank, dropped]
  by_cases empty : middle = []
  · simp [empty]
  · rw [if_neg empty, List.takeWhile_append_of_pos, stopsAtBlank, List.append_nil]
    intro c member
    simp [solid c member]

end Lctools.CString
