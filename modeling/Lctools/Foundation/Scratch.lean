import Lctools.Foundation.CString

/-! # Allocated scratch memory

Memory as an allocator hands it out: a number of cells, of which only those that
were written hold something. Reading a cell before it was written is a fault.
-/

namespace Lctools.Scratch

open CString

inductive Fault where
  /-- Cell `index` does not exist. -/
  | outOfBounds (index : ℕ)
  /-- A cell was read that nothing was written to. -/
  | uninitialised
  deriving DecidableEq, Repr

variable {α : Type}

/-- Memory of `size` cells that nothing was written to. -/
def fresh (size : ℕ) : List (Option α) :=
  List.replicate size none

@[simp] theorem length_fresh (size : ℕ) : (fresh size : List (Option α)).length = size :=
  List.length_replicate

/-- `cells[index] = value;` -/
def store (cells : List (Option α)) (index : ℕ) (value : α) :
    Except Fault (List (Option α)) :=
  if index < cells.length then .ok (cells.set index (some value))
  else .error (.outOfBounds index)

/-- The string that starts at the first cell, read up to its NUL. -/
def readText : List (Option Char) → Except Fault (List Char)
  | [] => .error (.outOfBounds 0)
  | none :: _ => .error .uninitialised
  | some c :: cells =>
      if c = nul then .ok []
      else do
        let rest ← readText cells
        .ok (c :: rest)

theorem store_append (written : List α) (old : Option α) (rest : List (Option α)) (value : α) :
    store (written.map some ++ old :: rest) written.length value =
      .ok ((written ++ [value]).map some ++ rest) := by
  have inside : written.length < (written.map some ++ old :: rest).length := by
    simp
  rw [store, if_pos inside, List.set_append_right _ _ (by simp)]
  simp

theorem readText_terminated (written : List Char) (rest : List (Option Char)) :
    readText ((written ++ [nul]).map some ++ rest) = .ok (text written) := by
  induction written with
  | nil => simp [readText, text]
  | cons head tail induction =>
      simp only [List.cons_append, List.map_cons, readText]
      by_cases ends : head = nul
      · simp [ends, text]
      · rw [if_neg ends, induction]
        simp [text, ends, bind, Except.bind]

theorem readText_unterminated {written : List Char} (clean : nul ∉ written)
    (rest : List (Option Char)) :
    readText (written.map some ++ none :: rest) = .error .uninitialised := by
  induction written with
  | nil => rfl
  | cons head tail induction =>
      have notNul : head ≠ nul := fun equal => clean (equal ▸ List.mem_cons_self ..)
      have tailClean : nul ∉ tail := fun member => clean (List.mem_cons_of_mem _ member)
      simp only [List.map_cons, List.cons_append, readText, if_neg notNul]
      rw [induction tailClean]
      rfl

/-! ## Strings -/

/-- `memcpy(cells + offset, values, n);` -/
def copy (cells : List (Option α)) (offset : ℕ) (values : List α) :
    Except Fault (List (Option α)) :=
  if offset + values.length ≤ cells.length then
    .ok (cells.take offset ++ values.map some ++ cells.drop (offset + values.length))
  else
    .error (.outOfBounds cells.length)

def strcpy (cells : List (Option Char)) (source : List Char) :
    Except Fault (List (Option Char)) :=
  copy cells 0 (text source ++ [nul])

/-- `strncpy(cells, source, n);` fills up with NULs, and leaves a source of `n` or
more characters without one. -/
def strncpy (cells : List (Option Char)) (source : List Char) (n : ℕ) :
    Except Fault (List (Option Char)) :=
  copy cells 0 ((text source).take n ++ List.replicate (n - (text source).length) nul)

/-- `snprintf(cells, size, ..);` for a positive size. -/
def snprintf (cells : List (Option Char)) (size : ℕ) (formatted : List Char) :
    Except Fault (List (Option Char)) :=
  copy cells 0 (formatted.take (size - 1) ++ [nul])

theorem copy_start {cells : List (Option α)} {values : List α}
    (fits : values.length ≤ cells.length) :
    copy cells 0 values = .ok (values.map some ++ cells.drop values.length) := by
  rw [copy, if_pos (by omega), List.take_zero, List.nil_append, Nat.zero_add]

theorem copy_behind (written : List α) {values : List α} {rest : List (Option α)}
    (fits : values.length ≤ rest.length) :
    copy (written.map some ++ rest) written.length values =
      .ok ((written ++ values).map some ++ rest.drop values.length) := by
  have front : (written.map some ++ rest).take written.length = written.map some :=
    List.take_left' (List.length_map some)
  have back : (written.map some ++ rest).drop (written.length + values.length) =
      rest.drop values.length := by
    rw [List.drop_append, List.drop_eq_nil_of_le (by simp), List.length_map,
      Nat.add_sub_cancel_left, List.nil_append]
  rw [copy, if_pos (by simp [fits]), front, back, List.map_append]

theorem copy_error {cells : List (Option α)} {offset : ℕ} {values : List α}
    (long : cells.length < offset + values.length) :
    copy cells offset values = .error (.outOfBounds cells.length) :=
  if_neg (Nat.not_le.mpr long)

end Lctools.Scratch
