import Mathlib.Data.List.Basic

/-! # Lines of a text

A text is a list of complete lines, each ended by a separator, and an open last
line without one.
-/

namespace Lctools.Lines

variable {α : Type} [DecidableEq α] (separator : α)

/-- Complete lines, each followed by the separator. -/
def join (lines : List (List α)) : List α :=
  lines.flatMap fun line => line ++ [separator]

/-- The complete lines of a text and what is left after the last separator. -/
def split : List α → List (List α) × List α
  | [] => ([], [])
  | value :: rest =>
      match split rest with
      | (lines, tail) =>
          if value = separator then ([] :: lines, tail)
          else
            match lines with
            | [] => ([], value :: tail)
            | line :: lines => ((value :: line) :: lines, tail)

omit [DecidableEq α] in
@[simp] theorem join_nil : join separator [] = [] := rfl

omit [DecidableEq α] in
@[simp] theorem join_cons (line : List α) (lines : List (List α)) :
    join separator (line :: lines) = line ++ separator :: join separator lines := by
  simp [join]

omit [DecidableEq α] in
@[simp] theorem join_append (first second : List (List α)) :
    join separator (first ++ second) = join separator first ++ join separator second := by
  simp [join]

omit [DecidableEq α] in
theorem length_le_join (lines : List (List α)) :
    lines.length ≤ (join separator lines).length := by
  induction lines with
  | nil => simp
  | cons line lines induction =>
      rw [join_cons, List.length_append, List.length_cons, List.length_cons]
      omega

variable {separator}

theorem join_split (separator : α) : ∀ text : List α,
    join separator (split separator text).1 ++ (split separator text).2 = text
  | [] => rfl
  | value :: rest => by
      have induction := join_split separator rest
      rw [split]
      rcases parts : split separator rest with ⟨lines, tail⟩
      rw [parts] at induction
      by_cases ends : value = separator
      · simpa [ends] using induction
      · cases lines with
        | nil => simpa [ends] using induction
        | cons line lines => simpa [ends] using induction

theorem separator_not_mem_split (separator : α) : ∀ text : List α,
    (∀ line ∈ (split separator text).1, separator ∉ line) ∧
      separator ∉ (split separator text).2
  | [] => by simp [split]
  | value :: rest => by
      have induction := separator_not_mem_split separator rest
      rw [split]
      rcases parts : split separator rest with ⟨lines, tail⟩
      rw [parts] at induction
      by_cases ends : value = separator
      · simpa [ends] using induction
      · cases lines with
        | nil => simpa [ends, Ne.symm ends] using induction
        | cons line lines => simpa [ends, Ne.symm ends, and_assoc] using induction

theorem split_tail {tail : List α} (clean : separator ∉ tail) :
    split separator tail = ([], tail) := by
  induction tail with
  | nil => rfl
  | cons value rest induction =>
      simp only [List.mem_cons, not_or] at clean
      simp [split, induction clean.2, Ne.symm clean.1]

theorem split_line {line rest : List α} (clean : separator ∉ line) :
    split separator (line ++ separator :: rest) =
      (line :: (split separator rest).1, (split separator rest).2) := by
  induction line with
  | nil => simp [split]
  | cons value line induction =>
      simp only [List.mem_cons, not_or] at clean
      simp [split, induction clean.2, Ne.symm clean.1]

theorem split_join {lines : List (List α)} {tail : List α}
    (clean : ∀ line ∈ lines, separator ∉ line) (cleanTail : separator ∉ tail) :
    split separator (join separator lines ++ tail) = (lines, tail) := by
  induction lines with
  | nil => simpa using split_tail cleanTail
  | cons line lines induction =>
      have rest := induction fun other member =>
        clean other (List.mem_cons_of_mem _ member)
      rw [join_cons, List.append_assoc, List.cons_append,
        split_line (clean line (List.mem_cons_self ..)), rest]

/-! ## Parts of a text -/

variable (separator) in
/-- The lines of a text, the open last line included. -/
def pieces (text : List α) : List (List α) :=
  (split separator text).1 ++ [(split separator text).2]

theorem separator_not_mem_pieces {text : List α} :
    ∀ line ∈ pieces separator text, separator ∉ line := by
  have clean := separator_not_mem_split separator text
  intro line member
  rcases List.mem_append.mp member with complete | last
  · exact clean.1 line complete
  · rw [List.mem_singleton.mp last]
    exact clean.2

theorem mem_of_mem_pieces {text line : List α} (member : line ∈ pieces separator text) {c : α}
    (inside : c ∈ line) : c ∈ text := by
  rw [← join_split separator text, List.mem_append]
  rcases List.mem_append.mp member with complete | last
  · left
    rw [join, List.mem_flatMap]
    exact ⟨line, complete, List.mem_append_left _ inside⟩
  · right
    rwa [← List.mem_singleton.mp last]

/-- A text that was put together from lines, with or without the last separator. -/
theorem pieces_of_lines {text : List α} {lines : List (List α)}
    (clean : ∀ line ∈ lines, separator ∉ line)
    (joined : text = join separator lines ∨ text ++ [separator] = join separator lines) :
    pieces separator text = lines ++ [[]] ∨ pieces separator text = lines := by
  rcases joined with closed | opened
  · left
    have noTail : separator ∉ ([] : List α) := by simp
    have parts := split_join clean noTail
    rw [List.append_nil, ← closed] at parts
    rw [pieces, parts]
  · right
    rcases List.eq_nil_or_concat lines with rfl | ⟨front, last, rfl⟩
    · simp at opened
    · rw [List.concat_eq_append] at *
      have same : text = join separator front ++ last := by
        simpa [← List.append_assoc] using opened
      rw [pieces, same, split_join (fun line member => clean line (by simp [member]))
        (clean last (by simp))]

/-- The lines of the beginning of a text are lines of the text, but for the last
one, which may be cut. -/
theorem pieces_append (separator : α) : ∀ first second : List α, ∃ line rest,
    pieces separator (first ++ second) = (split separator first).1 ++ line :: rest ∧
      (split separator first).2 <+: line
  | [], second => by
      rcases lines : pieces separator second with _ | ⟨line, rest⟩
      · simp [pieces] at lines
      · exact ⟨line, rest, lines, List.nil_prefix⟩
  | value :: first, second => by
      rcases pieces_append separator first second with ⟨line, rest, parts, cut⟩
      rw [pieces] at parts ⊢
      rw [List.cons_append, split, split]
      generalize split separator first = broken at parts cut ⊢
      generalize split separator (first ++ second) = wholeBroken at parts ⊢
      rcases broken with ⟨lines, tail⟩
      rcases wholeBroken with ⟨wholeLines, wholeTail⟩
      dsimp only at parts cut ⊢
      by_cases ends : value = separator
      · rw [if_pos ends, if_pos ends]
        exact ⟨line, rest, by simp [parts], cut⟩
      · rw [if_neg ends, if_neg ends]
        cases lines with
        | nil =>
            refine ⟨value :: line, rest, ?_, List.cons_prefix_cons.mpr ⟨rfl, cut⟩⟩
            cases wholeLines with
            | nil =>
                simpa using parts
            | cons head others =>
                simpa using parts
        | cons head others =>
            refine ⟨line, rest, ?_, cut⟩
            cases wholeLines with
            | nil => simp at parts
            | cons wholeHead wholeOthers =>
                simpa using parts

theorem pieces_take (separator : α) (size : ℕ) (text : List α) : ∃ line rest,
    pieces separator text = (split separator (text.take size)).1 ++ line :: rest ∧
      (split separator (text.take size)).2 <+: line := by
  have parts := pieces_append separator (text.take size) (text.drop size)
  rwa [List.take_append_drop] at parts

end Lctools.Lines
