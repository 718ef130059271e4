import Lctools.Conf.Outcome

/-! # Files that are cut

Of a long file only the beginning is read, so the last line that the parsers see
may be the part of a line. What holds of a line is carried over to its parts
here.
-/

namespace Lctools.Conf

open CString

/-! ## Parts of a line

A part of a switch line never says off when the whole line does not.
-/

theorem dropWhile_of_cut {property : Char → Bool} {part whole rest : List Char} {c : Char}
    (cut : part <+: whole) (found : part.dropWhile property = c :: rest) :
    ∃ more, whole.dropWhile property = c :: (rest ++ more) := by
  rcases cut with ⟨more, rfl⟩
  refine ⟨more, ?_⟩
  rw [List.dropWhile_append, found]
  rfl

theorem strstr_of_cut {part whole pattern : List Char} (cut : part <+: whole)
    (found : strstr part pattern = true) : strstr whole pattern = true := by
  rw [strstr_iff] at found ⊢
  have inside : text part <+: text whole := by
    rcases cut with ⟨more, rfl⟩
    rw [text, text, List.takeWhile_append]
    split_ifs
    · exact (List.takeWhile_prefix _).trans (List.prefix_append _ _)
    · exact List.prefix_refl _
  exact found.trans inside.isInfix

variable {μ : Type} (dialect : Dialect μ)

theorem switchChar_of_cut {part whole : List Char} (cut : part <+: whole) {c : Char}
    (found : switchChar dialect part = some c) : switchChar dialect whole = some c := by
  rw [switchChar] at found ⊢
  split_ifs at found with named
  rw [if_pos (strstr_of_cut cut named)]
  rcases split : part.dropWhile (· ≠ '=') with _ | ⟨equals, rest⟩
  · rw [split] at found
    cases found
  rcases dropWhile_of_cut cut split with ⟨more, wholeSplit⟩
  rw [split, List.drop_succ_cons, List.drop_zero] at found
  rw [wholeSplit, List.drop_succ_cons, List.drop_zero]
  rcases value : rest.dropWhile isBlank with _ | ⟨first, behind⟩
  · simp [value] at found
  rcases dropWhile_of_cut (List.prefix_append rest more) value with ⟨others, wholeValue⟩
  rw [value] at found
  rw [wholeValue]
  exact found

theorem saysOff_of_cut {part whole : List Char} (cut : part <+: whole)
    (off : saysOff dialect part = true) : saysOff dialect whole = true := by
  rw [saysOff] at off ⊢
  rcases found : switchChar dialect (part.take 125) with _ | c
  · simp [found] at off
  · rw [switchChar_of_cut dialect (cut.take 125) found]
    rwa [found] at off

/-! ## The line that opens a section twice -/

/-- Some line starts with `-` but not with `-end` while a section is open, and no
switch line before it says off. -/
def opensTwice : (lines : List (List Char)) → (inside : Bool) → Bool
  | [], _ => false
  | line :: lines, inside =>
      match line.dropWhile isBlank with
      | [] => opensTwice lines inside
      | first :: rest =>
          if first = '@' then !saysOff dialect rest && opensTwice lines inside
          else if first = '-' then
            if inside then
              if "-end".toList <+: first :: rest then opensTwice lines false else true
            else opensTwice lines true
          else opensTwice lines inside

variable {dialect}

/-- Up to a line that opens a section twice, no switch line says off, also when
the text is cut somewhere. -/
theorem turnsOff_of_opensTwice {tail line : List Char} {rest : List (List Char)}
    (cut : tail <+: line) : ∀ (read : List (List Char)) (inside : Bool),
    opensTwice dialect (read ++ line :: rest) inside = true →
    turnsOff dialect (read ++ [tail]) inside = false
  | [], inside, twice => by
      rw [List.nil_append, opensTwice] at twice
      rw [List.nil_append, turnsOff]
      rcases split : tail.dropWhile isBlank with _ | ⟨first, body⟩
      · rfl
      rcases dropWhile_of_cut cut split with ⟨more, wholeSplit⟩
      rw [wholeSplit] at twice
      simp only [turnsOff, ite_self, Bool.or_false] at twice ⊢
      split_ifs with switch
      · rw [if_pos switch, Bool.and_eq_true, Bool.not_eq_true'] at twice
        by_contra off
        have wholeOff := saysOff_of_cut dialect (List.prefix_append body more)
          (Bool.not_eq_false _ ▸ off)
        rw [twice.1] at wholeOff
        exact absurd wholeOff (by decide)
      · rfl
  | first :: read, inside, twice => by
      have continues : ∀ inside, opensTwice dialect (read ++ line :: rest) inside = true →
          turnsOff dialect (read ++ [tail]) inside = false :=
        turnsOff_of_opensTwice cut read
      rw [List.cons_append, opensTwice] at twice
      rw [List.cons_append, turnsOff]
      generalize first.dropWhile isBlank = body at twice ⊢
      rcases body with _ | ⟨c, behind⟩
      · exact continues inside twice
      simp only at twice ⊢
      split_ifs at twice ⊢ with switch dash opened ended
      · rw [Bool.and_eq_true, Bool.not_eq_true'] at twice
        rw [twice.1, continues inside twice.2]
        rfl
      · exact continues false twice
      · rfl
      · exact continues true twice
      · exact continues inside twice

end Lctools.Conf
