import Lctools.Foundation.Numerals

/-! # Texts of fixed width

Texts are compared character by character. Where the fields of two texts have the same lengths, the
first field that differs decides.
-/

namespace Lctools.FixedWidth

open Numerals

section Order

variable {α : Type} [LT α] {front other back rest : List α}

theorem append_lt_append_iff (same : front.length = other.length) :
    front ++ back < other ++ rest ↔ front < other ∨ front = other ∧ back < rest := by
  induction front generalizing other with
  | nil =>
      have none : other = [] := List.length_eq_zero_iff.mp same.symm
      rw [none]
      simp
  | cons x front induction =>
      cases other with
      | nil => cases same
      | cons y other =>
          rw [List.cons_append, List.cons_append, List.cons_lt_cons_iff, List.cons_lt_cons_iff,
            induction (Nat.succ.inj same), List.cons.injEq]
          constructor
          · rintro (less | ⟨equal, less | ⟨fronts, less⟩⟩)
            · exact .inl (.inl less)
            · exact .inl (.inr ⟨equal, less⟩)
            · exact .inr ⟨⟨equal, fronts⟩, less⟩
          · rintro ((less | ⟨equal, less⟩) | ⟨⟨equal, fronts⟩, less⟩)
            · exact .inl less
            · exact .inr ⟨equal, .inl less⟩
            · exact .inr ⟨equal, .inr ⟨fronts, less⟩⟩

end Order

/-! ## Numbers with leading zeros -/

theorem digitChar_lt {first second : ℕ} (less : first < second) (small : second < 10) :
    first.digitChar < second.digitChar := by
  have all : ∀ high low : Fin 10, low < high → (low : ℕ).digitChar < (high : ℕ).digitChar := by
    decide
  exact all ⟨second, small⟩ ⟨first, Nat.lt_trans less small⟩ less

theorem padded_succ {width value : ℕ} (positive : 0 < width) (small : value < 10 ^ (width + 1)) :
    padded (width + 1) value = padded width (value / 10) ++ [(value % 10).digitChar] := by
  have short : ∀ number, number < 10 ^ width → (decimal number).length ≤ width :=
    fun number less => (Nat.length_toDigits_le_iff (by decide) positive).mpr less
  have tenth : value / 10 < 10 ^ width := by
    rw [Nat.pow_succ] at small
    omega
  by_cases digit : value < 10
  · have single : decimal value = [value.digitChar] := Nat.toDigits_of_lt_base digit
    have zero : decimal (value / 10) = ['0'] := by
      rw [Nat.div_eq_of_lt digit]
      rfl
    rw [padded, padded, single, zero, Nat.mod_eq_of_lt digit, List.length_singleton,
      List.length_singleton, Nat.add_sub_cancel, ← List.replicate_succ',
      Nat.sub_add_cancel positive]
  · have split : decimal value = decimal (value / 10) ++ [(value % 10).digitChar] :=
      Nat.toDigits_of_base_le (by decide) (by omega)
    rw [padded, padded, split, List.length_append, List.length_singleton, Nat.add_sub_add_right,
      List.append_assoc]

theorem padded_lt {width first second : ℕ} (positive : 0 < width) (less : first < second)
    (small : second < 10 ^ width) : padded width first < padded width second := by
  induction width generalizing first second with
  | zero => omega
  | succ width induction =>
      by_cases single : width = 0
      · rw [single] at small ⊢
        have texts : ∀ number, number < 10 → padded 1 number = [number.digitChar] := by
          intro number digit
          rw [padded, decimal, Nat.toDigits_of_lt_base digit]
          rfl
        rw [texts first (by omega), texts second (by omega), List.cons_lt_cons_iff]
        exact .inl (digitChar_lt less (by omega))
      · have more := Nat.pos_of_ne_zero single
        have bound : ∀ number, number ≤ second → number / 10 < 10 ^ width := by
          intro number le
          rw [Nat.pow_succ] at small
          omega
        have lengths :
            (padded width (first / 10)).length = (padded width (second / 10)).length := by
          rw [length_padded more (bound first (by omega)),
            length_padded more (bound second (Nat.le_refl _))]
        rw [padded_succ more (by omega), padded_succ more small, append_lt_append_iff lengths]
        rcases Nat.lt_or_ge (first / 10) (second / 10) with higher | same
        · exact .inl (induction more higher (bound second (Nat.le_refl _)))
        · have equal : first / 10 = second / 10 := by omega
          refine .inr ⟨by rw [equal], ?_⟩
          rw [List.cons_lt_cons_iff]
          exact .inl (digitChar_lt (by omega) (by omega))

/-- A field whose text has the same order as its number. -/
structure Field where
  width : ℕ
  positive : 0 < width
  /-- What stands behind the number. -/
  mark : List Char

namespace Field

variable (field : Field)

def text (value : ℕ) : List Char :=
  padded field.width value ++ field.mark

variable {first second : ℕ}

theorem length_text (small : first < 10 ^ field.width) :
    (field.text first).length = field.width + field.mark.length := by
  rw [text, List.length_append, length_padded field.positive small]

theorem text_lt (less : first < second) (small : second < 10 ^ field.width) :
    field.text first < field.text second := by
  have lengths : (padded field.width first).length = (padded field.width second).length := by
    rw [length_padded field.positive (Nat.lt_trans less small), length_padded field.positive small]
  rw [text, text, append_lt_append_iff lengths]
  exact .inl (padded_lt field.positive less small)

end Field

/-- The texts of the numbers, one behind the other. -/
def texts : List Field → List ℕ → List Char
  | field :: fields, value :: values => field.text value ++ texts fields values
  | _, _ => []

def Fit (fields : List Field) (values : List ℕ) : Prop :=
  List.Forall₂ (fun field value => value < 10 ^ field.width) fields values

theorem length_texts {fields : List Field} {values : List ℕ} (fit : Fit fields values) :
    (texts fields values).length =
      (fields.map fun field => field.width + field.mark.length).sum := by
  induction fit with
  | nil => rfl
  | @cons field value fields values small fit induction =>
      rw [texts, List.length_append, field.length_text small, induction, List.map_cons,
        List.sum_cons]

/-- The texts have the order of the numbers, of which the first that differs decides. -/
theorem texts_lt {fields : List Field} {values others : List ℕ} (fit : Fit fields values)
    (otherFit : Fit fields others) (less : values < others) :
    texts fields values < texts fields others := by
  induction fit generalizing others with
  | nil =>
      cases otherFit
      exact absurd less (List.not_lt_nil _)
  | @cons field value fields values small fit induction =>
      cases otherFit with
      | @cons _ other _ others otherSmall otherFit =>
          rw [texts, texts, append_lt_append_iff
            (by rw [field.length_text small, field.length_text otherSmall])]
          rcases List.cons_lt_cons_iff.mp less with first | ⟨equal, later⟩
          · exact .inl (field.text_lt first otherSmall)
          · exact .inr ⟨by rw [equal], induction otherFit later⟩

end Lctools.FixedWidth
