import Mathlib.Data.List.Basic

/-! # Reading from the front

Readers take values from the front of a list and may fail. What one of them has taken does not
depend on what follows.
-/

namespace Lctools.Reading

variable {β ε α γ : Type}

abbrev Reader (β ε α : Type) := StateT (List β) (Except ε) α

/-- The reader takes exactly these elements for the value, whatever follows. -/
def Reads (read : Reader β ε α) (front : List β) (x : α) : Prop :=
  ∀ rest, read.run (front ++ rest) = .ok (x, rest)

/-- More elements at the end change nothing but the rest. -/
def Local (read : Reader β ε α) : Prop :=
  ∀ input x rest more, read.run input = .ok (x, rest) →
    read.run (input ++ more) = .ok (x, rest ++ more)

/-- Reads a number of values. Those before an error are kept. -/
def readMany (read : Reader β ε α) : ℕ → List β → List α × Except ε (List β)
  | 0, input => ([], .ok input)
  | count + 1, input =>
      match read.run input with
      | .error fault => ([], .error fault)
      | .ok (x, rest) =>
          let (values, result) := readMany read count rest
          (x :: values, result)

def many (read : Reader β ε α) (count : ℕ) : Reader β ε (List α) := fun input =>
  match readMany read count input with
  | (_, .error fault) => .error fault
  | (values, .ok rest) => .ok (values, rest)

section Reads

variable {first : Reader β ε α} {next : α → Reader β ε γ} {front back : List β} {x : α} {y : γ}

theorem Reads.pure (x : α) : Reads (Pure.pure x : Reader β ε α) [] x :=
  fun _ => rfl

theorem Reads.bind (reads : Reads first front x) (readsNext : Reads (next x) back y) :
    Reads (first >>= next) (front ++ back) y := by
  intro rest
  rw [List.append_assoc, StateT.run_bind, reads (back ++ rest)]
  exact readsNext rest

variable {encode : α → List β} {values : List α}

theorem readMany_encode (reads : ∀ x ∈ values, Reads first (encode x) x) (rest : List β) :
    readMany first values.length (values.flatMap encode ++ rest) = (values, .ok rest) := by
  induction values with
  | nil => rfl
  | cons x values induction =>
      have here := reads x List.mem_cons_self (values.flatMap encode ++ rest)
      have there := induction fun y member => reads y (List.mem_cons_of_mem _ member)
      rw [List.flatMap_cons, List.append_assoc, List.length_cons, readMany, here]
      simp only [there]

theorem Reads.many (reads : ∀ x ∈ values, Reads first (encode x) x) :
    Reads (many first values.length) (values.flatMap encode) values := by
  intro rest
  change Reading.many first values.length _ = _
  rw [Reading.many, readMany_encode reads rest]

end Reads

/-! ## Input that is cut off -/

section Local

variable {first : Reader β ε α} {next : α → Reader β ε γ}

theorem Local.pure (x : α) : Local (Pure.pure x : Reader β ε α) := by
  intro input y rest more succeeds
  cases succeeds
  rfl

theorem Local.throw (fault : ε) : Local (MonadExcept.throw fault : Reader β ε α) :=
  fun _ _ _ _ succeeds => nomatch succeeds

theorem Local.bind (locally : Local first) (locallyNext : ∀ x, Local (next x)) :
    Local (first >>= next) := by
  intro input y rest more succeeds
  rw [StateT.run_bind] at succeeds ⊢
  cases taken : first.run input with
  | error fault =>
      rw [taken] at succeeds
      cases succeeds
  | ok result =>
      rcases result with ⟨x, behind⟩
      rw [taken] at succeeds
      rw [locally input x behind more taken]
      exact locallyNext x behind y rest more succeeds

theorem Local.readMany_append (locally : Local first) (count : ℕ) (input more : List β) :
    (readMany first count input).1 <+: (readMany first count (input ++ more)).1 ∧
      ∀ rest, (readMany first count input).2 = .ok rest →
        readMany first count (input ++ more) =
          ((readMany first count input).1, .ok (rest ++ more)) := by
  induction count generalizing input with
  | zero =>
      refine ⟨List.nil_prefix, ?_⟩
      intro rest all
      cases all
      rfl
  | succ count induction =>
      rw [readMany]
      cases taken : first.run input with
      | error fault => exact ⟨List.nil_prefix, nofun⟩
      | ok result =>
          rcases result with ⟨x, behind⟩
          rcases induction behind with ⟨part, whole⟩
          rw [readMany, locally input x behind more taken]
          refine ⟨List.cons_prefix_cons.mpr ⟨rfl, part⟩, ?_⟩
          intro rest all
          simp only at all ⊢
          rw [whole rest all]

theorem Local.many (locally : Local first) (count : ℕ) : Local (many first count) := by
  intro input values rest more succeeds
  rcases locally.readMany_append count input more with ⟨_, whole⟩
  change Reading.many first count _ = _ at succeeds
  change Reading.many first count _ = _
  rw [Reading.many] at succeeds ⊢
  cases taken : readMany first count input with
  | mk read result =>
      rw [taken] at succeeds whole
      cases result with
      | error fault => cases succeeds
      | ok behind =>
          cases succeeds
          rw [whole rest rfl]

/-- From a part of what has been written for a value, the reader fails or takes the whole value. -/
theorem Local.cut (locally : Local first) {front tail input more : List β} {x : α}
    (reads : Reads first front x) (split : input ++ more = front ++ tail) :
    (∃ fault, first.run input = .error fault) ∨
      ∃ rest, first.run input = .ok (x, rest) ∧ rest ++ more = tail := by
  cases taken : first.run input with
  | error fault => exact .inl ⟨fault, rfl⟩
  | ok result =>
      rcases result with ⟨y, rest⟩
      have whole := locally input y rest more taken
      rw [split, reads tail] at whole
      cases whole
      exact .inr ⟨rest, rfl, rfl⟩

end Local

end Lctools.Reading
