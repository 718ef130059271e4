import Lctools.Foundation.Fallible
import Mathlib.Data.List.TakeDrop
import Mathlib.Data.List.TakeWhile

/-! # Fixed-size buffers

A block of memory of known size whose first cells were stored and whose other
cells still hold a fill value. Every access is checked against the size. The
scanning loop `while(p != end && keep(*p)) p++` is one definition with one
specification, used by every scanner built on such a block.
-/

namespace Lctools.Buffer

inductive Fault (ι : Type) where
  /-- Cell `index` of `buffer` was read or written but does not exist. -/
  | outOfBounds (buffer : ι) (index : ℤ)
  /-- A loop did not finish within its iteration budget. -/
  | unfinished
  deriving DecidableEq, Repr

structure Block (ι α : Type) where
  name : ι
  size : ℕ
  fill : α
  stored : List α

namespace Block

variable {ι α : Type}

def read (block : Block ι α) (index : ℕ) : Except (Fault ι) α :=
  if index < block.size then .ok (block.stored.getD index block.fill)
  else .error (.outOfBounds block.name index)

/-- An access through an index expression that may be negative. -/
def readInt (block : Block ι α) : ℤ → Except (Fault ι) α
  | .ofNat index => block.read index
  | .negSucc index => .error (.outOfBounds block.name (.negSucc index))

/-- `memcpy(block, values, n); block[n] = fill;` on a block that held only
`fill`. -/
def copyTerminated (block : Block ι α) (values : List α) :
    Except (Fault ι) (Block ι α) :=
  if values.length < block.size then .ok { block with stored := values }
  else .error (.outOfBounds block.name block.size)

/-- The `count` cells from `start` on, read one after the other. -/
def slice (block : Block ι α) : (start count : ℕ) → Except (Fault ι) (List α)
  | _, 0 => .ok []
  | start, count + 1 => do
      let value ← block.read start
      let rest ← block.slice (start + 1) count
      .ok (value :: rest)

/-- `while((p != end) && keep(*p)) p++;` where `room` cells lie before `end`. -/
def advance (block : Block ι α) (keep : α → Bool) : (room p : ℕ) → Except (Fault ι) ℕ
  | 0, p => .ok p
  | room + 1, p => do
      let value ← block.read p
      if keep value then block.advance keep room (p + 1) else .ok p

/-- Whether the cells from `p` on start with `pattern`; like `strncmp`, the
comparison stops at the first difference. -/
def startsWith [DecidableEq α] (block : Block ι α) :
    (pattern : List α) → (p : ℕ) → Except (Fault ι) Bool
  | [], _ => .ok true
  | expected :: pattern, p => do
      let value ← block.read p
      if value = expected then block.startsWith pattern (p + 1) else .ok false

/-! ## Specifications

The stored cells are written as an append whose left part ends at the cursor. -/

theorem read_append (block : Block ι α) {before after : List α} {value : α}
    (stored : block.stored = before ++ value :: after)
    (fits : block.stored.length ≤ block.size) :
    block.read before.length = .ok value := by
  have inside : before.length < block.size := by
    rw [stored] at fits
    simp at fits
    omega
  rw [read, if_pos inside, stored]
  simp

theorem read_end (block : Block ι α) (room : block.stored.length < block.size) :
    block.read block.stored.length = .ok block.fill := by
  rw [read, if_pos room]
  simp

theorem read_full (block : Block ι α) (full : block.stored.length = block.size) :
    block.read block.stored.length = .error (.outOfBounds block.name block.size) := by
  rw [read, if_neg (by omega), full]

theorem slice_append (block : Block ι α) {after : List α} :
    ∀ {before middle : List α}, block.stored = before ++ middle ++ after →
      block.stored.length ≤ block.size →
      block.slice before.length middle.length = .ok middle
  | before, [], _, _ => by simp [slice]
  | before, value :: middle, stored, fits => by
      have first : block.read before.length = .ok value :=
        read_append block (by rw [stored, List.append_assoc, List.cons_append]) fits
      have shifted : block.stored = (before ++ [value]) ++ middle ++ after := by
        simpa using stored
      have rest := slice_append block shifted fits
      rw [List.length_append, List.length_singleton] at rest
      rw [List.length_cons, slice, first]
      simp only [bind, Except.bind]
      rw [rest]

private theorem advance_cons {block : Block ι α} {keep : α → Bool} {before rest : List α}
    {value : α} {room : ℕ} (stored : block.stored = before ++ value :: rest)
    (fits : block.stored.length ≤ block.size) :
    block.advance keep (room + 1) before.length =
      if keep value then block.advance keep room (before ++ [value]).length
      else .ok before.length := by
  rw [advance, read_append block stored fits, List.length_append, List.length_singleton]
  rfl

theorem advance_bounded (block : Block ι α) (keep : α → Bool) :
    ∀ {before rest : List α} {room : ℕ}, block.stored = before ++ rest →
      block.stored.length ≤ block.size → room ≤ rest.length →
      block.advance keep room before.length =
        .ok (before.length + ((rest.take room).takeWhile keep).length)
  | before, _, 0, _, _, _ => by simp [advance]
  | before, [], room + 1, _, _, short => by simp at short
  | before, value :: rest, room + 1, stored, fits, short => by
      have shifted : block.stored = (before ++ [value]) ++ rest := by simpa using stored
      have shorter : room ≤ rest.length := by simpa using short
      have later := advance_bounded block keep shifted fits shorter
      rw [advance_cons stored fits, later]
      by_cases kept : keep value
      · simp [kept, Nat.add_assoc, Nat.add_comm 1]
      · simp [kept]

theorem advance_between {block : Block ι α} {keep : α → Bool} : ∀ {room p q : ℕ},
    block.advance keep room p = .ok q → p ≤ q ∧ q ≤ p + room
  | 0, p, q, stopped => by
      cases stopped
      exact ⟨le_refl _, le_refl _⟩
  | room + 1, p, q, stopped => by
      rw [advance] at stopped
      rcases Fallible.of_bind_ok stopped with ⟨value, -, continued⟩
      split_ifs at continued
      · rcases advance_between continued with ⟨behind, before⟩
        omega
      · cases continued
        omega

theorem advance_terminated (block : Block ι α) (keep : α → Bool)
    (stops : keep block.fill = false) (terminated : block.stored.length < block.size) :
    ∀ {before rest : List α} {room : ℕ}, block.stored = before ++ rest →
      rest.length < room →
      block.advance keep room before.length =
        .ok (before.length + (rest.takeWhile keep).length)
  | before, _, 0, _, enough => by omega
  | before, [], room + 1, stored, _ => by
      have atEnd : before.length = block.stored.length := by simp [stored]
      rw [advance, atEnd, read_end block terminated]
      simp [bind, Except.bind, stops]
  | before, value :: rest, room + 1, stored, enough => by
      have shifted : block.stored = (before ++ [value]) ++ rest := by simpa using stored
      have shorter : rest.length < room := by simpa using enough
      have later := advance_terminated block keep stops terminated shifted shorter
      rw [advance_cons stored terminated.le, later]
      by_cases kept : keep value
      · simp [kept, Nat.add_assoc, Nat.add_comm 1]
      · simp [kept]

section StartsWith

variable [DecidableEq α]

private theorem startsWith_cons {block : Block ι α} {before rest : List α}
    {value expected : α} {pattern : List α} (stored : block.stored = before ++ value :: rest)
    (fits : block.stored.length ≤ block.size) :
    block.startsWith (expected :: pattern) before.length =
      if value = expected then block.startsWith pattern (before ++ [value]).length
      else .ok false := by
  rw [startsWith, read_append block stored fits, List.length_append, List.length_singleton]
  rfl

/-- A comparison inside a line that ends with a cell not in the pattern never
looks behind that cell. -/
theorem startsWith_line (block : Block ι α) {separator : α} {after : List α}
    (fits : block.stored.length ≤ block.size) :
    ∀ {pattern before line : List α}, separator ∉ pattern →
      block.stored = before ++ (line ++ separator :: after) →
      block.startsWith pattern before.length = .ok (decide (pattern <+: line))
  | [], before, line, _, _ => by simp [startsWith]
  | expected :: pattern, before, [], clean, stored => by
      have differs : separator ≠ expected := by
        rintro rfl
        exact clean (List.mem_cons_self ..)
      rw [startsWith_cons (by simpa using stored) fits, if_neg differs]
      simp
  | expected :: pattern, before, value :: line, clean, stored => by
      have shifted : block.stored = (before ++ [value]) ++ (line ++ separator :: after) := by
        simpa using stored
      have restClean : separator ∉ pattern :=
        fun member => clean (List.mem_cons_of_mem _ member)
      have later := startsWith_line block fits restClean shifted
      rw [startsWith_cons (by simpa using stored) fits, later]
      by_cases same : value = expected
      · simp [same, List.cons_prefix_cons]
      · simp [same, Ne.symm same, List.cons_prefix_cons]

theorem startsWith_last (block : Block ι α) (room : block.stored.length < block.size) :
    ∀ {pattern before line : List α}, block.fill ∉ pattern →
      block.stored = before ++ line →
      block.startsWith pattern before.length = .ok (decide (pattern <+: line))
  | [], before, line, _, _ => by simp [startsWith]
  | expected :: pattern, before, [], clean, stored => by
      have differs : block.fill ≠ expected := by
        intro equal
        exact clean (equal ▸ List.mem_cons_self ..)
      have atEnd : before.length = block.stored.length := by simp [stored]
      rw [startsWith, atEnd, read_end block room]
      simp [bind, Except.bind, differs]
  | expected :: pattern, before, value :: line, clean, stored => by
      have shifted : block.stored = (before ++ [value]) ++ line := by simpa using stored
      have restClean : block.fill ∉ pattern :=
        fun member => clean (List.mem_cons_of_mem _ member)
      have later := startsWith_last block room restClean shifted
      rw [startsWith_cons (by simpa using stored) room.le, later]
      by_cases same : value = expected
      · simp [same, List.cons_prefix_cons]
      · simp [same, Ne.symm same, List.cons_prefix_cons]

/-- In a full buffer the comparison leaves the buffer exactly when the last line
is a proper beginning of the pattern. -/
theorem startsWith_full (block : Block ι α) (full : block.stored.length = block.size) :
    ∀ (pattern : List α) {before line : List α}, block.stored = before ++ line →
      block.startsWith pattern before.length =
        if pattern <+: line then .ok true
        else if line <+: pattern then .error (.outOfBounds block.name block.size)
        else .ok false
  | [], before, line, _ => by simp [startsWith]
  | expected :: pattern, before, [], stored => by
      have atEnd : before.length = block.stored.length := by simp [stored]
      rw [startsWith, atEnd, read_full block full]
      simp [bind, Except.bind]
  | expected :: pattern, before, value :: line, stored => by
      have shifted : block.stored = (before ++ [value]) ++ line := by simpa using stored
      have later := startsWith_full block full pattern shifted
      rw [startsWith_cons (by simpa using stored) full.le, later]
      by_cases same : value = expected
      · simp [same, List.cons_prefix_cons]
      · simp [same, Ne.symm same, List.cons_prefix_cons]

end StartsWith

end Block

end Lctools.Buffer
